/-
Estree/Proofs/Text/Split.lean

Splitting texts and joining the pieces.

A text is cut at the first occurrence of the separator, and what is behind this is cut again
(`Text.Cuts`).  This is what the program does, one character after the other (`cuts_split`), and all
else goes by induction on the cuts: the pieces with the separator between them are the text, no
piece has the separator in it, and there is one piece more than cuts.

The cuts are the occurrences that are found from left to right without overlap (`Text.Scan`): they
are apart, and every occurrence begins inside of one of them, or is it.  There is only one such list
(`Scan.unique`).  An empty separator cuts between any two characters instead.
-/
import Estree.Proofs.Extension
import Estree.Proofs.Text.Search

namespace Estree

namespace Text

variable {separator text piece : List Char} {c : Char} {k n start : Nat}
variable {pieces : List (List Char)} {positions others : List Nat}

/-! ### Cuts -/

/-- A text is cut into pieces, at positions where the separator begins. -/
inductive Cuts (separator : List Char) : List Char → List (List Char) → List Nat → Prop where
  | last {text : List Char} : (∀ k, ¬ OccursAt separator text k) → Cuts separator text [text] []
  | cut {text : List Char} {k : Nat} {pieces : List (List Char)} {positions : List Nat} :
      FirstAt separator text k →
      Cuts separator (text.drop (k + separator.length)) pieces positions →
      Cuts separator text (text.take k :: pieces)
        (k :: positions.map fun p => k + separator.length + p)

/-- What is still to be passed over does not matter to the pieces. -/
theorem splitFrom_skip (n : Nat) (piece cs : List Char) :
    splitFrom separator n piece cs = splitFrom separator 0 piece (cs.drop n) := by
  induction cs generalizing n with
  | nil => rw [List.drop_nil, splitFrom, splitFrom]
  | cons c cs ih =>
    cases n with
    | zero => rfl
    | succ n => rw [splitFrom, ih, List.drop_succ_cons]

theorem splitFrom_of_not_occursAt (h : ∀ k, ¬ OccursAt separator text k) (piece : List Char) :
    splitFrom separator 0 piece text = [piece.reverse ++ text] := by
  induction text generalizing piece with
  | nil => rw [splitFrom, List.append_nil]
  | cons c text ih =>
    have hnot : ¬ separator.isPrefixOf (c :: text) = true := fun hp =>
      h 0 (occursAt_zero.2 (List.isPrefixOf_iff_prefix.1 hp))
    rw [splitFrom, if_neg hnot, ih fun k hk => h (k + 1) (occursAt_cons_succ.2 hk),
      List.reverse_cons, List.append_assoc, List.singleton_append]

theorem splitFrom_of_firstAt (hne : separator ≠ []) (h : FirstAt separator text k)
    (piece : List Char) : splitFrom separator 0 piece text
      = (piece.reverse ++ text.take k)
        :: splitFrom separator 0 [] (text.drop (k + separator.length)) := by
  induction text generalizing k piece with
  | nil =>
    obtain rfl : k = 0 := Nat.le_zero.1 h.occurs.1
    exact absurd (List.prefix_nil.1 (occursAt_zero.1 h.occurs)) hne
  | cons c text ih =>
    rw [splitFrom]
    cases k with
    | zero =>
      obtain ⟨n, hn⟩ := Nat.exists_eq_succ_of_ne_zero (List.length_pos_of_ne_nil hne).ne'
      rw [if_pos (List.isPrefixOf_iff_prefix.2 (occursAt_zero.1 h.occurs)), splitFrom_skip, hn,
        Nat.zero_add, List.drop_succ_cons, List.take_zero, List.append_nil, Nat.succ_sub_one]
    | succ k =>
      have hnot : ¬ separator.isPrefixOf (c :: text) = true := fun hp =>
        h.least 0 (Nat.succ_pos k) (occursAt_zero.2 (List.isPrefixOf_iff_prefix.1 hp))
      rw [if_neg hnot, ih h.tail, List.reverse_cons, List.append_assoc, List.singleton_append,
        List.take_succ_cons, Nat.add_right_comm, List.drop_succ_cons]

/-- The program cuts at the first occurrence and goes on behind it. -/
theorem cuts_split (hne : separator ≠ []) (text : List Char) :
    ∃ positions, Cuts separator text (split separator text) positions := by
  have hempty : ¬ separator.isEmpty = true := by rwa [List.isEmpty_iff]
  rw [split, if_neg hempty]
  -- by induction on the length: what is behind an occurrence is shorter
  induction hn : text.length using Nat.strong_induction_on generalizing text with
  | _ n ih =>
    subst hn
    rcases indexOf_cases separator text with ⟨k, hk, -⟩ | ⟨hnot, -⟩
    · have hshorter : (text.drop (k + separator.length)).length < text.length := by
        have hpos := List.length_pos_of_ne_nil hne
        have hle := hk.occurs.2.length_le
        rw [List.length_drop] at hle ⊢
        omega
      obtain ⟨positions, hcuts⟩ := ih _ hshorter _ rfl
      rw [splitFrom_of_firstAt hne hk]
      exact ⟨_, .cut hk hcuts⟩
    · rw [splitFrom_of_not_occursAt hnot]
      exact ⟨[], .last hnot⟩

/-! ### Pieces -/

/-- A text consists of what is before an occurrence, the separator, and what is behind it. -/
theorem OccursAt.split (h : OccursAt separator text k) :
    text.take k ++ separator ++ text.drop (k + separator.length) = text := by
  obtain ⟨rest, hrest⟩ := h.2
  rw [← List.drop_drop, ← hrest, List.drop_left, List.append_assoc, hrest, List.take_append_drop]

theorem infix_iff_occursAt : separator <:+: text ↔ ∃ k, OccursAt separator text k := by
  constructor
  · rintro ⟨before, after, rfl⟩
    refine ⟨before.length, ?_, ?_⟩
    · rw [List.append_assoc, List.length_append]
      exact Nat.le_add_right ..
    · rw [List.append_assoc, List.drop_left]
      exact List.prefix_append ..
  · rintro ⟨k, h⟩
    exact ⟨_, _, h.split⟩

/-- There is no occurrence within what is before the first one. -/
theorem FirstAt.not_infix_take (hne : separator ≠ []) (h : FirstAt separator text k) :
    ¬ separator <:+: text.take k := by
  rw [infix_iff_occursAt]
  rintro ⟨j, hj, hprefix⟩
  rw [List.drop_take] at hprefix
  have hlength := hprefix.length_le
  have hpos := List.length_pos_of_ne_nil hne
  rw [List.length_take] at hj hlength
  exact h.least j (by omega) ⟨by omega, hprefix.trans (List.take_prefix ..)⟩

namespace Cuts

theorem ne_nil (h : Cuts separator text pieces positions) : pieces ≠ [] := by
  cases h
  all_goals exact List.cons_ne_nil _ _

theorem length_eq (h : Cuts separator text pieces positions) :
    pieces.length = positions.length + 1 := by
  induction h with
  | last => rfl
  | cut _ _ ih => rw [List.length_cons, List.length_cons, List.length_map, ih]

/-- The pieces with the separator between them are the text. -/
theorem intercalate_eq (h : Cuts separator text pieces positions) :
    separator.intercalate pieces = text := by
  induction h with
  | last => exact List.intercalate_singleton
  | cut hk hcuts ih =>
    rw [List.intercalate_cons_of_ne_nil hcuts.ne_nil, ih, hk.occurs.split]

theorem not_infix (hne : separator ≠ []) (h : Cuts separator text pieces positions) :
    ∀ piece ∈ pieces, ¬ separator <:+: piece := by
  induction h with
  | last hnot =>
    rw [List.forall_mem_singleton, infix_iff_occursAt]
    exact fun ⟨k, hk⟩ => hnot k hk
  | cut hk _ ih => exact List.forall_mem_cons.2 ⟨hk.not_infix_take hne, ih⟩

end Cuts

/-! ### Occurrences without overlap -/

/-- The occurrences from a position on that are found from left to right without overlap: they are
apart, and any other occurrence begins inside of one of them. -/
structure Scan (separator text : List Char) (start : Nat) (positions : List Nat) : Prop where
  occurs : ∀ p ∈ positions, start ≤ p ∧ OccursAt separator text p
  apart : positions.Pairwise fun p q => p + separator.length ≤ q
  all : ∀ q, start ≤ q → OccursAt separator text q →
    ∃ p ∈ positions, p ≤ q ∧ q < p + separator.length

namespace Scan

/-- The first of the occurrences comes before any other one, and from behind it on the others are
those that are found. -/
theorem of_cons (h : Scan separator text start (k :: positions)) :
    (∀ q, start ≤ q → OccursAt separator text q → k ≤ q) ∧
      Scan separator text (k + separator.length) positions := by
  obtain ⟨happart, hrest⟩ := List.pairwise_cons.1 h.apart
  refine ⟨fun q hq hoccurs => ?_, ?_, hrest, fun q hq hoccurs => ?_⟩
  · obtain ⟨p, hp, hle, -⟩ := h.all q hq hoccurs
    rcases List.mem_cons.1 hp with rfl | hp
    · exact hle
    · exact (Nat.le_add_right ..).trans ((happart p hp).trans hle)
  · exact fun p hp => ⟨happart p hp, (h.occurs p (List.mem_cons_of_mem _ hp)).2⟩
  · have hk := (h.occurs k (List.mem_cons_self ..)).1
    obtain ⟨p, hp, hle, hlt⟩ := h.all q (by omega) hoccurs
    rcases List.mem_cons.1 hp with rfl | hp
    · omega
    · exact ⟨p, hp, hle, hlt⟩

/-- Only one list is found from left to right. -/
theorem unique (h : Scan separator text start positions) (h' : Scan separator text start others) :
    others = positions := by
  induction positions generalizing start others with
  | nil =>
    cases others with
    | nil => rfl
    | cons k others =>
      obtain ⟨hk, hoccurs⟩ := h'.occurs k (List.mem_cons_self ..)
      obtain ⟨p, hp, -⟩ := h.all k hk hoccurs
      cases hp
  | cons k positions ih =>
    obtain ⟨hfirst, hrest⟩ := h.of_cons
    obtain ⟨hk, hoccurs⟩ := h.occurs k (List.mem_cons_self ..)
    cases others with
    | nil =>
      obtain ⟨p, hp, -⟩ := h'.all k hk hoccurs
      cases hp
    | cons j others =>
      obtain ⟨hfirst', hrest'⟩ := h'.of_cons
      obtain ⟨hj, hoccurs'⟩ := h'.occurs j (List.mem_cons_self ..)
      -- each of the two first positions is an occurrence, so that neither is before the other
      obtain rfl : j = k := Nat.le_antisymm (hfirst' k hk hoccurs) (hfirst j hj hoccurs')
      rw [ih hrest hrest']

end Scan

theorem occursAt_drop (hn : n ≤ text.length) :
    OccursAt separator (text.drop n) k ↔ OccursAt separator text (n + k) := by
  rw [OccursAt, OccursAt, List.length_drop, List.drop_drop]
  exact and_congr_left fun _ => by omega

/-- The cuts are the occurrences without overlap. -/
theorem Cuts.scan (hne : separator ≠ []) (h : Cuts separator text pieces positions) :
    Scan separator text 0 positions := by
  have hpos := List.length_pos_of_ne_nil hne
  induction h with
  | last hnot =>
    exact ⟨List.forall_mem_nil _, List.Pairwise.nil, fun q _ hq => absurd hq (hnot q)⟩
  | @cut text k pieces positions hk _ ih =>
    have hle : k + separator.length ≤ text.length := by
      have hlength := hk.occurs.2.length_le
      have hk' := hk.occurs.1
      rw [List.length_drop] at hlength
      omega
    -- positions behind the cut are counted from its end
    refine ⟨?_, ?_, fun q _ hq => ?_⟩
    · refine List.forall_mem_cons.2 ⟨⟨Nat.zero_le k, hk.occurs⟩, List.forall_mem_map.2 ?_⟩
      exact fun p hp => ⟨Nat.zero_le _, (occursAt_drop hle).1 (ih.occurs p hp).2⟩
    · refine List.pairwise_cons.2 ⟨List.forall_mem_map.2 fun p _ => Nat.le_add_right .., ?_⟩
      refine List.pairwise_map.2 (ih.apart.imp fun hpq => ?_)
      omega
    · -- an occurrence begins inside of the first cut or in what is behind it
      obtain hlt | hge := Nat.lt_or_ge q (k + separator.length)
      · have hkq : k ≤ q := by
          by_contra hqk
          exact hk.least q (Nat.lt_of_not_le hqk) hq
        exact ⟨k, List.mem_cons_self .., hkq, hlt⟩
      · obtain ⟨r, rfl⟩ := Nat.exists_eq_add_of_le hge
        obtain ⟨p, hp, hpr, hrp⟩ := ih.all r (Nat.zero_le r) ((occursAt_drop hle).2 hq)
        exact ⟨_, List.mem_cons_of_mem _ (List.mem_map_of_mem hp), by omega, by omega⟩

/-! ### Texts put together -/

theorem join_eq_intercalate (separator : String) (texts : List String) :
    join separator texts = separator.intercalate texts := by
  cases texts with
  | nil => rfl
  | cons first rest =>
    rw [join, String.intercalate]
    induction rest generalizing first with
    | nil => rfl
    | cons second rest ih => exact ih _

theorem intercalate_singletons (cs : List Char) :
    List.intercalate [] (cs.map fun c => [c]) = cs := by
  induction cs with
  | nil => rfl
  | cons c cs ih =>
    by_cases hcs : cs = []
    · rw [hcs]
      rfl
    · rw [List.map_cons, List.intercalate_cons_of_ne_nil (mt List.map_eq_nil_iff.1 hcs), ih]
      rfl

/-- The pieces of a text with the separator between them are the text. -/
theorem join_split (separator text : String) :
    join separator ((split separator.toList text.toList).map String.ofList) = text := by
  have hlist : separator.toList.intercalate (split separator.toList text.toList) = text.toList := by
    by_cases hne : separator.toList = []
    · rw [hne]
      exact intercalate_singletons text.toList
    · obtain ⟨positions, hcuts⟩ := cuts_split hne text.toList
      exact hcuts.intercalate_eq
  have htexts : (String.toList ∘ String.ofList) = id := funext fun _ => String.toList_ofList
  rw [join_eq_intercalate, ← String.toList_inj, String.toList_intercalate, List.map_map, htexts,
    List.map_id, hlist]

end Text

open Text

/-! ### The members that split and join -/

/-- A call of the member `join` of an array, with a separator. -/
def joinArray (id : ArrayId) (separator : String) : Run Store Value :=
  Builtin.callArrayMethod .join (.array id) [.str separator]

section

variable (s : Store)

theorem search_split (text separator : String) : search .split text separator s
    = .done (.array s.arrays.size) (s.withArray
        (((split separator.toList text.toList).map String.ofList).map Value.str).toArray) := by
  have hconvert := convertText_str s separator
  show (Convert.text (.str separator) >>= _) s = _
  rw [Run.bind_done hconvert, List.map_map]
  rfl

theorem joinItems_texts (texts : List String) (separator : String) :
    Builtin.joinItems (texts.map Value.str) separator s = .done (join separator texts) s := by
  have hitem : ∀ item ∈ texts.map Value.str, (if item.isNullish then (pure "" : Run Store String)
      else Convert.text item) s = .done (item.text?.getD "") s :=
    List.forall_mem_map.2 fun text _ => convertText_str s text
  have hparts := Run.mapM_done hitem
  have htexts : (fun item : Value => item.text?.getD "") ∘ Value.str = id := rfl
  rw [List.map_map, htexts, List.map_id] at hparts
  rw [Builtin.joinItems, Run.bind_done hparts]
  rfl

theorem joinArray_texts {id : ArrayId} {texts : List String}
    (h : s.items id = (texts.map Value.str).toArray) (separator : String) :
    joinArray id separator s = .done (.str (join separator texts)) s := by
  show (Convert.text (.str separator) >>= _) s = _
  rw [Run.bind_done (convertText_str s separator)]
  show (Builtin.joinItems (s.items id).toList separator >>= _) s = _
  rw [h, Run.bind_done (joinItems_texts s texts separator)]
  rfl

end

/-- **`join` undoes `split`.**  For all texts and separators:

`split` gives a new array of pieces, and `join` of this array with the same separator gives the
text.  Pieces that are cut at a separator do not have it in them, and they are one more than the
occurrences that are found from left to right without overlap.  With nothing as the separator they
are the characters. -/
theorem join_undoes_split (text separator : String) (s : Store) :
    ∃ (pieces : List String) (s' : Store), s' = s.withArray (pieces.map Value.str).toArray ∧
      search .split text separator s = .done (.array s.arrays.size) s' ∧
      joinArray s.arrays.size separator s' = .done (.str text) s' ∧
      (separator ≠ "" → (∀ piece ∈ pieces, ¬ separator.toList <:+: piece.toList) ∧
        ∃ positions, Scan separator.toList text.toList 0 positions ∧
          (∀ others, Scan separator.toList text.toList 0 others → others = positions) ∧
          pieces.length = positions.length + 1) ∧
      (separator = "" → pieces = text.toList.map fun c => String.ofList [c]) := by
  refine ⟨_, _, rfl, search_split s text separator, ?_, fun hne => ?_, ?_⟩
  · rw [joinArray_texts _ (s.items_withArray _), join_split]
  · have hnil : separator.toList ≠ [] := fun h => hne (String.toList_inj.1 h)
    obtain ⟨positions, hcuts⟩ := cuts_split hnil text.toList
    have hscan := hcuts.scan hnil
    refine ⟨List.forall_mem_map.2 fun piece hp => ?_, positions, hscan, fun _ => hscan.unique, ?_⟩
    · rw [String.toList_ofList]
      exact hcuts.not_infix hnil piece hp
    · rw [List.length_map, hcuts.length_eq]
  · rintro rfl
    exact List.map_map

end Estree
