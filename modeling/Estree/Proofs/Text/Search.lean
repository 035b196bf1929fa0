/-
Estree/Proofs/Text/Search.lean

Searching texts.

One text occurs in another at a position if what is there from the position on begins with it
(`Text.OccursAt`).  `indexOf` finds the first such position (`Text.FirstAt`) or tells that there is
none; `includes` tells whether there is one, `startsWith` whether it is at zero.  A text that is
empty occurs everywhere, also at the end.

Texts are searched for bytes.  The byte of the first occurrence is the size of what stands in front
of it (`Text.findFrom_of_firstAt`), and as many characters as it consists of are counted up to this
byte (`Text.countBefore_size`).

The position is told as a double.  Whether it is at least zero, or zero, can be read off the double
wherever it is.  The position itself can be read off up to 2^53, and `slice` then cuts there.
-/
import Estree.Proofs.Conversion
import Estree.Proofs.Decimal.Order
import Estree.Proofs.Text.Position

namespace Estree

namespace Text

variable {needle text : List Char} {c : Char} {k : Nat}

/-! ### Occurrences -/

/-- A text occurs in another one at a position. -/
def OccursAt (needle text : List Char) (k : Nat) : Prop :=
  k ≤ text.length ∧ needle <+: text.drop k

/-- The first position at which a text occurs in another one. -/
structure FirstAt (needle text : List Char) (k : Nat) : Prop where
  occurs : OccursAt needle text k
  least : ∀ j < k, ¬ OccursAt needle text j

theorem occursAt_zero : OccursAt needle text 0 ↔ needle <+: text := by
  rw [OccursAt, List.drop_zero]
  exact and_iff_right (Nat.zero_le _)

theorem occursAt_cons_succ : OccursAt needle (c :: text) (k + 1) ↔ OccursAt needle text k := by
  rw [OccursAt, OccursAt, List.length_cons, List.drop_succ_cons, Nat.succ_le_succ_iff]

/-- What occurs at all occurs somewhere first. -/
theorem exists_firstAt (h : OccursAt needle text k) : ∃ j, FirstAt needle text j := by
  classical
  exact ⟨Nat.find ⟨k, h⟩, Nat.find_spec ⟨k, h⟩, fun j hj => Nat.find_min ⟨k, h⟩ hj⟩

/-- Past a character that starts no occurrence, the first one is still the first. -/
theorem FirstAt.tail (h : FirstAt needle (c :: text) (k + 1)) : FirstAt needle text k where
  occurs := occursAt_cons_succ.1 h.occurs
  least j hj hoccurs := h.least (j + 1) (Nat.succ_lt_succ hj) (occursAt_cons_succ.2 hoccurs)

/-- The number of bytes of a text in UTF-8. -/
def size (text : List Char) : Nat :=
  (text.map Char.utf8Size).sum

theorem size_cons (c : Char) (text : List Char) : size (c :: text) = c.utf8Size + size text := by
  rw [size, List.map_cons, List.sum_cons]
  rfl

/-- A text is found at the byte that is the size of what stands in front of it. -/
theorem findFrom_of_firstAt (h : FirstAt needle text k) (start : Nat) :
    findFrom needle start text = some (start + size (text.take k)) := by
  induction text generalizing k start with
  | nil =>
    obtain rfl : k = 0 := Nat.le_zero.1 h.occurs.1
    obtain rfl : needle = [] := List.prefix_nil.1 (occursAt_zero.1 h.occurs)
    rfl
  | cons c text ih =>
    rw [findFrom]
    cases k with
    | zero =>
      rw [if_pos (List.isPrefixOf_iff_prefix.2 (occursAt_zero.1 h.occurs)), List.take_zero]
      rfl
    | succ k =>
      have hnot : ¬ needle.isPrefixOf (c :: text) = true := fun hp =>
        h.least 0 (Nat.succ_pos k) (occursAt_zero.2 (List.isPrefixOf_iff_prefix.1 hp))
      rw [if_neg hnot, ih h.tail, List.take_succ_cons, size_cons, Nat.add_assoc]

/-- A needle that occurs nowhere is not found. -/
theorem findFrom_of_not_occursAt (h : ∀ k, ¬ OccursAt needle text k) (start : Nat) :
    findFrom needle start text = none := by
  induction text generalizing start with
  | nil =>
    cases needle with
    | nil => exact absurd (occursAt_zero.2 (List.prefix_refl [])) (h 0)
    | cons c needle => rfl
  | cons c text ih =>
    have hnot : ¬ needle.isPrefixOf (c :: text) = true := fun hp =>
      h 0 (occursAt_zero.2 (List.isPrefixOf_iff_prefix.1 hp))
    rw [findFrom, if_neg hnot, ih fun k hk => h (k + 1) (occursAt_cons_succ.2 hk)]

/-- Up to the byte behind some characters, these are counted. -/
theorem countBefore_size (hk : k ≤ text.length) : countBefore (size (text.take k)) text = k := by
  induction text generalizing k with
  | nil => exact (Nat.le_zero.1 hk).symm
  | cons c text ih =>
    cases k with
    | zero => rfl
    | succ k =>
      -- every character has a byte at least
      have hpos : c.utf8Size + size (text.take k) ≠ 0 :=
        (Nat.add_pos_left c.utf8Size_pos _).ne'
      rw [List.take_succ_cons, size_cons, countBefore, if_neg hpos, Nat.add_sub_cancel_left,
        ih (Nat.le_of_succ_le_succ hk)]

/-- The first occurrence is the one that is found. -/
theorem indexOf_of_firstAt (h : FirstAt needle text k) : indexOf needle text = some k := by
  rw [indexOf, find, findFrom_of_firstAt h, Option.map_some, Nat.zero_add,
    countBefore_size h.occurs.1]

/-- What is contained occurs somewhere. -/
theorem contains_iff : contains needle text = true ↔ ∃ k, OccursAt needle text k := by
  induction text with
  | nil =>
    rw [contains, List.isEmpty_iff]
    constructor
    · rintro rfl
      exact ⟨0, occursAt_zero.2 (List.prefix_refl [])⟩
    · rintro ⟨k, hk, hprefix⟩
      rw [List.drop_nil] at hprefix
      exact List.prefix_nil.1 hprefix
  | cons c text ih =>
    rw [contains, Bool.or_eq_true, List.isPrefixOf_iff_prefix, ih, ← occursAt_zero]
    constructor
    · rintro (h | ⟨k, hk⟩)
      · exact ⟨0, h⟩
      · exact ⟨k + 1, occursAt_cons_succ.2 hk⟩
    · rintro ⟨k, hk⟩
      cases k with
      | zero => exact .inl hk
      | succ k => exact .inr ⟨k, occursAt_cons_succ.1 hk⟩

/-- The first position is found, and nothing if there is none. -/
theorem indexOf_cases (needle text : List Char) :
    (∃ k, FirstAt needle text k ∧ indexOf needle text = some k) ∨
      (∀ k, ¬ OccursAt needle text k) ∧ indexOf needle text = none := by
  by_cases h : ∃ k, OccursAt needle text k
  · obtain ⟨_, hk⟩ := h
    obtain ⟨k, hk⟩ := exists_firstAt hk
    exact .inl ⟨k, hk, indexOf_of_firstAt hk⟩
  · have hnot (k : Nat) (hk : OccursAt needle text k) : False := h ⟨k, hk⟩
    exact .inr ⟨hnot, congrArg _ (findFrom_of_not_occursAt hnot 0)⟩

end Text

open Text

/-! ### The members that search -/

/-- A call of one of the members of a text that take a text. -/
def search (method : StringMethod) (text needle : String) : Run Store Value :=
  Builtin.callStringMethod method (.str text) [.str needle]

section

variable {text needle : String} {x : Float} {j k : Nat} (s : Store)

theorem convertText_str (text : String) : Convert.text (.str text) s = .done text s := by
  have htext : s.text? (.str text) = some text := Store.text_eq_some_iff.2 ⟨1, rfl⟩
  rw [Convert.text, Run.ofOption, htext]

theorem firstText_str (needle : String) :
    Builtin.firstText [.str needle] s = .done needle.toList s :=
  Run.bind_done (convertText_str s needle)

theorem search_indexOf (text needle : String) :
    search .indexOf text needle s = match indexOf needle.toList text.toList with
      | some k => .done (.nat k) s
      | none => .done (.num (-1)) s := by
  show (Builtin.firstText [.str needle] >>= _) s = _
  rw [Run.bind_done (firstText_str s needle)]
  cases indexOf needle.toList text.toList <;> rfl

theorem search_includes (text needle : String) : search .includes text needle s
    = .done (.bool (contains needle.toList text.toList)) s :=
  Run.bind_done (firstText_str s needle)

theorem search_startsWith (text needle : String) : search .startsWith text needle s
    = .done (.bool (needle.toList.isPrefixOf text.toList)) s :=
  Run.bind_done (firstText_str s needle)

theorem search_endsWith (text needle : String) : search .endsWith text needle s
    = .done (.bool (needle.toList.isSuffixOf text.toList)) s :=
  Run.bind_done (firstText_str s needle)

/-- What is there from a position on begins with a text if this occurs at the position. -/
theorem startsWith_from (hx : wholeNumber? x = some k) (hk : k ≤ text.toList.length)
    (needle : String) :
    ∃ rest found, sliceOfText text [.num x] s = .done (.str rest) s ∧
      search .startsWith rest needle s = .done (.bool found) s ∧
      (found = true ↔ OccursAt needle.toList text.toList k) := by
  refine ⟨_, _, sliceOfText_from hx s, search_startsWith s _ needle, ?_⟩
  rw [List.isPrefixOf_iff_prefix, String.toList_ofList]
  exact (and_iff_right hk).symm

theorem endsWith_iff (text needle : String) :
    needle.toList.isSuffixOf text.toList = true ↔ ∃ before, text = before ++ needle := by
  rw [List.isSuffixOf_iff_suffix]
  constructor
  · rintro ⟨before, h⟩
    exact ⟨String.ofList before, String.toList_inj.1 (by simp [h])⟩
  · rintro ⟨before, rfl⟩
    exact ⟨before.toList, (String.toList_append ..).symm⟩

/-- A text begins with another one if this occurs first at zero. -/
theorem startsWith_iff (h : FirstAt needle.toList text.toList k) :
    needle.toList.isPrefixOf text.toList = true ↔ k = 0 := by
  rw [List.isPrefixOf_iff_prefix, ← occursAt_zero]
  constructor
  · intro hzero
    by_contra hk
    exact h.least 0 (Nat.pos_of_ne_zero hk) hzero
  · rintro rfl
    exact h.occurs

/-- The first position of a text is the first one from which on the text is begun with. -/
theorem startsWith_at_first (h : FirstAt needle.toList text.toList k)
    (hx : wholeNumber? x = some j) (hj : j ≤ k) :
    ∃ rest, sliceOfText text [.num x] s = .done (.str rest) s ∧
      search .startsWith rest needle s = .done (.bool (j == k)) s := by
  obtain ⟨rest, found, hslice, hsearch, hfound⟩ :=
    startsWith_from s hx (hj.trans h.occurs.1) needle
  refine ⟨rest, hslice, ?_⟩
  rw [hsearch]
  congr 2
  rw [Bool.eq_iff_iff, hfound, beq_iff_eq]
  constructor
  · intro hoccurs
    by_contra hne
    exact h.least j (Nat.lt_of_le_of_ne hj hne) hoccurs
  · rintro rfl
    exact h.occurs

end

/-! ### The searches together -/

/-- **Searches agree.**  For all texts:

`includes` tells whether `indexOf` gives at least zero, `startsWith` whether it gives zero, and
`endsWith` whether the text is another one followed by the text searched for.  What `indexOf` gives
from zero on is the first position of an occurrence, as a double.  If the double is the position,
which it is up to 2^53, `slice` gives a text from there on that begins with the text searched for,
and from no position before. -/
theorem searches_agree (text needle : String) (s : Store) :
    ∃ x includes starts ends, search .indexOf text needle s = .done (.num x) s ∧
      search .includes text needle s = .done (.bool includes) s ∧
      search .startsWith text needle s = .done (.bool starts) s ∧
      search .endsWith text needle s = .done (.bool ends) s ∧
      (includes = true ↔ 0 ≤ x) ∧
      (starts = true ↔ (x == 0) = true) ∧
      (ends = true ↔ ∃ before, text = before ++ needle) ∧
      (0 ≤ x → ∃ k, x = Float.ofNat k ∧ FirstAt needle.toList text.toList k ∧
        (k < 2 ^ 53 → wholeNumber? x = some k) ∧
        (wholeNumber? x = some k → ∀ y j, wholeNumber? y = some j → j ≤ k →
          ∃ rest, sliceOfText text [.num y] s = .done (.str rest) s ∧
            search .startsWith rest needle s = .done (.bool (j == k)) s)) := by
  have hindex := search_indexOf s text needle
  have hends := endsWith_iff text needle
  rcases indexOf_cases needle.toList text.toList with ⟨k, hk, hfound⟩ | ⟨hnot, hfound⟩
  -- something is found, at its first occurrence `k`
  · rw [hfound] at hindex
    refine ⟨_, _, _, _, hindex, search_includes s text needle, search_startsWith s text needle,
      search_endsWith s text needle, ?_, ?_, hends, fun _ => ⟨k, rfl, hk, wholeNumber?_ofNat,
        fun _ y j hy hj => startsWith_at_first s hk hy hj⟩⟩
    · exact iff_of_true (contains_iff.2 ⟨k, hk.occurs⟩) (Double.zero_le_ofNat k)
    · rw [startsWith_iff hk, Double.ofNat_beq_zero]
  · -- nothing is found, which is told as -1
    have hless : ¬ (0 : Float) ≤ -1 := by decide
    have hne : ¬ ((-1 : Float) == 0) = true := by decide
    have hstarts : ¬ needle.toList.isPrefixOf text.toList = true := fun h =>
      hnot 0 (occursAt_zero.2 (List.isPrefixOf_iff_prefix.1 h))
    have hcontains : ¬ contains needle.toList text.toList = true := fun h =>
      (contains_iff.1 h).elim hnot
    rw [hfound] at hindex
    exact ⟨_, _, _, _, hindex, search_includes s text needle, search_startsWith s text needle,
      search_endsWith s text needle, iff_of_false hcontains hless,
      iff_of_false hstarts hne, hends, fun h => absurd h hless⟩

theorem drop_behind_letters {n j : Nat} (hj : j ≤ n) :
    (letters n ++ "b").toList.drop j = List.replicate (n - j) 'a' ++ ['b'] := by
  have htext : (letters n ++ "b").toList = List.replicate n 'a' ++ ['b'] := by
    rw [String.toList_append, letters, String.toList_ofList]
    rfl
  rw [htext, List.drop_append_of_le_length (by rwa [List.length_replicate]), List.drop_replicate]

theorem firstAt_behind_letters (n : Nat) : FirstAt "b".toList (letters n ++ "b").toList n where
  occurs := by
    refine ⟨?_, ?_⟩
    · rw [String.toList_append, letters, String.toList_ofList, List.length_append,
        List.length_replicate]
      exact Nat.le_add_right ..
    · rw [drop_behind_letters (Nat.le_refl n), Nat.sub_self]
      exact List.prefix_refl _
  least j hj hoccurs := by
    obtain ⟨m, hm⟩ := Nat.exists_eq_succ_of_ne_zero (Nat.sub_pos_of_lt hj).ne'
    have hletter := hoccurs.2
    rw [drop_behind_letters hj.le, hm, List.replicate_succ, List.cons_append] at hletter
    exact absurd (List.cons_prefix_cons.1 hletter).1 (by decide)

/-- The double need not be the position from 2^53 on: it is one less here, and `slice` cuts one
letter before the text that was found. -/
theorem position_is_told_less_exactly :
    search .indexOf (letters (2 ^ 53 + 1) ++ "b") "b" {} = .done (.nat (2 ^ 53 + 1)) {} ∧
    sliceOfText (letters (2 ^ 53 + 1) ++ "b") [.nat (2 ^ 53 + 1)] {} = .done (.str "ab") {} ∧
    search .startsWith "ab" "b" {} = .done (.bool false) {} := by
  have hwhole : wholeNumber? (Float.ofNat (2 ^ 53 + 1)) = some (2 ^ 53) := by decide
  refine ⟨?_, ?_, search_startsWith {} "ab" "b"⟩
  · rw [search_indexOf, indexOf_of_firstAt (firstAt_behind_letters _)]
  · rw [Value.nat, sliceOfText_from hwhole, drop_behind_letters (Nat.le_succ _),
      Nat.succ_sub (Nat.le_refl _), Nat.sub_self]
    rfl

end Estree
