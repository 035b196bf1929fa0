/-
Estree/Proofs/Text/Position.lean

Positions in texts.

Lengths and indices count units, the members `charAt` and `slice` count characters.  The two agree
up to the first character that is a pair of units (`itemOfText_of_basic`).  In general a character
begins behind the units of the characters in front of it (`Text.unitOffset`, `Text.drop_units`).  It
is the item there if it is one unit (`itemOfText_at_basic`), and else it is no item at all: each of
its units reads as the replacement character (`itemOfText_at_pair`).

A number is a position if it is a natural number (`wholeNumber?`), however large.  That an index
is found by such a number rests on its text being its digits (`numberText_of_whole`).
-/
import Estree.Builtin.Call
import Estree.Proofs.Decimal.Whole
import Estree.Proofs.Property.Key
import Estree.Proofs.Text.Units

namespace Estree

namespace Text

variable {t : String} {c : Char} {k : Nat}

/-! ### Where characters begin -/

/-- Whether a character is one unit. -/
def IsBasic (c : Char) : Prop :=
  c.toNat < 0x10000

instance (c : Char) : Decidable (IsBasic c) :=
  inferInstanceAs (Decidable (c.toNat < 0x10000))

/-- The number of units in front of a character. -/
def unitOffset (t : String) (k : Nat) : Nat :=
  ((t.toList.take k).flatMap unitsOfChar).length

theorem length_unitsOfChar (c : Char) : (unitsOfChar c).length = unitCount c := by
  obtain h | h := Nat.lt_or_ge c.toNat 0x10000
  · rw [unitsOfChar_of_lt h, unitCount, if_pos h]
    rfl
  · rw [unitsOfChar_of_le h, unitCount, if_neg (Nat.not_lt.2 h)]
    rfl

theorem length_units (t : String) : (units t).length = unitLength t := by
  have hfold (cs : List Char) (n : Nat) :
      cs.foldl (fun n c => n + unitCount c) n = n + (cs.flatMap unitsOfChar).length := by
    induction cs generalizing n with
    | nil => rfl
    | cons c cs ih =>
      rw [List.foldl_cons, ih, List.flatMap_cons, List.length_append, length_unitsOfChar,
        Nat.add_assoc]
  rw [unitLength, String.foldl_eq_foldl_toList, hfold, Nat.zero_add, units]

/-- Characters of one unit each are as many as their units. -/
theorem length_flatMap_of_basic {cs : List Char} (h : ∀ c ∈ cs, IsBasic c) :
    (cs.flatMap unitsOfChar).length = cs.length := by
  induction cs with
  | nil => rfl
  | cons c cs ih =>
    obtain ⟨hc, hcs⟩ := List.forall_mem_cons.1 h
    rw [List.flatMap_cons, List.length_append, ih hcs, unitsOfChar_of_lt hc, List.length_cons,
      Nat.add_comm]
    rfl

theorem unitOffset_of_basic (h : ∀ c ∈ t.toList.take k, IsBasic c) (hk : k ≤ t.toList.length) :
    unitOffset t k = k := by
  rw [unitOffset, length_flatMap_of_basic h, List.length_take, Nat.min_eq_left hk]

/-- No text has more characters than units. -/
theorem length_le_unitLength (t : String) : t.toList.length ≤ unitLength t := by
  rw [← length_units, units]
  induction t.toList with
  | nil => exact Nat.le_refl _
  | cons c cs ih =>
    have hc : 0 < (unitsOfChar c).length := List.length_pos_of_ne_nil (unitsOfChar_ne_nil c)
    rw [List.flatMap_cons, List.length_append, List.length_cons]
    omega

/-- The units of a text from a character on. -/
theorem drop_units (hc : t.toList[k]? = some c) :
    ∃ rest, (units t).drop (unitOffset t k) = unitsOfChar c ++ rest := by
  have hsplit : t.toList = t.toList.take k ++ c :: t.toList.drop (k + 1) := by
    obtain ⟨hk, rfl⟩ := List.getElem?_eq_some_iff.1 hc
    rw [← List.drop_eq_getElem_cons hk, List.take_append_drop]
  have hunits : units t = (t.toList.take k).flatMap unitsOfChar
      ++ (unitsOfChar c ++ (t.toList.drop (k + 1)).flatMap unitsOfChar) := by
    rw [units, ← List.flatMap_cons, ← List.flatMap_append, ← hsplit]
  exact ⟨_, by rw [hunits, unitOffset, List.drop_left]⟩

theorem unitAt?_of_basic (hc : t.toList[k]? = some c) (hb : IsBasic c) :
    unitAt? t (unitOffset t k) = some c.toNat := by
  obtain ⟨rest, h⟩ := drop_units hc
  rw [unitsOfChar_of_lt hb] at h
  rw [unitAt?, ← Nat.add_zero (unitOffset t k), ← List.getElem?_drop, h]
  rfl

theorem unitAt?_of_pair (hc : t.toList[k]? = some c) (hb : ¬ IsBasic c) :
    unitAt? t (unitOffset t k) = some (0xD800 + (c.toNat - 0x10000) / 0x400) ∧
      unitAt? t (unitOffset t k + 1) = some (0xDC00 + (c.toNat - 0x10000) % 0x400) := by
  obtain ⟨rest, h⟩ := drop_units hc
  rw [unitsOfChar_of_le (Nat.not_lt.1 hb)] at h
  constructor
  · rw [unitAt?, ← Nat.add_zero (unitOffset t k), ← List.getElem?_drop, h]
    rfl
  · rw [unitAt?, ← List.getElem?_drop, h]
    rfl

/-! ### Units as characters -/

theorem charOfUnit_of_basic (c : Char) : charOfUnit c.toNat = c := by
  have hc := toNat_cases c
  rw [charOfUnit, if_neg (by omega), Char.ofNat_toNat]

theorem charOfUnit_of_pair (c : Char) :
    charOfUnit (0xD800 + (c.toNat - 0x10000) / 0x400) = '\uFFFD' ∧
      charOfUnit (0xDC00 + (c.toNat - 0x10000) % 0x400) = '\uFFFD' := by
  have hc := toNat_cases c
  constructor
  all_goals
    rw [charOfUnit, if_pos (by omega)]

end Text

/-! ### Ways to a position -/

/-- The item of a text at a number: `text[x]`. -/
def itemOfText (text : String) (x : Float) : Run Store Value := do
  let key ← Convert.key (.num x)
  Property.get (.str text) key

/-- A call of the member `charAt`. -/
def charAt (text : String) (x : Float) : Run Store Value :=
  Builtin.callStringMethod .charAt (.str text) [.num x]

/-- A call of the member `slice`. -/
def sliceOfText (text : String) (args : List Value) : Run Store Value :=
  Builtin.callStringMethod .slice (.str text) args

section

variable {t : String} {c : Char} {x y : Float} {i k : Nat}

theorem itemOfText_eq_get (hx : wholeNumber? x = some i) (hi : i < 2 ^ 53) (s : Store) :
    itemOfText t x s = Property.get (.str t) (indexKey i) s := by
  have hkey : Convert.key (.num x) s = .done (indexKey i) s := by
    rw [← numberText_of_whole hx hi]
    rfl
  rw [itemOfText, Run.bind_done hkey]

/-- What is found at an index is the unit there, as a character. -/
theorem itemOfText_apply (hx : wholeNumber? x = some i) (hi : i < 2 ^ 32 - 1) (s : Store) :
    itemOfText t x s = .done ((Text.unitAt? t i).elim .undefined
      fun unit => .str (String.ofList [Text.charOfUnit unit])) s := by
  rw [itemOfText_eq_get hx (by omega)]
  simp only [Property.get, arrayIndex?_indexKey hi]
  cases Text.unitAt? t i <;> rfl

/-- `charAt` gives the character at a position, or no character if there is none. -/
theorem charAt_apply (hx : wholeNumber? x = some i) (s : Store) :
    charAt t x s = .done (.str (String.ofList t.toList[i]?.toList)) s := by
  have hitem : Builtin.itemAt? t.toList x = t.toList[i]? := by
    rw [Builtin.itemAt?, truncate?_of_whole hx]
    exact if_neg (not_lt_zero_of_whole hx)
  rw [← hitem]
  rfl

theorem position_of_whole (hx : wholeNumber? x = some i) (length : Nat) :
    position length x = min i length := by
  rw [position, truncate?_of_whole hx]
  exact if_neg (Int.not_lt.2 (Int.natCast_nonneg i))

/-- To cut positions to the length of a list changes nothing about what is between them. -/
theorem cut_between {α : Type} (l : List α) (i j : Nat) :
    (l.drop (min i l.length)).take (max (min i l.length) (min j l.length) - min i l.length)
      = (l.drop i).take (j - i) := by
  obtain hi | hi := Nat.le_total l.length i
  · rw [Nat.min_eq_right hi, List.drop_length, List.drop_of_length_le hi, List.take_nil,
      List.take_nil]
  · rw [Nat.min_eq_left hi]
    obtain hj | hj := Nat.le_total l.length j
    · rw [Nat.min_eq_right hj, Nat.max_eq_right hi,
        List.take_of_length_le (Nat.le_of_eq List.length_drop),
        List.take_of_length_le (by rw [List.length_drop]; omega)]
    · rw [Nat.min_eq_left hj]
      congr 1
      omega

/-- `slice` gives the characters between two positions. -/
theorem sliceOfText_apply {j : Nat} (hx : wholeNumber? x = some i) (hy : wholeNumber? y = some j)
    (s : Store) :
    sliceOfText t [.num x, .num y] s
      = .done (.str (String.ofList ((t.toList.drop i).take (j - i)))) s := by
  rw [← cut_between, ← position_of_whole hx, ← position_of_whole hy]
  rfl

/-- With one position, `slice` gives the characters from there on. -/
theorem sliceOfText_from (hx : wholeNumber? x = some i) (s : Store) :
    sliceOfText t [.num x] s = .done (.str (String.ofList (t.toList.drop i))) s := by
  have hcut := cut_between t.toList i t.toList.length
  rw [Nat.min_self, List.take_of_length_le (Nat.le_of_eq List.length_drop)] at hcut
  rw [← hcut, ← position_of_whole hx]
  rfl

/-- One character between a position and the next one. -/
theorem sliceOfText_next (hx : wholeNumber? x = some i) (hy : wholeNumber? y = some (i + 1))
    (s : Store) : sliceOfText t [.num x, .num y] s = charAt t x s := by
  rw [sliceOfText_apply hx hy, charAt_apply hx, Nat.add_sub_cancel_left, List.take_one,
    List.head?_drop]

/-- `slice` up to a position behind all characters. -/
theorem sliceOfText_all (hx : wholeNumber? x = some 0) (hy : wholeNumber? y = some i)
    (hi : t.toList.length ≤ i) (s : Store) :
    sliceOfText t [.num x, .num y] s = .done (.str t) s := by
  rw [sliceOfText_apply hx hy, List.drop_zero, Nat.sub_zero, List.take_of_length_le hi,
    String.ofList_toList]

/-! ### Characters and units -/

/-- As long as all characters are one unit each, the character at a position is the item at it. -/
theorem itemOfText_of_basic (hx : wholeNumber? x = some i) (hi : i < 2 ^ 32 - 1)
    (hb : ∀ c ∈ t.toList.take (i + 1), Text.IsBasic c) (hlt : i < Text.unitLength t) (s : Store) :
    itemOfText t x s = charAt t x s := by
  have hlen : i < t.toList.length := by
    by_contra hlen
    rw [List.take_of_length_le (by omega)] at hb
    have := Text.length_flatMap_of_basic hb
    rw [← Text.length_units, Text.units] at hlt
    omega
  have hc : t.toList[i]? = some t.toList[i] := List.getElem?_eq_getElem hlen
  have hmem : t.toList[i] ∈ t.toList.take (i + 1) := by
    rw [List.take_succ_eq_append_getElem hlen]
    exact List.mem_append_right _ (List.mem_singleton_self _)
  have hoffset := Text.unitOffset_of_basic
    (fun c hc => hb c (List.take_subset_take_left _ (Nat.le_succ i) hc)) hlen.le
  have hunit := Text.unitAt?_of_basic hc (hb _ hmem)
  rw [hoffset] at hunit
  rw [itemOfText_apply hx hi, charAt_apply hx, hunit, hc, Option.elim_some,
    Text.charOfUnit_of_basic]
  rfl

/-- A character of one unit is the item at the index where it begins. -/
theorem itemOfText_at_basic (hc : t.toList[k]? = some c) (hb : Text.IsBasic c)
    (hx : wholeNumber? x = some (Text.unitOffset t k)) (hi : Text.unitOffset t k < 2 ^ 32 - 1)
    (s : Store) : itemOfText t x s = .done (.str (String.ofList [c])) s := by
  rw [itemOfText_apply hx hi, Text.unitAt?_of_basic hc hb, Option.elim_some,
    Text.charOfUnit_of_basic]

/-- A character of two units is found in neither of them. -/
theorem itemOfText_at_pair (hc : t.toList[k]? = some c) (hb : ¬ Text.IsBasic c)
    (hx : wholeNumber? x = some i) (hi : i < 2 ^ 32 - 1)
    (hk : i = Text.unitOffset t k ∨ i = Text.unitOffset t k + 1) (s : Store) :
    itemOfText t x s = .done (.str "\uFFFD") s := by
  obtain ⟨hhigh, hlow⟩ := Text.unitAt?_of_pair hc hb
  obtain ⟨hhigh', hlow'⟩ := Text.charOfUnit_of_pair c
  rw [itemOfText_apply hx hi]
  rcases hk with rfl | rfl
  · rw [hhigh, Option.elim_some, hhigh']
  · rw [hlow, Option.elim_some, hlow']

end

/-! ### Two ways to count -/

/-- **Positions count characters or units.**  For all texts:

`charAt` gives the character at a position, which `slice` gives as well between this position and
the next one.  It is none from the length on, and below the length it is the item at the position
as long as there has been no character of two units.  What `slice` gives from zero on, without an
end or up to the length, is the text.

A character of one unit is the item at the index at which it begins; a character of two units is
at no index, but a replacement character is at both of its own. -/
theorem positions_count_characters_or_units (t : String) (s : Store) :
    (∀ x i, wholeNumber? x = some i →
      charAt t x s = .done (.str (String.ofList t.toList[i]?.toList)) s ∧
      (∀ y, wholeNumber? y = some (i + 1) → sliceOfText t [.num x, .num y] s = charAt t x s) ∧
      (Text.unitLength t ≤ i → charAt t x s = .done (.str "") s) ∧
      (i < Text.unitLength t → i < 2 ^ 32 - 1 → (∀ c ∈ t.toList.take (i + 1), Text.IsBasic c) →
        itemOfText t x s = charAt t x s)) ∧
    (∀ x, wholeNumber? x = some 0 → sliceOfText t [.num x] s = .done (.str t) s ∧
      (Text.unitLength t < 2 ^ 53 → ∃ length,
        Property.get (.str t) "length" s = .done (.num length) s ∧
        wholeNumber? length = some (Text.unitLength t) ∧
        sliceOfText t [.num x, .num length] s = .done (.str t) s)) ∧
    ∀ k c x i, t.toList[k]? = some c → wholeNumber? x = some i → i < 2 ^ 32 - 1 →
      (Text.IsBasic c → i = Text.unitOffset t k →
        itemOfText t x s = .done (.str (String.ofList [c])) s) ∧
      (¬ Text.IsBasic c → i = Text.unitOffset t k ∨ i = Text.unitOffset t k + 1 →
        itemOfText t x s = .done (.str "\uFFFD") s) := by
  refine ⟨fun x i hx => ⟨charAt_apply hx s, fun y hy => sliceOfText_next hx hy s, fun hi => ?_,
    fun hlt hi hb => itemOfText_of_basic hx hi hb hlt s⟩, fun x hx => ⟨?_, fun hlength => ?_⟩,
    fun k c x i hc hx hi => ⟨?_, fun hb hk => itemOfText_at_pair hc hb hx hi hk s⟩⟩
  -- there are no more characters than units
  · rw [charAt_apply hx, List.getElem?_eq_none ((Text.length_le_unitLength t).trans hi)]
    rfl
  · rw [sliceOfText_from hx, List.drop_zero, String.ofList_toList]
  · exact ⟨_, rfl, wholeNumber?_ofNat hlength,
      sliceOfText_all hx (wholeNumber?_ofNat hlength) (Text.length_le_unitLength t) s⟩
  · rintro hb rfl
    exact itemOfText_at_basic hc hb hx hi s

/-- A letter and then a character of two units: at 0 all ways agree, from 1 to 2 `slice` gives the
character, the item at 2 is the second half of it, and there is no character at 3, the length. -/
theorem positions_around_a_pair :
    charAt "a😀" (Float.ofNat 0) {} = .done (.str "a") {} ∧
    itemOfText "a😀" (Float.ofNat 0) {} = charAt "a😀" (Float.ofNat 0) {} ∧
    sliceOfText "a😀" [.num (Float.ofNat 1), .num (Float.ofNat 2)] {} = .done (.str "😀") {} ∧
    itemOfText "a😀" (Float.ofNat 2) {} = .done (.str "\uFFFD") {} ∧
    charAt "a😀" (Float.ofNat 3) {} = .done (.str "") {} := by
  have hwhole (n : Nat) (hn : n < 2 ^ 53) := wholeNumber?_ofNat hn
  have hlength : Text.unitLength "a😀" = 3 := by
    rw [← Text.length_units]
    decide
  obtain ⟨hchar, -, hunit⟩ := positions_count_characters_or_units "a😀" {}
  obtain ⟨hfirst, -, -, hbasic⟩ := hchar _ 0 (hwhole 0 (by decide))
  obtain ⟨hsecond, hslice, -, -⟩ := hchar _ 1 (hwhole 1 (by decide))
  obtain ⟨-, -, hend, -⟩ := hchar _ 3 (hwhole 3 (by decide))
  have hpair := (hunit 1 '😀' _ 2 rfl (hwhole 2 (by decide)) (by decide)).2 (by decide)
  have hletter : ∀ c ∈ "a😀".toList.take 1, Text.IsBasic c := fun c hc => by
    rw [List.eq_of_mem_singleton (show c ∈ ['a'] from hc)]
    decide
  exact ⟨hfirst, hbasic (by omega) (by decide) hletter,
    (hslice _ (hwhole 2 (by decide))).trans hsecond, hpair (.inr rfl), hend hlength.le⟩

/-- So many times one letter. -/
def letters (n : Nat) : String :=
  String.ofList (List.replicate n 'a')

theorem unitLength_letters (n : Nat) : Text.unitLength (letters n) = n := by
  have hb : ∀ c ∈ List.replicate n 'a', Text.IsBasic c := fun c hc => by
    rw [List.eq_of_mem_replicate hc]
    decide
  rw [← Text.length_units, Text.units, letters, String.toList_ofList,
    Text.length_flatMap_of_basic hb, List.length_replicate]

/-- Where the ways to a position do not agree: at a character of two units; at a position that is no
index; and where the length, as a number, is less than it is. -/
theorem ways_to_a_position_disagree :
    (charAt "😀" (Float.ofNat 0) {} = .done (.str "😀") {} ∧
      itemOfText "😀" (Float.ofNat 0) {} = .done (.str "\uFFFD") {} ∧
      0 < Text.unitLength "😀") ∧
    (charAt (letters (2 ^ 32)) (Float.ofNat (2 ^ 32 - 1)) {} = .done (.str "a") {} ∧
      itemOfText (letters (2 ^ 32)) (Float.ofNat (2 ^ 32 - 1)) {} = .done .undefined {} ∧
      2 ^ 32 - 1 < Text.unitLength (letters (2 ^ 32))) ∧
    (Property.get (.str (letters (2 ^ 53 + 1))) "length" {}
        = .done (.num (Float.ofNat (2 ^ 53 + 1))) {} ∧
      sliceOfText (letters (2 ^ 53 + 1)) [.num (Float.ofNat 0), .num (Float.ofNat (2 ^ 53 + 1))] {}
        = .done (.str (letters (2 ^ 53))) {}) := by
  have hwhole (n : Nat) (hn : n < 2 ^ 53) := wholeNumber?_ofNat hn
  refine ⟨⟨?_, ?_, ?_⟩, ⟨?_, ?_, ?_⟩, ?_, ?_⟩
  · exact charAt_apply (hwhole 0 (by decide)) {}
  · exact itemOfText_at_pair (k := 0) (c := '😀') rfl (by decide) (hwhole 0 (by decide)) (by decide)
      (.inl rfl) {}
  · exact Nat.lt_of_lt_of_eq Nat.zero_lt_two (Text.length_units "😀")
  · rw [charAt_apply (hwhole _ (by decide)), letters, String.toList_ofList, List.getElem?_replicate,
      if_pos (by decide)]
    rfl
  -- the position is one more than the largest index
  · have hkey : indexKey (2 ^ 32 - 1) = "4294967295" := by decide
    have hindex : arrayIndex? "4294967295" = none := by decide
    rw [itemOfText_eq_get (hwhole _ (by decide)) (by decide), hkey]
    simp only [Property.get, hindex]
    rfl
  · rw [unitLength_letters]
    decide
  · exact congrArg (fun n => Outcome.done (Value.nat n) ({} : Store)) (unitLength_letters _)
  · have hlength : wholeNumber? (Float.ofNat (2 ^ 53 + 1)) = some (2 ^ 53) := by decide
    rw [sliceOfText_apply (hwhole 0 (by decide)) hlength, letters, String.toList_ofList,
      List.drop_zero, List.take_replicate]
    rfl

end Estree
