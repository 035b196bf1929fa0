/-
Estree/Proofs/Text/Number.lean

Texts as numbers.

A text stands for a number if, without the white space at its ends, it is nothing, an integer whose
base is announced, an infinity or a decimal literal (`IsNumeric`); every other text is NaN.  The
grammar leaves open which digits may follow the announcement of a base.  Reading takes them into 64
bits, and takes a plus sign in front of them (`Fits`): it refuses longer integers, and accepts
signed ones.

How far this departs from digits alone is shown by two texts at the end: one that should be no
number and is read, and one that should be a number and is refused.
-/
import Estree.Proofs.Decimal.Literal
import Estree.Proofs.Radix.Digits

namespace Estree

open Numeral (IsSign IsLiteralChar Spells)

/-! ### The grammar -/

/-- The mark behind a zero that announces the base of an integer. -/
inductive Announces : Char → Nat → Prop
  | hex {mark} (h : mark = 'x' ∨ mark = 'X') : Announces mark 16
  | octal {mark} (h : mark = 'o' ∨ mark = 'O') : Announces mark 8
  | binary {mark} (h : mark = 'b' ∨ mark = 'B') : Announces mark 2

/-- The texts that stand for a number, with white space cut off.  What follows the announcement of a
base is left open. -/
inductive IsNumeric (digits : Nat → List Char → Prop) : List Char → Prop
  | nothing : IsNumeric digits []
  | announced {mark base ds} (hm : Announces mark base) (hd : digits base ds) :
      IsNumeric digits ('0' :: mark :: ds)
  | infinity {s negative} (hs : IsSign s negative) : IsNumeric digits (s ++ "Infinity".toList)
  | literal {cs n} (h : Spells n cs) : IsNumeric digits cs

/-- The infinity of a sign. -/
def Double.infinity (negative : Bool) : Float :=
  if negative then -1.0 / 0.0 else 1.0 / 0.0

variable {text : String} {cs ds s : List Char} {mark : Char} {negative : Bool} {base n : Nat}
  {num : Numeral} {x : Float}

/-! ### Numbers that are not NaN -/

theorem Double.isNaN_infinity (negative : Bool) : (infinity negative).isNaN = false := by
  cases negative <;> decide

theorem Double.isNaN_ofNat (n : Nat) : (Float.ofNat n).isNaN = false :=
  isNaN_ofScientific n false 0

/-! ### Reading -/

theorem announcedBase?_eq_some_iff : announcedBase? cs = some (base, ds) ↔
    ∃ mark, Announces mark base ∧ cs = '0' :: mark :: ds := by
  constructor
  · intro h
    unfold announcedBase? at h
    split at h
    · rename_i mark rest
      split_ifs at h with h16 h8 h2 <;> cases h
      · exact ⟨mark, .hex h16, rfl⟩
      · exact ⟨mark, .octal h8, rfl⟩
      · exact ⟨mark, .binary h2, rfl⟩
    · cases h
  · rintro ⟨mark, hm, rfl⟩
    cases hm with
    | hex h => rcases h with rfl | rfl <;> rfl
    | octal h => rcases h with rfl | rfl <;> rfl
    | binary h => rcases h with rfl | rfl <;> rfl

theorem infinity?_eq_some_iff : infinity? cs = some x ↔ ∃ s negative,
    IsSign s negative ∧ cs = s ++ "Infinity".toList ∧ Double.infinity negative = x := by
  constructor
  · intro h
    unfold infinity? at h
    split_ifs at h with hpos hneg
    · cases h
      rcases hpos with rfl | rfl
      · exact ⟨[], false, .absent, rfl, rfl⟩
      · exact ⟨['+'], false, .plus, rfl, rfl⟩
    · cases h
      exact ⟨['-'], true, .minus, hneg, rfl⟩
  · rintro ⟨s, negative, hs, rfl, rfl⟩
    cases hs <;> rfl

theorem announcedBase?_infinity (hs : IsSign s negative) :
    announcedBase? (s ++ "Infinity".toList) = none := by
  cases hs <;> rfl

theorem not_announces_of_isLiteralChar (h : IsLiteralChar mark) : ¬ Announces mark base := by
  unfold IsLiteralChar at h
  intro hm
  cases hm with
  | hex hc => rcases hc with rfl | rfl <;> exact absurd h (by decide)
  | octal hc => rcases hc with rfl | rfl <;> exact absurd h (by decide)
  | binary hc => rcases hc with rfl | rfl <;> exact absurd h (by decide)

theorem announcedBase?_literal (h : Spells num cs) : announcedBase? cs = none := by
  rw [Option.eq_none_iff_forall_ne_some]
  rintro ⟨base, ds⟩ hbase
  obtain ⟨mark, hm, rfl⟩ := announcedBase?_eq_some_iff.1 hbase
  exact not_announces_of_isLiteralChar (h.chars mark (by simp)) hm

theorem not_isLiteralChar_I : ¬ IsLiteralChar 'I' := by
  unfold IsLiteralChar
  decide

theorem infinity?_literal (h : Spells num cs) : infinity? cs = none := by
  rw [Option.eq_none_iff_forall_ne_some]
  intro x hx
  obtain ⟨s, negative, -, rfl, -⟩ := infinity?_eq_some_iff.1 hx
  exact not_isLiteralChar_I (h.chars 'I' (by simp))

theorem numberOfText_nothing (h : Text.trim text.toList = []) : numberOfText text = 0 := by
  simp [numberOfText, h]

/-- What follows the announcement of a base decides alone. -/
theorem numberOfText_announced (hm : Announces mark base)
    (h : Text.trim text.toList = '0' :: mark :: ds) :
    numberOfText text = ((natOfBase? base ds).map Float.ofNat).getD (0.0 / 0.0) := by
  have hbase : announcedBase? ('0' :: mark :: ds) = some (base, ds) :=
    announcedBase?_eq_some_iff.2 ⟨mark, hm, rfl⟩
  simp only [numberOfText, h, hbase, List.isEmpty_cons, Bool.false_eq_true, if_false]
  cases natOfBase? base ds <;> rfl

theorem numberOfText_infinity (hs : IsSign s negative)
    (h : Text.trim text.toList = s ++ "Infinity".toList) :
    numberOfText text = Double.infinity negative := by
  have hinfinity := infinity?_eq_some_iff.2 ⟨s, negative, hs, rfl, rfl⟩
  have hsome : (s ++ "Infinity".toList).isEmpty = false := by cases hs <;> rfl
  simp only [numberOfText, h, announcedBase?_infinity hs, hinfinity, hsome, Bool.false_eq_true,
    if_false]

theorem numberOfText_literal (h : Spells num (Text.trim text.toList)) :
    numberOfText text = num.toFloat := by
  have hsome : (Text.trim text.toList).isEmpty = false := by simpa using h.ne_nil
  simp only [numberOfText, announcedBase?_literal h, infinity?_literal h, filtered_double?,
    decimal?_eq_some_iff.2 ⟨num, h, rfl⟩, hsome, Bool.false_eq_true, if_false, Option.getD_some]

theorem isNumeric_of_not_isNaN (h : (numberOfText text).isNaN = false) :
    IsNumeric (fun base ds => ∃ n, Fits base ds n) (Text.trim text.toList) := by
  unfold numberOfText at h
  dsimp only at h
  -- each branch of the conversion is one form of number
  split at h
  · rename_i hnil
    rw [List.isEmpty_iff.1 hnil]
    exact .nothing
  · split at h
    · rename_i base ds hbase
      obtain ⟨mark, hm, hcs⟩ := announcedBase?_eq_some_iff.1 hbase
      split at h
      · rename_i n hn
        rw [hcs]
        exact .announced hm ⟨n, natOfBase?_eq_some_iff.1 hn⟩
      · exact absurd h (by decide)
    · split at h
      · rename_i x hx
        obtain ⟨s, negative, hs, hcs, -⟩ := infinity?_eq_some_iff.1 hx
        rw [hcs]
        exact .infinity hs
      · rw [filtered_double?] at h
        cases hd : decimal? (Text.trim text.toList) with
        | none =>
          rw [hd] at h
          exact absurd h (by decide)
        | some x =>
          obtain ⟨num, hnum, -⟩ := decimal?_eq_some_iff.1 hd
          exact .literal hnum

theorem not_isNaN_of_isNumeric
    (h : IsNumeric (fun base ds => ∃ n, Fits base ds n) (Text.trim text.toList)) :
    (numberOfText text).isNaN = false := by
  generalize hcs : Text.trim text.toList = cs at h
  cases h with
  | nothing =>
    rw [numberOfText_nothing hcs]
    decide
  | announced hm hd =>
    obtain ⟨n, hn⟩ := hd
    rw [numberOfText_announced hm hcs, natOfBase?_eq_some_iff.2 hn]
    exact Double.isNaN_ofNat n
  | infinity hs =>
    rw [numberOfText_infinity hs hcs]
    exact Double.isNaN_infinity _
  | literal h =>
    rw [numberOfText_literal (hcs ▸ h)]
    exact Numeral.isNaN_toFloat _

/-- A text is NaN unless it stands for a number. -/
theorem isNaN_numberOfText_iff : (numberOfText text).isNaN = true ↔
    ¬ IsNumeric (fun base ds => ∃ n, Fits base ds n) (Text.trim text.toList) := by
  rw [← Bool.not_eq_false, not_iff_not]
  exact ⟨isNumeric_of_not_isNaN, not_isNaN_of_isNumeric⟩

/-! ### What is accepted -/

/-- **Texts are numbers by a grammar.**  For all texts:

A text is NaN unless it stands for a number, where the digits behind the announcement of a base may
have a plus sign, and must be those of a number that fits into 64 bits.  Such an integer is the
nearest double. -/
theorem texts_are_numbers_by_grammar (text : String) :
    ((numberOfText text).isNaN = true ↔
      ¬ IsNumeric (fun base ds => ∃ n, Fits base ds n) (Text.trim text.toList)) ∧
    ∀ mark base ds n, Announces mark base → Text.trim text.toList = '0' :: mark :: ds →
      Fits base ds n → Double.IsNearest (numberOfText text) n := by
  refine ⟨isNaN_numberOfText_iff, fun mark base ds n hm h hn => ?_⟩
  have hlog : n.log2 < 1023 := by
    obtain rfl | h0 := Nat.eq_zero_or_pos n
    · decide
    · exact ((Nat.log2_lt h0.ne').2 hn.2).trans (by decide)
  rw [numberOfText_announced hm h, natOfBase?_eq_some_iff.2 hn]
  exact Double.isNearest_ofNat hlog

/-- Digits of both cases behind the mark of base 16, with white space around. -/
theorem announced_integer_is_a_number : Double.IsNearest (numberOfText " 0xfF\n") 255 := by
  have hfits : Fits 16 ['f', 'F'] 255 := ⟨.inl ⟨by decide, by decide⟩, by decide⟩
  exact (texts_are_numbers_by_grammar " 0xfF\n").2 'x' 16 ['f', 'F'] 255 (.hex (.inl rfl))
    (by decide) hfits

/-- With the digits of a base alone behind its announcement, the grammar is not that of the texts
that stand for numbers: a plus sign is accepted, and an integer of 65 bits is refused. -/
theorem announced_integers_are_not_just_digits :
    (¬ IsNumeric (fun base ds => ∃ n, Radix.Denotes base ds n) (Text.trim "0x+1".toList) ∧
      (numberOfText "0x+1").isNaN = false) ∧
    IsNumeric (fun base ds => ∃ n, Radix.Denotes base ds n)
      (Text.trim "0x10000000000000000".toList) ∧
      (numberOfText "0x10000000000000000").isNaN = true := by
  refine ⟨⟨fun h => ?_, by decide⟩, ?_, by decide⟩
  -- a sign behind the mark is read, though it is no digit
  · have htrim : Text.trim "0x+1".toList = ['0', 'x', '+', '1'] := by decide
    generalize Text.trim "0x+1".toList = cs at *
    cases h with
    | nothing => cases htrim
    | announced hm hd =>
      obtain ⟨n, hn⟩ := hd
      cases htrim
      exact Radix.not_denotes_plus hn
    | infinity hs => cases hs <;> cases htrim
    | literal h =>
      rw [htrim] at h
      exact not_announces_of_isLiteralChar (h.chars 'x' (by simp)) (.hex (.inl rfl))
  -- sixteen zeros behind a one need a bit more than there are
  · have htrim : Text.trim "0x10000000000000000".toList
        = '0' :: 'x' :: '1' :: List.replicate 16 '0' := by decide
    rw [htrim]
    exact .announced (.hex (.inl rfl)) ⟨2 ^ 64, by decide, by decide⟩

end Estree
