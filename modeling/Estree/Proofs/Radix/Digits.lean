/-
Estree/Proofs/Radix/Digits.lean

Numerals in a base from 2 to 36.

A numeral is a list of digits, the highest first, and denotes the number that `Nat.ofDigits` makes
of their values (`Radix.Denotes`).  Readers go from the left, by Horner's rule
(`ofDigits_reverse_eq_foldl`).

What is read and what is written meet here: a text denotes a number in a base or it does not,
whoever made the text.
-/
import Estree.Builtin.Number
import Mathlib.Data.Nat.Digits.Defs

namespace Estree

variable {base d m n : Nat} {c : Char} {cs ds : List Char} {vs : List Nat}

/-! ### Digits -/

/-- In a smaller base the digits are the same, as far as they go. -/
theorem digitOf?_eq_some_iff (hb : base ≤ 36) :
    digitOf? base c = some d ↔ digitOf? 36 c = some d ∧ d < base := by
  simp only [digitOf?, Option.filter_eq_some_iff, decide_eq_true_eq]
  constructor
  · rintro ⟨h, hd⟩
    exact ⟨⟨h, by omega⟩, hd⟩
  · rintro ⟨⟨h, -⟩, hd⟩
    exact ⟨h, hd⟩

theorem digitOf?_digitChar (hb : base ≤ 36) (hd : d < base) :
    digitOf? base (Builtin.digitChar d) = some d := by
  have hall : ∀ d < 36, digitOf? 36 (Builtin.digitChar d) = some d := by decide
  exact (digitOf?_eq_some_iff hb).2 ⟨hall d (by omega), hd⟩

theorem digitOf?_plus (base : Nat) : digitOf? base '+' = none :=
  rfl

/-! ### Numerals -/

namespace Radix

/-- The number that digits of a base make, the highest first. -/
def valueOf? (base : Nat) (ds : List Char) : Option Nat :=
  (ds.mapM (digitOf? base)).map fun vs => Nat.ofDigits base vs.reverse

/-- At least one digit of a base, and the number that they make. -/
def Denotes (base : Nat) (ds : List Char) (n : Nat) : Prop :=
  ds ≠ [] ∧ valueOf? base ds = some n

theorem Denotes.unique (hm : Denotes base ds m) (hn : Denotes base ds n) : m = n :=
  Option.some.inj (hm.2.symm.trans hn.2)

theorem not_denotes_plus : ¬ Denotes base ('+' :: cs) n := by
  simp [Denotes, valueOf?, digitOf?_plus]

/-- Horner's rule. -/
theorem ofDigits_reverse_eq_foldl (base : Nat) (vs : List Nat) :
    Nat.ofDigits base vs.reverse = vs.foldl (fun n d => n * base + d) 0 := by
  rw [Nat.ofDigits_eq_foldr, List.foldr_reverse]
  congr 1
  funext n d
  rw [Nat.cast_id, Nat.mul_comm, Nat.add_comm]

end Radix

/-! ### Reading into 64 bits -/

theorem foldlM_digits (base m : Nat) (cs : List Char) :
    cs.foldlM (fun n c => (digitOf? base c).map fun d => n * base + d) m
      = (cs.mapM (digitOf? base)).map fun vs => vs.foldl (fun n d => n * base + d) m := by
  induction cs generalizing m with
  | nil => rfl
  | cons c cs ih =>
    rw [List.foldlM_cons, List.mapM_cons]
    cases digitOf? base c with
    | none => rfl
    | some d =>
      simp only [Option.map_some, Option.bind_eq_bind, Option.bind_some, ih]
      cases cs.mapM (digitOf? base) <;> rfl

/-- What is read as a number of 64 bits: a numeral of less than 2^64, with or without a plus
sign. -/
def Fits (base : Nat) (cs : List Char) (n : Nat) : Prop :=
  (Radix.Denotes base cs n ∨ ∃ ds, cs = '+' :: ds ∧ Radix.Denotes base ds n) ∧ n < 2 ^ 64

theorem natOfBase?_eq_some_iff : natOfBase? base cs = some n ↔ Fits base cs n := by
  have hrun (ds : List Char) : (if ds.isEmpty then none
      else (ds.foldlM (fun n c => (digitOf? base c).map fun d => n * base + d) 0).filter
        fun n => n < Nat.pow 2 64) = some n ↔ Radix.Denotes base ds n ∧ n < 2 ^ 64 := by
    simp only [foldlM_digits, ← Radix.ofDigits_reverse_eq_foldl, Option.ite_none_left_eq_some,
      List.isEmpty_iff, Option.filter_eq_some_iff, Nat.pow_eq, decide_eq_true_eq, Radix.Denotes,
      Radix.valueOf?, and_assoc]
  unfold natOfBase? Fits
  dsimp only
  split
  · rename_i ds
    rw [hrun, or_iff_right Radix.not_denotes_plus]
    simp
  · rename_i hplus
    have hno : ¬ ∃ ds, cs = '+' :: ds ∧ Radix.Denotes base ds n := by
      rintro ⟨ds, rfl, -⟩
      exact hplus ds rfl
    rw [hrun, or_iff_left hno]

end Estree
