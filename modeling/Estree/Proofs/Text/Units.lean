/-
Estree/Proofs/Text/Units.lean

The units of a text.

A character is one unit outside of the surrogates or two units among them, so that the first unit
says how many belong together.  No character's units begin those of another one
(`unitsOfChar_append_inj`), and a text can be told from its units (`units_injective`).

The comparison of two sequences of units is that of the lexicographic order of lists
(`compareUnits_eq_lt_iff`, `compareUnits_eq_eq_iff`, `compareUnits_eq_gt_iff`).
-/
import Mathlib.Data.List.Lex
import Estree.Text.Units

namespace Estree.Text

/-! ### Units of characters -/

/-- No character is a surrogate. -/
theorem toNat_cases (c : Char) :
    c.toNat < 0xD800 ∨ (0xDFFF < c.toNat ∧ c.toNat < 0x110000) :=
  c.valid

theorem unitsOfChar_of_lt {c : Char} (h : c.toNat < 0x10000) : unitsOfChar c = [c.toNat] :=
  if_pos h

theorem unitsOfChar_of_le {c : Char} (h : 0x10000 ≤ c.toNat) :
    unitsOfChar c
      = [0xD800 + (c.toNat - 0x10000) / 0x400, 0xDC00 + (c.toNat - 0x10000) % 0x400] :=
  if_neg (Nat.not_lt.2 h)

/-- The units of a character, and with them the character, can be told from whatever comes after
them. -/
theorem unitsOfChar_append_inj {c d : Char} {us vs : List Nat}
    (h : unitsOfChar c ++ us = unitsOfChar d ++ vs) : c = d ∧ us = vs := by
  have hc := toNat_cases c
  have hd := toNat_cases d
  obtain hc' | hc' := Nat.lt_or_ge c.toNat 0x10000 <;>
    obtain hd' | hd' := Nat.lt_or_ge d.toNat 0x10000
  · rw [unitsOfChar_of_lt hc', unitsOfChar_of_lt hd'] at h
    obtain ⟨hn, hu⟩ := List.cons.inj h
    exact ⟨Char.toNat_inj.1 hn, hu⟩
  · rw [unitsOfChar_of_lt hc', unitsOfChar_of_le hd'] at h
    -- a character of its own is no first half of a pair
    obtain ⟨hn, -⟩ := List.cons.inj h
    omega
  · rw [unitsOfChar_of_le hc', unitsOfChar_of_lt hd'] at h
    obtain ⟨hn, -⟩ := List.cons.inj h
    omega
  · rw [unitsOfChar_of_le hc', unitsOfChar_of_le hd'] at h
    obtain ⟨hhigh, h⟩ := List.cons.inj h
    obtain ⟨hlow, hu⟩ := List.cons.inj h
    exact ⟨Char.toNat_inj.1 (by omega), hu⟩

theorem unitsOfChar_ne_nil (c : Char) : unitsOfChar c ≠ [] := by
  obtain h | h := Nat.lt_or_ge c.toNat 0x10000
  · rw [unitsOfChar_of_lt h]
    exact List.cons_ne_nil _ _
  · rw [unitsOfChar_of_le h]
    exact List.cons_ne_nil _ _

/-! ### Units of texts -/

theorem flatMap_unitsOfChar_inj {cs ds : List Char}
    (h : cs.flatMap unitsOfChar = ds.flatMap unitsOfChar) : cs = ds := by
  induction cs generalizing ds with
  | nil =>
    cases ds with
    | nil => rfl
    | cons d ds =>
      rw [List.flatMap_nil, List.flatMap_cons] at h
      exact absurd (List.append_eq_nil_iff.1 h.symm).1 (unitsOfChar_ne_nil d)
  | cons c cs ih =>
    cases ds with
    | nil =>
      rw [List.flatMap_nil, List.flatMap_cons] at h
      exact absurd (List.append_eq_nil_iff.1 h).1 (unitsOfChar_ne_nil c)
    | cons d ds =>
      rw [List.flatMap_cons, List.flatMap_cons] at h
      obtain ⟨rfl, hrest⟩ := unitsOfChar_append_inj h
      rw [ih hrest]

/-- Two texts with the same units are the same. -/
theorem units_injective : Function.Injective units :=
  fun _ _ h => String.toList_injective (flatMap_unitsOfChar_inj h)

/-! ### Comparing units -/

variable {us vs : List Nat}

theorem swap_compareUnits (us vs : List Nat) : (compareUnits us vs).swap = compareUnits vs us := by
  induction us generalizing vs with
  | nil => cases vs <;> rfl
  | cons u us ih =>
    cases vs with
    | nil => rfl
    | cons v vs =>
      unfold compareUnits
      obtain h | rfl | h := Nat.lt_trichotomy u v
      · rw [if_pos h, if_neg (Nat.lt_asymm h), if_pos h]
        rfl
      · simp only [Nat.lt_irrefl, if_false, ih]
      · rw [if_neg (Nat.lt_asymm h), if_pos h, if_pos h]
        rfl

theorem compareUnits_eq_eq_iff : compareUnits us vs = .eq ↔ us = vs := by
  induction us generalizing vs with
  | nil => cases vs <;> simp [compareUnits]
  | cons u us ih =>
    cases vs with
    | nil => simp [compareUnits]
    | cons v vs =>
      unfold compareUnits
      obtain h | rfl | h := Nat.lt_trichotomy u v
      · simp [h, Nat.ne_of_lt h]
      · simp [ih]
      · simp [Nat.lt_asymm h, h, Nat.ne_of_gt h]

theorem compareUnits_eq_lt_iff : compareUnits us vs = .lt ↔ us < vs := by
  induction us generalizing vs with
  | nil => cases vs <;> simp [compareUnits]
  | cons u us ih =>
    cases vs with
    | nil => simp [compareUnits]
    | cons v vs =>
      unfold compareUnits
      rw [List.cons_lt_cons_iff]
      obtain h | rfl | h := Nat.lt_trichotomy u v
      · simp [h]
      · simp [ih]
      · simp [Nat.lt_asymm h, h, Nat.ne_of_gt h]

theorem compareUnits_eq_gt_iff : compareUnits us vs = .gt ↔ vs < us := by
  rw [← compareUnits_eq_lt_iff, ← swap_compareUnits vs us]
  cases compareUnits vs us <;> simp

end Estree.Text
