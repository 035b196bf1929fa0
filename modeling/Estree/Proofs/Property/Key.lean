/-
Estree/Proofs/Property/Key.lean

Keys that are indices.

A key is an index exactly if it is the decimal numeral of a number below 2^32 - 1
(`arrayIndex?_eq_some_iff_numeral`): digits that denote it, and no zero in front of others
(`IsNumeral`).  A number has one numeral, which is what is written for it
(`isNumeral_iff_indexKey`).  One direction reads digits that have been written, the other one
writes digits that have been read: without a zero in front of them they come out as they were
(`toDigits_ofDigitChars`).  So two keys are never the same index.
-/
import Estree.Property
import Estree.Proofs.Json.Token
import Estree.Proofs.Radix.Digits

namespace Estree

/-! ### Digits -/

theorem digitChar_of_isDigit {c : Char} (h : c.isDigit = true) :
    c.toNat - '0'.toNat < 10 ∧ Nat.digitChar (c.toNat - '0'.toNat) = c := by
  have hc : '0'.toNat ≤ c.toNat ∧ c.toNat ≤ '9'.toNat := by
    simpa [Char.isDigit, Char.le_def, UInt32.le_iff_toNat_le] using h
  have h0 : '0'.toNat = 48 := rfl
  have h9 : '9'.toNat = 57 := rfl
  have hlt : c.toNat - '0'.toNat < 10 := by omega
  refine ⟨hlt, Char.toNat_inj.1 ?_⟩
  rw [Nat.toNat_digitChar_of_lt_ten hlt]
  omega

/-- Digits after a number that is not zero are written as they were read. -/
theorem toDigits_ofDigitChars {cs : List Char} (hcs : ∀ c ∈ cs, c.isDigit = true) {n : Nat}
    (hn : 0 < n) : Nat.toDigits 10 (Nat.ofDigitChars 10 cs n) = Nat.toDigits 10 n ++ cs := by
  induction cs generalizing n with
  | nil => rw [Nat.ofDigitChars_nil, List.append_nil]
  | cons c cs ih =>
    obtain ⟨hc, hcs⟩ := List.forall_mem_cons.1 hcs
    obtain ⟨hlt, hchar⟩ := digitChar_of_isDigit hc
    rw [Nat.ofDigitChars_cons, ih hcs (by omega),
      ← Nat.toDigits_append_toDigits (by decide) hn hlt, Nat.toDigits_of_lt_base hlt, hchar,
      List.append_assoc, List.singleton_append]

/-- Digits are written as they were read unless there is a zero in front of others. -/
theorem toDigits_natOfDigits {c : Char} {cs : List Char} (hc : c.isDigit = true)
    (hcs : ∀ d ∈ cs, d.isDigit = true) (h0 : c = '0' → cs = []) :
    Nat.toDigits 10 (Numeral.natOfDigits (c :: cs)) = c :: cs := by
  obtain ⟨hlt, hchar⟩ := digitChar_of_isDigit hc
  have hread : Numeral.natOfDigits (c :: cs) = Nat.ofDigitChars 10 cs (c.toNat - '0'.toNat) := by
    show Nat.ofDigitChars 10 (c :: cs) 0 = _
    rw [Nat.ofDigitChars_cons, Nat.mul_zero, Nat.zero_add]
  rw [hread]
  by_cases h : c = '0'
  · rw [h0 h, h]
    rfl
  · have hpos : 0 < c.toNat - '0'.toNat := by
      by_contra hz
      rw [Nat.eq_zero_of_not_pos hz] at hchar
      exact h hchar.symm
    rw [toDigits_ofDigitChars hcs hpos, Nat.toDigits_of_lt_base hlt, hchar, List.singleton_append]

theorem natOfDigits_toDigits (n : Nat) : Numeral.natOfDigits (Nat.toDigits 10 n) = n :=
  Nat.ofDigitChars_toDigits (by decide) (by decide)

/-! ### Numerals -/

/-- A decimal numeral of a number: digits that denote it, and no zero in front of others. -/
def IsNumeral (key : String) (n : Nat) : Prop :=
  Radix.Denotes 10 key.toList n ∧ (key.toList.head? = some '0' → key.toList = ['0'])

variable {key other : String} {n : Nat}

theorem digitOf?_ten (c : Char) :
    digitOf? 10 c = if c.isDigit then some (c.toNat - '0'.toNat) else none := by
  unfold digitOf?
  dsimp only
  by_cases hc : c.isDigit = true
  · obtain ⟨hlt, -⟩ := digitChar_of_isDigit hc
    rw [if_pos hc, if_pos hc, Option.filter_some_pos (by simpa using hlt)]
  · -- letters count from ten on
    rw [if_neg hc, if_neg hc, Option.filter_eq_none_iff]
    intro d hd
    split at hd
    · cases hd
      simp
    · split at hd
      · cases hd
        simp
      · cases hd

/-- The number that decimal digits denote is the one that is read. -/
theorem valueOf?_ten (cs : List Char) : Radix.valueOf? 10 cs
    = if cs.all Char.isDigit then some (Numeral.natOfDigits cs) else none := by
  have hfold (m : Nat) : cs.foldlM (fun n c => (digitOf? 10 c).map fun d => n * 10 + d) m
      = if cs.all Char.isDigit then
          some (cs.foldl (fun n c => 10 * n + Numeral.digitValue c) m)
        else none := by
    induction cs generalizing m with
    | nil => rfl
    | cons c cs ih =>
      rw [List.foldlM_cons, List.all_cons, digitOf?_ten]
      by_cases hc : c.isDigit = true
      · rw [if_pos hc, hc, Bool.true_and, List.foldl_cons, Nat.mul_comm m 10]
        exact ih _
      · rw [if_neg hc, Bool.eq_false_iff.2 hc]
        rfl
  rw [Numeral.natOfDigits, ← hfold, foldlM_digits, Radix.valueOf?]
  simp only [Radix.ofDigits_reverse_eq_foldl]

theorem isNumeral_iff_digits : IsNumeral key n ↔ ∃ c cs, key.toList = c :: cs ∧
    (c = '0' → cs = []) ∧ (∀ d ∈ c :: cs, d.isDigit = true) ∧
    Numeral.natOfDigits (c :: cs) = n := by
  unfold IsNumeral Radix.Denotes
  rw [valueOf?_ten, Option.ite_none_right_eq_some, Option.some.injEq, List.all_eq_true]
  constructor
  · rintro ⟨⟨hne, hdigits, hn⟩, h0⟩
    obtain ⟨c, cs, hkey⟩ := List.exists_cons_of_ne_nil hne
    rw [hkey] at hdigits hn h0
    refine ⟨c, cs, hkey, ?_, hdigits, hn⟩
    rintro rfl
    exact (List.cons.inj (h0 rfl)).2
  · rintro ⟨c, cs, hkey, h0, hdigits, hn⟩
    rw [hkey]
    refine ⟨⟨List.cons_ne_nil _ _, hdigits, hn⟩, fun hc => ?_⟩
    cases hc
    rw [h0 rfl]

/-- A number has one numeral, the one that is written for it. -/
theorem isNumeral_iff_indexKey : IsNumeral key n ↔ key = indexKey n := by
  rw [isNumeral_iff_digits]
  constructor
  · rintro ⟨c, cs, hkey, h0, hdigits, rfl⟩
    obtain ⟨hc, hcs⟩ := List.forall_mem_cons.1 hdigits
    apply String.toList_inj.1
    rw [indexKey, Decimal.digitsText, String.toList_ofList, toDigits_natOfDigits hc hcs h0, hkey]
  · rintro rfl
    have hkey : (indexKey n).toList = Nat.toDigits 10 n := String.toList_ofList
    have hdigits : ∀ d ∈ Nat.toDigits 10 n, d.isDigit = true :=
      fun d hd => Nat.isDigit_of_mem_toDigits (by decide) (by decide) hd
    have hn := natOfDigits_toDigits n
    rcases Json.toDigits_cases n with ⟨-, h⟩ | ⟨d, ds, h, hd⟩ <;> rw [h] at hkey hdigits hn
    · exact ⟨'0', [], hkey, fun _ => rfl, hdigits, hn⟩
    · exact ⟨d, ds, hkey, fun h0 => absurd h0 hd, hdigits, hn⟩

/-! ### Indices -/

/-- An index is read from digits, the first of which is no zero in front of others. -/
theorem arrayIndex?_eq_some_iff_digits :
    arrayIndex? key = some n ↔ ∃ c cs, key.toList = c :: cs ∧ (c = '0' → cs = []) ∧
      (∀ d ∈ c :: cs, d.isDigit = true) ∧ Numeral.natOfDigits (c :: cs) = n ∧
      n < Nat.pow 2 32 - 1 := by
  unfold arrayIndex?
  simp only
  split
  case h_1 h => simp [h]
  -- a zero in front of further digits
  case h_2 d ds h =>
    refine iff_of_false (by simp) ?_
    rintro ⟨c, cs, hcs, h0, -⟩
    obtain ⟨rfl, rfl⟩ := List.cons.inj (hcs.symm.trans h)
    exact List.cons_ne_nil _ _ (h0 rfl)
  case h_3 hne hzero =>
    obtain ⟨c, cs, hcs⟩ := List.exists_cons_of_ne_nil hne
    have h0 : c = '0' → cs = [] := by
      rintro rfl
      by_contra hnil
      obtain ⟨d, ds, rfl⟩ := List.exists_cons_of_ne_nil hnil
      exact hzero d ds hcs
    rw [hcs]
    -- the first digit is not a zero, or it stands alone; the rest has to be digits too
    split
    case isTrue hall =>
      rw [List.all_eq_true] at hall
      rw [Option.filter_eq_some_iff, decide_eq_true_eq, Option.some.injEq]
      constructor
      · rintro ⟨hn, hlt⟩
        exact ⟨c, cs, rfl, h0, hall, hn, hlt⟩
      · rintro ⟨c', cs', hcons, -, -, hn, hlt⟩
        exact ⟨hcons ▸ hn, hlt⟩
    case isFalse hall =>
      refine iff_of_false (by simp) ?_
      rintro ⟨c', cs', hcons, -, hdigits, -⟩
      exact hall (List.all_eq_true.2 (hcons ▸ hdigits))

/-- The keys that are an index are the numerals of the numbers below `2 ^ 32 - 1`. -/
theorem arrayIndex?_eq_some_iff_numeral :
    arrayIndex? key = some n ↔ n < Nat.pow 2 32 - 1 ∧ IsNumeral key n := by
  rw [arrayIndex?_eq_some_iff_digits, isNumeral_iff_digits]
  constructor
  · rintro ⟨c, cs, hkey, h0, hdigits, hn, hlt⟩
    exact ⟨hlt, c, cs, hkey, h0, hdigits, hn⟩
  · rintro ⟨hlt, c, cs, hkey, h0, hdigits, hn⟩
    exact ⟨c, cs, hkey, h0, hdigits, hn, hlt⟩

theorem arrayIndex?_eq_some_iff :
    arrayIndex? key = some n ↔ n < Nat.pow 2 32 - 1 ∧ key = indexKey n := by
  rw [arrayIndex?_eq_some_iff_numeral, isNumeral_iff_indexKey]

theorem arrayIndex?_indexKey (h : n < Nat.pow 2 32 - 1) : arrayIndex? (indexKey n) = some n :=
  arrayIndex?_eq_some_iff.2 ⟨h, rfl⟩

/-- No two keys are the same index. -/
theorem arrayIndex?_inj (h : arrayIndex? key = some n) (h' : arrayIndex? other = some n) :
    key = other :=
  (arrayIndex?_eq_some_iff.1 h).2.trans (arrayIndex?_eq_some_iff.1 h').2.symm

end Estree
