/-
Estree/Proofs/Radix/Writing.lean

Numbers as texts in a base.

The digits are made from the lowest, each put in front of those before it, so that what is written
is the reverse of `Nat.digits` (`writeDigits_eq_numeral`): a numeral without zeros in front that
denotes the number (`denotes_numeral`).  The magnitude passes through 64 bits first, and what does
not fit into them is written as the largest number that does.

So the text denotes the magnitude as long as that is below 2^64, and the largest 64-bit number from
there on; the sign stands in front.
-/
import Estree.Builtin.Call
import Estree.Proofs.Decimal.Whole
import Estree.Proofs.Radix.Digits

namespace Estree

open Builtin (digitChar writeDigits radixText toRadix)

variable {base n : Nat} {x : Float} {b : Binary} {k : Int}

/-! ### Writing -/

namespace Radix

/-- The digits of a number in a base, the highest first. -/
def numeral (base n : Nat) : List Char :=
  if n = 0 then ['0'] else ((Nat.digits base n).map digitChar).reverse

theorem writeDigits_eq (hb : 1 < base) {fuel : Nat} (h0 : 0 < n) (hn : n < base ^ fuel)
    (acc : List Char) :
    writeDigits base fuel n acc = ((Nat.digits base n).map digitChar).reverse ++ acc := by
  induction fuel generalizing n acc with
  | zero =>
    rw [Nat.pow_zero] at hn
    omega
  | succ fuel ih =>
    rw [Nat.digits_def' hb h0, List.map_cons, List.reverse_cons, List.append_assoc,
      List.singleton_append, writeDigits]
    split
    · rename_i hlast
      rw [hlast, Nat.digits_zero]
      rfl
    · rename_i hmore
      refine ih (Nat.pos_of_ne_zero hmore) (Nat.div_lt_of_lt_mul ?_) _
      rwa [← Nat.pow_succ']

theorem writeDigits_eq_numeral (hb : 1 < base) {fuel : Nat} (hf : 0 < fuel)
    (hn : n < base ^ fuel) : writeDigits base fuel n [] = numeral base n := by
  unfold numeral
  split
  · rename_i h0
    obtain ⟨fuel, rfl⟩ := Nat.exists_eq_add_of_lt hf
    subst h0
    simp [writeDigits, digitChar]
  · rename_i h0
    rw [writeDigits_eq hb (Nat.pos_of_ne_zero h0) hn, List.append_nil]

/-! ### Reading what is written -/

theorem mapM_digitChar (hb : base ≤ 36) {vs : List Nat} (hvs : ∀ d ∈ vs, d < base) :
    (vs.map digitChar).mapM (digitOf? base) = some vs := by
  induction vs with
  | nil => rfl
  | cons d vs ih =>
    obtain ⟨hd, hvs⟩ := List.forall_mem_cons.1 hvs
    rw [List.map_cons, List.mapM_cons, digitOf?_digitChar hb hd, ih hvs]
    rfl

/-- A numeral denotes its number. -/
theorem denotes_numeral (hb : 1 < base) (hb' : base ≤ 36) (n : Nat) :
    Denotes base (numeral base n) n := by
  unfold numeral
  split
  · rename_i h0
    have hdigit : ∀ d ∈ [0], d < base := by simpa using Nat.zero_lt_of_lt hb
    have hzero : ['0'].mapM (digitOf? base) = some [0] := mapM_digitChar hb' hdigit
    exact ⟨by simp, by rw [valueOf?, hzero, h0]; simp⟩
  · rename_i h0
    have hdigits : ∀ d ∈ (Nat.digits base n).reverse, d < base := fun d hd =>
      Nat.digits_lt_base hb (List.mem_reverse.1 hd)
    rw [← List.map_reverse]
    refine ⟨by simpa [Nat.digits_eq_nil_iff_eq_zero] using h0, ?_⟩
    rw [valueOf?, mapM_digitChar hb' hdigits, Option.map_some, List.reverse_reverse,
      Nat.ofDigits_digits]

/-- No numeral has a zero in front of other digits. -/
theorem numeral_head (hb : 1 < base) (hb' : base ≤ 36) (h : (numeral base n).head? = some '0') :
    numeral base n = ['0'] := by
  by_cases hn : n = 0
  · rw [numeral, if_pos hn]
  · have hne : Nat.digits base n ≠ [] := Nat.digits_ne_nil_iff_ne_zero.2 hn
    have hlast := Nat.getLast_digit_ne_zero base hn
    have hlt := Nat.digits_lt_base hb (List.getLast_mem hne)
    rw [numeral, if_neg hn, List.head?_reverse, List.getLast?_map,
      List.getLast?_eq_some_getLast hne] at h
    have hchar : digitChar ((Nat.digits base n).getLast hne) = digitChar 0 := Option.some.inj h
    have hvalue := digitOf?_digitChar hb' hlt
    rw [hchar, digitOf?_digitChar hb' (by omega)] at hvalue
    exact absurd (Option.some.inj hvalue).symm hlast

end Radix

/-! ### Texts of numbers in a base -/

/-- The text of an integer: a minus sign if it is below zero, and the numeral of its magnitude, as
far as 64 bits go. -/
theorem radixText_of_integral (hi : Double.isIntegral x = true) (hk : Double.truncate? x = some k)
    (hb : 1 < base) : radixText x base
      = signed (k < 0) (String.ofList (Radix.numeral base (min k.natAbs (2 ^ 64 - 1)))) := by
  obtain ⟨b, hx, rfl⟩ := Option.map_eq_some_iff.1 hk
  have hib : b.isIntegral = true := by simpa [Double.isIntegral, hx] using hi
  have hpow : 2 ^ 64 ≤ base ^ 64 := Nat.pow_le_pow_left hb 64
  unfold radixText
  rw [hx]
  dsimp only
  rw [natAbs_truncate, Radix.writeDigits_eq_numeral hb (by decide)
    (((Nat.min_le_right _ _).trans_lt (by decide)).trans_le hpow)]
  congr 1
  exact decide_eq_decide.2 (lt_zero_iff_truncate hx hib)

theorem radix?_ofNat (hb : 1 < base) (hb' : base ≤ 36) :
    Builtin.radix? (Float.ofNat base) = some base := by
  have hall : ∀ r ≤ 36, 1 < r → Builtin.radix? (Float.ofNat r) = some r := by
    decide +kernel
  exact hall base hb' hb

theorem toRadix_ofNat (x : Float) (hb : 1 < base) (hb' : base ≤ 36) (s : Store) :
    toRadix x (Float.ofNat base) s = .done (radixText x base) s := by
  rw [toRadix, radix?_ofNat hb hb']
  rfl

theorem callNumberMethod_toString (x : Float) (hb : 1 < base) (hb' : base ≤ 36) (h10 : base ≠ 10)
    (s : Store) :
    Builtin.callNumberMethod .toString (.num x) [.num (Float.ofNat base)] s
      = .done (.str (radixText x base)) s := by
  have hall : ∀ r ≤ 36, r ≠ 10 → ¬ (Float.ofNat r == 10) = true := by decide +kernel
  have hmethod : Builtin.callNumberMethod .toString (.num x) [.num (Float.ofNat base)] s
      = (if Float.ofNat base == 10 then pure (.str (numberText x))
        else toRadix x (Float.ofNat base) >>= fun text => pure (.str text) : Run Store Value) s :=
    rfl
  rw [hmethod, if_neg (hall base hb' h10), Run.bind_done (toRadix_ofNat x hb hb' s)]
  rfl

/-! ### What is written -/

/-- **Radix texts denote the number.**  An integer in a base from 2 to 36: a minus sign exactly if
it is below zero, and digits of the base, without a zero in front of others.  The digits denote the
magnitude, or 2^64 - 1 if it is greater. -/
theorem radix_texts_denote_the_number {x : Float} {k : Int} (hi : Double.isIntegral x = true)
    (hk : Double.truncate? x = some k) {base : Nat} (hb : 2 ≤ base) (hb' : base ≤ 36)
    (h10 : base ≠ 10) (s : Store) :
    ∃ ds, Builtin.callNumberMethod .toString (.num x) [.num (Float.ofNat base)] s
        = .done (.str (signed (k < 0) (String.ofList ds))) s ∧
      Radix.Denotes base ds (min k.natAbs (2 ^ 64 - 1)) ∧ (ds.head? = some '0' → ds = ['0']) := by
  refine ⟨Radix.numeral base (min k.natAbs (2 ^ 64 - 1)), ?_, Radix.denotes_numeral hb hb' _,
    Radix.numeral_head hb hb'⟩
  rw [callNumberMethod_toString x hb hb' h10, radixText_of_integral hi hk hb]

/-- The digits of a number below zero, in base 16. -/
theorem negative_number_in_base_sixteen :
    ∃ ds, Builtin.callNumberMethod .toString (.num (-255)) [.num (Float.ofNat 16)] {}
        = .done (.str (signed true (String.ofList ds))) {} ∧
      Radix.Denotes 16 ds 255 ∧ (ds.head? = some '0' → ds = ['0']) := by
  have hi : Double.isIntegral (-255) = true := by decide
  have hk : Double.truncate? (-255) = some (-255) := by decide
  exact radix_texts_denote_the_number hi hk (by decide) (by decide) (by decide) {}

/-- The first number that does not fit into 64 bits is written as the one before it. -/
theorem two_to_the_64_is_written_one_less :
    (Double.isIntegral 18446744073709551616 = true ∧
      Double.truncate? 18446744073709551616 = some (2 ^ 64)) ∧
    Builtin.callNumberMethod .toString (.num 18446744073709551616) [.num 16] {}
      = .done (.str "ffffffffffffffff") {} ∧
    ¬ Radix.Denotes 16 "ffffffffffffffff".toList (2 ^ 64) := by
  have htext : radixText 18446744073709551616 16 = "ffffffffffffffff" := by decide
  have hdenotes : Radix.Denotes 16 "ffffffffffffffff".toList (2 ^ 64 - 1) := ⟨by decide, by decide⟩
  refine ⟨⟨by decide, by decide⟩, ?_, fun h => absurd (hdenotes.unique h) (by decide)⟩
  rw [← htext]
  exact callNumberMethod_toString _ (by decide) (by decide) (by decide) {}

end Estree
