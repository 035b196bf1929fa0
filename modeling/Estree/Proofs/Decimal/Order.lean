/-
Estree/Proofs/Decimal/Order.lean

The order of doubles.

Finite doubles are compared by their signs, then by their exponents and only then by their
mantissas.  This is the order of their values (`compare_eq_value`): a mantissa has 53 bits unless
its exponent is the least there is, so that a greater exponent is a greater magnitude
(`magnitude_lt`).

Doubles of natural numbers are at least zero, and zero only if the number is (`zero_le_ofNat`,
`ofNat_beq_zero`).  They need not be finite for that.
-/
import Estree.Proofs.Decimal.Exact
import Estree.Proofs.Decimal.Nearest

namespace Estree

open Float.Model Float.Model.UnpackedFloat

namespace Binary

variable {b : Binary}

/-- The exact value without its sign. -/
def magnitude (b : Binary) : ℚ :=
  b.mantissa * 2 ^ b.exponent

theorem value_of_negative (h : b.negative = true) : b.value = -b.magnitude := by
  rw [value, h, if_pos rfl, neg_one_mul, magnitude]

theorem value_of_not_negative (h : b.negative = false) : b.value = b.magnitude := by
  rw [value, h, if_neg Bool.false_ne_true, one_mul, magnitude]

theorem value_of_zero (h : b.mantissa = 0) : b.value = 0 := by
  simp [value, h]

theorem magnitude_pos (h : 0 < b.mantissa) : 0 < b.magnitude := by
  unfold magnitude
  positivity

end Binary

namespace Double

variable {x y : Float} {b c : Binary} {n : Nat}

/-- A greater exponent is a greater magnitude. -/
theorem magnitude_lt (hb : Binary.ofFloat? x = some b) (hc : Binary.ofFloat? y = some c)
    (hb0 : 0 < b.mantissa) (hc0 : 0 < c.mantissa) (h : b.exponent < c.exponent) :
    b.magnitude < c.magnitude := by
  have hlt : (b.mantissa : ℚ) < 2 ^ 53 := by exact_mod_cast mantissa_lt hb
  have hle : (2 : ℚ) ^ 52 ≤ c.mantissa := by
    rcases ofFloat_cases hb hb0.ne' with ⟨he, -⟩ | ⟨-, -, he, -⟩ <;>
      rcases ofFloat_cases hc hc0.ne' with ⟨he', -⟩ | ⟨hm, -⟩
    any_goals omega
    all_goals exact_mod_cast hm
  calc b.magnitude < 2 ^ 53 * 2 ^ b.exponent :=
        mul_lt_mul_of_pos_right hlt (by positivity)
    _ = 2 ^ 52 * 2 ^ (b.exponent + 1) := by
        rw [zpow_add_one₀ (by norm_num)]
        ring
    _ ≤ c.mantissa * 2 ^ c.exponent :=
        mul_le_mul hle (zpow_le_zpow_right₀ (by norm_num) (by omega)) (by positivity)
          (by positivity)

/-- Magnitudes are compared by their exponents first. -/
theorem compare_magnitude (hb : Binary.ofFloat? x = some b) (hc : Binary.ofFloat? y = some c)
    (hb0 : 0 < b.mantissa) (hc0 : 0 < c.mantissa) :
    (compare b.exponent c.exponent).then (compare b.mantissa c.mantissa)
      = compare b.magnitude c.magnitude := by
  rcases lt_trichotomy b.exponent c.exponent with h | h | h
  · rw [compare_lt_iff_lt.2 h, compare_lt_iff_lt.2 (magnitude_lt hb hc hb0 hc0 h)]
    rfl
  · have hpos : (0 : ℚ) < 2 ^ c.exponent := by positivity
    rw [compare_eq_iff_eq.2 h, Binary.magnitude, Binary.magnitude, h]
    show compare b.mantissa c.mantissa = _
    rcases lt_trichotomy b.mantissa c.mantissa with hm | hm | hm
    · have hcast : (b.mantissa : ℚ) < c.mantissa := by exact_mod_cast hm
      rw [compare_lt_iff_lt.2 hm, compare_lt_iff_lt.2 (mul_lt_mul_of_pos_right hcast hpos)]
    · rw [hm, compare_eq_iff_eq.2 rfl, compare_eq_iff_eq.2 rfl]
    · have hcast : (c.mantissa : ℚ) < b.mantissa := by exact_mod_cast hm
      rw [compare_gt_iff_gt.2 hm, compare_gt_iff_gt.2 (mul_lt_mul_of_pos_right hcast hpos)]
  · rw [compare_gt_iff_gt.2 h, compare_gt_iff_gt.2 (magnitude_lt hc hb hc0 hb0 h)]
    rfl

/-- To negate both sides of a comparison swaps it. -/
theorem swap_compare_neg (p q : ℚ) : (compare p q).swap = compare (-p) (-q) := by
  rcases lt_trichotomy p q with h | rfl | h
  · rw [compare_lt_iff_lt.2 h, compare_gt_iff_gt.2 (neg_lt_neg h)]
    rfl
  · rw [compare_eq_iff_eq.2 rfl, compare_eq_iff_eq.2 rfl]
    rfl
  · rw [compare_gt_iff_gt.2 h, compare_lt_iff_lt.2 (neg_lt_neg h)]
    rfl

/-- Finite doubles are compared by their values. -/
theorem compare_eq_value (hb : Binary.ofFloat? x = some b) (hc : Binary.ofFloat? y = some c) :
    x.toModel.unpack.compare y.toModel.unpack = some (compare b.value c.value) := by
  rcases unpack_cases hb with ⟨hb0, s, hx⟩ | ⟨hb0, hx⟩ <;>
    rcases unpack_cases hc with ⟨hc0, t, hy⟩ | ⟨hc0, hy⟩
  · rw [hx, hy, Binary.value_of_zero hb0, Binary.value_of_zero hc0]
    rfl
  -- a zero against a number: the sign of the number decides
  · have hpos := Binary.magnitude_pos hc0
    rw [hx, hy, Binary.value_of_zero hb0]
    cases hs : c.negative
    · rw [Binary.value_of_not_negative hs, compare_lt_iff_lt.2 hpos]
      rfl
    · rw [Binary.value_of_negative hs, compare_gt_iff_gt.2 (neg_lt_zero.2 hpos)]
      rfl
  · have hpos := Binary.magnitude_pos hb0
    rw [hx, hy, Binary.value_of_zero hc0]
    cases hs : b.negative
    · rw [Binary.value_of_not_negative hs, compare_gt_iff_gt.2 hpos]
      rfl
    · rw [Binary.value_of_negative hs, compare_lt_iff_lt.2 (neg_lt_zero.2 hpos)]
      rfl
  -- two numbers: unequal signs decide, equal ones leave it to the magnitudes
  · have hbpos := Binary.magnitude_pos hb0
    have hcpos := Binary.magnitude_pos hc0
    have hcompare := compare_magnitude hb hc hb0 hc0
    rw [hx, hy]
    cases hs : b.negative <;> cases ht : c.negative
    · rw [Binary.value_of_not_negative hs, Binary.value_of_not_negative ht, ← hcompare]
      rfl
    · rw [Binary.value_of_not_negative hs, Binary.value_of_negative ht,
        compare_gt_iff_gt.2 ((neg_lt_zero.2 hcpos).trans hbpos)]
      rfl
    · rw [Binary.value_of_negative hs, Binary.value_of_not_negative ht,
        compare_lt_iff_lt.2 ((neg_lt_zero.2 hbpos).trans hcpos)]
      rfl
    · rw [Binary.value_of_negative hs, Binary.value_of_negative ht]
      exact congrArg some ((congrArg Ordering.swap hcompare).trans (swap_compare_neg _ _))

/-- The order of finite doubles is that of their values. -/
theorem le_iff_value (hb : Binary.ofFloat? x = some b) (hc : Binary.ofFloat? y = some c) :
    x ≤ y ↔ b.value ≤ c.value := by
  have hle : x ≤ y ↔ x.toModel.unpack.le y.toModel.unpack = true := decide_eq_true_iff
  rw [hle, UnpackedFloat.le, compare_eq_value hb hc, Option.any_some, Ordering.isLE_iff_ne_gt,
    compare_gt_iff_gt, not_lt]

/-! ### Natural numbers -/

/-- The double of a natural number is above zero if the number is, and it may be infinite. -/
theorem unpack_ofNat (h0 : 0 < n) : (Float.ofNat n).toModel.unpack = .infinity .positive ∨
    ∃ m e hm, (Float.ofNat n).toModel.unpack = .finite .positive m e hm := by
  obtain hlt | hle := Nat.lt_or_ge n (2 ^ 53)
  · rw [ofNat_eq_whole hlt]
    exact .inr ⟨_, _, _, (unpack_pack_whole .positive hlt).trans (whole_of_pos .positive h0)⟩
  · have hlog : 53 ≤ n.log2 := (Nat.le_log2 h0.ne').2 hle
    obtain ⟨j, hj⟩ : ∃ j, n.log2 = 52 + j := Nat.exists_eq_add_of_le (by omega)
    have hshift : (n * 2 ^ 53).log2 = 52 + (j + 53) := by
      rw [log2_mul_two_pow h0.ne', hj]
      omega
    have he : (j : Int) - ((j + 53 : Nat) : Int) = -53 := by omega
    obtain ⟨m, e, hm, hround, hm52, hcases⟩ :=
      roundWithAccuracy_eq (e := j) .positive hshift (by omega)
    have he0 : 0 ≤ e := by
      rcases hcases with ⟨rfl, -⟩ | ⟨rfl, -⟩
      all_goals omega
    have hmodel := toModel_ofNat_of_le hle
    rw [← he, hround] at hmodel
    -- an exponent above the largest is packed as infinity
    obtain hlarge | hsmall := lt_or_ge 971 e
    · have hexp : 2 ^ 11 ≤ (e + (1023 : Nat) + (52 : Nat)).toNat + 1 := by omega
      have hpack : UnpackedFloat.pack Format.binary64 (.finite .positive m e hm)
          = packedInfinity Format.binary64 .positive := if_pos hexp
      left
      rw [hmodel]
      show UnpackedFloat.unpack _ (UnpackedFloat.pack _ _) = _
      rw [hpack]
      rfl
    · have hb := ofFloat?_of_pack hmodel hm52 (by omega) hsmall
      rcases unpack_cases hb with ⟨hzero, -⟩ | ⟨hm, hx⟩
      · exact absurd hzero hm.ne'
      · exact .inr ⟨_, _, _, hx⟩

theorem zero_le_ofNat (n : Nat) : 0 ≤ Float.ofNat n := by
  obtain rfl | h0 := Nat.eq_zero_or_pos n
  · decide
  · have hle : (0 : Float) ≤ Float.ofNat n ↔
        UnpackedFloat.le (.zero .positive) (Float.ofNat n).toModel.unpack = true :=
      decide_eq_true_iff
    rw [hle]
    rcases unpack_ofNat h0 with h | ⟨m, e, hm, h⟩
    all_goals
      rw [h]
      rfl

theorem ofNat_beq_zero (n : Nat) : (Float.ofNat n == 0) = true ↔ n = 0 := by
  obtain rfl | h0 := Nat.eq_zero_or_pos n
  · exact ⟨fun _ => rfl, fun _ => rfl⟩
  · have hbeq : (Float.ofNat n == 0) = false := by
      show UnpackedFloat.beq (Float.ofNat n).toModel.unpack (.zero .positive) = false
      rcases unpack_ofNat h0 with h | ⟨m, e, hm, h⟩
      all_goals
        rw [h]
        rfl
    rw [hbeq]
    exact ⟨fun h => absurd h Bool.false_ne_true, fun h => absurd h h0.ne'⟩

end Double

end Estree
