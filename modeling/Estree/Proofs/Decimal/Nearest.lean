/-
Estree/Proofs/Decimal/Nearest.lean

Natural numbers and the doubles nearest to them.

The double of a natural number is the nearest one there is (`isNearest_ofNat`).  What has more than
53 bits loses bits at its end: the mantissa is shifted, two residual bits record what was lost, and
the result is the quotient by a power of two, rounded (`roundedMantissa_shiftRight`).  So it is a
point of a grid, and no other point of that grid is nearer (`roundQuotient_nearest`).  Doubles off
the grid have a smaller exponent; they are all below the power of two in front of the number, which
is a point of the grid itself.
-/
import Estree.Proofs.Decimal.Whole

namespace Estree

open Float.Model Float.Model.UnpackedFloat

/-! ### Rounded quotients -/

section

variable {num den c : Nat}

theorem roundQuotient_mul_right (tie : Tie) (num den : Nat) (hc : 0 < c) :
    roundQuotient tie (num * c) (den * c) = roundQuotient tie num den := by
  have htwice : 2 * (num % den * c) = 2 * (num % den) * c := (Nat.mul_assoc _ _ _).symm
  unfold roundQuotient
  simp only [Nat.mul_div_mul_right _ _ hc, Nat.mul_mod_mul_right, htwice,
    Nat.mul_lt_mul_right hc, Nat.mul_left_inj hc.ne']

theorem roundQuotient_bounds (tie : Tie) (num den : Nat) :
    num / den ≤ roundQuotient tie num den ∧ roundQuotient tie num den ≤ num / den + 1 := by
  unfold roundQuotient
  cases tie <;> simp only [Tie.pick] <;> split_ifs <;> omega

/-- Rounding is off by at most a half, and by a half only if the result is even. -/
theorem roundQuotient_error (num : Nat) (hd : 0 < den) :
    2 * |(roundQuotient .toEven num den : Int) * den - num| < den ∨
      2 * |(roundQuotient .toEven num den : Int) * den - num| = den ∧
        roundQuotient .toEven num den % 2 = 0 := by
  have hnum : (num : Int) = num / den * den + num % den := by
    exact_mod_cast (Nat.div_add_mod' num den).symm
  have hlt : num % den < den := Nat.mod_lt _ hd
  have hlow : ((num / den : Nat) : Int) * den - num = -(num % den : Nat) := by
    push_cast
    linarith
  have hhigh : ((num / den + 1 : Nat) : Int) * den - num = (den - num % den : Nat) := by
    push_cast [hlt.le]
    linarith
  -- below a half it goes down, above it goes up, and a tie goes to the even quotient
  unfold roundQuotient
  simp only [Tie.pick]
  split
  · rw [hlow, abs_neg, Nat.abs_cast]
    omega
  · split
    · split
      · rw [hlow, abs_neg, Nat.abs_cast]
        omega
      · rw [hhigh, Nat.abs_cast]
        omega
    · rw [hhigh, Nat.abs_cast]
      omega

/-- No multiple of the denominator is nearer to the numerator than the rounded one. -/
theorem roundQuotient_nearest (num : Nat) (hd : 0 < den) (k : Int) :
    |(roundQuotient .toEven num den : Int) * den - num| < |k * den - num| ∨
      |(roundQuotient .toEven num den : Int) * den - num| = |k * den - num| ∧
        (k = roundQuotient .toEven num den ∨ roundQuotient .toEven num den % 2 = 0) := by
  have herror := roundQuotient_error num hd
  generalize roundQuotient .toEven num den = a at *
  by_cases hk : k = a
  · rw [hk]
    exact .inr ⟨rfl, .inl rfl⟩
  · -- two multiples are at least the denominator apart
    have hapart : (den : Int) ≤ |(a : Int) * den - num| + |k * den - num| := by
      have hstep : 1 ≤ |(a : Int) - k| := Int.one_le_abs (sub_ne_zero.2 (Ne.symm hk))
      calc (den : Int) ≤ |(a : Int) - k| * den := le_mul_of_one_le_left (by omega) hstep
        _ = |(a * den - num) - (k * den - num)| := by
          rw [← Nat.abs_cast den, ← abs_mul, Nat.abs_cast]
          ring_nf
        _ ≤ _ := abs_sub _ _
    omega

end

namespace Double

variable {n m k j : Nat} {e : Int} {x y : Float} {b : Binary}

/-! ### Rounding to 53 bits -/

/-- The residual bits of a shift: the last bit that was shifted out, and whether there was a one
among those before it. -/
theorem shiftRight_succ (m k : Nat) :
    (⟨m, false, false⟩ : ExtendedMantissa) >>> (k + 1)
      = ⟨m / 2 ^ (k + 1), m / 2 ^ k % 2 != 0, m % 2 ^ k != 0⟩ := by
  induction k with
  | zero =>
    simp [HShiftRight.hShiftRight, Nat.repeat, ExtendedMantissa.shiftRightOne, Nat.mod_one]
  | succ k ih =>
    show ExtendedMantissa.shiftRightOne ((⟨m, false, false⟩ : ExtendedMantissa) >>> (k + 1)) = _
    have hmod : m % 2 ^ (k + 1) = m % 2 ^ k + 2 ^ k * (m / 2 ^ k % 2) := Nat.mod_pow_succ
    have hpos : 0 < 2 ^ k := Nat.two_pow_pos k
    rw [ih, ExtendedMantissa.shiftRightOne, Nat.div_div_eq_div_mul, ← Nat.pow_succ, hmod]
    congr 1
    rcases Nat.mod_two_eq_zero_or_one (m / 2 ^ k) with h | h <;> simp [h]

/-- To shift a mantissa and to round it by its residual bits is to divide it and to round. -/
theorem roundedMantissa_shiftRight (m k : Nat) :
    ((⟨m, false, false⟩ : ExtendedMantissa) >>> k).roundedMantissa
      = roundQuotient .toEven m (2 ^ k) := by
  cases k with
  | zero =>
    simp [HShiftRight.hShiftRight, Nat.repeat, roundQuotient, Nat.mod_one,
      ExtendedMantissa.roundedMantissa, ExtendedMantissa.accuracy, Accuracy.roundToNearestEven]
  | succ k =>
    have hmod : m % 2 ^ (k + 1) = m % 2 ^ k + 2 ^ k * (m / 2 ^ k % 2) := Nat.mod_pow_succ
    have hlt : m % 2 ^ k < 2 ^ k := Nat.mod_lt _ (Nat.two_pow_pos k)
    have hpow : 2 ^ (k + 1) = 2 * 2 ^ k := Nat.pow_succ'
    have hbit := Nat.mod_two_eq_zero_or_one (m / 2 ^ k)
    simp only [shiftRight_succ, roundQuotient, hmod, Tie.pick]
    generalize m / 2 ^ (k + 1) = low
    rw [hpow]
    generalize m % 2 ^ k = rest at *
    -- the rest is nothing, below, at or above the half of the last place
    by_cases hr : rest = 0 <;> rcases hbit with h | h <;>
      simp only [hr, h, ExtendedMantissa.roundedMantissa, ExtendedMantissa.accuracy,
        Accuracy.roundToNearestEven] <;> grind

/-- What a mantissa with too many bits is rounded to: if there is one bit too many again, it is a
power of two. -/
theorem roundWithAccuracy_eq (s : Sign) (hlog : m.log2 = 52 + k) (he : -1074 ≤ e) :
    ∃ m' e' hm, roundWithAccuracy Format.binary64 s m (e - k) .exact = .finite s m' e' hm ∧
      m'.log2 = 52 ∧ (e' = e ∧ m' = roundQuotient .toEven m (2 ^ k) ∨
        e' = e + 1 ∧ m' = 2 ^ 52 ∧ roundQuotient .toEven m (2 ^ k) = 2 ^ 53) := by
  have hm : m ≠ 0 := fun h => absurd hlog (by rw [h, Nat.log2_zero]; omega)
  obtain ⟨hlo, hhi⟩ : 2 ^ 52 ≤ m / 2 ^ k ∧ m / 2 ^ k < 2 ^ 53 := by
    obtain ⟨hlo, hhi⟩ := (Nat.log2_eq_iff hm).1 hlog
    rw [Nat.le_div_iff_mul_le (Nat.two_pow_pos k), Nat.div_lt_iff_lt_mul (Nat.two_pow_pos k),
      ← Nat.pow_add, ← Nat.pow_add, Nat.add_right_comm 52 1 k]
    exact ⟨hlo, hhi⟩
  obtain ⟨hlow, hhigh⟩ := roundQuotient_bounds .toEven m (2 ^ k)
  have hfirst := shiftToTargetExponent_eq hlog he
  have hround := roundedMantissa_shiftRight m k
  -- rounding up may carry into a further bit; the second shift then takes one bit off
  obtain hlt | hcarry := (hhigh.trans hhi).lt_or_eq
  · have hl : (roundQuotient .toEven m (2 ^ k)).log2 = 52 + 0 :=
      (Nat.log2_eq_iff (by omega)).2 ⟨by omega, hlt⟩
    have hsecond := shiftToTargetExponent_eq hl he
    rw [Int.natCast_zero, Int.sub_zero, ← hround] at hsecond
    exact ⟨_, e, by omega, roundWithAccuracy_of_shifts s hfirst hsecond hround _, hl,
      .inl ⟨rfl, rfl⟩⟩
  · have hl : (2 ^ 53).log2 = 52 + 1 := by decide
    have hsecond := shiftToTargetExponent_eq (e := e + 1) hl (by omega)
    rw [Int.natCast_one, Int.add_sub_cancel, ← hcarry, ← hround] at hsecond
    have h52 : ((⟨m, false, false⟩ : ExtendedMantissa) >>> k).roundedMantissa / 2 = 2 ^ 52 := by
      rw [hround, hcarry]
      norm_num
    exact ⟨2 ^ 52, e + 1, by decide, roundWithAccuracy_of_shifts s hfirst hsecond h52 _, by decide,
      .inr ⟨rfl, rfl, hcarry⟩⟩

/-- The double of a natural number from 2^53 on is made by rounding it. -/
theorem toModel_ofNat_of_le (hn : 2 ^ 53 ≤ n) : (Float.ofNat n).toModel =
    Float.Model.pack (roundWithAccuracy Format.binary64 .positive (n * 2 ^ 53) (-53) .exact) := by
  have hslow : Float.ofNat n = Float.ofModel (Float.Model.ofScientific n 0) := by
    show Float.ofScientific n false 0 = _
    rw [Float.ofScientific, dif_neg (by omega)]
    rfl
  have hpow : (0 : Int) < 2 ^ Format.binary64.exponentBits := by decide
  have hdigits : n * 2 ^ Format.binary64.mantissaBits * 10 ^ Int.toNat 0 = n * 2 ^ 53 :=
    Nat.mul_one _
  rw [hslow]
  show Float.Model.pack (UnpackedFloat.ofScientific Format.binary64 n 0) = _
  rw [UnpackedFloat.ofScientific, dif_neg (by omega), if_neg (by omega), if_neg (by omega),
    if_pos (Int.le_refl 0), UnpackedFloat.mul, Nat.shiftLeft_eq, hdigits]
  rfl

end Double

/-! ### Nearest doubles -/

namespace Binary

/-- The exact value. -/
def value (b : Binary) : ℚ :=
  (if b.negative then -1 else 1) * (b.mantissa * 2 ^ b.exponent)

end Binary

namespace Double

variable {n j : Nat} {x y : Float} {b c : Binary}

/-- A double is the nearest one to a number: no finite double is nearer, and of two that are equally
near it is the one with an even mantissa. -/
def IsNearest (x : Float) (q : ℚ) : Prop :=
  ∃ b, Binary.ofFloat? x = some b ∧ ∀ y c, Binary.ofFloat? y = some c →
    |b.value - q| < |c.value - q| ∨
      |b.value - q| = |c.value - q| ∧ (c.value = b.value ∨ b.mantissa % 2 = 0)

theorem mantissa_lt (hb : Binary.ofFloat? x = some b) : b.mantissa < 2 ^ 53 := by
  obtain h0 | h0 := Nat.eq_zero_or_pos b.mantissa
  · omega
  · rcases ofFloat_cases hb h0.ne' with ⟨-, h⟩ | ⟨-, h, -⟩ <;> omega

/-- A double that is its number is the nearest one. -/
theorem isNearest_of_value {q : ℚ} (hb : Binary.ofFloat? x = some b) (hq : b.value = q) :
    IsNearest x q := by
  refine ⟨b, hb, fun y c hc => ?_⟩
  rw [hq, sub_self, abs_zero]
  by_cases h : c.value = q
  · rw [h, sub_self, abs_zero]
    exact .inr ⟨rfl, .inl rfl⟩
  · exact .inl (abs_pos.2 (sub_ne_zero.2 h))

/-- From 2^52 last places on, a double is a multiple of the last place. -/
theorem value_eq_mul (hb : Binary.ofFloat? x = some b) (h : 2 ^ (52 + j) ≤ b.value) :
    ∃ k : Int, b.value = (k * 2 ^ j : Int) := by
  have hm := mantissa_lt hb
  have hpos : 0 < (2 : ℚ) ^ b.exponent := by positivity
  have hvalue : b.value = b.mantissa * 2 ^ b.exponent := by
    unfold Binary.value at h ⊢
    split at h
    · have hle : (0 : ℚ) ≤ b.mantissa * 2 ^ b.exponent := by positivity
      have hlt : (0 : ℚ) < 2 ^ (52 + j) := by positivity
      linarith
    · simp [*]
  -- with an exponent below `j` the value would stay below `2 ^ (52 + j)`
  have hexp : (j : Int) ≤ b.exponent := by
    by_contra hlt
    have hle : (2 : ℚ) ^ b.exponent ≤ 2 ^ ((j : Int) - 1) :=
      zpow_le_zpow_right₀ (by norm_num) (by omega)
    have hlt' : (b.mantissa : ℚ) < 2 ^ 53 := by exact_mod_cast hm
    have hprod : b.mantissa * (2 : ℚ) ^ b.exponent < 2 ^ 53 * 2 ^ ((j : Int) - 1) :=
      mul_lt_mul hlt' hle hpos (by positivity)
    have htwo : (2 : ℚ) ^ 53 * 2 ^ ((j : Int) - 1) = 2 ^ (52 + j) := by
      rw [zpow_sub_one₀ (by norm_num), zpow_natCast]
      ring
    rw [hvalue] at h
    linarith
  obtain ⟨d, hd⟩ := Int.eq_ofNat_of_zero_le (Int.sub_nonneg.2 hexp)
  have he : b.exponent = (d : Int) + j := by omega
  refine ⟨b.mantissa * 2 ^ d, ?_⟩
  rw [hvalue, he, zpow_add₀ (by norm_num), zpow_natCast, zpow_natCast]
  push_cast
  ring

/-- What is nearest on the grid of the last place is the nearest double. -/
theorem isNearest_of_rounded (hb : Binary.ofFloat? x = some b) (hn : 2 ^ (52 + j) ≤ n)
    (hvalue : b.value = (roundQuotient .toEven n (2 ^ j) * 2 ^ j : Int))
    (heven : roundQuotient .toEven n (2 ^ j) % 2 = 0 → b.mantissa % 2 = 0) : IsNearest x n := by
  have hgrid (k : Int) := roundQuotient_nearest n (Nat.two_pow_pos j) k
  generalize roundQuotient .toEven n (2 ^ j) = a at *
  push_cast at hgrid
  have habs (k : Int) : |((k * 2 ^ j : Int) : ℚ) - n| = (|k * 2 ^ j - (n : Int)| : Int) := by
    push_cast
    rfl
  refine ⟨b, hb, fun y c hc => ?_⟩
  rw [hvalue, habs]
  rcases lt_or_ge c.value (2 ^ (52 + j)) with hlt | hle
  · -- the power of two in front of the number is a point of the grid, and `c` is below it
    left
    have hdist : |(2 : Int) ^ 52 * 2 ^ j - n| = (n : Int) - 2 ^ (52 + j) := by
      have hcast : (2 : Int) ^ (52 + j) ≤ n := by exact_mod_cast hn
      rw [← pow_add, abs_sub_comm, abs_of_nonneg (by omega)]
    have hle : |(a : Int) * 2 ^ j - n| ≤ (n : Int) - 2 ^ (52 + j) := by
      rcases hgrid (2 ^ 52) with h | ⟨h, -⟩ <;> omega
    calc ((|(a : Int) * 2 ^ j - n| : Int) : ℚ) ≤ ((n - 2 ^ (52 + j) : Int) : ℚ) := by
          exact_mod_cast hle
      _ < n - c.value := by
          push_cast
          linarith
      _ ≤ |c.value - n| := by
          rw [abs_sub_comm]
          exact le_abs_self _
  -- every other number that high is a point of the grid
  · obtain ⟨k, hk⟩ := value_eq_mul hc hle
    rw [hk, habs]
    rcases hgrid k with h | ⟨h, hcases⟩
    · exact .inl (by exact_mod_cast h)
    · refine .inr ⟨by exact_mod_cast h, hcases.imp (fun h => ?_) heven⟩
      rw [h]

/-- The double of a natural number is the nearest one. -/
theorem isNearest_ofNat (hn : n.log2 < 1023) : IsNearest (Float.ofNat n) n := by
  obtain rfl | h0 := Nat.eq_zero_or_pos n
  · have hb : Binary.ofFloat? (Float.ofNat 0) = some ⟨false, 0, -1074⟩ := rfl
    exact isNearest_of_value hb (by simp [Binary.value])
  -- small numbers are exact; the others are rounded to a multiple of `2 ^ j`
  rcases Nat.lt_or_ge n (2 ^ 53) with hlt | hle
  · exact isNearest_of_value (ofFloat?_ofNat h0 hlt) (by simp [Binary.value])
  · have hlog : 53 ≤ n.log2 := (Nat.le_log2 h0.ne').2 hle
    obtain ⟨j, hj⟩ : ∃ j, n.log2 = 52 + j := Nat.exists_eq_add_of_le (by omega)
    have hshift : (n * 2 ^ 53).log2 = 52 + (j + 53) := by
      rw [log2_mul_two_pow h0.ne', hj]
      omega
    have hquotient : roundQuotient .toEven (n * 2 ^ 53) (2 ^ (j + 53))
        = roundQuotient .toEven n (2 ^ j) := by
      rw [Nat.pow_add, roundQuotient_mul_right _ _ _ (Nat.two_pow_pos 53)]
    have he : (j : Int) - ((j + 53 : Nat) : Int) = -53 := by omega
    obtain ⟨m, e, hm, hround, hm52, hcases⟩ :=
      roundWithAccuracy_eq (e := j) .positive hshift (by omega)
    rw [hquotient] at hcases
    have hmodel := toModel_ofNat_of_le hle
    rw [← he, hround] at hmodel
    have hb := ofFloat?_of_pack hmodel hm52 (by omega) (by omega)
    refine isNearest_of_rounded hb (j := j) (hj ▸ Nat.log2_self_le h0.ne') ?_ ?_
    -- a carry leaves the rounded multiple the power of two it is
    · have hpositive : (Sign.positive == Sign.negative) = false := rfl
      rw [Binary.value, hpositive, if_neg Bool.false_ne_true, one_mul]
      rcases hcases with ⟨rfl, rfl⟩ | ⟨rfl, rfl, ha⟩
      · push_cast
        rw [zpow_natCast]
      · rw [ha, zpow_add_one₀ (by norm_num), zpow_natCast]
        push_cast
        ring
    · rcases hcases with ⟨-, rfl⟩ | ⟨-, rfl, -⟩
      · exact id
      · exact fun _ => by norm_num

end Double

end Estree
