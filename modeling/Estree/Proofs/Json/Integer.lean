/-
Estree/Proofs/Json/Integer.lean

Integers as doubles.

Every integer of a magnitude below 2^53 has a double of exactly its value, and what the bits of a
double say about an integral value below 2^53 leads back to that integer: `Float.ofInt b.truncate`
is the double that `b` was read off (`ofInt_truncate`), zero apart, of which there are two.

A natural number becomes a double by rounding it to 53 bits and multiplying it by one.  Neither step
loses anything, since its digits can be followed by zeros up to the 53rd place (`round_scaled`),
which are just as well shifted out again (`roundWithAccuracy_exact`).
-/
import Mathlib
import Estree.Builtin.Json

namespace Estree

open Float.Model Float.Model.UnpackedFloat

namespace Double

/-! ### Rounding -/

theorem log2_mul_two_pow {n : Nat} (hn : n ≠ 0) (k : Nat) : (n * 2 ^ k).log2 = n.log2 + k := by
  induction k with
  | zero => simp
  | succ k ih =>
    have h0 : n * 2 ^ k ≠ 0 := Nat.mul_ne_zero hn (Nat.two_pow_pos k).ne'
    have h2 : n * 2 ^ (k + 1) = 2 * (n * 2 ^ k) := by ring
    rw [h2, Nat.log2_two_mul h0, ih]
    omega

theorem log2_le {n : Nat} (h0 : 0 < n) (hn : n < 2 ^ 53) : n.log2 ≤ 52 :=
  Nat.le_of_lt_succ ((Nat.log2_lt h0.ne').mpr hn)

/-- A natural number with zeros after it up to the 53rd place. -/
theorem log2_filled {n : Nat} (h0 : 0 < n) (hn : n < 2 ^ 53) :
    (n * 2 ^ (52 - n.log2)).log2 = 52 := by
  have hlog : n.log2 ≤ 52 := log2_le h0 hn
  rw [log2_mul_two_pow h0.ne']
  omega

/-- Zeros can be shifted out of a mantissa without a rest. -/
theorem shiftRight_mul_two_pow (m k : Nat) :
    (⟨m * 2 ^ k, false, false⟩ : ExtendedMantissa) >>> k = ⟨m, false, false⟩ := by
  show k.repeat ExtendedMantissa.shiftRightOne _ = _
  induction k generalizing m with
  | zero => simp [Nat.repeat]
  | succ k ih =>
    have h2 : m * 2 ^ (k + 1) = m * 2 * 2 ^ k := by ring
    rw [Nat.repeat, h2, ih]
    simp [ExtendedMantissa.shiftRightOne]

/-- A significand of 53 bits keeps its exponent. -/
theorem targetExponent_eq {m k : Nat} {e : Int} (hlog : m.log2 = 52 + k) (he : -1074 ≤ e) :
    Format.targetExponent Format.binary64 (totalExponent m (e - k)) = e := by
  simp only [Format.targetExponent, totalExponent, hlog, Format.mantissaBits, Format.minExponent]
  omega

/-- A mantissa with too many bits is shifted until it has 53 of them. -/
theorem shiftToTargetExponent_eq {m k : Nat} {e : Int} (hlog : m.log2 = 52 + k) (he : -1074 ≤ e) :
    shiftToTargetExponent Format.binary64 m (e - k) .exact
      = ((⟨m, false, false⟩ : ExtendedMantissa) >>> k, e) := by
  simp [shiftToTargetExponent, targetExponent_eq hlog he, shiftToExponent,
    ExtendedMantissa.ofMantissaAndAccuracy]

/-- The two steps of rounding: to the bits that there are, and once more if that made one more. -/
theorem roundWithAccuracy_of_shifts {m m' : Nat} {e e₁ e' : Int} {accuracy : Accuracy}
    {em em' : ExtendedMantissa} (s : Sign)
    (hfirst : shiftToTargetExponent Format.binary64 m e accuracy = (em, e₁))
    (hsecond : shiftToTargetExponent Format.binary64 em.roundedMantissa e₁ .exact = (em', e'))
    (hm' : em'.mantissa = m') (hm : 0 < m') :
    roundWithAccuracy Format.binary64 s m e accuracy = .finite s m' e' hm := by
  subst hm'
  simp [roundWithAccuracy, hfirst, hsecond, hm.ne']

/-- A mantissa of 53 bits, with an exponent that does not make it too small, is rounded to itself,
also if zeros follow it. -/
theorem roundWithAccuracy_exact {m k : Nat} {e : Int} (s : Sign) (hm : 0 < m) (hlog : m.log2 = 52)
    (he : -1074 ≤ e) :
    roundWithAccuracy Format.binary64 s (m * 2 ^ k) (e - k) .exact = .finite s m e hm := by
  have shift (j : Nat) : shiftToTargetExponent Format.binary64 (m * 2 ^ j) (e - j) .exact
      = (⟨m, false, false⟩, e) := by
    have hl : (m * 2 ^ j).log2 = 52 + j := by rw [log2_mul_two_pow hm.ne', hlog]
    rw [shiftToTargetExponent_eq hl he, shiftRight_mul_two_pow]
  have shift0 : shiftToTargetExponent Format.binary64 m e .exact = (⟨m, false, false⟩, e) := by
    simpa using shift 0
  exact roundWithAccuracy_of_shifts s (shift k) shift0 rfl hm

/-- A natural number below 2^53 with enough zeros after it, cut down to 53 bits. -/
theorem roundWithAccuracy_scaled {n i : Nat} (s : Sign) (h0 : 0 < n) (hn : n < 2 ^ 53)
    (hi : 52 - n.log2 ≤ i) : ∃ hm, roundWithAccuracy Format.binary64 s (n * 2 ^ i) (-i) .exact =
      .finite s (n * 2 ^ (52 - n.log2)) ((n.log2 : Int) - 52) hm := by
  have hlog : n.log2 ≤ 52 := log2_le h0 hn
  have hm : 0 < n * 2 ^ (52 - n.log2) := Nat.mul_pos h0 (Nat.two_pow_pos _)
  obtain ⟨k, rfl⟩ := Nat.exists_eq_add_of_le hi
  have he : -((52 - n.log2 + k : Nat) : Int) = (n.log2 : Int) - 52 - k := by omega
  rw [Nat.pow_add, ← Nat.mul_assoc, he]
  exact ⟨hm, roundWithAccuracy_exact s hm (log2_filled h0 hn) (by omega)⟩

/-- A natural number below 2^53, with zeros after it or not, as a mantissa of 53 bits. -/
theorem round_scaled {n : Nat} (s : Sign) (h0 : 0 < n) (hn : n < 2 ^ 53) (i : Nat) :
    ∃ hm, UnpackedFloat.round Format.binary64 s (n * 2 ^ i) (-i) =
      .finite s (n * 2 ^ (52 - n.log2)) ((n.log2 : Int) - 52) hm := by
  have hlog : n.log2 ≤ 52 := log2_le h0 hn
  have ht : Format.targetExponent Format.binary64 (totalExponent (n * 2 ^ i) (-i))
      = (n.log2 : Int) - 52 := by
    simp only [Format.targetExponent, totalExponent, Format.mantissaBits, Format.minExponent,
      log2_mul_two_pow h0.ne']
    omega
  have hs : (-(i : Int) - ((n.log2 : Int) - 52)).toNat = 52 - n.log2 - i := by omega
  have he : -(i : Int) - ((52 - n.log2 - i : Nat) : Int)
      = -((i + (52 - n.log2 - i) : Nat) : Int) := by omega
  simp only [UnpackedFloat.round, ht, decreaseExponent, hs, Nat.shiftLeft_eq, Nat.mul_assoc,
    ← Nat.pow_add, he]
  exact roundWithAccuracy_scaled s h0 hn (by omega)

/-! ### Bits -/

theorem toNat_packComponents (s : Sign) (e : BitVec 11) (m : BitVec 52) :
    (packComponents Format.binary64 s e m).toNat
      = s.toBitVec.toNat * 2 ^ 63 + e.toNat * 2 ^ 52 + m.toNat := by
  have hm : m.toNat < 2 ^ 52 := m.isLt
  have he : e.toNat < 2 ^ 11 := e.isLt
  show ((s.toBitVec ++ e) ++ m).toNat = _
  rw [BitVec.toNat_append, BitVec.toNat_append, ← Nat.shiftLeft_add_eq_or_of_lt he,
    ← Nat.shiftLeft_add_eq_or_of_lt hm, Nat.shiftLeft_eq, Nat.shiftLeft_eq]
  ring

variable {m : Nat} {e : Int}

theorem pack_finite (s : Sign) (hm : 0 < m) (hlog : m.log2 = 52) (he : -1074 ≤ e) (he' : e ≤ 971) :
    UnpackedFloat.pack Format.binary64 (.finite s m e hm) =
      packComponents Format.binary64 s (BitVec.ofNat 11 (e + 1075).toNat) (BitVec.ofNat 52 m) := by
  have hb : ¬ 2047 ≤ (e + 1075).toNat := by omega
  have h1075 : e + (Format.exponentBias Format.binary64 : Int) + 52 = e + 1075 := by
    show e + 1023 + 52 = _
    omega
  simp [UnpackedFloat.pack, hlog, Format.mantissaBits, h1075, hb]

theorem toNat_pack_finite (s : Sign) (hm : 0 < m) (hlog : m.log2 = 52) (he : -1074 ≤ e)
    (he' : e ≤ 971) :
    (UnpackedFloat.pack Format.binary64 (.finite s m e hm)).toNat
      = s.toBitVec.toNat * 2 ^ 63 + (e + 1075).toNat * 2 ^ 52 + (m - 2 ^ 52) := by
  obtain ⟨hlo, hhi⟩ : 2 ^ 52 ≤ m ∧ m < 2 ^ 53 := (Nat.log2_eq_iff hm.ne').mp hlog
  rw [pack_finite s hm hlog he he', toNat_packComponents]
  simp only [BitVec.toNat_ofNat]
  omega

/-- Unpacking reads back the fields that packing wrote. -/
theorem unpack_pack_finite (s : Sign) (hm : 0 < m) (hlog : m.log2 = 52) (he : -1074 ≤ e)
    (he' : e ≤ 971) :
    UnpackedFloat.unpack Format.binary64 (UnpackedFloat.pack Format.binary64 (.finite s m e hm))
      = .finite s m e hm := by
  obtain ⟨hlo, hhi⟩ : 2 ^ 52 ≤ m ∧ m < 2 ^ 53 := (Nat.log2_eq_iff hm.ne').mp hlog
  rw [pack_finite s hm hlog he he']
  -- the exponent is neither of the two values that mean something else
  have hne : BitVec.ofNat 11 (e + 1075).toNat ≠ -1#11 := by
    intro h
    have := congrArg BitVec.toNat h
    simp at this
    omega
  have hne' : BitVec.ofNat 11 (e + 1075).toNat ≠ 0#11 := by
    intro h
    have := congrArg BitVec.toNat h
    simp at this
    omega
  simp only [UnpackedFloat.unpack, unpackExponent_packComponents, unpackMantissa_packComponents,
    unpackSign_packComponents, Sign.ofBitVec_toBitVec, hne, hne', if_false,
    UnpackedFloat.finite.injEq, true_and]
  constructor
  -- the leading bit, left out by packing, is put back
  · show ((1#1 ++ BitVec.ofNat 52 m : BitVec 53)).toNat = m
    rw [BitVec.toNat_append, ← Nat.shiftLeft_add_eq_or_of_lt (BitVec.isLt _), Nat.shiftLeft_eq]
    simp only [BitVec.toNat_ofNat]
    omega
  · show ((BitVec.ofNat 11 (e + 1075).toNat).toNat : Int) - ((1023 : Nat) + (52 : Nat) : Int) = e
    simp only [BitVec.toNat_ofNat]
    omega

/-! ### Integers -/

theorem unpack_pack {m : Nat} {e : Int} (s : Sign) (hm : 0 < m) (hlog : m.log2 = 52)
    (he : -1074 ≤ e) (he' : e ≤ 971) :
    (Float.Model.pack (.finite s m e hm)).unpack = .finite s m e hm :=
  unpack_pack_finite s hm hlog he he'

/-- To multiply by one changes nothing. -/
theorem pack_mul_one {m : Nat} {e : Int} (s : Sign) (hm : 0 < m) (hlog : m.log2 = 52)
    (he : -1074 ≤ e) (he' : e ≤ 971) :
    Float.Model.pack (.finite s m e hm) * Float.Model.ofBits 0x3FF0000000000000
      = Float.Model.pack (.finite s m e hm) := by
  have hone : (Float.Model.ofBits 0x3FF0000000000000).unpack
      = .finite .positive (2 ^ 52) (-52) (by decide) := rfl
  have hs : s * Sign.positive = s := by cases s <;> rfl
  show Float.Model.pack (UnpackedFloat.mul _ _ _) = _
  rw [unpack_pack s hm hlog he he', hone, UnpackedFloat.mul, hs]
  exact congrArg Float.Model.pack (roundWithAccuracy_exact s hm hlog he)

/-- Where a natural number below `2 ^ 53` stands in the format. -/
theorem toModel_ofNat {n : Nat} (h0 : 0 < n) (hn : n < 2 ^ 53) :
    ∃ hm, (Float.ofNat n).toModel = Float.Model.pack
      (.finite .positive (n * 2 ^ (52 - n.log2)) ((n.log2 : Int) - 52) hm) := by
  have hlog : n.log2 ≤ 52 := log2_le h0 hn
  obtain ⟨hm, hr⟩ := round_scaled .positive h0 hn 0
  rw [Nat.pow_zero, Nat.mul_one, Int.natCast_zero, Int.neg_zero] at hr
  have hl : (n * 2 ^ (52 - n.log2)).log2 = 52 := log2_filled h0 hn
  refine ⟨hm, ?_⟩
  have hu : n.toUInt64.toNat = n := by
    show n % 2 ^ 64 = n
    omega
  -- the conversion multiplies the integer by one, in floating point
  have hmul : (Float.ofNat n).toModel = Float.Model.ofUInt64 n.toUInt64
      * Float.Model.ofBits 0x3FF0000000000000 := by
    have h : Float.ofNat n = n.toUInt64.toFloat * Float.ofBits 0x3FF0000000000000 := by
      show Float.ofScientific n false 0 = _
      rw [Float.ofScientific, dif_pos ⟨hn, by decide⟩]
      rfl
    rw [h]
    rfl
  have hinteger : Float.Model.ofUInt64 n.toUInt64 = Float.Model.pack
      (.finite .positive (n * 2 ^ (52 - n.log2)) ((n.log2 : Int) - 52) hm) := by
    have hn' : compare (n : Int) 0 = .gt := by
      rw [compare_gt_iff_gt]
      omega
    simp only [Float.Model.ofUInt64, UnpackedFloat.ofUInt64, hu, UnpackedFloat.ofNat,
      UnpackedFloat.ofInt, UnpackedFloat.normalize, hn', Int.toNat_natCast, hr]
  rw [hmul, hinteger]
  exact pack_mul_one .positive hm hl (by omega) (by omega)

/-- The bits of an integer that is not zero: its sign, the place of its leading digit, and the
digits after it. -/
theorem toBits_ofInt {k : Int} (h0 : k ≠ 0) (hk : k.natAbs < 2 ^ 53) :
    (Float.ofInt k).toBits.toNat = (if k < 0 then 2 ^ 63 else 0)
      + (k.natAbs.log2 + 1023) * 2 ^ 52 + (k.natAbs * 2 ^ (52 - k.natAbs.log2) - 2 ^ 52) := by
  have hpos : 0 < k.natAbs := Int.natAbs_pos.mpr h0
  have hlog : k.natAbs.log2 ≤ 52 := log2_le hpos hk
  have hl : (k.natAbs * 2 ^ (52 - k.natAbs.log2)).log2 = 52 := log2_filled hpos hk
  obtain ⟨hm, hn⟩ := toModel_ofNat hpos hk
  -- the bits of either sign, once the number is known to be packed from these fields
  have bits (s : Sign) (x : Float) (hx : x.toModel = Float.Model.pack
      (.finite s (k.natAbs * 2 ^ (52 - k.natAbs.log2)) ((k.natAbs.log2 : Int) - 52) hm)) :
      x.toBits.toNat = s.toBitVec.toNat * 2 ^ 63 + (k.natAbs.log2 + 1023) * 2 ^ 52
        + (k.natAbs * 2 ^ (52 - k.natAbs.log2) - 2 ^ 52) := by
    have he : ((k.natAbs.log2 : Int) - 52 + 1075).toNat = k.natAbs.log2 + 1023 := by omega
    have h := toNat_pack_finite s hm hl (e := (k.natAbs.log2 : Int) - 52) (by omega) (by omega)
    rw [he] at h
    rw [← h, Float.toBits, hx]
    rfl
  rcases k with n | n
  · have hlt : ¬ Int.ofNat n < 0 := Int.not_lt.mpr (Int.natCast_nonneg n)
    rw [if_neg hlt]
    exact bits .positive _ hn
  · rw [if_pos (Int.negSucc_lt_zero n)]
    refine bits .negative _ ?_
    show -(Float.ofNat (n + 1)).toModel = _
    have hn' : (Float.ofNat (n + 1)).toModel = _ := hn
    rw [hn']
    show Float.Model.pack (UnpackedFloat.neg _) = _
    rw [unpack_pack .positive hm hl (by omega) (by omega)]
    rfl

/-- The parts of a double that is not zero, and its bits put together from them. -/
theorem ofFloat_cases {x : Float} {b : Binary} (hb : Binary.ofFloat? x = some b)
    (h0 : b.mantissa ≠ 0) :
    (b.exponent = -1074 ∧ b.mantissa < 2 ^ 52) ∨
    (2 ^ 52 ≤ b.mantissa ∧ b.mantissa < 2 ^ 53 ∧ -1074 ≤ b.exponent ∧
      x.toBits.toNat = (if b.negative then 2 ^ 63 else 0) + (b.exponent + 1075).toNat * 2 ^ 52
        + (b.mantissa - 2 ^ 52)) := by
  have hlt : x.toBits.toNat < 2 ^ 64 := x.toBits.toNat_lt
  unfold Binary.ofFloat? at hb
  simp only [Nat.pow_eq] at hb
  split at hb
  · cases hb
  -- an exponent of zero is a subnormal number
  · split at hb
    · cases hb
      left
      exact ⟨rfl, Nat.mod_lt _ (Nat.two_pow_pos _)⟩
    · right
      cases hb
      dsimp only
      refine ⟨by omega, by omega, by omega, ?_⟩
      by_cases hs : x.toBits.toNat / 2 ^ 63 = 1
      · simp only [hs, beq_self_eq_true, if_true]
        omega
      · simp only [beq_iff_eq, hs, if_false]
        omega

/-- An integer is its mantissa times a power of two, or divided by one without a rest. -/
theorem mantissa_mul_of_isIntegral {b : Binary} (hi : b.isIntegral = true) :
    b.mantissa * 2 ^ b.exponent.toNat = b.floorAbs * 2 ^ (-b.exponent).toNat := by
  have hmod : b.mantissa * 2 ^ b.exponent.toNat % 2 ^ (-b.exponent).toNat = 0 := by
    simpa [Binary.isIntegral, Binary.ratio, Nat.pow_eq] using hi
  have hfloor : b.floorAbs = b.mantissa * 2 ^ b.exponent.toNat / 2 ^ (-b.exponent).toNat := by
    simp [Binary.floorAbs, Binary.ratio, Nat.pow_eq]
  rw [hfloor, Nat.div_mul_cancel (Nat.dvd_of_mod_eq_zero hmod)]

/-- A double with an integral value below 2^53 has a mantissa with only zeros behind the point. -/
theorem mantissa_eq {x : Float} {b : Binary} (hb : Binary.ofFloat? x = some b)
    (hi : b.isIntegral = true) (hf : b.floorAbs < 2 ^ 53) (h0 : b.mantissa ≠ 0) :
    ∃ j : Nat, j ≤ 52 ∧ b.mantissa = b.floorAbs * 2 ^ j ∧ 2 ^ 52 ≤ b.mantissa ∧
      b.mantissa < 2 ^ 53 ∧ x.toBits.toNat =
        (if b.negative then 2 ^ 63 else 0) + (1075 - j) * 2 ^ 52 + (b.mantissa - 2 ^ 52) := by
  have hprod := mantissa_mul_of_isIntegral hi
  have hfpos : 0 < b.floorAbs := by
    refine Nat.pos_of_ne_zero fun h => ?_
    rw [h, Nat.zero_mul] at hprod
    exact Nat.mul_ne_zero h0 (Nat.two_pow_pos _).ne' hprod
  -- so many zeros do not fit into a mantissa
  have few (hm : b.mantissa < 2 ^ 53) (he : b.exponent ≤ 0) : (-b.exponent).toNat ≤ 52 := by
    by_contra hj
    have hpow : 2 ^ 53 ≤ 2 ^ (-b.exponent).toNat := Nat.pow_le_pow_right (by decide) (by omega)
    have hmul : 1 * 2 ^ (-b.exponent).toNat ≤ b.floorAbs * 2 ^ (-b.exponent).toNat :=
      Nat.mul_le_mul_right _ hfpos
    rw [← hprod, Int.toNat_of_nonpos he, Nat.pow_zero] at hmul
    omega
  rcases ofFloat_cases hb h0 with ⟨he, hm⟩ | ⟨hlo, hhi, he, hbits⟩
  · -- a subnormal number is a fraction
    have := few (by omega) (by omega)
    omega
  · rcases Int.lt_or_le 0 b.exponent with hpos | hneg
    · -- a mantissa of 53 bits with zeros after it is too large
      have htwo : 2 ^ 1 ≤ 2 ^ b.exponent.toNat := Nat.pow_le_pow_right (by decide) (by omega)
      have hj : (-b.exponent).toNat = 0 := by omega
      have hmul : b.mantissa * 2 ^ 1 ≤ b.mantissa * 2 ^ b.exponent.toNat :=
        Nat.mul_le_mul_left _ htwo
      rw [hprod, hj] at hmul
      omega
    · refine ⟨(-b.exponent).toNat, few hhi hneg, ?_, hlo, hhi, ?_⟩
      · rw [← hprod, Int.toNat_of_nonpos hneg, Nat.pow_zero, Nat.mul_one]
      · have hj : 1075 - (-b.exponent).toNat = (b.exponent + 1075).toNat := by omega
        rw [hbits, hj]

/-- A double with an integral value below 2^53 is that integer, zero apart. -/
theorem ofInt_truncate {x : Float} {b : Binary} (hb : Binary.ofFloat? x = some b)
    (hi : b.isIntegral = true) (hf : b.floorAbs < 2 ^ 53) (h0 : b.mantissa ≠ 0) :
    Float.ofInt b.truncate = x ∧ b.truncate.natAbs < 2 ^ 53 := by
  obtain ⟨j, hj, hm, hlo, hhi, hbits⟩ := mantissa_eq hb hi hf h0
  have hpos : b.floorAbs ≠ 0 := fun h => h0 (by rw [hm, h, Nat.zero_mul])
  have habs : b.truncate.natAbs = b.floorAbs := by
    unfold Binary.truncate
    split <;> simp
  have hne : b.truncate ≠ 0 := fun h => hpos (by rw [← habs, h]; rfl)
  have hneg : (b.truncate < 0) ↔ b.negative = true := by
    unfold Binary.truncate
    split
    · simp [*]
      omega
    · simp [*]
  have hlog : b.floorAbs.log2 = 52 - j := by
    have hl : b.mantissa.log2 = 52 := (Nat.log2_eq_iff h0).mpr ⟨hlo, hhi⟩
    rw [hm, log2_mul_two_pow hpos] at hl
    omega
  -- equal bits are equal floats
  refine ⟨Float.toBits_inj.mp (UInt64.toNat_inj.mp ?_), by rwa [habs]⟩
  rw [toBits_ofInt hne (by rwa [habs]), habs, hlog, hbits, hm]
  have hj' : 52 - (52 - j) = j := by omega
  have hj'' : 52 - j + 1023 = 1075 - j := by omega
  rw [hj', hj'']
  simp only [hneg]

/-! ### Numbers in a document -/

/-- A number that is not finite, or an integer of a magnitude of at most 2^53 - 1. -/
def IsSafe (x : Float) : Prop :=
  ∀ b, Binary.ofFloat? x = some b → b.isIntegral = true ∧ b.floorAbs ≤ 2 ^ 53 - 1

/-- A number as a document keeps it: without the sign of zero, and none if it is not finite. -/
def normal? (x : Float) : Option Float :=
  (Binary.ofFloat? x).map fun b => if b.mantissa = 0 then 0 else x

theorem numberJson_of_not_finite {x : Float} (h : normal? x = none) :
    Builtin.numberJson x = .null := by
  have hb : Binary.ofFloat? x = none := by simpa [normal?] using h
  simp [Builtin.numberJson, hb]

theorem isIntegral_zero {b : Binary} (h0 : b.mantissa = 0) : b.isIntegral = true := by
  simp [Binary.isIntegral, Binary.ratio, h0]

theorem floorAbs_zero {b : Binary} (h0 : b.mantissa = 0) : b.floorAbs = 0 := by
  simp [Binary.floorAbs, Binary.ratio, h0]

theorem numberJson_of_zero {x : Float} {b : Binary} (hb : Binary.ofFloat? x = some b)
    (h0 : b.mantissa = 0) : Builtin.numberJson x = .num (.int 0) := by
  have ht : b.truncate = 0 := by simp [Binary.truncate, floorAbs_zero h0]
  simp [Builtin.numberJson, hb, isIntegral_zero h0, floorAbs_zero h0, ht]

/-- What a document does not keep of a number is not written. -/
theorem numberJson_normal {x y : Float} (h : normal? x = some y) :
    Builtin.numberJson y = Builtin.numberJson x := by
  obtain ⟨b, hb, rfl⟩ := Option.map_eq_some_iff.mp h
  split
  · have hz : Binary.ofFloat? 0 = some ⟨false, 0, -1074⟩ := rfl
    rw [numberJson_of_zero hb ‹_›, numberJson_of_zero hz rfl]
  · rfl

/-- A safe number is written as an integer, and that integer as a double is the number. -/
theorem exists_int {x y : Float} (hx : IsSafe x) (h : normal? x = some y) :
    ∃ k : Int, k.natAbs < 2 ^ 53 ∧ Builtin.numberJson x = .num (.int k) ∧ Float.ofInt k = y := by
  obtain ⟨b, hb, hy⟩ := Option.map_eq_some_iff.mp h
  obtain ⟨hi, hf⟩ := hx b hb
  have hf' : b.floorAbs < 2 ^ 53 := by omega
  by_cases h0 : b.mantissa = 0
  · rw [if_pos h0] at hy
    exact ⟨0, by decide, numberJson_of_zero hb h0, hy⟩
  · rw [if_neg h0] at hy
    have hc : (b.isIntegral && decide (b.floorAbs < Nat.pow 2 53)) = true := by
      rw [hi, Nat.pow_eq]
      simpa using hf'
    have hj : Builtin.numberJson x = .num (.int b.truncate) := by
      simp only [Builtin.numberJson, hb, hc, if_true]
    obtain ⟨ht, hlt⟩ := ofInt_truncate hb hi hf' h0
    exact ⟨b.truncate, hlt, hj, ht.trans hy⟩

end Double

end Estree
