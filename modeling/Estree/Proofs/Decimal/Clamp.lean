/-
Estree/Proofs/Decimal/Clamp.lean

Positions worked out in doubles.

A position in a sequence may be given by any number.  It is worked out here in the arithmetic of
doubles (`Double.clamped`): what is not a number counts as zero, a number below zero is added to the
length, and the result is cut to the sequence before it becomes a natural number again.  Up to
lengths of 2^53 this is the position that integers give (`position_eq_clamped`), since everything on
the way is exact, with one exception: a number that is so far below zero that the sum is rounded.
Rounding keeps the sign (`sign_round`), so that such a sum is cut to zero all the same
(`greater_of_isSigned`).
-/
import Estree.Builtin.Number
import Estree.Builtin.Range
import Estree.Proofs.Decimal.Exact
import Estree.Proofs.Decimal.Order

namespace Estree

open Float.Model Float.Model.UnpackedFloat

variable {x y : Float} {b c : Binary} {n m length : Nat}

namespace Double

/-! ### Positions in doubles -/

/-- The integer part as a double, toward zero; infinities and NaN stay what they are. -/
def integerPart (x : Float) : Float :=
  match Binary.ofFloat? x with
  | some b =>
    if b.isIntegral then x
    else if b.negative then -Float.ofNat b.floorAbs else Float.ofNat b.floorAbs
  | none => x

/-- A double as a word of 64 bits: negative numbers and NaN as zero, and what is too great as the
greatest word. -/
def toWord (x : Float) : Nat :=
  toNatUpTo (2 ^ 64 - 1) x

/-- A position in a sequence of a given length, worked out in doubles. -/
def clamped (length : Nat) (x : Float) : Nat :=
  let n := if x.isNaN then 0 else integerPart x
  if n < 0 then toWord (Builtin.greater (Float.ofNat length + n) 0)
  else toWord (Builtin.smaller n (Float.ofNat length))

/-! ### Signs -/

/-- Whether the sign of a double is set. -/
def IsSigned (x : Float) : Prop :=
  x.toBits.toNat / 2 ^ 63 = 1

theorem toBits_ofModel_pack (u : UnpackedFloat) :
    (Float.ofModel (Float.Model.pack u)).toBits.toNat
      = (UnpackedFloat.pack Format.binary64 u).toNat :=
  rfl

/-- The sign is the first bit, whatever the other ones are. -/
theorem sign_packComponents (s : Sign) (e : BitVec 11) (m : BitVec 52) :
    (packComponents Format.binary64 s e m).toNat / 2 ^ 63 = s.toBitVec.toNat := by
  have he : e.toNat < 2 ^ 11 := e.isLt
  have hm : m.toNat < 2 ^ 52 := m.isLt
  rw [toNat_packComponents]
  omega

theorem isSigned_of_zero : IsSigned (.ofModel (.pack (.zero .negative))) :=
  sign_packComponents .negative _ _

theorem isSigned_of_infinity : IsSigned (.ofModel (.pack (.infinity .negative))) :=
  sign_packComponents .negative _ _

/-- What is below zero has its sign set, also where it is too great for a double. -/
theorem isSigned_of_finite {m : Nat} {e : Int} (hm : 0 < m) :
    IsSigned (.ofModel (.pack (.finite .negative m e hm))) := by
  rw [IsSigned, toBits_ofModel_pack, UnpackedFloat.pack]
  dsimp only
  split
  · exact sign_packComponents .negative _ _
  · split
    all_goals exact sign_packComponents .negative _ _

/-- Rounding keeps the sign. -/
theorem sign_round (s : Sign) (m : Nat) (e : Int) :
    UnpackedFloat.round Format.binary64 s m e = .zero s ∨
      ∃ m' e' hm, UnpackedFloat.round Format.binary64 s m e = .finite s m' e' hm := by
  unfold UnpackedFloat.round roundWithAccuracy
  dsimp only
  split
  · exact .inl rfl
  · exact .inr ⟨_, _, Nat.pos_of_ne_zero ‹_›, rfl⟩

/-- A negative significand is rounded to a negative number, a negative zero included. -/
theorem isSigned_of_normalize {k : Int} (hk : k < 0) (e : Int) (zero : Sign) :
    IsSigned (.ofModel (.pack (UnpackedFloat.normalize Format.binary64 k e zero))) := by
  rw [UnpackedFloat.normalize, compare_lt_iff_lt.2 hk]
  dsimp only
  rcases sign_round .negative (-k).toNat e with h | ⟨m, e', hm, h⟩
  · rw [h]
    exact isSigned_of_zero
  · rw [h]
    exact isSigned_of_finite hm

/-- What is signed as a float is signed as a binary number. -/
theorem negative_of_isSigned (h : IsSigned x) (hb : Binary.ofFloat? x = some b) :
    b.negative = true := by
  unfold Binary.ofFloat? at hb
  simp only [Nat.pow_eq] at hb
  split at hb
  · cases hb
  · split at hb
    all_goals
      cases hb
      exact beq_iff_eq.2 h

/-! ### Doubles that are not finite -/

/-- What is not finite is an infinity or not a number. -/
theorem unpack_of_none (h : Binary.ofFloat? x = none) :
    x.toModel.unpack = .notANumber ∨
      x.toModel.unpack
        = .infinity (if x.toBits.toNat / 2 ^ 63 == 1 then .negative else .positive) := by
  have he := toNat_unpackExponent x.toBits.toBitVec
  have hunpack : x.toModel.unpack = UnpackedFloat.unpack Format.binary64 x.toBits.toBitVec := rfl
  rw [hunpack, ← sign_of_bits]
  unfold UnpackedFloat.unpack
  dsimp only
  unfold Binary.ofFloat? at h
  simp only [Nat.pow_eq] at h
  split at h
  · -- the exponent with all bits set is kept for what is not finite
    have hexp : @unpackExponent Format.binary64 x.toBits.toBitVec = -1#11 :=
      BitVec.eq_of_toNat_eq (he.trans ‹_›)
    rw [if_pos hexp]
    split
    · exact .inr rfl
    · exact .inl rfl
  · split at h <;> cases h

/-! ### Cutting below and above -/

theorem toWord_ofNat (hn : n < 2 ^ 53) : toWord (Float.ofNat n) = n := by
  rw [toWord, toNatUpTo, truncate?_of_whole (wholeNumber?_ofNat hn)]
  show min n (2 ^ 64 - 1) = n
  omega

/-- A natural number below `2 ^ 53` has its own value. -/
theorem value_ofNat (hn : n < 2 ^ 53) :
    ∃ b, Binary.ofFloat? (Float.ofNat n) = some b ∧ b.value = n := by
  obtain rfl | h0 := Nat.eq_zero_or_pos n
  · exact ⟨⟨false, 0, -1074⟩, rfl, by simp [Binary.value]⟩
  · exact ⟨_, ofFloat?_ofNat h0 hn, by simp [Binary.value]⟩

/-- Comparing floats is comparing their values. -/
theorem ofNat_le_iff (hn : n < 2 ^ 53) (hb : Binary.ofFloat? x = some b) :
    Float.ofNat n ≤ x ↔ (n : ℚ) ≤ b.value := by
  obtain ⟨c, hc, hvalue⟩ := value_ofNat hn
  rw [le_iff_value hc hb, hvalue]

/-- A double with its sign set is cut to zero. -/
theorem greater_of_isSigned (h : IsSigned x) : toWord (Builtin.greater x 0) = 0 := by
  unfold Builtin.greater
  split
  · exact toWord_ofNat (n := 0) (by decide)
  · unfold toWord toNatUpTo truncate?
    cases hb : Binary.ofFloat? x with
    | some b =>
      show min b.truncate.toNat _ = 0
      rw [Binary.truncate, if_pos (negative_of_isSigned h hb)]
      omega
    | none =>
      have hlt : ¬ x > 0 := by
        have hiff : x > 0 ↔ UnpackedFloat.lt (.zero .positive) x.toModel.unpack = true :=
          decide_eq_true_iff
        rw [hiff]
        rcases unpack_of_none hb with hx | hx
        · rw [hx]
          decide
        · rw [hx, if_pos (beq_iff_eq.2 h)]
          decide
      exact if_neg hlt

/-- A natural number is not cut below. -/
theorem greater_ofNat (hn : n < 2 ^ 53) : toWord (Builtin.greater (Float.ofNat n) 0) = n := by
  unfold Builtin.greater
  split
  · rename_i hle
    have hzero : Binary.ofFloat? 0 = some ⟨false, 0, -1074⟩ := rfl
    rw [ofNat_le_iff hn hzero, Binary.value_of_zero rfl] at hle
    have hn0 : n = 0 := by exact_mod_cast le_antisymm hle (Nat.cast_nonneg n)
    rw [hn0]
    exact toWord_ofNat (n := 0) (by decide)
  · exact toWord_ofNat hn

/-! ### Integer parts -/

/-- With places behind the point, or none, the integer part is at most the mantissa. -/
theorem floorAbs_lt (hb : Binary.ofFloat? x = some b) (he : b.exponent ≤ 0) :
    b.floorAbs < 2 ^ 53 := by
  have hnum : b.exponent.toNat = 0 := by omega
  have hfloor : b.floorAbs = b.mantissa / 2 ^ (-b.exponent).toNat := by
    simp [Binary.floorAbs, Binary.ratio, hnum, Nat.pow_eq]
  rw [hfloor]
  exact (Nat.div_le_self _ _).trans_lt (mantissa_lt hb)

theorem exponent_le_of_not_isIntegral (hi : b.isIntegral = false) : b.exponent ≤ 0 := by
  by_contra he
  have hden : (-b.exponent).toNat = 0 := by omega
  simp [Binary.isIntegral, Binary.ratio, hden, Nat.pow_eq, Nat.mod_one] at hi

/-- A natural number with a sign, as a double. -/
theorem ofFloat?_whole (s : Sign) (hn : n < 2 ^ 53) :
    ∃ c, Binary.ofFloat? (.ofModel (.pack (whole s n))) = some c ∧ c.isIntegral = true ∧
      c.floorAbs = n ∧ c.negative = (s == .negative) := by
  obtain rfl | h0 := Nat.eq_zero_or_pos n
  · cases s with
    | positive => exact ⟨⟨false, 0, -1074⟩, rfl, isIntegral_zero rfl, floorAbs_zero rfl, rfl⟩
    | negative => exact ⟨⟨true, 0, -1074⟩, rfl, isIntegral_zero rfl, floorAbs_zero rfl, rfl⟩
  · have hlog : n.log2 ≤ 52 := log2_le h0 hn
    have hexp : (n.log2 : Int) - 52 = -((52 - n.log2 : Nat) : Int) := by omega
    have hratio (negative : Bool) :
        Binary.ratio ⟨negative, n * 2 ^ (52 - n.log2), -((52 - n.log2 : Nat) : Int)⟩
          = (n * 2 ^ (52 - n.log2), 2 ^ (52 - n.log2)) := by
      simp [Binary.ratio]
    rw [whole_of_pos s h0]
    refine ⟨_, ofFloat?_of_pack rfl (log2_filled h0 hn) (by omega) (by omega), ?_, ?_, rfl⟩
    all_goals
      rw [hexp]
      simp [Binary.isIntegral, Binary.floorAbs, hratio]

/-- The integer part as a double is an integer with the same sign and the same integer part. -/
theorem integerPart_spec (hb : Binary.ofFloat? x = some b) :
    ∃ c, Binary.ofFloat? (integerPart x) = some c ∧ c.isIntegral = true ∧
      c.floorAbs = b.floorAbs ∧ c.negative = b.negative := by
  unfold integerPart
  rw [hb]
  dsimp only
  cases hi : b.isIntegral
  · have hlt := floorAbs_lt hb (exponent_le_of_not_isIntegral hi)
    rw [if_neg Bool.false_ne_true, ofNat_eq_whole hlt]
    cases hs : b.negative
    · exact ofFloat?_whole .positive hlt
    · rw [if_pos rfl, ← ofNat_eq_whole hlt, neg_ofNat_eq_whole hlt]
      exact ofFloat?_whole .negative hlt
  · exact ⟨b, hb, hi, rfl, rfl⟩

/-- The value of an integer. -/
theorem magnitude_of_isIntegral (hi : b.isIntegral = true) : b.magnitude = b.floorAbs := by
  have hprod : (b.mantissa : ℚ) * 2 ^ b.exponent.toNat = b.floorAbs * 2 ^ (-b.exponent).toNat := by
    exact_mod_cast mantissa_mul_of_isIntegral hi
  have hexp : b.exponent = (b.exponent.toNat : Int) - (-b.exponent).toNat := by omega
  rw [Binary.magnitude, hexp, zpow_sub₀ (by norm_num), zpow_natCast, zpow_natCast, ← mul_div_assoc,
    hprod, mul_div_cancel_right₀ _ (by positivity)]

/-! ### Numbers below zero -/

/-- A length and a number that is further below zero: the sum is rounded, but it stays below
zero. -/
theorem isSigned_add (hn : n < 2 ^ 53) (hb : Binary.ofFloat? x = some b)
    (hs : b.negative = true) (hm : 2 ^ 53 ≤ b.floorAbs) : IsSigned (Float.ofNat n + x) := by
  have he : 0 < b.exponent := by
    by_contra he
    exact absurd (floorAbs_lt hb (not_lt.1 he)) (not_lt.2 hm)
  rw [ofNat_eq_whole hn]
  show IsSigned (.ofModel (.pack (UnpackedFloat.add _ _ _)))
  rw [unpack_pack_whole _ hn]
  rcases unpack_cases hb with ⟨h0, -⟩ | ⟨h0, hx⟩
  · rw [floorAbs_zero h0] at hm
    exact absurd hm (by decide)
  · rw [hx, hs, if_pos rfl]
    obtain rfl | hpos := Nat.eq_zero_or_pos n
    · exact isSigned_of_finite h0
    · have hlog : n.log2 ≤ 52 := log2_le hpos hn
      have hfilled : n * 2 ^ (52 - n.log2) < 2 ^ 53 :=
        ((Nat.log2_eq_iff (Nat.mul_pos hpos (Nat.two_pow_pos _)).ne').1 (log2_filled hpos hn)).2
      have hmantissa : 2 ^ 52 ≤ b.mantissa := by
        rcases ofFloat_cases hb h0.ne' with ⟨hexp, -⟩ | ⟨hle, -⟩
        · omega
        · exact hle
      -- the length has the smaller exponent, which is the one the sum is taken at
      have hmin : min ((n.log2 : Int) - 52) b.exponent = (n.log2 : Int) - 52 := by omega
      obtain ⟨d, hd⟩ : ∃ d : Nat, (b.exponent - ((n.log2 : Int) - 52)).toNat = d + 1 :=
        ⟨(b.exponent - ((n.log2 : Int) - 52)).toNat - 1, by omega⟩
      rw [whole_of_pos _ hpos, UnpackedFloat.add]
      simp only [hmin, decreaseExponent, Int.sub_self, Int.toNat_zero, hd, Nat.shiftLeft_eq,
        Sign.apply]
      refine isSigned_of_normalize ?_ _ _
      -- there the number has a mantissa that is shifted by at least one place
      have hshift : 2 ^ 52 * 2 ^ 1 ≤ b.mantissa * 2 ^ (d + 1) :=
        Nat.mul_le_mul hmantissa (Nat.pow_le_pow_right (by decide) (by omega))
      omega

/-- A number without fraction is below zero iff it is signed and not a zero. -/
theorem lt_zero_of_truncate (hb : Binary.ofFloat? x = some b) (hi : b.isIntegral = true) :
    x < 0 ↔ b.negative = true ∧ b.floorAbs ≠ 0 := by
  rw [lt_zero_iff hb]
  refine and_congr_right fun _ => not_congr ⟨floorAbs_zero, mantissa_eq_zero hi⟩

/-- An integer below zero counts from the end. -/
theorem greater_add (hn : n < 2 ^ 53) (hb : Binary.ofFloat? x = some b)
    (hi : b.isIntegral = true) (hs : b.negative = true) (h0 : b.floorAbs ≠ 0) :
    toWord (Builtin.greater (Float.ofNat n + x) 0) = n - b.floorAbs := by
  -- the sum is exact unless the number is greater than all lengths
  obtain hlt | hle := Nat.lt_or_ge b.floorAbs (2 ^ 53)
  · have hx : x = -Float.ofNat b.floorAbs := by
      have hm : b.mantissa ≠ 0 := fun hm => h0 (floorAbs_zero hm)
      have htruncate : b.truncate = -(b.floorAbs : Int) := if_pos hs
      rw [← (ofInt_truncate hb hi hlt hm).1, ofInt_eq, htruncate, if_pos (by omega),
        Int.natAbs_neg, Int.natAbs_natCast]
    rw [hx, ofNat_add_neg_ofNat hn hlt]
    split
    · rename_i hlarge
      have hdiff : b.floorAbs - n < 2 ^ 53 := (Nat.sub_le _ _).trans_lt hlt
      rw [neg_ofNat_eq_whole hdiff, whole_of_pos _ (Nat.sub_pos_of_lt hlarge),
        greater_of_isSigned (isSigned_of_finite _)]
      omega
    · exact greater_ofNat ((Nat.sub_le _ _).trans_lt hn)
  · rw [greater_of_isSigned (isSigned_add hn hb hs hle)]
    omega

/-! ### Numbers from zero on -/

theorem truncate_of_nonneg (h : ¬ (b.negative = true ∧ b.floorAbs ≠ 0)) :
    b.truncate = b.floorAbs := by
  unfold Binary.truncate
  split
  · have h0 : b.floorAbs = 0 := by
      by_contra h0
      exact h ⟨‹_›, h0⟩
    rw [h0]
    rfl
  · rfl

/-- An integer that is not below zero counts from the start, at most up to the length. -/
theorem smaller_ofNat (hn : n < 2 ^ 53) (hb : Binary.ofFloat? x = some b)
    (hi : b.isIntegral = true) (h0 : ¬ (b.negative = true ∧ b.floorAbs ≠ 0)) :
    toWord (Builtin.smaller x (Float.ofNat n)) = min b.floorAbs n := by
  -- without a fraction and not below zero, the number is its own floor
  have hvalue : b.value = b.floorAbs := by
    cases hs : b.negative
    · rw [Binary.value_of_not_negative hs, magnitude_of_isIntegral hi]
    · have hfloor : b.floorAbs = 0 := by
        by_contra hfloor
        exact h0 ⟨hs, hfloor⟩
      rw [Binary.value_of_negative hs, magnitude_of_isIntegral hi, hfloor, Nat.cast_zero, neg_zero]
  have hle : Float.ofNat n ≤ x ↔ n ≤ b.floorAbs := by
    rw [ofNat_le_iff hn hb, hvalue]
    exact Nat.cast_le
  unfold Builtin.smaller
  split
  · rename_i h
    rw [toWord_ofNat hn, Nat.min_eq_right (hle.1 h)]
  · rename_i h
    have hlt : b.floorAbs < n := Nat.lt_of_not_le fun h' => h (hle.2 h')
    rw [toWord, toNatUpTo, truncate?, hb]
    show min b.truncate.toNat _ = _
    rw [truncate_of_nonneg h0]
    omega

/-! ### Infinities and NaN -/

theorem add_infinity (hn : n < 2 ^ 53) {s : Sign} (hx : x.toModel.unpack = .infinity s) :
    Float.ofNat n + x = .ofModel (.pack (.infinity s)) := by
  rw [ofNat_eq_whole hn]
  show Float.ofModel (.pack (UnpackedFloat.add _ _ _)) = _
  rw [unpack_pack_whole _ hn, hx]
  rcases whole_cases .positive n with h | ⟨m, e, hm, h⟩ <;> rw [h] <;> rfl

theorem ofNat_le_infinity (hn : n < 2 ^ 53) (hx : x.toModel.unpack = .infinity .positive) :
    Float.ofNat n ≤ x := by
  have hle : Float.ofNat n ≤ x ↔
      UnpackedFloat.le (Float.ofNat n).toModel.unpack x.toModel.unpack = true := decide_eq_true_iff
  rw [hle, hx, ofNat_eq_whole hn]
  show UnpackedFloat.le (Float.Model.unpack (.pack _)) _ = true
  rw [unpack_pack_whole _ hn]
  rcases whole_cases .positive n with h | ⟨m, e, hm, h⟩ <;> rw [h] <;> rfl

/-- NaN is the start, and an infinity is one end or the other. -/
theorem clamped_of_none (hn : n < 2 ^ 53) (hb : Binary.ofFloat? x = none) :
    clamped n x = if x > 0 then n else 0 := by
  have hpart : integerPart x = x := by rw [integerPart, hb]
  have hpos : x > 0 ↔ UnpackedFloat.lt (.zero .positive) x.toModel.unpack = true :=
    decide_eq_true_iff
  have hneg : x < 0 ↔ UnpackedFloat.lt x.toModel.unpack (.zero .positive) = true :=
    decide_eq_true_iff
  have hnan : x.isNaN = x.toModel.unpack.isNaN := rfl
  unfold clamped
  rw [hpart]
  dsimp only
  rcases unpack_of_none hb with hx | hx
  -- no number counts as zero
  · have hzero : Binary.ofFloat? 0 = some ⟨false, 0, -1074⟩ := rfl
    have h0 : ¬ (0 : Float) < 0 := by decide
    have hcut := smaller_ofNat hn hzero (isIntegral_zero rfl) (fun h => Bool.false_ne_true h.1)
    have hpositive : ¬ x > 0 := by
      rw [hpos, hx]
      decide
    rw [floorAbs_zero rfl, Nat.zero_min] at hcut
    have htrue : x.isNaN = true := by
      rw [hnan, hx]
      rfl
    rw [htrue, if_pos rfl, if_neg h0, hcut, if_neg hpositive]
  -- an infinity is cut to one end or the other by its sign
  · by_cases hs : (x.toBits.toNat / 2 ^ 63 == 1) = true
    · rw [if_pos hs] at hx
      have hlt : x < 0 := by
        rw [hneg, hx]
        rfl
      have hpositive : ¬ x > 0 := by
        rw [hpos, hx]
        decide
      have hfalse : x.isNaN = false := by
        rw [hnan, hx]
        rfl
      rw [hfalse, if_neg Bool.false_ne_true, if_pos hlt, add_infinity hn hx,
        greater_of_isSigned isSigned_of_infinity, if_neg hpositive]
    · rw [if_neg hs] at hx
      have hlt : ¬ x < 0 := by
        rw [hneg, hx]
        decide
      have hpositive : x > 0 := by
        rw [hpos, hx]
        rfl
      have hfalse : x.isNaN = false := by
        rw [hnan, hx]
        rfl
      rw [hfalse, if_neg Bool.false_ne_true, if_neg hlt, Builtin.smaller,
        if_pos (ofNat_le_infinity hn hx), toWord_ofNat hn, if_pos hpositive]

end Double

open Double

/-- Up to a length of 2^53 the arithmetic of doubles finds the same position as that of integers. -/
theorem position_eq_clamped (hn : length < 2 ^ 53) (x : Float) :
    position length x = clamped length x := by
  unfold position
  cases hb : Binary.ofFloat? x with
  | none =>
    have htruncate : truncate? x = none := by rw [truncate?, hb, Option.map_none]
    rw [htruncate, clamped_of_none hn hb]
  | some b =>
    obtain ⟨c, hc, hi, hfloor, hsign⟩ := integerPart_spec hb
    have hnan : x.isNaN = false := by
      show x.toModel.unpack.isNaN = false
      rcases unpack_cases hb with ⟨-, s, hx⟩ | ⟨hm, hx⟩ <;> rw [hx] <;> rfl
    have htruncate : truncate? x = some b.truncate := by rw [truncate?, hb, Option.map_some]
    have hneg := lt_zero_of_truncate hc hi
    rw [hfloor, hsign] at hneg
    rw [htruncate, clamped, hnan, if_neg Bool.false_ne_true]
    dsimp only
    -- a number that is below zero, but less than one below, has zero as its integer part
    by_cases h : b.negative = true ∧ b.floorAbs ≠ 0
    · have hvalue : b.truncate = -(b.floorAbs : Int) := if_pos h.1
      have h0 : c.floorAbs ≠ 0 := hfloor ▸ h.2
      rw [if_pos (by omega), if_pos (hneg.2 h), greater_add hn hc hi (hsign.trans h.1) h0, hfloor,
        hvalue]
      omega
    · have hvalue := truncate_of_nonneg h
      have h0 : ¬ (c.negative = true ∧ c.floorAbs ≠ 0) := by rwa [hfloor, hsign]
      rw [if_neg (by omega), if_neg fun hx => h (hneg.1 hx), smaller_ofNat hn hc hi h0, hfloor,
        hvalue, Int.toNat_natCast]

end Estree
