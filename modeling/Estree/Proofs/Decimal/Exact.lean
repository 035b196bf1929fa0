/-
Estree/Proofs/Decimal/Exact.lean

Exact arithmetic on natural numbers.

Below 2^53 a natural number is held with zeros after its digits, up to the 53rd place
(`Double.whole`).  The product and the sum of two such numbers, taken on their mantissas, have zeros
after them up to that place and further, so that rounding cuts off zeros only: as long as the result
is below 2^53 too, nothing of it is lost (`mul_whole`, `add_whole`, `sub_whole`).

Conversions between naturals and doubles are exact in the same range (`ofNat_eq_whole`).  What a
program computes with indices and lengths stays in it, and is therefore computed as if in the
naturals.
-/
import Estree.Proofs.Decimal.Whole

namespace Estree

namespace Double

open Float.Model Float.Model.UnpackedFloat

variable {a b n : Nat}

/-- A natural number below 2^53 as a double holds it, with a sign. -/
def whole (s : Sign) (n : Nat) : UnpackedFloat :=
  if h : 0 < n then
    .finite s (n * 2 ^ (52 - n.log2)) ((n.log2 : Int) - 52) (Nat.mul_pos h (Nat.two_pow_pos _))
  else .zero s

theorem whole_of_pos (s : Sign) (h : 0 < n) : whole s n =
    .finite s (n * 2 ^ (52 - n.log2)) ((n.log2 : Int) - 52) (Nat.mul_pos h (Nat.two_pow_pos _)) :=
  dif_pos h

theorem whole_cases (s : Sign) (n : Nat) :
    whole s n = .zero s ∨ ∃ m e hm, whole s n = .finite s m e hm := by
  obtain rfl | h0 := Nat.eq_zero_or_pos n
  · exact .inl rfl
  · exact .inr ⟨_, _, _, whole_of_pos s h0⟩

/-- A whole number below `2 ^ 53` is stored without rounding. -/
theorem unpack_pack_whole (s : Sign) (hn : n < 2 ^ 53) :
    (Float.Model.pack (whole s n)).unpack = whole s n := by
  obtain rfl | h0 := Nat.eq_zero_or_pos n
  · cases s <;> rfl
  · have hlog : n.log2 ≤ 52 := log2_le h0 hn
    rw [whole_of_pos s h0, unpack_pack s _ (log2_filled h0 hn) (by omega) (by omega)]

/-- A natural number below `2 ^ 53` is converted without rounding. -/
theorem ofNat_eq_whole (hn : n < 2 ^ 53) :
    Float.ofNat n = .ofModel (.pack (whole .positive n)) := by
  obtain rfl | h0 := Nat.eq_zero_or_pos n
  · rfl
  · obtain ⟨hm, hx⟩ := toModel_ofNat h0 hn
    rw [whole_of_pos _ h0, ← hx]

theorem neg_ofNat_eq_whole (hn : n < 2 ^ 53) :
    -Float.ofNat n = .ofModel (.pack (whole .negative n)) := by
  rw [ofNat_eq_whole hn]
  show Float.ofModel (Float.Model.pack (Float.Model.unpack (Float.Model.pack _)).neg) = _
  rw [unpack_pack_whole _ hn]
  obtain rfl | h0 := Nat.eq_zero_or_pos n
  · rfl
  · rw [whole_of_pos _ h0, whole_of_pos _ h0]
    rfl

theorem ofInt_eq (k : Int) :
    Float.ofInt k = if k < 0 then -Float.ofNat k.natAbs else Float.ofNat k.natAbs := by
  cases k with
  | ofNat n => exact (if_neg (Int.not_lt.2 (Int.natCast_nonneg n))).symm
  | negSucc n => exact (if_pos (Int.negSucc_lt_zero n)).symm

/-! ### Products and sums -/

/-- A product that stays below `2 ^ 53` is exact. -/
theorem mul_whole (s t : Sign) (hab : a * b < 2 ^ 53) :
    UnpackedFloat.mul Format.binary64 (whole s a) (whole t b) = whole (s * t) (a * b) := by
  obtain rfl | ha := Nat.eq_zero_or_pos a
  · rw [Nat.zero_mul]
    rcases whole_cases t b with h | ⟨_, _, _, h⟩ <;> rw [h] <;> rfl
  obtain rfl | hb := Nat.eq_zero_or_pos b
  · rw [Nat.mul_zero, whole_of_pos s ha]
    rfl
  have h0 : 0 < a * b := Nat.mul_pos ha hb
  have hla : a.log2 ≤ 52 := log2_le ha ((Nat.le_mul_of_pos_right a hb).trans_lt hab)
  have hlb : b.log2 ≤ 52 := log2_le hb ((Nat.le_mul_of_pos_left b ha).trans_lt hab)
  have hm : a * 2 ^ (52 - a.log2) * (b * 2 ^ (52 - b.log2))
      = a * b * 2 ^ (52 - a.log2 + (52 - b.log2)) := by
    rw [Nat.pow_add, Nat.mul_mul_mul_comm]
  have he : (a.log2 : Int) - 52 + ((b.log2 : Int) - 52)
      = -((52 - a.log2 + (52 - b.log2) : Nat) : Int) := by omega
  have hlog : a.log2 ≤ (a * b).log2 :=
    (Nat.le_log2 h0.ne').2 ((Nat.log2_self_le ha.ne').trans (Nat.le_mul_of_pos_right a hb))
  obtain ⟨hpos, hround⟩ := roundWithAccuracy_scaled (s * t) h0 hab
    (i := 52 - a.log2 + (52 - b.log2)) (by omega)
  rw [whole_of_pos s ha, whole_of_pos t hb, whole_of_pos _ h0, UnpackedFloat.mul, hm, he, hround]

/-- With more places behind the point, what a natural number is held with has more zeros. -/
theorem decreaseExponent_whole {j : Nat} (hlog : n.log2 ≤ 52) (hj : 52 - n.log2 ≤ j) :
    (decreaseExponent (n * 2 ^ (52 - n.log2)) ((n.log2 : Int) - 52) (-j)).1 = n * 2 ^ j := by
  have hdist : ((n.log2 : Int) - 52 - (-j)).toNat = j - (52 - n.log2) := by omega
  rw [decreaseExponent, hdist, Nat.shiftLeft_eq, Nat.mul_assoc, ← Nat.pow_add,
    Nat.add_sub_of_le hj]

/-- Two natural numbers with as many places behind the point as both are held with. -/
theorem decreaseExponent_pair (hla : a.log2 ≤ 52) (hlb : b.log2 ≤ 52) :
    ∃ j : Nat, min ((a.log2 : Int) - 52) ((b.log2 : Int) - 52) = -(j : Int) ∧
      (decreaseExponent (a * 2 ^ (52 - a.log2)) ((a.log2 : Int) - 52) (-j)).1 = a * 2 ^ j ∧
      (decreaseExponent (b * 2 ^ (52 - b.log2)) ((b.log2 : Int) - 52) (-j)).1 = b * 2 ^ j :=
  ⟨52 - min a.log2 b.log2, by omega, decreaseExponent_whole hla (by omega),
    decreaseExponent_whole hlb (by omega)⟩

theorem normalize_scaled (h0 : 0 < n) (hn : n < 2 ^ 53) (j : Nat) (zero : Sign) :
    UnpackedFloat.normalize Format.binary64 ((n * 2 ^ j : Nat) : Int) (-j) zero
      = whole .positive n := by
  have hgt : compare ((n * 2 ^ j : Nat) : Int) 0 = .gt := by
    rw [compare_gt_iff_gt]
    exact_mod_cast Nat.mul_pos h0 (Nat.two_pow_pos j)
  obtain ⟨hpos, hround⟩ := round_scaled .positive h0 hn j
  simp only [UnpackedFloat.normalize, hgt, Int.toNat_natCast, hround, whole_of_pos _ h0]

theorem normalize_neg_scaled (h0 : 0 < n) (hn : n < 2 ^ 53) (j : Nat) (zero : Sign) :
    UnpackedFloat.normalize Format.binary64 (-((n * 2 ^ j : Nat) : Int)) (-j) zero
      = whole .negative n := by
  have hlt : compare (-((n * 2 ^ j : Nat) : Int)) 0 = .lt := by
    rw [compare_lt_iff_lt, Int.neg_lt_zero_iff]
    exact_mod_cast Nat.mul_pos h0 (Nat.two_pow_pos j)
  obtain ⟨hpos, hround⟩ := round_scaled .negative h0 hn j
  simp only [UnpackedFloat.normalize, hlt, Int.neg_neg, Int.toNat_natCast, hround,
    whole_of_pos _ h0]

/-- A sum that stays below `2 ^ 53` is exact. -/
theorem add_whole (hab : a + b < 2 ^ 53) :
    UnpackedFloat.add Format.binary64 (whole .positive a) (whole .positive b)
      = whole .positive (a + b) := by
  obtain rfl | ha := Nat.eq_zero_or_pos a
  · rw [Nat.zero_add]
    rcases whole_cases .positive b with h | ⟨_, _, _, h⟩ <;> rw [h] <;> rfl
  obtain rfl | hb := Nat.eq_zero_or_pos b
  · rw [Nat.add_zero, whole_of_pos _ ha]
    rfl
  obtain ⟨j, hj, hshift₁, hshift₂⟩ :=
    decreaseExponent_pair (log2_le ha (by omega)) (log2_le hb (by omega))
  have hsum : ((a * 2 ^ j : Nat) : Int) + ((b * 2 ^ j : Nat) : Int) = ((a + b) * 2 ^ j : Nat) := by
    push_cast
    ring
  rw [whole_of_pos _ ha, whole_of_pos _ hb]
  simp only [UnpackedFloat.add, hj, hshift₁, hshift₂, Sign.apply, hsum,
    normalize_scaled (Nat.add_pos_left ha b) hab]

/-- A difference of numbers below `2 ^ 53` is exact, and negative if the second is larger. -/
theorem sub_whole (ha : a < 2 ^ 53) (hb : b < 2 ^ 53) :
    UnpackedFloat.add Format.binary64 (whole .positive a) (whole .negative b)
      = if a < b then whole .negative (b - a) else whole .positive (a - b) := by
  obtain rfl | ha0 := Nat.eq_zero_or_pos a
  · obtain rfl | hb0 := Nat.eq_zero_or_pos b
    · rfl
    · rw [if_pos hb0, Nat.sub_zero, whole_of_pos _ hb0]
      rfl
  obtain rfl | hb0 := Nat.eq_zero_or_pos b
  · rw [if_neg (Nat.not_lt_zero a), Nat.sub_zero, whole_of_pos _ ha0]
    rfl
  -- both significands are brought to the lower exponent, where they are `a * 2 ^ j` and `b * 2 ^ j`
  obtain ⟨j, hj, hshift₁, hshift₂⟩ := decreaseExponent_pair (log2_le ha0 ha) (log2_le hb0 hb)
  rw [whole_of_pos _ ha0, whole_of_pos _ hb0]
  simp only [UnpackedFloat.add, hj, hshift₁, hshift₂, Sign.apply]
  -- the sign of the difference decides the sign that is normalized; equal numbers give a zero
  obtain hlt | rfl | hgt := Nat.lt_trichotomy a b
  · have hdiff : ((a * 2 ^ j : Nat) : Int) + -((b * 2 ^ j : Nat) : Int)
        = -(((b - a) * 2 ^ j : Nat) : Int) := by
      push_cast [hlt.le]
      ring
    rw [if_pos hlt, hdiff,
      normalize_neg_scaled (Nat.sub_pos_of_lt hlt) ((Nat.sub_le b a).trans_lt hb)]
  · rw [Int.add_right_neg, if_neg (Nat.lt_irrefl a), Nat.sub_self]
    rfl
  · have hdiff : ((a * 2 ^ j : Nat) : Int) + -((b * 2 ^ j : Nat) : Int)
        = (((a - b) * 2 ^ j : Nat) : Int) := by
      push_cast [hgt.le]
      ring
    rw [if_neg (Nat.lt_asymm hgt), hdiff,
      normalize_scaled (Nat.sub_pos_of_lt hgt) ((Nat.sub_le a b).trans_lt ha)]

end Double

variable {a b n : Nat}

theorem ofNat_mul_ofNat (hab : a * b < 2 ^ 53) (ha : a < 2 ^ 53) (hb : b < 2 ^ 53) :
    Float.ofNat a * Float.ofNat b = Float.ofNat (a * b) := by
  rw [Double.ofNat_eq_whole ha, Double.ofNat_eq_whole hb, Double.ofNat_eq_whole hab]
  show Float.ofModel (Float.Model.pack (Float.Model.UnpackedFloat.mul _ _ _)) = _
  rw [Double.unpack_pack_whole _ ha, Double.unpack_pack_whole _ hb, Double.mul_whole _ _ hab]
  rfl

theorem ofNat_add_ofNat (hab : a + b < 2 ^ 53) :
    Float.ofNat a + Float.ofNat b = Float.ofNat (a + b) := by
  have ha : a < 2 ^ 53 := by omega
  have hb : b < 2 ^ 53 := by omega
  rw [Double.ofNat_eq_whole ha, Double.ofNat_eq_whole hb, Double.ofNat_eq_whole hab]
  show Float.ofModel (Float.Model.pack (Float.Model.UnpackedFloat.add _ _ _)) = _
  rw [Double.unpack_pack_whole _ ha, Double.unpack_pack_whole _ hb, Double.add_whole hab]

theorem ofNat_add_neg_ofNat (ha : a < 2 ^ 53) (hb : b < 2 ^ 53) :
    Float.ofNat a + -Float.ofNat b
      = if a < b then -Float.ofNat (b - a) else Float.ofNat (a - b) := by
  have ha' : a - b < 2 ^ 53 := (Nat.sub_le a b).trans_lt ha
  have hb' : b - a < 2 ^ 53 := (Nat.sub_le b a).trans_lt hb
  rw [Double.neg_ofNat_eq_whole hb, Double.neg_ofNat_eq_whole hb', Double.ofNat_eq_whole ha,
    Double.ofNat_eq_whole ha']
  show Float.ofModel (Float.Model.pack (Float.Model.UnpackedFloat.add _ _ _)) = _
  rw [Double.unpack_pack_whole _ ha, Double.unpack_pack_whole _ hb, Double.sub_whole ha hb]
  split <;> rfl

theorem neg_one_mul_ofNat (hn : n < 2 ^ 53) : -1 * Float.ofNat n = -Float.ofNat n := by
  have hone : (-1 : Float) = .ofModel (.pack (Double.whole .negative 1)) :=
    Double.neg_ofNat_eq_whole (by decide)
  rw [hone, Double.neg_ofNat_eq_whole hn, Double.ofNat_eq_whole hn]
  show Float.ofModel (Float.Model.pack (Float.Model.UnpackedFloat.mul _ _ _)) = _
  rw [Double.unpack_pack_whole _ (by decide), Double.unpack_pack_whole _ hn,
    Double.mul_whole _ _ (by rwa [Nat.one_mul]), Nat.one_mul]
  rfl

end Estree
