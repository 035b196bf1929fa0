/-
Estree/Proofs/Decimal/Whole.lean

The text of a natural number that is a double.

A double that is a natural number below 2^53 has for its text the digits of that number
(`numberText_of_whole`).  In the search for the shortest decimal, the points of a grid of step
10^g lie at multiples of four quarters of the last place if g is not negative, and so does the
number itself; two such points are further apart than the rounding interval is wide
(`holds_iff`).  So whatever grid the search stops at, it has found the number itself
(`Decimal.search_whole`), and the grid of step one is among the first seventeen.
-/
import Estree.Property
import Estree.Proofs.Growth
import Estree.Proofs.Json.Integer

namespace Estree

variable {x : Float} {b : Binary} {n j : Nat}

/-! ### Natural numbers as doubles -/

namespace Double

open Float.Model Float.Model.UnpackedFloat

theorem toNat_unpackMantissa (v : BitVec 64) :
    (@unpackMantissa Format.binary64 v).toNat = v.toNat % 2 ^ 52 := by
  show (v.extractLsb' 0 52).toNat = _
  simp

theorem toNat_unpackExponent (v : BitVec 64) :
    (@unpackExponent Format.binary64 v).toNat = v.toNat / 2 ^ 52 % 2 ^ 11 := by
  show (v.extractLsb' 52 11).toNat = _
  simp [Nat.shiftRight_eq_div_pow]

theorem toNat_unpackSign (v : BitVec 64) :
    (@unpackSign Format.binary64 v).toNat = v.toNat / 2 ^ 63 % 2 := by
  show (v.extractLsb' 63 1).toNat = _
  simp [Nat.shiftRight_eq_div_pow]

/-- The sign is the top bit. -/
theorem sign_of_bits (bits : UInt64) :
    Sign.ofBitVec (@unpackSign Format.binary64 bits.toBitVec)
      = if bits.toNat / 2 ^ 63 == 1 then .negative else .positive := by
  have hs := toNat_unpackSign bits.toBitVec
  have hlt : bits.toNat < 2 ^ 64 := bits.toNat_lt
  rw [UInt64.toNat_toBitVec, Nat.mod_eq_of_lt (by omega)] at hs
  unfold Sign.ofBitVec
  by_cases hone : bits.toNat / 2 ^ 63 = 1
  · have hne : @unpackSign Format.binary64 bits.toBitVec ≠ 0#1 := fun h => by
      rw [h, hone] at hs
      cases hs
    rw [if_neg hne, if_pos (beq_iff_eq.2 hone)]
  · have hzero : @unpackSign Format.binary64 bits.toBitVec = 0#1 :=
      BitVec.eq_of_toNat_eq (hs.trans (by rw [BitVec.toNat_ofNat]; omega))
    rw [if_pos hzero, if_neg (fun h => hone (beq_iff_eq.1 h))]

/-- A finite double in the model: a zero, or what has the same sign and the same parts. -/
theorem unpack_cases (hb : Binary.ofFloat? x = some b) :
    (b.mantissa = 0 ∧ ∃ s, x.toModel.unpack = .zero s) ∨
      ∃ hm, x.toModel.unpack
        = .finite (if b.negative then .negative else .positive) b.mantissa b.exponent hm := by
  -- both readings take the same fields out of the bits
  have hm := toNat_unpackMantissa x.toBits.toBitVec
  have he := toNat_unpackExponent x.toBits.toBitVec
  have hunpack : x.toModel.unpack = UnpackedFloat.unpack Format.binary64 x.toBits.toBitVec := rfl
  have hbias : (Format.binary64.exponentBias : Int) + Format.binary64.mantissaBitsWithoutImplicit
      = 1075 := rfl
  rw [hunpack]
  unfold UnpackedFloat.unpack
  dsimp only
  rw [sign_of_bits, hbias]
  unfold Binary.ofFloat? at hb
  simp only [Nat.pow_eq] at hb
  split at hb
  · cases hb
  · have hne : @unpackExponent Format.binary64 x.toBits.toBitVec ≠ -1#11 := fun h =>
      absurd (h ▸ he).symm ‹_›
    rw [if_neg hne]
    split at hb
    all_goals cases hb
    · have hexp : @unpackExponent Format.binary64 x.toBits.toBitVec = 0#11 :=
        BitVec.eq_of_toNat_eq (he.trans ‹_›)
      rw [if_pos hexp]
      by_cases hmantissa : @unpackMantissa Format.binary64 x.toBits.toBitVec = 0#52
      · rw [dif_pos hmantissa]
        exact .inl ⟨(hmantissa ▸ hm).symm, _, rfl⟩
      · -- a subnormal number
        have h0 : x.toBits.toNat % 2 ^ 52 ≠ 0 := fun h =>
          hmantissa (BitVec.eq_of_toNat_eq (hm.trans h))
        rw [dif_neg hmantissa]
        refine .inr ⟨Nat.pos_of_ne_zero h0, (UnpackedFloat.finite.injEq ..).mpr ⟨rfl, hm, ?_⟩⟩
        rw [hexp]
        rfl
    · have hexp : @unpackExponent Format.binary64 x.toBits.toBitVec ≠ 0#11 := fun h =>
        absurd (h ▸ he).symm ‹_›
      rw [if_neg hexp]
      refine .inr ⟨Nat.add_pos_right _ (Nat.two_pow_pos 52),
        (UnpackedFloat.finite.injEq ..).mpr ⟨rfl, ?_, ?_⟩⟩
      · -- the bit in front of the others is set
        rw [BitVec.toNat_append, ← Nat.shiftLeft_add_eq_or_of_lt (BitVec.isLt _), Nat.shiftLeft_eq,
          hm, Nat.add_comm]
        exact congrArg (x.toBits.toNat % 2 ^ 52 + ·) (Nat.one_mul _)
      · rw [he]
        rfl

/-- The numbers below zero are those with a sign, zero apart. -/
theorem lt_zero_iff (hb : Binary.ofFloat? x = some b) :
    x < 0 ↔ b.negative = true ∧ b.mantissa ≠ 0 := by
  have hlt : x < 0 ↔ x.toModel.unpack.lt (.zero .positive) = true :=
    decide_eq_true_iff
  rw [hlt]
  rcases unpack_cases hb with ⟨h0, s, hx⟩ | ⟨hm, hx⟩
  · rw [hx]
    exact ⟨fun h => absurd h Bool.false_ne_true, fun h => absurd h0 h.2⟩
  · rw [hx]
    cases b.negative
    · exact ⟨fun h => absurd h Bool.false_ne_true, fun h => absurd h.1 Bool.false_ne_true⟩
    · exact ⟨fun _ => ⟨rfl, hm.ne'⟩, fun _ => rfl⟩

/-- The parts of a double made of a mantissa of 53 bits. -/
theorem ofFloat?_of_pack {s : UnpackedFloat.Sign} {m : Nat} {e : Int} {hm : 0 < m}
    (hx : x.toModel = Float.Model.pack (.finite s m e hm)) (hlog : m.log2 = 52) (he : -1074 ≤ e)
    (he' : e ≤ 971) : Binary.ofFloat? x = some ⟨s == .negative, m, e⟩ := by
  obtain ⟨hlo, hhi⟩ : 2 ^ 52 ≤ m ∧ m < 2 ^ 53 := (Nat.log2_eq_iff hm.ne').1 hlog
  have hbits : x.toBits.toNat
      = s.toBitVec.toNat * 2 ^ 63 + (e + 1075).toNat * 2 ^ 52 + (m - 2 ^ 52) := by
    rw [← toNat_pack_finite s hm hlog he he', Float.toBits, hx]
    rfl
  have hsign : s.toBitVec.toNat ≤ 1 := Nat.le_of_lt_succ s.toBitVec.isLt
  have hnegative : (x.toBits.toNat / 2 ^ 63 == 1) = (s == .negative) := by
    have hone : x.toBits.toNat / 2 ^ 63 = s.toBitVec.toNat := by omega
    rw [hone]
    cases s <;> rfl
  unfold Binary.ofFloat?
  simp only [Nat.pow_eq, hnegative]
  rw [if_neg (by omega), if_neg (by omega)]
  congr 2 <;> omega

end Double

/-- What is accepted as a whole number has no fraction and is not below zero. -/
theorem wholeNumber?_eq_some (h : wholeNumber? x = some n) :
    ∃ b, Binary.ofFloat? x = some b ∧ b.isIntegral = true ∧ b.floorAbs = n ∧ ¬ x < 0 := by
  unfold wholeNumber? at h
  split at h
  · rename_i b hb
    obtain ⟨hc, hn⟩ := Option.ite_none_right_eq_some.1 h
    simp only [Bool.and_eq_true, Bool.not_eq_true', decide_eq_false_iff_not] at hc
    exact ⟨b, hb, hc.1, Option.some.inj hn, hc.2⟩
  · cases h

theorem mantissa_eq_zero (hi : b.isIntegral = true) (h0 : b.floorAbs = 0) : b.mantissa = 0 := by
  have hprod := Double.mantissa_mul_of_isIntegral hi
  rw [h0, Nat.zero_mul] at hprod
  exact (Nat.mul_eq_zero.1 hprod).resolve_right (Nat.two_pow_pos _).ne'

/-- An integer is below zero as a double if it is so as an integer. -/
theorem lt_zero_iff_truncate (hb : Binary.ofFloat? x = some b) (hi : b.isIntegral = true) :
    x < 0 ↔ b.truncate < 0 := by
  rw [Double.lt_zero_iff hb, Binary.truncate]
  constructor
  · rintro ⟨hneg, h0⟩
    have hfloor : b.floorAbs ≠ 0 := fun h => h0 (mantissa_eq_zero hi h)
    rw [if_pos hneg]
    omega
  · intro h
    split at h
    · rename_i hneg
      refine ⟨hneg, fun h0 => ?_⟩
      rw [Double.floorAbs_zero h0] at h
      exact absurd h (by decide)
    · omega

theorem natAbs_truncate (b : Binary) : b.truncate.natAbs = b.floorAbs := by
  unfold Binary.truncate
  split
  · rw [Int.natAbs_neg, Int.natAbs_natCast]
  · exact Int.natAbs_natCast _

/-- Truncating a whole number gives it back. -/
theorem truncate?_of_whole (h : wholeNumber? x = some n) : Double.truncate? x = some (n : Int) := by
  obtain ⟨b, hb, -, rfl, hx⟩ := wholeNumber?_eq_some h
  rw [Double.truncate?, hb, Option.map_some, Binary.truncate]
  split
  · rename_i hneg
    have hm : b.mantissa = 0 := by
      by_contra hm
      exact hx ((Double.lt_zero_iff hb).2 ⟨hneg, hm⟩)
    rw [Double.floorAbs_zero hm]
    rfl
  · rfl

theorem not_lt_zero_of_whole (h : wholeNumber? x = some n) : ¬ x < 0 := by
  obtain ⟨_, -, -, -, hx⟩ := wholeNumber?_eq_some h
  exact hx

/-- The parts of the double of a natural number. -/
theorem ofFloat?_ofNat (h0 : 0 < n) (hn : n < 2 ^ 53) : Binary.ofFloat? (Float.ofNat n)
    = some ⟨false, n * 2 ^ (52 - n.log2), -((52 - n.log2 : Nat) : Int)⟩ := by
  have hlog : n.log2 ≤ 52 := Double.log2_le h0 hn
  have hexp : -((52 - n.log2 : Nat) : Int) = (n.log2 : Int) - 52 := by omega
  obtain ⟨hm, hmodel⟩ := Double.toModel_ofNat h0 hn
  rw [hexp]
  exact Double.ofFloat?_of_pack hmodel (Double.log2_filled h0 hn) (by omega) (by omega)

theorem not_ofNat_lt_zero (h0 : 0 < n) (hn : n < 2 ^ 53) : ¬ Float.ofNat n < 0 :=
  fun h => absurd ((Double.lt_zero_iff (ofFloat?_ofNat h0 hn)).1 h).1 Bool.false_ne_true

/-- A natural number below 2^53 is its double. -/
theorem wholeNumber?_ofNat (hn : n < 2 ^ 53) : wholeNumber? (Float.ofNat n) = some n := by
  unfold wholeNumber?
  obtain rfl | h0 := Nat.eq_zero_or_pos n
  · have hb : Binary.ofFloat? (Float.ofNat 0) = some ⟨false, 0, -1074⟩ := rfl
    have hx : ¬ Float.ofNat 0 < 0 := by decide
    rw [hb]
    dsimp only
    rw [Double.isIntegral_zero rfl, Double.floorAbs_zero rfl, decide_eq_false hx]
    rfl
  · have hratio : Binary.ratio ⟨false, n * 2 ^ (52 - n.log2), -((52 - n.log2 : Nat) : Int)⟩
        = (n * 2 ^ (52 - n.log2), 2 ^ (52 - n.log2)) := by
      simp [Binary.ratio]
    rw [ofFloat?_ofNat h0 hn]
    simp [Binary.isIntegral, Binary.floorAbs, hratio, not_ofNat_lt_zero h0 hn]

/-- The digits of a natural number that is not zero stand in front of zeros up to the end of the
mantissa. -/
theorem mantissa_of_whole (h : wholeNumber? x = some n) (h0 : 0 < n) (hn : n < 2 ^ 53) :
    ∃ j : Nat, Binary.ofFloat? x = some ⟨false, n * 2 ^ j, -j⟩ := by
  obtain ⟨b, hb, hi, rfl, hx⟩ := wholeNumber?_eq_some h
  have hm : b.mantissa ≠ 0 := fun hm => h0.ne' (Double.floorAbs_zero hm)
  obtain ⟨j, hj, hmantissa, hlo, -, hbits⟩ := Double.mantissa_eq hb hi hn hm
  have hneg : b.negative = false := by
    by_contra hneg
    exact hx ((Double.lt_zero_iff hb).2 ⟨by simpa using hneg, hm⟩)
  have hexp : b.exponent = -(j : Int) := by
    rcases Double.ofFloat_cases hb hm with ⟨-, hlt⟩ | ⟨-, -, he, hbits'⟩
    · omega
    · rw [hneg] at hbits hbits'
      omega
  refine ⟨j, hb.trans (congrArg some ?_)⟩
  rw [← hmantissa, ← hexp, ← hneg]

/-! ### The shortest decimal -/

namespace Decimal

variable {d : Decimal} {tie : Tie}

/-- A decimal that is a given natural number, with no digits behind the point. -/
structure IsWhole (d : Decimal) (n : Nat) : Prop where
  exponent : 0 ≤ d.exponent
  value : d.digits * 10 ^ d.exponent.toNat = n

/-- Of the points that are multiples of four quarters of the last place, only the number itself is
in its rounding interval. -/
theorem holds_iff (h0 : 0 < n) (hm : b.mantissa = n * 2 ^ j) (k : Nat) :
    (interval b).holds (4 * 2 ^ j * k) 1 = true ↔ k = n := by
  have hmid : 4 * b.mantissa = 4 * 2 ^ j * n := by
    rw [hm]
    ring
  have hstep : 4 ≤ 4 * 2 ^ j := Nat.le_mul_of_pos_right 4 (Nat.two_pow_pos j)
  -- from one point to the next it is at least a whole last place
  have hbelow (h : k < n) : 4 * 2 ^ j * k + 4 ≤ 4 * b.mantissa := by
    have hk := Nat.mul_le_mul_left (4 * 2 ^ j) (Nat.succ_le_of_lt h)
    rw [Nat.mul_succ] at hk
    omega
  have habove (h : n < k) : 4 * b.mantissa + 4 ≤ 4 * 2 ^ j * k := by
    have hk := Nat.mul_le_mul_left (4 * 2 ^ j) (Nat.succ_le_of_lt h)
    rw [Nat.mul_succ] at hk
    omega
  have hlow : 4 * b.mantissa ≤ (interval b).low + 2 ∧ (interval b).low < 4 * b.mantissa := by
    have hpos : 0 < b.mantissa := hm ▸ Nat.mul_pos h0 (Nat.two_pow_pos j)
    unfold interval
    dsimp only
    split <;> omega
  have hhigh : (interval b).high = 4 * b.mantissa + 2 := rfl
  unfold Interval.holds
  simp only [Nat.mul_one]
  constructor
  · intro h
    by_contra hne
    rcases Nat.lt_or_gt_of_ne hne with hlt | hlt
    · have hk := hbelow hlt
      split at h <;> simp only [Bool.and_eq_true, decide_eq_true_eq] at h <;> omega
    · have hk := habove hlt
      split at h <;> simp only [Bool.and_eq_true, decide_eq_true_eq] at h <;> omega
  · rintro rfl
    split <;> simp only [Bool.and_eq_true, decide_eq_true_eq] <;> omega

/-- The search finds a natural number itself, if the grid of step one is among those that are
tried. -/
theorem search_whole (h0 : 0 < n) (hm : b.mantissa = n * 2 ^ j) (he : b.exponent = -(j : Int))
    (tie : Tie) {count k fuel : Nat} (hk : k ≤ count) (hf : count < fuel + k) :
    IsWhole (search tie b ((count : Int) - 1) fuel k) n := by
  induction fuel generalizing k with
  | zero => omega
  | succ fuel ih =>
    obtain ⟨g, rfl⟩ := Nat.exists_eq_add_of_le hk
    have hg : ((k + g : Nat) : Int) - 1 - k + 1 = (g : Int) := by omega
    have hnum : Nat.pow 10 g * 4 * Nat.pow 2 j = 4 * 2 ^ j * 10 ^ g := by
      simp only [Nat.pow_eq]
      ring
    have hden : Nat.pow 10 0 * Nat.pow 2 0 = 1 := rfl
    have hbelow : (interval b).mid * 1 / (4 * 2 ^ j * 10 ^ g) = n / 10 ^ g := by
      have hmid : (interval b).mid * 1 = 4 * 2 ^ j * n := by
        show 4 * b.mantissa * 1 = _
        rw [hm]
        ring
      rw [hmid, Nat.mul_div_mul_left _ _ (by positivity)]
    have hpoint (i : Nat) : i * (4 * 2 ^ j * 10 ^ g) = 4 * 2 ^ j * (i * 10 ^ g) := by ring
    have habove : (n / 10 ^ g + 1) * 10 ^ g ≠ n := by
      rw [Nat.mul_comm]
      exact (Nat.lt_mul_div_succ n (Nat.pow_pos (by decide))).ne'
    -- one step of the search tries the candidate with `k` digits, and the one above it
    unfold search
    simp only [hg, he, Int.toNat_natCast, Int.toNat_neg_natCast, neg_neg, hnum, hden, hbelow,
      hpoint, holds_iff h0 hm, if_neg habove]
    -- the candidate is the number iff only zeros were cut off
    by_cases hhit : n / 10 ^ g * 10 ^ g = n
    · have hpos : n / 10 ^ g ≠ 0 := fun h => h0.ne (by rw [← hhit, h, Nat.zero_mul])
      rw [if_pos ⟨hpos, hhit⟩]
      exact ⟨Int.natCast_nonneg g, hhit⟩
    · rw [if_neg fun h => hhit h.2]
      -- a miss has cut off something, so there is one more digit to try
      have hg0 : g ≠ 0 := fun h => hhit (by rw [h, Nat.pow_zero, Nat.div_one, Nat.mul_one])
      exact ih (by omega) (by omega)

/-- Taking trailing zeros off keeps the number that is spelt. -/
theorem strip_whole (h : IsWhole d n) (fuel : Nat) : IsWhole (strip fuel d) n := by
  induction fuel generalizing d with
  | zero => exact h
  | succ fuel ih =>
    unfold strip
    split
    · rename_i hc
      have he : (d.exponent + 1).toNat = d.exponent.toNat + 1 := by
        have := h.exponent
        omega
      refine ih ⟨Int.add_nonneg h.exponent (by decide), ?_⟩
      dsimp only
      rw [he, Nat.pow_succ', ← Nat.mul_assoc, Nat.div_mul_cancel (Nat.dvd_of_mod_eq_zero hc.2),
        h.value]
    · exact h

/-- A power of ten appends as many zeros. -/
theorem toDigits_mul_pow (h0 : 0 < n) (g : Nat) :
    Nat.toDigits 10 (n * 10 ^ g) = Nat.toDigits 10 n ++ List.replicate g '0' := by
  induction g with
  | zero => simp
  | succ g ih =>
    have hpos : 0 < n * 10 ^ g := Nat.mul_pos h0 (Nat.pow_pos (by decide))
    have hs : n * 10 ^ (g + 1) = 10 * (n * 10 ^ g) + 0 := by ring
    rw [hs, ← Nat.toDigits_append_toDigits (by decide) hpos (by decide), ih, List.replicate_succ',
      List.append_assoc]
    rfl

namespace IsWhole

variable (h : IsWhole d n) (h0 : 0 < n)

include h h0

theorem digits_pos : 0 < d.digits := by
  refine Nat.pos_of_ne_zero fun hd => h0.ne ?_
  rw [← h.value, hd, Nat.zero_mul]

/-- The digits of a whole number are those of its significand and then zeros. -/
theorem toDigits_eq :
    Nat.toDigits 10 n = Nat.toDigits 10 d.digits ++ List.replicate d.exponent.toNat '0' := by
  rw [← h.value, toDigits_mul_pow (h.digits_pos h0)]

/-- Written out in full, a whole number is its digits. -/
theorem positional_eq : d.positional = digitsText n := by
  unfold positional
  rw [if_pos h.exponent, digitsText, digitsText, ← String.ofList_append, h.toDigits_eq h0]

theorem leading_eq : d.leading = ((Nat.toDigits 10 n).length : Int) - 1 := by
  have he := h.exponent
  rw [leading, digitCount, if_neg (h.digits_pos h0).ne', h.toDigits_eq h0, List.length_append,
    List.length_replicate]
  omega

end IsWhole

end Decimal

/-- The shortest decimal of a natural number is the number itself. -/
theorem Decimal.shortest_whole (tie : Tie) (h0 : 0 < n) (hn : n < 2 ^ 53) (j : Nat) :
    (shortest tie ⟨false, n * 2 ^ j, -j⟩).IsWhole n := by
  have hm : n * 2 ^ j ≠ 0 := Nat.mul_ne_zero h0.ne' (Nat.two_pow_pos j).ne'
  have hratio : Binary.ratio ⟨false, n * 2 ^ j, -j⟩ = (n * 2 ^ j, 2 ^ j) := by
    simp [Binary.ratio]
  have hmagnitude : magnitude (n * 2 ^ j) (2 ^ j) = ((Nat.toDigits 10 n).length : Int) - 1 := by
    rw [magnitude, if_pos (Nat.le_mul_of_pos_left _ h0), Nat.mul_div_cancel _ (Nat.two_pow_pos j),
      digitCount, if_neg h0.ne']
  have hcount : (Nat.toDigits 10 n).length ≤ 16 :=
    (Nat.length_toDigits_le_iff (by decide) (by decide)).2 (hn.trans (by decide))
  have hpos : 0 < (Nat.toDigits 10 n).length := Nat.length_toDigits_pos
  unfold shortest
  rw [if_neg hm, hratio]
  dsimp only
  rw [hmagnitude]
  exact strip_whole (search_whole h0 rfl rfl tie hpos (by omega)) 20

/-- A natural number below 2^53 is written with its digits. -/
theorem numberText_of_whole (h : wholeNumber? x = some n) (hn : n < 2 ^ 53) :
    numberText x = indexKey n := by
  obtain h0 | h0 := Nat.eq_zero_or_pos n
  · obtain ⟨b, hb, hi, rfl, -⟩ := wholeNumber?_eq_some h
    unfold numberText
    rw [hb]
    dsimp only
    rw [if_pos (mantissa_eq_zero hi h0), h0]
    rfl
  · obtain ⟨j, hb⟩ := mantissa_of_whole h h0 hn
    have hm : n * 2 ^ j ≠ 0 := Nat.mul_ne_zero h0.ne' (Nat.two_pow_pos j).ne'
    have hwhole := Decimal.shortest_whole .up h0 hn j
    have hcount : (Nat.toDigits 10 n).length ≤ 16 :=
      (Nat.length_toDigits_le_iff (by decide) (by decide)).2 (hn.trans (by decide))
    unfold numberText
    rw [hb]
    dsimp only
    rw [if_neg hm, hwhole.leading_eq h0, if_pos (by omega), hwhole.positional_eq h0]
    rfl

end Estree
