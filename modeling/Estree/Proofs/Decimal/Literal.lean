/-
Estree/Proofs/Decimal/Literal.lean

Decimal literals.

The grammar of literals is stated part by part: sign, mantissa, exponent (`Numeral.Spells`).
Reading takes a text apart from the left, each part as long as it goes, so that one fact about each
part is enough for a reading to be unique: what follows does not begin like it
(`IsMantissa.not_sign`, `IsExponent.not_digit`).  With these, reading accepts exactly the literals,
and finds the numeral that a literal stands for (`ofChars?_eq_some_iff`).

No literal stands for NaN (`Numeral.isNaN_toFloat`): its value is rounded once, or made of two
numbers of which one is a power of ten, neither zero nor infinite.
-/
import Estree.Proofs.Decimal.Nearest

namespace Estree

/-- Between the control characters and the ASCII limit there is one white space only, the first. -/
theorem Text.isBlank_of_graphic {c : Char} (h : 0x20 < c.toNat) (h' : c.toNat < 0x7F) :
    isBlank c = false := by
  simp only [isBlank, Bool.or_eq_false_iff, Bool.and_eq_false_iff, decide_eq_false_iff_not,
    beq_eq_false_iff_ne]
  omega

/-- Digits have the codes from 48 to 57. -/
theorem toNat_of_isDigit {c : Char} (h : c.isDigit = true) : 48 ≤ c.toNat ∧ c.toNat ≤ 57 := by
  have hc : 48 ≤ c.val ∧ c.val ≤ 57 := by simpa [Char.isDigit] using h
  exact hc

namespace Numeral

/-! ### The grammar -/

/-- At least one digit. -/
def IsRun (ds : List Char) : Prop :=
  ds ≠ [] ∧ ∀ c ∈ ds, c.isDigit = true

/-- An optional sign, and whether it is a minus. -/
inductive IsSign : List Char → Bool → Prop
  | absent : IsSign [] false
  | plus : IsSign ['+'] false
  | minus : IsSign ['-'] true

/-- Digits with an optional point and fraction, or a point and digits; with all the digits, and with
how many of them stand behind the point. -/
inductive IsMantissa : List Char → List Char → Nat → Prop
  | whole {ds} (h : IsRun ds) : IsMantissa ds ds 0
  | point {ds fs} (h : IsRun ds) (hf : ∀ c ∈ fs, c.isDigit = true) :
      IsMantissa (ds ++ '.' :: fs) (ds ++ fs) fs.length
  | fraction {fs} (h : IsRun fs) : IsMantissa ('.' :: fs) fs fs.length

/-- An optional exponent, and its value. -/
inductive IsExponent : List Char → Int → Prop
  | absent : IsExponent [] 0
  | marked {c s ds negative} (hc : c = 'e' ∨ c = 'E') (hs : IsSign s negative) (h : IsRun ds) :
      IsExponent (c :: (s ++ ds))
        (if negative then -(natOfDigits ds : Int) else natOfDigits ds)

/-- A decimal literal, and the numeral that it stands for. -/
inductive Spells : Numeral → List Char → Prop
  | mk {s ps ds es negative k e} (hs : IsSign s negative) (hm : IsMantissa ps ds k)
      (he : IsExponent es e) : Spells ⟨negative, natOfDigits ds, e - k⟩ (s ++ (ps ++ es))

variable {cs ds es fs ps rs s : List Char} {c : Char} {negative : Bool} {k : Nat} {e : Int}
  {n : Numeral}

/-! ### Beginnings of its parts -/

/-- A digit is no sign. -/
theorem not_sign_of_isDigit (h : c.isDigit = true) : c ≠ '+' ∧ c ≠ '-' := by
  constructor <;> rintro rfl <;> exact absurd h (by decide)

/-- What begins with a run of digits has no sign in front. -/
theorem IsRun.not_sign (h : IsRun ds) (rs : List Char) :
    ∀ c ∈ (ds ++ rs).head?, c ≠ '+' ∧ c ≠ '-' := by
  obtain ⟨d, ds, rfl⟩ := List.exists_cons_of_ne_nil h.1
  rintro c ⟨⟩
  exact not_sign_of_isDigit (h.2 d (List.mem_cons_self ..))

/-- What begins with a mantissa has no sign in front: it is a digit or the point. -/
theorem IsMantissa.not_sign (h : IsMantissa ps ds k) (rs : List Char) :
    ∀ c ∈ (ps ++ rs).head?, c ≠ '+' ∧ c ≠ '-' := by
  cases h with
  | whole h => exact h.not_sign rs
  | point h =>
    rw [List.append_assoc]
    exact h.not_sign _
  | fraction h =>
    rintro c ⟨⟩
    decide

/-- An exponent that is there begins with its mark. -/
theorem IsExponent.mark (h : IsExponent es e) : ∀ c ∈ es.head?, c = 'e' ∨ c = 'E' := by
  cases h with
  | absent => simp
  | marked hc =>
    rintro c ⟨⟩
    exact hc

/-- So it does not go on with digits that are in front of it. -/
theorem IsExponent.not_digit (h : IsExponent es e) : ∀ c ∈ es.head?, c.isDigit = false := by
  intro c hc
  rcases h.mark c hc with rfl | rfl <;> rfl

/-! ### Its characters -/

/-- The characters of literals. -/
def IsLiteralChar (c : Char) : Prop :=
  c.isDigit = true ∨ c ∈ ['+', '-', '.', 'e', 'E']

/-- No character of a literal is white space, so trimming leaves literals as they are. -/
theorem IsLiteralChar.not_isBlank (h : IsLiteralChar c) : Text.isBlank c = false := by
  rcases h with h | h
  · have hc := toNat_of_isDigit h
    exact Text.isBlank_of_graphic (by omega) (by omega)
  · simp only [List.mem_cons, List.not_mem_nil, or_false] at h
    rcases h with rfl | rfl | rfl | rfl | rfl <;> rfl

theorem IsSign.chars (h : IsSign s negative) : ∀ c ∈ s, IsLiteralChar c := by
  cases h <;> simp [IsLiteralChar]

/-- Digits and the point are characters of literals. -/
theorem IsMantissa.chars (h : IsMantissa ps ds k) : ∀ c ∈ ps, IsLiteralChar c := by
  cases h with
  | whole h => exact fun c hc => .inl (h.2 c hc)
  | point h hf =>
    simp only [List.forall_mem_append, List.forall_mem_cons]
    exact ⟨fun c hc => .inl (h.2 c hc), .inr (by decide), fun c hc => .inl (hf c hc)⟩
  | fraction h =>
    exact List.forall_mem_cons.2 ⟨.inr (by decide), fun c hc => .inl (h.2 c hc)⟩

/-- So are the mark, its sign and its digits. -/
theorem IsExponent.chars (h : IsExponent es e) : ∀ c ∈ es, IsLiteralChar c := by
  cases h with
  | absent => simp
  | marked hc hs h =>
    simp only [List.forall_mem_append, List.forall_mem_cons]
    exact ⟨.inr (by rcases hc with rfl | rfl <;> decide), hs.chars, fun c hc => .inl (h.2 c hc)⟩

/-- All that a numeral is spelt with are characters of literals. -/
theorem Spells.chars (h : Spells n cs) : ∀ c ∈ cs, IsLiteralChar c := by
  cases h with
  | mk hs hm he =>
    simp only [List.forall_mem_append]
    exact ⟨hs.chars, hm.chars, he.chars⟩

/-- A numeral has at least a digit. -/
theorem Spells.ne_nil (h : Spells n cs) : cs ≠ [] := by
  cases h with
  | mk hs hm he => cases hm with
    | whole h => simp [h.1]
    | point h => simp
    | fraction h => simp

/-! ### Reading -/

/-- A sign is split off from what does not begin with one. -/
theorem splitSign_append (hs : IsSign s negative) (hr : ∀ c ∈ rs.head?, c ≠ '+' ∧ c ≠ '-') :
    splitSign (s ++ rs) = (negative, rs) := by
  cases hs with
  | absent =>
    show splitSign rs = _
    unfold splitSign
    split
    · exact absurd rfl (hr _ rfl).2
    · exact absurd rfl (hr _ rfl).1
    · rfl
  | plus => rfl
  | minus => rfl

/-- What is split off is a sign, or nothing. -/
theorem exists_sign (cs : List Char) :
    ∃ s, IsSign s (splitSign cs).1 ∧ cs = s ++ (splitSign cs).2 := by
  unfold splitSign
  split
  · exact ⟨['-'], .minus, rfl⟩
  · exact ⟨['+'], .plus, rfl⟩
  · exact ⟨[], .absent, rfl⟩

/-- A run of digits ends where something else begins. -/
theorem span_digits (hd : ∀ c ∈ ds, c.isDigit = true) (hr : ∀ c ∈ rs.head?, c.isDigit = false) :
    (ds ++ rs).takeWhile Char.isDigit = ds ∧ (ds ++ rs).dropWhile Char.isDigit = rs := by
  have hnone : rs.takeWhile Char.isDigit = [] ∧ rs.dropWhile Char.isDigit = rs := by
    cases rs with
    | nil => exact ⟨rfl, rfl⟩
    | cons c rs => simp [hr c rfl]
  rw [List.takeWhile_append_of_pos hd, List.dropWhile_append_of_pos hd, hnone.1, hnone.2,
    List.append_nil]
  exact ⟨rfl, rfl⟩

/-- The reader of exponents takes what is one, all of it, and nothing else. -/
theorem exponent?_eq_some_iff : exponent? es = some e ↔ IsExponent es e := by
  constructor
  · intro h
    unfold exponent? at h
    split at h
    · cases h
      exact .absent
    · rename_i c rest
      split at h
      · rename_i hc
        -- behind the mark a sign and then digits, at least one
        obtain ⟨s, hs, hrest⟩ := exists_sign rest
        generalize splitSign rest = parts at *
        obtain ⟨negative, ds⟩ := parts
        dsimp only at h hs hrest
        subst hrest
        split at h
        · cases h
        · rename_i hds
          cases h
          simp only [Bool.or_eq_true, List.isEmpty_iff, Bool.not_eq_true', not_or,
            Bool.not_eq_false, List.all_eq_true] at hds
          exact .marked hc hs hds
      · cases h
  · intro h
    cases h with
    | absent => rfl
    | @marked c s ds negative hc hs h =>
      have hsplit : splitSign (s ++ ds) = (negative, ds) :=
        splitSign_append hs (by simpa using h.not_sign [])
      have hds : (ds.isEmpty || !ds.all Char.isDigit) = false := by
        simp [h.1, List.all_eq_true.2 h.2]
      simp only [exponent?, if_pos hc, hsplit, hds]
      rfl

/-- Mantissa and exponent are read with the digits of both runs as one number. -/
theorem magnitude?_append (hm : IsMantissa ps ds k) (he : IsExponent es e) (negative : Bool) :
    magnitude? negative (ps ++ es) = some ⟨negative, natOfDigits ds, e - k⟩ := by
  have hes := exponent?_eq_some_iff.2 he
  cases hm with
  | whole h =>
    obtain ⟨htake, hdrop⟩ := span_digits h.2 he.not_digit
    simp only [magnitude?, htake, hdrop]
    split
    · rcases he.mark '.' rfl with h | h <;> exact absurd h (by decide)
    · simp [h.1, hes]
  | @point ds fs h hf =>
    have hpoint : ∀ c ∈ ('.' :: (fs ++ es)).head?, c.isDigit = false := by
      rintro c ⟨⟩
      rfl
    obtain ⟨htake, hdrop⟩ := span_digits h.2 hpoint
    obtain ⟨htake', hdrop'⟩ := span_digits hf he.not_digit
    rw [List.append_assoc, List.cons_append]
    simp [magnitude?, htake, hdrop, htake', hdrop', h.1, hes]
  | fraction h =>
    obtain ⟨htake, hdrop⟩ := span_digits h.2 he.not_digit
    simp [magnitude?, htake, hdrop, h.1, hes]

/-- What has been read is a mantissa with an exponent behind it. -/
theorem of_magnitude? (h : magnitude? negative cs = some n) :
    ∃ ps ds k es e, cs = ps ++ es ∧ IsMantissa ps ds k ∧ IsExponent es e ∧
      n = ⟨negative, natOfDigits ds, e - k⟩ := by
  have hdigits (rs : List Char) : ∀ c ∈ rs.takeWhile Char.isDigit, c.isDigit = true :=
    fun c hc => List.mem_takeWhile_imp hc
  have hcs := (List.takeWhile_append_dropWhile (p := Char.isDigit) (l := cs)).symm
  have hwhole := hdigits cs
  unfold magnitude? at h
  -- from here on the text is `ds ++ after`, with digits in front
  generalize cs.takeWhile Char.isDigit = ds at *
  generalize cs.dropWhile Char.isDigit = after at *
  subst hcs
  dsimp only at h
  split at h
  · rename_i r
    have hr := (List.takeWhile_append_dropWhile (p := Char.isDigit) (l := r)).symm
    have hplaces := hdigits r
    generalize r.takeWhile Char.isDigit = fs at *
    generalize r.dropWhile Char.isDigit = es at *
    subst hr
    dsimp only at h
    split at h
    · cases h
    · rename_i hsome
      obtain ⟨e, he, rfl⟩ := Option.map_eq_some_iff.1 h
      have he' := exponent?_eq_some_iff.1 he
      -- digits on one side of the point are enough
      by_cases hds : ds = []
      · subst hds
        have hfs : fs ≠ [] := by simpa using hsome
        exact ⟨'.' :: fs, _, _, _, _, rfl, .fraction ⟨hfs, hplaces⟩, he', rfl⟩
      · exact ⟨ds ++ '.' :: fs, _, _, _, _, by simp, .point ⟨hds, hwhole⟩ hplaces, he', rfl⟩
  · dsimp only at h
    split at h
    · cases h
    · rename_i hsome
      obtain ⟨e, he, rfl⟩ := Option.map_eq_some_iff.1 h
      have hds : ds ≠ [] := by simpa using hsome
      exact ⟨ds, ds, 0, _, _, rfl, .whole ⟨hds, hwhole⟩, exponent?_eq_some_iff.1 he, by simp⟩

/-- Reading accepts exactly the literals. -/
theorem ofChars?_eq_some_iff : ofChars? cs = some n ↔ Spells n cs := by
  constructor
  · intro h
    obtain ⟨s, hs, hcs⟩ := exists_sign cs
    rw [ofChars?] at h
    generalize splitSign cs = parts at *
    obtain ⟨ps, ds, k, es, e, hrest, hm, he, rfl⟩ := of_magnitude? h
    rw [hcs, hrest]
    exact .mk hs hm he
  · rintro ⟨hs, hm, he⟩
    rw [ofChars?, splitSign_append hs (hm.not_sign _)]
    exact magnitude?_append hm he _

end Numeral

/-- The reader of numerals takes what spells one, and rounds it once. -/
theorem decimal?_eq_some_iff {cs : List Char} {x : Float} :
    decimal? cs = some x ↔ ∃ n, Numeral.Spells n cs ∧ n.toFloat = x := by
  simp [decimal?, Numeral.ofChars?_eq_some_iff]

/-! ### Words -/

/-- The filter in front of the reader lets through just the characters of literals. -/
theorem isLiteralChar_iff {c : Char} : isLiteralChar c = true ↔ Numeral.IsLiteralChar c := by
  rw [isLiteralChar, Bool.or_eq_true, Numeral.IsLiteralChar, List.contains_iff_mem]
  simp only [List.mem_cons, List.not_mem_nil, or_false]
  tauto

/-- No character of a literal is an `n`, neither a small nor a capital one. -/
theorem Numeral.IsLiteralChar.toLower_ne {c : Char} (h : IsLiteralChar c) : c.toLower ≠ 'n' := by
  rcases h with h | h
  · -- a digit is no letter
    have hdigit := toNat_of_isDigit h
    have hupper : ¬ (c.val ≥ 65 ∧ c.val ≤ 90) := by
      rintro ⟨hc, -⟩
      have hc' : 65 ≤ c.toNat := hc
      omega
    have hlower : c.toLower = c := by
      unfold Char.toLower
      simp [hupper]
    rw [hlower]
    rintro rfl
    exact absurd hdigit (by decide)
  · simp only [List.mem_cons, List.not_mem_nil, or_false] at h
    rcases h with rfl | rfl | rfl | rfl | rfl <;> decide

theorem Numeral.mem_of_mem_splitSign {cs : List Char} {c : Char} (h : c ∈ (splitSign cs).2) :
    c ∈ cs := by
  unfold splitSign at h
  split at h
  · exact List.mem_cons_of_mem _ h
  · exact List.mem_cons_of_mem _ h
  · exact h

/-- Each of the words has an `n`, so that none is written in characters of literals alone. -/
theorem special?_of_chars {cs : List Char} (h : ∀ c ∈ cs, Numeral.IsLiteralChar c) :
    special? cs = none := by
  have hne {word : String} (hn : 'n' ∈ word.toList) :
      (Numeral.splitSign cs).2.map Char.toLower ≠ word.toList := by
    intro heq
    rw [← heq] at hn
    obtain ⟨c, hc, hlower⟩ := List.mem_map.1 hn
    exact (h c (Numeral.mem_of_mem_splitSign hc)).toLower_ne hlower
  unfold special?
  dsimp only
  rw [if_neg (not_or.2 ⟨hne (by decide), hne (by decide)⟩), if_neg (hne (by decide))]

/-- The filter changes nothing about a text of such characters. -/
theorem double?_of_chars {cs : List Char} (h : ∀ c ∈ cs, Numeral.IsLiteralChar c) :
    double? cs = decimal? cs := by
  rw [double?, special?_of_chars h, Option.or_none]

/-- To ask for the characters first changes nothing for decimal literals, and refuses the words. -/
theorem filtered_double? (cs : List Char) (x : Float) :
    (if cs.all isLiteralChar then (double? cs).getD x else x) = (decimal? cs).getD x := by
  split
  · rename_i h
    rw [double?_of_chars fun c hc => isLiteralChar_iff.1 (List.all_eq_true.1 h c hc)]
  · rename_i h
    cases hd : decimal? cs with
    | none => rfl
    | some y =>
      obtain ⟨n, hn, -⟩ := decimal?_eq_some_iff.1 hd
      exact absurd (List.all_eq_true.2 fun c hc => isLiteralChar_iff.2 (hn.chars c hc)) h

/-! ### Values -/

namespace Double

open Float.Model Float.Model.UnpackedFloat

variable {x y : Float}

/-- A number that is neither infinite nor zero. -/
def IsOrdinary (x : Float) : Prop :=
  ∃ s m e hm, x.toModel.unpack = .finite s m e hm

/-- Packing keeps what is not a number, and makes nothing else so. -/
theorem isNaN_unpack_pack (u : UnpackedFloat) : (Float.Model.pack u).unpack.isNaN = u.isNaN := by
  show (UnpackedFloat.unpack Format.binary64 (UnpackedFloat.pack Format.binary64 u)).isNaN = _
  cases u with
  | notANumber => rfl
  | infinity s => cases s <;> rfl
  | zero s => cases s <;> rfl
  | finite s m e hm =>
    -- an exponent that is not all ones is never read as no number
    have hexp (v : BitVec 11) (hv : v ≠ -1#11) (w : BitVec 52) :
        (UnpackedFloat.unpack Format.binary64
          (packComponents Format.binary64 s v w)).isNaN = false := by
      simp only [UnpackedFloat.unpack, unpackExponent_packComponents, hv, if_false]
      split_ifs <;> rfl
    unfold UnpackedFloat.pack
    dsimp only
    split
    · cases s <;> rfl
    · rename_i hsmall
      split
      -- a carried exponent that is all ones would have been packed as infinity
      · refine hexp _ (fun h => hsmall ?_) _
        have hmod := congrArg BitVec.toNat h
        rw [BitVec.toNat_ofNat] at hmod
        change _ % 2 ^ 11 = 2047 at hmod
        change 2 ^ 11 ≤ _
        omega
      · exact hexp _ (by decide) _

/-- What is rounded is a number, even if it is infinite. -/
theorem isNaN_roundWithAccuracy (s : Sign) (m : Nat) (e : Int) (accuracy : Accuracy) :
    (roundWithAccuracy Format.binary64 s m e accuracy).isNaN = false := by
  unfold roundWithAccuracy
  dsimp only
  split <;> rfl

/-- The product of a number and an ordinary one is a number. -/
theorem isNaN_mul (hx : x.isNaN = false) (hy : IsOrdinary y) : (x * y).isNaN = false := by
  obtain ⟨s, m, e, hm, hy⟩ := hy
  have hu : x.toModel.unpack.isNaN = false := hx
  show (Float.Model.pack (UnpackedFloat.mul _ x.toModel.unpack y.toModel.unpack)).unpack.isNaN = _
  rw [isNaN_unpack_pack, hy]
  generalize x.toModel.unpack = u at hu
  cases u with
  | notANumber => cases hu
  | infinity => rfl
  | zero => rfl
  | finite => exact isNaN_roundWithAccuracy ..

/-- The quotient of a number and an ordinary one is a number. -/
theorem isNaN_div (hx : x.isNaN = false) (hy : IsOrdinary y) : (x / y).isNaN = false := by
  obtain ⟨s, m, e, hm, hy⟩ := hy
  have hu : x.toModel.unpack.isNaN = false := hx
  show (Float.Model.pack (UnpackedFloat.div _ x.toModel.unpack y.toModel.unpack)).unpack.isNaN = _
  rw [isNaN_unpack_pack, hy]
  generalize x.toModel.unpack = u at hu
  cases u with
  | notANumber => cases hu
  | infinity => rfl
  | zero => rfl
  | finite => exact isNaN_roundWithAccuracy ..

/-- Another sign does not matter. -/
theorem isNaN_neg (hx : x.isNaN = false) : (-x).isNaN = false := by
  have hu : x.toModel.unpack.isNaN = false := hx
  show (Float.Model.pack x.toModel.unpack.neg).unpack.isNaN = false
  rw [isNaN_unpack_pack]
  generalize x.toModel.unpack = u at hu
  cases u with
  | notANumber => cases hu
  | infinity => rfl
  | zero => rfl
  | finite => rfl

theorem isNaN_toFloat (n : UInt64) : n.toFloat.isNaN = false := by
  show (Float.Model.pack _).unpack.isNaN = false
  rw [isNaN_unpack_pack]
  unfold UnpackedFloat.ofUInt64 UnpackedFloat.ofNat UnpackedFloat.ofInt UnpackedFloat.normalize
  split
  · exact isNaN_roundWithAccuracy ..
  · rfl
  · exact isNaN_roundWithAccuracy ..

/-- The powers in the table are positive and finite, one by one. -/
theorem powerOfTen_pos : ∀ y ∈ Float.exactlyRepresentablePowersOfTen,
    (UnpackedFloat.zero .positive).lt y.toModel.unpack = true ∧
      y.toModel.unpack.isFinite = true := by
  decide

theorem isOrdinary_powerOfTen {e : Nat} (he : e < Float.exactlyRepresentablePowersOfTen.size) :
    IsOrdinary Float.exactlyRepresentablePowersOfTen[e] := by
  obtain ⟨hpos, hfinite⟩ := powerOfTen_pos _ (Array.getElem_mem he)
  unfold IsOrdinary
  generalize Float.exactlyRepresentablePowersOfTen[e].toModel.unpack = u at *
  cases u with
  | notANumber => cases hfinite
  | infinity => cases hfinite
  | zero => cases hpos
  | finite s m e hm => exact ⟨s, m, e, hm, rfl⟩

/-- Digits with an exponent are a number: zero, a rounded one or infinite. -/
theorem isNaN_unpackedOfScientific (m : Nat) (e : Int) :
    (UnpackedFloat.ofScientific Format.binary64 m e).isNaN = false := by
  unfold UnpackedFloat.ofScientific
  split_ifs
  · rfl
  · rfl
  · rfl
  · exact isNaN_roundWithAccuracy ..
  · exact isNaN_roundWithAccuracy ..

/-- So is what is read from them, along the short way and along the long one. -/
theorem isNaN_ofScientific (m : Nat) (negative : Bool) (e : Nat) :
    (Float.ofScientific m negative e).isNaN = false := by
  unfold Float.ofScientific
  split
  · dsimp only
    split
    · exact isNaN_div (isNaN_toFloat _) (isOrdinary_powerOfTen _)
    · exact isNaN_mul (isNaN_toFloat _) (isOrdinary_powerOfTen _)
  · show (Float.Model.pack (UnpackedFloat.ofScientific _ _ _)).unpack.isNaN = false
    rw [isNaN_unpack_pack]
    exact isNaN_unpackedOfScientific ..

end Double

/-- A literal never stands for NaN. -/
theorem Numeral.isNaN_toFloat (n : Numeral) : n.toFloat.isNaN = false := by
  unfold toFloat
  extract_lets top magnitude
  have hmagnitude : magnitude.isNaN = false := by
    unfold magnitude
    split_ifs
    · decide
    · decide
    · exact Double.isNaN_ofScientific ..
    · exact Double.isNaN_ofScientific ..
  split
  · exact Double.isNaN_neg hmagnitude
  · exact hmagnitude

end Estree
