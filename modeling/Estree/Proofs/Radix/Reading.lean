/-
Estree/Proofs/Radix/Reading.lean

Reading texts in a base.

`parseInt` undoes the writing of integers in a base.  It reads digits by Horner's rule in doubles,
which are exact as long as all numbers on the way are below 2^53; and on the way they only grow
(`le_foldl_digits`), so that it is enough for the last one to be.  What follows the digits is not
looked at if it is not a digit itself (`leadingDigits_append`), but for one thing: in base 16, zero
in front of an x is the announcement of the base.

The announcement is the one place where a text and what is appended to it interact, and it is
excluded as an assumption where it matters (`withoutHexMark`).
-/
import Estree.Proofs.Decimal.Exact
import Estree.Proofs.Decimal.Literal
import Estree.Proofs.Radix.Writing

namespace Estree

open Builtin (leadingDigits parseBase parseInt toRadix withoutHexMark)
open Numeral (IsSign)

variable {base d m n : Nat} {c : Char} {cs ds rs s : List Char} {vs : List Nat} {negative : Bool}
  {x : Float} {k : Int}

/-! ### Digits -/

/-- Digits lie between the characters 0 and z. -/
theorem toNat_of_digitOf? (h : digitOf? base c = some d) : 48 ≤ c.toNat ∧ c.toNat ≤ 122 := by
  have hvalue := (Option.filter_eq_some_iff.1 h).1
  split_ifs at hvalue with hdigit hlower hupper
  · have hc := toNat_of_isDigit hdigit
    omega
  · have hc : 97 ≤ c.toNat ∧ c.toNat ≤ 122 := hlower
    omega
  · have hc : 65 ≤ c.toNat ∧ c.toNat ≤ 90 := hupper
    omega

/-! ### Horner's rule in doubles -/

theorem le_foldl_digits (hb : 0 < base) (m : Nat) (vs : List Nat) :
    m ≤ vs.foldl (fun n d => n * base + d) m := by
  induction vs generalizing m with
  | nil => exact Nat.le_refl m
  | cons d vs ih =>
    exact (Nat.le_mul_of_pos_right m hb).trans ((Nat.le_add_right _ d).trans (ih _))

/-- As long as the result is below 2^53, doubles give it. -/
theorem foldl_digits_exact (hb : 0 < base) (hb' : base ≤ 36) {m : Nat} {vs : List Nat}
    (h : vs.foldl (fun n d => n * base + d) m < 2 ^ 53) :
    vs.foldl (fun x d => x * Float.ofNat base + Float.ofNat d) (Float.ofNat m)
      = Float.ofNat (vs.foldl (fun n d => n * base + d) m) := by
  induction vs generalizing m with
  | nil => rfl
  | cons d vs ih =>
    rw [List.foldl_cons] at h ⊢
    have hstep : m * base + d < 2 ^ 53 := (le_foldl_digits hb _ vs).trans_lt h
    have hm : m ≤ m * base := Nat.le_mul_of_pos_right m hb
    rw [ofNat_mul_ofNat (by omega) (by omega) (by omega), ofNat_add_ofNat hstep]
    exact ih h

/-! ### Reading -/

theorem map_of_mapM (h : ds.mapM (digitOf? base) = some vs) :
    ds.map (digitOf? base) = vs.map some := by
  induction ds generalizing vs with
  | nil =>
    cases h
    rfl
  | cons c ds ih =>
    rw [List.mapM_cons] at h
    obtain ⟨d, hd, h⟩ := Option.bind_eq_some_iff.1 h
    obtain ⟨vs, hvs, h⟩ := Option.bind_eq_some_iff.1 h
    cases h
    rw [List.map_cons, hd, ih hvs, List.map_cons]

/-- A numeral is read up to what is not a digit. -/
theorem leadingDigits_append (hb : 0 < base) (hb' : base ≤ 36) (hds : Radix.Denotes base ds n)
    (hn : n < 2 ^ 53) (hrs : ∀ c ∈ rs.head?, digitOf? base c = none) :
    leadingDigits base (ds ++ rs) = some (Float.ofNat n) := by
  obtain ⟨hne, hvalue⟩ := hds
  obtain ⟨vs, hvs, rfl⟩ := Option.map_eq_some_iff.1 hvalue
  rw [Radix.ofDigits_reverse_eq_foldl] at hn ⊢
  have hmap := map_of_mapM hvs
  have hrest : (rs.map (digitOf? base)).takeWhile Option.isSome = [] := by
    cases rs with
    | nil => rfl
    | cons c rs => simp [hrs c rfl]
  -- the scan takes exactly the digits and stops in front of the rest
  have htake : ((ds ++ rs).map (digitOf? base)).takeWhile Option.isSome = vs.map some := by
    rw [List.map_append, hmap, List.takeWhile_append_of_pos (by simp), hrest, List.append_nil]
  have hsome : vs.map some ≠ [] := by
    rw [← hmap]
    simpa using hne
  unfold leadingDigits
  rw [htake]
  split
  · exact absurd ‹_› hsome
  · rw [← foldl_digits_exact hb hb' hn, List.foldl_map]
    rfl

theorem trimStart_eq_self (h : ∀ c ∈ cs.head?, Text.isBlank c = false) :
    Text.trimStart cs = cs := by
  cases cs with
  | nil => rfl
  | cons c cs => simp [Text.trimStart, h c rfl]

theorem Radix.Denotes.head (hds : Radix.Denotes base ds n) (rs : List Char) :
    ∀ c ∈ (ds ++ rs).head?, 48 ≤ c.toNat ∧ c.toNat ≤ 122 := by
  obtain ⟨hne, hvalue⟩ := hds
  obtain ⟨vs, hvs, -⟩ := Option.map_eq_some_iff.1 hvalue
  obtain ⟨c, ds, rfl⟩ := List.exists_cons_of_ne_nil hne
  rw [List.mapM_cons] at hvs
  obtain ⟨d, hd, -⟩ := Option.bind_eq_some_iff.1 hvs
  rintro c ⟨⟩
  exact toNat_of_digitOf? hd

/-- `parseInt` reads a sign and a numeral of the base up to what is not a digit. -/
theorem parseInt_append (hs : IsSign s negative) (hb : 2 ≤ base) (hb' : base ≤ 36)
    (hds : Radix.Denotes base ds n) (hn : n < 2 ^ 53) (hrs : ∀ c ∈ rs.head?, digitOf? base c = none)
    (hhex : base = 16 → withoutHexMark (ds ++ rs) = none) {text : String}
    (htext : text.toList = s ++ (ds ++ rs)) :
    parseInt text base = if negative then -Float.ofNat n else Float.ofNat n := by
  have hhead := hds.head rs
  -- a digit is no sign, and it is no blank, so neither step takes anything off it
  have hsign : ∀ c ∈ (ds ++ rs).head?, c ≠ '+' ∧ c ≠ '-' := by
    intro c hc
    have hchar := hhead c hc
    constructor <;> rintro rfl <;> exact absurd hchar (by decide)
  have hblank : ∀ c ∈ (s ++ (ds ++ rs)).head?, Text.isBlank c = false := by
    cases hs with
    | absent =>
      intro c hc
      have hchar := hhead c hc
      exact Text.isBlank_of_graphic (by omega) (by omega)
    | plus =>
      rintro c ⟨⟩
      rfl
    | minus =>
      rintro c ⟨⟩
      rfl
  have hbase : parseBase base (ds ++ rs) = some (base, ds ++ rs) := by
    unfold parseBase
    rw [if_neg (by omega)]
    split
    · rename_i h16
      rw [hhex h16, h16]
      rfl
    · rw [if_pos ⟨hb, hb'⟩]
  unfold parseInt
  rw [htext, trimStart_eq_self hblank, Numeral.splitSign_append hs hsign]
  dsimp only
  rw [hbase, Option.bind_some, leadingDigits_append (by omega) hb' hds hn hrs]
  cases negative
  · have hone := ofNat_mul_ofNat (a := 1) (b := n) (by omega) (by decide) hn
    rwa [Nat.one_mul] at hone
  · exact neg_one_mul_ofNat hn

/-! ### Integers as doubles -/

/-- A finite double equals itself. -/
theorem Double.beq_self {b : Binary} (hb : Binary.ofFloat? x = some b) : (x == x) = true := by
  show (x.toModel.unpack.compare x.toModel.unpack == some .eq) = true
  rcases unpack_cases hb with ⟨-, s, hx⟩ | ⟨hm, hx⟩
  · rw [hx]
    rfl
  · rw [hx]
    cases b.negative <;> simp [Float.Model.UnpackedFloat.compare, Std.ReflCmp.compare_self]

/-- An integer below 2^53 equals the double that it was read off. -/
theorem Double.ofInt_beq (hi : isIntegral x = true) (hk : truncate? x = some k)
    (hsafe : k.natAbs < 2 ^ 53) : (Float.ofInt k == x) = true := by
  obtain ⟨b, hb, rfl⟩ := Option.map_eq_some_iff.1 hk
  have hib : b.isIntegral = true := by simpa [isIntegral, hb] using hi
  rw [natAbs_truncate] at hsafe
  rcases unpack_cases hb with ⟨h0, s, hx⟩ | ⟨h0, -⟩
  · have hzero : b.truncate = 0 := by
      rw [← Int.natAbs_eq_zero, natAbs_truncate, floorAbs_zero h0]
    show ((Float.ofInt b.truncate).toModel.unpack.compare x.toModel.unpack == some .eq) = true
    rw [hzero, hx]
    rfl
  · rw [(ofInt_truncate hb hib hsafe h0.ne').1]
    exact beq_self hb

/-! ### Reading what is written -/

theorem toList_signed (negative : Bool) (ds : List Char) :
    ∃ s, IsSign s negative ∧ (signed negative (String.ofList ds)).toList = s ++ ds := by
  cases negative with
  | false => exact ⟨[], .absent, by simp [signed]⟩
  | true => exact ⟨['-'], .minus, by simp [signed]⟩

/-- A numeral announces no base, unless it is zero in front of the mark of one. -/
theorem withoutHexMark_numeral (hb : 1 < base) (hb' : base ≤ 36)
    (h : n = 0 → ∀ c ∈ rs.head?, c ≠ 'x' ∧ c ≠ 'X') :
    withoutHexMark (Radix.numeral base n ++ rs) = none := by
  -- a numeral begins with a zero only if it is zero
  have hzero (cs : List Char) (hcs : Radix.numeral base n ++ rs = '0' :: cs) : n = 0 ∧ rs = cs := by
    have hds := Radix.denotes_numeral hb hb' n
    have hhead : (Radix.numeral base n).head? = some '0' := by
      rw [← List.head?_append_of_ne_nil _ hds.1, hcs]
      rfl
    have hone := Radix.numeral_head hb hb' hhead
    rw [hone] at hds hcs
    have h0 : Radix.Denotes base ['0'] 0 := by
      simpa [Radix.numeral] using Radix.denotes_numeral hb hb' 0
    exact ⟨hds.unique h0, List.cons.inj hcs |>.2⟩
  unfold withoutHexMark
  split
  · rename_i rest hcs
    obtain ⟨h0, rfl⟩ := hzero _ hcs
    exact absurd rfl (h h0 'x' rfl).1
  · rename_i rest hcs
    obtain ⟨h0, rfl⟩ := hzero _ hcs
    exact absurd rfl (h h0 'X' rfl).2
  · rfl

/-- The text of an integer in a base is read as this integer, whatever follows it that is not a
digit and does not make it an announcement of base 16. -/
theorem parseInt_radixText (hi : Double.isIntegral x = true) (hk : Double.truncate? x = some k)
    (hsafe : k.natAbs < 2 ^ 53) (hb : 2 ≤ base) (hb' : base ≤ 36) (rest : String)
    (hrest : ∀ c ∈ rest.toList.head?, digitOf? base c = none)
    (hmark : k = 0 → base = 16 → ∀ c ∈ rest.toList.head?, c ≠ 'x' ∧ c ≠ 'X') :
    parseInt (Builtin.radixText x base ++ rest) base = Float.ofInt k := by
  have hmin : min k.natAbs (2 ^ 64 - 1) = k.natAbs := by omega
  rw [radixText_of_integral hi hk hb, hmin]
  obtain ⟨s, hs, hlist⟩ := toList_signed (decide (k < 0)) (Radix.numeral base k.natAbs)
  have hhex (h16 : base = 16) :
      withoutHexMark (Radix.numeral base k.natAbs ++ rest.toList) = none :=
    withoutHexMark_numeral hb hb' fun h0 => hmark (Int.natAbs_eq_zero.1 h0) h16
  rw [parseInt_append hs hb hb' (Radix.denotes_numeral hb hb' _) hsafe hrest hhex
    (by rw [String.toList_append, hlist, List.append_assoc]), Double.ofInt_eq]
  simp only [decide_eq_true_eq]

/-- **`parseInt` undoes radix texts.**  It undoes the writing of an integer below 2^53 in a base
from 2 to 36; and it gives the same for the text with anything behind it that does not begin with a
digit of the base, unless that makes zero the announcement of base 16. -/
theorem parseInt_undoes_radix_texts {x : Float} {k : Int} (hi : Double.isIntegral x = true)
    (hk : Double.truncate? x = some k) (hsafe : k.natAbs ≤ 2 ^ 53 - 1) {base : Nat} (hb : 2 ≤ base)
    (hb' : base ≤ 36) (s : Store) :
    ∃ text, toRadix x (Float.ofNat base) s = .done text s ∧
      parseInt text base = Float.ofInt k ∧ (parseInt text base == x) = true ∧
      ∀ rest : String, (∀ c ∈ rest.toList.head?, digitOf? base c = none) →
        ¬ (k = 0 ∧ base = 16 ∧ ∃ c ∈ rest.toList.head?, c = 'x' ∨ c = 'X') →
        parseInt (text ++ rest) base = parseInt text base := by
  have hsafe' : k.natAbs < 2 ^ 53 := by omega
  have hread : parseInt (Builtin.radixText x base) base = Float.ofInt k := by
    have h := parseInt_radixText hi hk hsafe' hb hb' "" (by simp) (by simp)
    rwa [String.append_empty] at h
  refine ⟨_, toRadix_ofNat x hb hb' s, hread, ?_, fun rest hrest hmark => ?_⟩
  · rw [hread]
    exact Double.ofInt_beq hi hk hsafe'
  · rw [hread]
    refine parseInt_radixText hi hk hsafe' hb hb' rest hrest fun h0 h16 c hc => ?_
    rw [← not_or]
    exact fun h => hmark ⟨h0, h16, c, hc, h⟩

-- Zero, made an announcement of base 16 that nothing follows.
example : (parseInt ("0" ++ "x") 16).isNaN = true := by decide

/-- In base 34, the mark of base 16 is a digit. -/
theorem negative_number_in_base_34_is_read_again :
    ∃ text, toRadix (-33) (Float.ofNat 34) {} = .done text {} ∧ (parseInt text 34 == -33) = true ∧
      parseInt (text ++ "yx") 34 = parseInt text 34 := by
  have hi : Double.isIntegral (-33) = true := by decide
  have hk : Double.truncate? (-33) = some (-33) := by decide
  have hb : 2 ≤ 34 := by decide
  have hb' : 34 ≤ 36 := by decide
  obtain ⟨text, htext, -, hread, hrest⟩ :=
    parseInt_undoes_radix_texts hi hk (by decide) hb hb' {}
  refine ⟨text, htext, hread, hrest "yx" ?_ (by decide)⟩
  rintro c ⟨⟩
  rfl

end Estree
