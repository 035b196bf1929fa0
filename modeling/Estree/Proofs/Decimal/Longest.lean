/-
Estree/Proofs/Decimal/Longest.lean

The number that a text begins with.

`parseFloat` goes through a text once, and keeps the value of the longest beginning that is read as
a double so far.  This is the same as two passes (`scanNumber_eq`).

The first takes characters as long as they could be those of a literal.  It takes more than the
grammar allows, but never stops inside a literal, whatever follows (`takes_literal`).  So the
beginnings that are literals are the same before and after it (`prefix_scan_iff`).  Of these the
second finds the longest (`longestLiteral_cases`); since only characters of literals have been
taken, the words for infinity and NaN are not among them.
-/
import Estree.Proofs.Text.Number

namespace Estree

open Numeral (IsRun IsSign IsMantissa IsExponent IsLiteralChar Spells)
open Builtin (acceptLiteral scanNumber parseFloat)

variable {text : String} {cs ds es fs ps qs rs s : List Char} {c : Char}
  {point mark point' mark' point₂ mark₂ negative : Bool} {last : Option Char} {k : Nat} {e : Int}
  {m n : Numeral} {x : Float}

/-! ### Two passes -/

/-- The beginning of a text that is taken as long as a literal may go on. -/
def scanLiteral (point mark : Bool) (last : Option Char) : List Char → List Char
  | [] => []
  | c :: rest =>
    match acceptLiteral point mark last c with
    | some (point, mark) => c :: scanLiteral point mark (some c) rest
    | none => []

/-- The value of the longest beginning, but for the empty one, that is a literal behind what stands
in front of it. -/
def longestBehind (front : List Char) : List Char → Option Float
  | [] => none
  | c :: rest => (longestBehind (front ++ [c]) rest).or (decimal? (front ++ [c]))

/-- The value of the longest beginning that is a literal. -/
def longestLiteral (cs : List Char) : Option Float :=
  longestBehind [] cs

/-- A literal goes on with characters of literals only. -/
theorem isLiteralChar_of_accept {p : Bool × Bool} (h : acceptLiteral point mark last c = some p) :
    IsLiteralChar c := by
  unfold acceptLiteral at h
  split_ifs at h with hdigit hsign hpoint hmark
  · exact .inl hdigit
  · exact .inr (by rcases hsign with rfl | rfl <;> decide)
  · obtain ⟨rfl, -⟩ := hpoint
    exact .inr (by decide)
  · exact .inr (by rcases hmark.1 with rfl | rfl <;> decide)

/-- To keep the best value on the way is to look for the longest literal afterwards. -/
theorem scanNumber_behind {taken : List Char} {best : Option Float}
    (ht : ∀ c ∈ taken, IsLiteralChar c) (cs : List Char) :
    scanNumber point mark taken best cs
      = (longestBehind taken.reverse (scanLiteral point mark taken.head? cs)).or best := by
  induction cs generalizing point mark taken best with
  | nil => rfl
  | cons c cs ih =>
    rw [scanNumber, scanLiteral]
    cases h : acceptLiteral point mark taken.head? c with
    | none => rfl
    | some p =>
      have hc : ∀ d ∈ c :: taken, IsLiteralChar d :=
        List.forall_mem_cons.2 ⟨isLiteralChar_of_accept h, ht⟩
      have hdouble : double? (c :: taken).reverse = decimal? (taken.reverse ++ [c]) := by
        rw [double?_of_chars fun d hd => hc d (List.mem_reverse.1 hd), List.reverse_cons]
      dsimp only
      rw [ih hc, hdouble, List.head?_cons, longestBehind, List.reverse_cons, Option.or_assoc]

/-- The one scan that remembers the last prefix that parses finds the longest such prefix. -/
theorem scanNumber_eq (cs : List Char) :
    scanNumber false false [] none cs = longestLiteral (scanLiteral false false none cs) := by
  rw [scanNumber_behind (List.forall_mem_nil IsLiteralChar), Option.or_none]
  rfl

/-! ### Scanning -/

/-- The scan reads a front part of the text. -/
theorem scanLiteral_isPrefix (point mark : Bool) (last : Option Char) (cs : List Char) :
    scanLiteral point mark last cs <+: cs := by
  induction cs generalizing point mark last with
  | nil => exact List.prefix_rfl
  | cons c cs ih =>
    rw [scanLiteral]
    split
    · exact List.cons_prefix_cons.2 ⟨rfl, ih ..⟩
    · exact List.nil_prefix

/-- The scan takes all of these characters, whatever follows, and comes to another state. -/
def Takes (point mark : Bool) (last : Option Char) (ps : List Char) (point' mark' : Bool) : Prop :=
  ∀ rs, scanLiteral point mark last (ps ++ rs)
    = ps ++ scanLiteral point' mark' (ps.getLast?.or last) rs

theorem Takes.nil : Takes point mark last [] point mark :=
  fun _ => rfl

/-- The scan goes through two texts in turn, the flags handed on. -/
theorem Takes.append (hp : Takes point mark last ps point' mark')
    (hq : Takes point' mark' (ps.getLast?.or last) qs point₂ mark₂) :
    Takes point mark last (ps ++ qs) point₂ mark₂ := by
  intro rs
  rw [List.append_assoc, hp, hq, List.append_assoc, List.getLast?_append, Option.or_assoc]

/-- One character further, from the flags it leaves behind. -/
theorem Takes.cons (hc : ∀ rs, scanLiteral point mark last (c :: rs)
      = c :: scanLiteral point' mark' (some c) rs)
    (hp : Takes point' mark' (some c) ps point₂ mark₂) :
    Takes point mark last (c :: ps) point₂ mark₂ := by
  have hone : Takes point mark last [c] point' mark' := hc
  exact hone.append hp

/-- Digits are always taken and leave the flags alone. -/
theorem takes_digits (hd : ∀ c ∈ ds, c.isDigit = true) : Takes point mark last ds point mark := by
  induction ds generalizing last with
  | nil => exact .nil
  | cons d ds ih =>
    obtain ⟨hd, hds⟩ := List.forall_mem_cons.1 hd
    refine .cons (fun rs => ?_) (ih hds)
    have haccept : acceptLiteral point mark last d = some (point, mark) := if_pos hd
    rw [scanLiteral, haccept]

/-- A sign is taken in front and behind the mark of an exponent. -/
theorem takes_sign (hs : IsSign s negative) (hl : ∀ l ∈ last, l = 'e' ∨ l = 'E') :
    Takes point mark last s point mark := by
  have hsign (c : Char) (hc : c = '+' ∨ c = '-') :
      Takes point mark last [c] point mark := by
    have hdigit : ¬ c.isDigit = true := by rcases hc with rfl | rfl <;> decide
    have haccept : acceptLiteral point mark last c = some (point, mark) := by
      unfold acceptLiteral
      rw [if_neg hdigit, if_pos hc]
      cases last with
      | none => rfl
      | some l => exact if_pos (hl l rfl)
    refine .cons (fun rs => ?_) .nil
    rw [scanLiteral, haccept]
  cases hs with
  | absent => exact .nil
  | plus => exact hsign '+' (.inl rfl)
  | minus => exact hsign '-' (.inr rfl)

/-- The scan goes through a mantissa before it has seen a mark. -/
theorem takes_mantissa (last : Option Char) (hm : IsMantissa ps ds k) :
    ∃ point, Takes false false last ps point false := by
  have hpoint (last : Option Char) (rs : List Char) :
      scanLiteral false false last ('.' :: rs) = '.' :: scanLiteral true false (some '.') rs := rfl
  cases hm with
  | whole h => exact ⟨false, takes_digits h.2⟩
  | point h hf => exact ⟨true, (takes_digits h.2).append (.cons (hpoint _) (takes_digits hf))⟩
  | fraction h => exact ⟨true, .cons (hpoint _) (takes_digits h.2)⟩

/-- The scan goes through an exponent behind at least one character. -/
theorem takes_exponent (point : Bool) (he : IsExponent es e) (hl : last.isSome = true) :
    ∃ mark, Takes point false last es point mark := by
  cases he with
  | absent => exact ⟨false, .nil⟩
  | @marked c s ds negative hc hs h =>
    refine ⟨true, .cons (fun rs => ?_) ((takes_sign hs ?_).append (takes_digits h.2))⟩
    · obtain ⟨l, rfl⟩ := Option.isSome_iff_exists.1 hl
      rcases hc with rfl | rfl <;> rfl
    · rintro l ⟨⟩
      exact hc

/-- The scan never stops inside a literal. -/
theorem takes_literal (h : Spells n cs) : ∃ point mark, Takes false false none cs point mark := by
  cases h with
  | @mk s ps ds es negative k e hs hm he =>
    obtain ⟨point, hps⟩ := takes_mantissa (s.getLast?.or none) hm
    have hne : ps ≠ [] := by
      cases hm with
      | whole h => exact h.1
      | point h => simp
      | fraction h => simp
    have hlast : (ps.getLast?.or (s.getLast?.or none)).isSome = true := by
      simp [Option.isSome_or, hne]
    obtain ⟨mark, hes⟩ := takes_exponent point he hlast
    exact ⟨point, mark, (takes_sign hs (by simp)).append (hps.append hes)⟩

/-- The literals that a text begins with are taken by the scan. -/
theorem prefix_scan_iff (h : Spells n ps) :
    ps <+: scanLiteral false false none cs ↔ ps <+: cs := by
  constructor
  · exact fun hp => hp.trans (scanLiteral_isPrefix ..)
  · rintro ⟨rs, rfl⟩
    obtain ⟨point, mark, htakes⟩ := takes_literal h
    rw [htakes]
    exact List.prefix_append ..

/-! ### The longest literal -/

/-- The literal that is the longest one at the beginning of a text. -/
def IsLongest (n : Numeral) (cs : List Char) : Prop :=
  ∃ ps, ps <+: cs ∧ Spells n ps ∧ ∀ m qs, qs <+: cs → Spells m qs → qs.length ≤ ps.length

/-- There is only one longest literal. -/
theorem IsLongest.unique (hm : IsLongest m cs) (hn : IsLongest n cs) : m = n := by
  obtain ⟨ps, hps, hmps, hmax⟩ := hm
  obtain ⟨qs, hqs, hnqs, hmax'⟩ := hn
  have hlength := Nat.le_antisymm (hmax' m ps hps hmps) (hmax n qs hqs hnqs)
  have heq : ps = qs := (List.prefix_of_prefix_length_le hps hqs hlength.le).eq_of_length hlength
  have hm := Numeral.ofChars?_eq_some_iff.2 hmps
  have hn := Numeral.ofChars?_eq_some_iff.2 hnqs
  exact Option.some.inj (hm.symm.trans (heq ▸ hn))

/-- One more character either completes a literal or leaves the one found so far. -/
theorem longestBehind_concat (front cs : List Char) (c : Char) :
    longestBehind front (cs ++ [c])
      = (decimal? (front ++ cs ++ [c])).or (longestBehind front cs) := by
  induction cs generalizing front with
  | nil =>
    rw [List.append_nil, longestBehind, Option.or_none]
    rfl
  | cons d cs ih =>
    rw [List.cons_append, longestBehind, ih, longestBehind, Option.or_assoc,
      List.append_assoc front, List.singleton_append]

/-- The whole text is the longest of its beginnings. -/
theorem longestLiteral_concat (cs : List Char) (c : Char) :
    longestLiteral (cs ++ [c]) = (decimal? (cs ++ [c])).or (longestLiteral cs) :=
  longestBehind_concat [] cs c

/-- The second pass finds the longest literal at the beginning, if there is one. -/
theorem longestLiteral_cases (cs : List Char) :
    (∃ n, IsLongest n cs ∧ longestLiteral cs = some n.toFloat) ∨
      (∀ n ps, ps <+: cs → ¬ Spells n ps) ∧ longestLiteral cs = none := by
  -- the whole text is tried first, and then what is without its last character
  induction cs using List.reverseRecOn with
  | nil =>
    refine .inr ⟨fun n ps hps h => h.ne_nil (List.prefix_nil.1 hps), rfl⟩
  | append_singleton cs c ih =>
    rw [longestLiteral_concat]
    cases hd : decimal? (cs ++ [c]) with
    | some x =>
      obtain ⟨n, hn, rfl⟩ := decimal?_eq_some_iff.1 hd
      exact .inl ⟨n, ⟨_, List.prefix_rfl, hn, fun m qs hqs _ => hqs.length_le⟩, rfl⟩
    | none =>
      have hno (n : Numeral) : ¬ Spells n (cs ++ [c]) := fun hn => by
        rw [decimal?_eq_some_iff.2 ⟨n, hn, rfl⟩] at hd
        cases hd
      have hshorter (n : Numeral) (ps : List Char) (h : Spells n ps) (hps : ps <+: cs ++ [c]) :
          ps <+: cs :=
        (List.prefix_concat_iff.1 hps).resolve_left fun heq => hno n (heq ▸ h)
      refine ih.imp ?_ ?_
      · rintro ⟨n, ⟨ps, hps, hn, hmax⟩, hvalue⟩
        exact ⟨n, ⟨ps, hps.trans (List.prefix_append ..), hn,
          fun m qs hqs hm => hmax m qs (hshorter m qs hm hqs) hm⟩, hvalue⟩
      · rintro ⟨hnone, hvalue⟩
        exact ⟨fun n ps hps hn => hnone n ps (hshorter n ps hn hps) hn, hvalue⟩

/-- Nothing the scan leaves unread belongs to a literal. -/
theorem isLongest_scan_iff : IsLongest n (scanLiteral false false none cs) ↔ IsLongest n cs := by
  unfold IsLongest
  constructor
  · rintro ⟨ps, hps, hn, hmax⟩
    exact ⟨ps, (prefix_scan_iff hn).1 hps, hn,
      fun m qs hqs hm => hmax m qs ((prefix_scan_iff hm).2 hqs) hm⟩
  · rintro ⟨ps, hps, hn, hmax⟩
    exact ⟨ps, (prefix_scan_iff hn).2 hps, hn,
      fun m qs hqs hm => hmax m qs ((prefix_scan_iff hm).1 hqs) hm⟩

/-! ### Beginnings of texts -/

/-- Whether a text begins with an infinity. -/
def NamesInfinity (cs : List Char) : Prop :=
  ∃ s negative, IsSign s negative ∧ s ++ "Infinity".toList <+: cs

/-- The number that a text begins with: an infinity, else the longest literal, else NaN. -/
inductive BeginsWith (cs : List Char) : Float → Prop
  | infinity (s : List Char) (negative : Bool) (hs : IsSign s negative)
      (h : s ++ "Infinity".toList <+: cs) : BeginsWith cs (Double.infinity negative)
  | literal (n : Numeral) (hi : ¬ NamesInfinity cs) (h : IsLongest n cs) : BeginsWith cs n.toFloat
  | nothing (hi : ¬ NamesInfinity cs) (h : ∀ n ps, ps <+: cs → ¬ Spells n ps) :
      BeginsWith cs (0.0 / 0.0)

/-- What a text begins with after its infinities have been asked for. -/
theorem parseFloat_of_not_namesInfinity (hcs : Text.trimStart text.toList = cs)
    (hi : ¬ NamesInfinity cs) :
    parseFloat text = (longestLiteral (scanLiteral false false none cs)).getD (0.0 / 0.0) := by
  have hno (s : List Char) (negative : Bool) (hs : IsSign s negative) :
      ¬ (s ++ "Infinity".toList).isPrefixOf cs = true :=
    fun h => hi ⟨s, negative, hs, List.isPrefixOf_iff_prefix.1 h⟩
  have hpos : ¬ ("Infinity".toList.isPrefixOf cs || "+Infinity".toList.isPrefixOf cs) = true := by
    rw [Bool.or_eq_true, not_or]
    exact ⟨hno [] false .absent, hno ['+'] false .plus⟩
  have hneg : ¬ "-Infinity".toList.isPrefixOf cs = true := hno ['-'] true .minus
  unfold parseFloat
  dsimp only
  rw [hcs, if_neg hpos, if_neg hneg, scanNumber_eq]

/-- What the text begins with decides the answer. -/
theorem BeginsWith.eq_parseFloat (h : BeginsWith cs x) (hcs : Text.trimStart text.toList = cs) :
    parseFloat text = x := by
  cases h with
  | infinity s negative hs h =>
    obtain ⟨rs, rfl⟩ := h
    unfold parseFloat
    rw [hcs]
    cases hs <;> rfl
  -- the scan finds a longest literal, and there is only one
  | literal n hi hn =>
    rw [parseFloat_of_not_namesInfinity hcs hi]
    rcases longestLiteral_cases (scanLiteral false false none cs) with ⟨m, hm, hvalue⟩ | ⟨hnone, -⟩
    · rw [hvalue, (isLongest_scan_iff.1 hm).unique hn]
      rfl
    · obtain ⟨ps, hps, hn, -⟩ := isLongest_scan_iff.2 hn
      exact absurd hn (hnone n ps hps)
  -- a prefix that the scan found would be a literal at the front of the text
  | nothing hi h =>
    rw [parseFloat_of_not_namesInfinity hcs hi]
    rcases longestLiteral_cases (scanLiteral false false none cs) with ⟨m, hm, -⟩ | ⟨-, hvalue⟩
    · obtain ⟨ps, hps, hm, -⟩ := isLongest_scan_iff.1 hm
      exact absurd hm (h m ps hps)
    · rw [hvalue]
      rfl

/-- Every text begins with a literal, with the name of infinity, or with no number. -/
theorem exists_beginsWith (cs : List Char) : ∃ x, BeginsWith cs x := by
  by_cases hi : NamesInfinity cs
  · obtain ⟨s, negative, hs, h⟩ := hi
    exact ⟨_, .infinity s negative hs h⟩
  · rcases longestLiteral_cases cs with ⟨n, hn, -⟩ | ⟨hnone, -⟩
    · exact ⟨_, .literal n hi hn⟩
    · exact ⟨_, .nothing hi hnone⟩

/-- The answer says exactly what the text begins with. -/
theorem beginsWith_iff :
    BeginsWith (Text.trimStart text.toList) x ↔ parseFloat text = x := by
  constructor
  · exact fun h => h.eq_parseFloat rfl
  · rintro rfl
    obtain ⟨y, hy⟩ := exists_beginsWith (Text.trimStart text.toList)
    rw [hy.eq_parseFloat rfl]
    exact hy

/-! ### Whole texts -/

/-- Trimming at both ends takes blanks at the end away, nothing else. -/
theorem exists_blanks (cs : List Char) :
    ∃ bs, (∀ c ∈ bs, Text.isBlank c = true) ∧ Text.trimStart cs = Text.trim cs ++ bs := by
  refine ⟨((Text.trimStart cs).reverse.takeWhile Text.isBlank).reverse, fun c hc => ?_, ?_⟩
  · exact List.mem_takeWhile_imp (List.mem_reverse.1 hc)
  · rw [Text.trim, Text.trimEnd, ← List.reverse_append, List.takeWhile_append_dropWhile,
      List.reverse_reverse]

/-- In front of white space, a literal is the longest literal. -/
theorem isLongest_of_blanks {bs : List Char} (hbs : ∀ c ∈ bs, Text.isBlank c = true)
    (h : Spells n cs) : IsLongest n (cs ++ bs) := by
  refine ⟨cs, List.prefix_append .., h, fun m qs hqs hm => ?_⟩
  rcases List.prefix_or_prefix_of_prefix hqs (List.prefix_append cs bs) with hle | hle
  · exact hle.length_le
  · obtain ⟨rs, rfl⟩ := hle
    obtain ⟨rest, hrest⟩ := (List.prefix_append_right_inj cs).1 hqs
    cases rs with
    | nil => simp
    | cons c rs =>
      have hblank := hbs c (by simp [← hrest])
      rw [(hm.chars c (by simp)).not_isBlank] at hblank
      cases hblank

/-- A literal with blanks behind it does not begin like the name of infinity. -/
theorem not_namesInfinity_of_blanks {bs : List Char} (hbs : ∀ c ∈ bs, Text.isBlank c = true)
    (h : Spells n cs) : ¬ NamesInfinity (cs ++ bs) := by
  rintro ⟨s, negative, -, hprefix⟩
  have hmem : 'I' ∈ cs ++ bs := hprefix.subset (by simp)
  rcases List.mem_append.1 hmem with hI | hI
  · exact not_isLiteralChar_I (h.chars 'I' hI)
  · exact absurd (hbs 'I' hI) (by decide)

/-! ### Two readers of numbers -/

/-- **`parseFloat` reads the longest literal.**  It gives what a text begins with, white space
apart: an infinity, else the value of the longest literal, else NaN.  A text that is a literal or an
infinity as a whole is read as the same number by conversion. -/
theorem parseFloat_reads_the_longest_literal (text : String) :
    (∀ x, BeginsWith (Text.trimStart text.toList) x ↔ parseFloat text = x) ∧
    ((∃ n, Spells n (Text.trim text.toList)) ∨
      (∃ s negative, IsSign s negative ∧ Text.trim text.toList = s ++ "Infinity".toList) →
      parseFloat text = numberOfText text) := by
  refine ⟨fun x => beginsWith_iff, fun h => ?_⟩
  obtain ⟨bs, hbs, hstart⟩ := exists_blanks text.toList
  refine beginsWith_iff.1 ?_
  rw [hstart]
  rcases h with ⟨n, hn⟩ | ⟨s, negative, hs, htrim⟩
  · rw [numberOfText_literal hn]
    exact .literal n (not_namesInfinity_of_blanks hbs hn) (isLongest_of_blanks hbs hn)
  · rw [numberOfText_infinity hs htrim, htrim]
    exact .infinity s negative hs (List.prefix_append ..)

-- The scan takes the mark and the sign as well, which no digits follow.
example : parseFloat " 1.5e+x" = 1.5 := by decide

/-- A literal without digits before its point, with white space around. -/
theorem literal_in_blanks_is_read_alike :
    parseFloat " -.5e1\n" = numberOfText " -.5e1\n" ∧ numberOfText " -.5e1\n" = -5 := by
  have htrim : Text.trim " -.5e1\n".toList = ['-', '.', '5', 'e', '1'] := by decide
  have hspells : Spells ⟨true, 5, 0⟩ ['-', '.', '5', 'e', '1'] :=
    Numeral.ofChars?_eq_some_iff.1 (by decide)
  rw [← htrim] at hspells
  exact ⟨(parseFloat_reads_the_longest_literal _).2 (.inl ⟨_, hspells⟩), by decide⟩

end Estree
