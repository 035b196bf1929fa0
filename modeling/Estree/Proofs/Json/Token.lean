/-
Estree/Proofs/Json/Token.lean

Words, strings and integers are read back as they are written.

Where a reading succeeds, only what it gives and what it leaves matter (`Reads`); lines and columns
are for faults.  A string is read back character by character: each is written as itself or as one
escape that stands for it (`reads_escape`).  An integer is read back because the digits of a natural
number are folded to that number again, and because what follows it in a document does not continue
a number (`Stops`).

A token that is read back is read at every position and with everything that may follow it, so that
the lemmas can be used inside of documents.
-/
import Estree.Json.Reader
import Estree.Json.Writer
import Mathlib.Tactic.IntervalCases

namespace Estree

namespace Json

/-- A reading gives a part and leaves a rest. -/
def Reads {α : Type} (r : Reading α) (a : α) (rest : List Char) : Prop :=
  ∃ c, r = .ok (a, c) ∧ c.rest = rest

variable (policy : Policy) {c : Cursor} {rest : List Char}

/-! ### Cursors -/

namespace Cursor

theorem isGap_iff {ch : Char} : isGap ch = true ↔ ch = ' ' ∨ ch = '\n' ∨ ch = '\t' ∨ ch = '\r' := by
  simp only [isGap, Bool.or_eq_true, decide_eq_true_eq, or_assoc]

@[simp] theorem rest_after (c : Cursor) (ch : Char) (rest : List Char) :
    (c.after ch rest).rest = rest := by
  unfold after
  split <;> rfl

theorem rest_advance {ch : Char} (h : c.rest = ch :: rest) : c.advance.rest = rest := by
  simp [advance, h]

theorem rest_skipGaps {ch : Char} (hch : isGap ch = false) {gap : List Char}
    (hg : ∀ g ∈ gap, isGap g = true) (line column : Nat) :
    (skipGaps line column (gap ++ ch :: rest)).rest = ch :: rest := by
  induction gap generalizing line column with
  | nil =>
    have hnl : ch ≠ '\n' := by
      rintro rfl
      cases hch
    simp [skipGaps, hnl, hch]
  | cons g gap ih =>
    obtain ⟨hg, hgap⟩ := List.forall_mem_cons.mp hg
    rw [List.cons_append, skipGaps, if_pos hg]
    split <;> exact ih hgap _ _

/-- White space is passed up to the first other character. -/
theorem rest_settle {gap : List Char} {ch : Char} (hg : ∀ g ∈ gap, isGap g = true)
    (hch : isGap ch = false) (h : c.rest = gap ++ ch :: rest) : c.settle.rest = ch :: rest := by
  rw [settle, h]
  exact rest_skipGaps hch hg _ _

end Cursor

/-! ### Words -/

theorem reads_word (value : Json) {word : List Char} (h : c.rest = word ++ rest) :
    Reads (readWord value word c) value rest := by
  induction word generalizing c with
  | nil => exact ⟨c, rfl, h⟩
  | cons w word ih =>
    rw [readWord, h]
    simp only [List.cons_append, if_true]
    exact ih (by simp)

/-! ### Strings -/

/-- An escape by four digits, of which the first two are zeros. -/
theorem reads_unicode {a b : Char} {n : Nat} (hn : n < 0x20) (ha : hexValue? a = some (n / 16))
    (hb : hexValue? b = some (n % 16)) (h : c.rest = '0' :: '0' :: a :: b :: rest) :
    Reads (readUnicode policy c) (Char.ofNat n) rest := by
  have h0 : hexValue? '0' = some 0 := by decide
  have hdigits : n / 16 * 16 + n % 16 = n := by omega
  have hr : readHex c = .ok (n, ⟨rest, c.line, c.column + 4⟩) := by
    simp [readHex, h, h0, ha, hb, hdigits]
  refine ⟨⟨rest, c.line, c.column + 4⟩, ?_, rfl⟩
  rw [readUnicode, hr]
  dsimp only
  split
  · rw [if_neg (by omega), if_pos (by omega)]
  · rw [charOfHalf, if_neg (by omega)]

/-- The last two digits of a control character. -/
theorem exists_hexDigits {n : Nat} (hn : n < 0x20) :
    ∃ a b, (if n < 16 then ['0'] else []) ++ Text.hexDigits n = [a, b] ∧
      hexValue? a = some (n / 16) ∧ hexValue? b = some (n % 16) := by
  interval_cases n <;> exact ⟨_, _, rfl, by decide, by decide⟩

/-- Every escape that is written stands for its character. -/
theorem reads_escape {ch : Char} (hch : ch.toNat < 0x20 ∨ ch = '"' ∨ ch = '\\') :
    ∃ tail, escapeChar ch = '\\' :: tail ∧ ∀ (c : Cursor) (rest : List Char),
      c.rest = tail ++ rest → Reads (readEscape policy c) ch rest := by
  rcases hch with hch | rfl | rfl
  · have hne : ch ≠ '"' ∧ ch ≠ '\\' := by
      constructor <;> rintro rfl <;> revert hch <;> decide
    have hof : Char.ofNat ch.toNat = ch := Char.ofNat_toNat ch
    rw [escapeChar, if_neg hne.1, if_neg hne.2, if_pos hch]
    generalize ch.toNat = n at hch hof
    subst hof
    -- five control characters have an escape by one letter, the others one by four digits
    split
    case h_6 =>
      obtain ⟨a, b, hab, ha, hb⟩ := exists_hexDigits hch
      refine ⟨['u', '0', '0', a, b], by simp [hab], fun c rest h => ?_⟩
      simp only [readEscape, h, List.cons_append, List.nil_append]
      exact reads_unicode policy hch ha hb (by simp)
    all_goals
      refine ⟨_, rfl, fun c rest h => ?_⟩
      simp only [readEscape, h, List.cons_append, List.nil_append]
      exact ⟨_, rfl, by simp⟩
  · refine ⟨_, rfl, fun c rest h => ?_⟩
    simp only [readEscape, h, List.cons_append, List.nil_append]
    exact ⟨_, rfl, by simp⟩
  · refine ⟨_, rfl, fun c rest h => ?_⟩
    simp only [readEscape, h, List.cons_append, List.nil_append]
    exact ⟨_, rfl, by simp⟩

theorem escapeChar_of_plain {ch : Char} (hch : ¬ (ch.toNat < 0x20 ∨ ch = '"' ∨ ch = '\\')) :
    escapeChar ch = [ch] := by
  rw [not_or, not_or] at hch
  rw [escapeChar, if_neg hch.2.1, if_neg hch.2.2, if_neg hch.1]

theorem reads_chars {text acc : List Char} {fuel : Nat}
    (h : c.rest = text.flatMap escapeChar ++ '"' :: rest) (hf : text.length < fuel) :
    Reads (readChars policy fuel acc c) (String.ofList (acc.reverse ++ text)) rest := by
  -- on the text that was written, not on the one that is read, in which an escape is longer
  induction text generalizing c acc fuel with
  | nil =>
    obtain ⟨fuel, rfl⟩ := Nat.exists_eq_add_one.mpr (Nat.zero_lt_of_lt hf)
    have h' : c.rest = '"' :: rest := h
    refine ⟨c.after '"' rest, ?_, Cursor.rest_after _ _ _⟩
    simp [readChars, h']
  | cons ch text ih =>
    obtain ⟨fuel, rfl⟩ := Nat.exists_eq_add_one.mpr (Nat.zero_lt_of_lt hf)
    have hf' : text.length < fuel := Nat.lt_of_succ_lt_succ hf
    have hacc : acc.reverse ++ ch :: text = (ch :: acc).reverse ++ text := by simp
    rw [hacc]
    by_cases hch : ch.toNat < 0x20 ∨ ch = '"' ∨ ch = '\\'
    · obtain ⟨tail, he, hread⟩ := reads_escape policy hch
      have h' : c.rest = '\\' :: (tail ++ (text.flatMap escapeChar ++ '"' :: rest)) := by
        simpa [he] using h
      obtain ⟨c', hc', hrest⟩ := hread _ (text.flatMap escapeChar ++ '"' :: rest)
        (Cursor.rest_after c '\\' _)
      have hstep : readChars policy (fuel + 1) acc c = readChars policy fuel (ch :: acc) c' := by
        simp [readChars, h', hc']
      rw [hstep]
      exact ih hrest hf'
    · have h' : c.rest = ch :: (text.flatMap escapeChar ++ '"' :: rest) := by
        simpa [escapeChar_of_plain hch] using h
      rw [not_or, not_or] at hch
      rw [readChars, h']
      simp only [hch.1, hch.2.1, hch.2.2, if_false]
      exact ih (Cursor.rest_after _ _ _) hf'

/-- A string is read back, its opening quote apart. -/
theorem reads_string {s : String} {limit : Nat}
    (h : c.rest = s.toList.flatMap escapeChar ++ '"' :: rest) (hl : s.toList.length ≤ limit) :
    Reads (readString policy limit c) s rest := by
  have hr : Reads (readString policy limit c) (String.ofList ([].reverse ++ s.toList)) rest :=
    reads_chars policy h (Nat.lt_succ_of_le hl)
  simpa using hr

/-! ### Integers -/

/-- A text that does not begin like the rest of a number. -/
def Stops (rest : List Char) : Prop :=
  ∀ ch ∈ rest.head?, ch.isDigit = false ∧ ch ≠ '.' ∧ ch ≠ 'e' ∧ ch ≠ 'E'

theorem le_ofDigitChars (ds : List Char) (n : Nat) : n ≤ Nat.ofDigitChars 10 ds n := by
  rw [Nat.ofDigitChars_eq_ofDigitChars_zero]
  have h : 1 * n ≤ 10 ^ ds.length * n := Nat.mul_le_mul_right n (Nat.pow_pos (by decide))
  omega

theorem reads_wholeDigits (negative : Bool) (ds : List Char) (hd : ∀ d ∈ ds, d.isDigit = true)
    (hr : Stops rest) (line column n : Nat) (hn : Nat.ofDigitChars 10 ds n ≤ maxSignificand) :
    Reads (wholeDigits policy negative line column n (ds ++ rest))
      (integer negative (Nat.ofDigitChars 10 ds n)) rest := by
  induction ds generalizing column n with
  | nil =>
    rcases rest with - | ⟨ch, rest⟩
    · exact ⟨_, rfl, rfl⟩
    · obtain ⟨hdig, hdot, he, hE⟩ := hr ch rfl
      refine ⟨⟨ch :: rest, line, column⟩, ?_, rfl⟩
      simp [wholeDigits, hdig, hdot, he, hE]
  | cons d ds ih =>
    obtain ⟨hd, hds⟩ := List.forall_mem_cons.mp hd
    rw [Nat.ofDigitChars_cons] at hn ⊢
    have hgrown : 10 * n + digit d ≤ maxSignificand := Nat.le_trans (le_ofDigitChars ds _) hn
    rw [List.cons_append, wholeDigits, if_pos hd]
    dsimp only
    rw [if_pos hgrown]
    exact ih hds _ _ hn

/-- The digits of a natural number begin with a zero only if there is no other digit. -/
theorem toDigits_cases (n : Nat) :
    (n = 0 ∧ Nat.toDigits 10 n = ['0']) ∨ ∃ d ds, Nat.toDigits 10 n = d :: ds ∧ d ≠ '0' := by
  induction n using Nat.strongRecOn with
  | _ n ih =>
    rcases Nat.lt_or_ge n 10 with hn | hn
    · rw [Nat.toDigits_of_lt_base hn]
      interval_cases n
      · exact .inl ⟨rfl, rfl⟩
      all_goals exact .inr ⟨_, _, rfl, by decide⟩
    · -- the first digit is that of the tenth part, which is not zero
      right
      rw [Nat.toDigits_of_base_le (by decide) hn]
      rcases ih (n / 10) (by omega) with ⟨h0, -⟩ | ⟨d, ds, hds, hd⟩
      · omega
      · exact ⟨d, _, by rw [hds, List.cons_append], hd⟩

theorem reads_natural (negative : Bool) {n : Nat} (hn : n ≤ maxSignificand) (hr : Stops rest)
    (h : c.rest = Nat.toDigits 10 n ++ rest) :
    Reads (readNumber policy negative c) (integer negative n) rest := by
  have hvalue : Nat.ofDigitChars 10 (Nat.toDigits 10 n) 0 = n :=
    Nat.ofDigitChars_toDigits (by decide) (by decide)
  have hdigits : ∀ d ∈ Nat.toDigits 10 n, d.isDigit = true :=
    fun d hd => Nat.isDigit_of_mem_toDigits (by decide) (by decide) hd
  -- a single zero stands alone; any other number starts with a digit that is none
  rcases toDigits_cases n with ⟨rfl, h0⟩ | ⟨d, ds, hds, hd⟩
  · rw [h0] at h
    have hw := reads_wholeDigits policy negative [] (by simp) hr
    rcases rest with - | ⟨ch, rest⟩
    · simpa [readNumber, h] using hw _ _ 0 hn
    · have hdig : ch.isDigit = false := (hr ch rfl).1
      simpa [readNumber, h, hdig] using hw _ _ 0 hn
  · rw [hds] at h hvalue hdigits
    obtain ⟨hdig, hdsig⟩ := List.forall_mem_cons.mp hdigits
    rw [Nat.ofDigitChars_cons] at hvalue
    have hw := reads_wholeDigits policy negative ds hdsig hr c.line
      (c.column + 1) (digit d) (by simpa [digit] using hvalue.trans_le hn)
    have hv : Nat.ofDigitChars 10 ds (digit d) = n := by simpa [digit] using hvalue
    rw [hv] at hw
    simpa [readNumber, h, hd, hdig] using hw

end Json

end Estree
