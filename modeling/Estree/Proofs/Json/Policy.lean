/-
Estree/Proofs/Json/Policy.lean

Words, numbers and strings under two policies.

A policy is within another one (`Policy.Within`) if it refuses whatever the other one does: the
policy for documents whose content is used is within that for deep documents, and both are within
that for parts that are passed over.  Here is what this means for the smallest parts of a document.
Words and numbers are read alike by both (`Carried`), and all readers of digits are gone through for
this once, with the form of the result and the place where it ends.

Strings are not read alike.  Where one policy takes two escapes for one character, another one makes
two characters of them; but both end at the same quote (`readString_carried`).  This is why two
policies are compared by `Policy.Same`, which says something only if both pair surrogates or neither
does.  The fuel of a string is put aside on the way: any will do that is no less than its text.
-/
import Estree.Proofs.Json.Token

namespace Estree

namespace Json

/-! ### Policies -/

/-- A policy that refuses nothing which another one accepts. -/
structure Policy.Within (p q : Policy) : Prop where
  depth : ∀ n, p.allows n = true → q.allows n = true
  numbers : q.boundedNumbers = true → p.boundedNumbers = true
  surrogates : q.pairedSurrogates = true → p.pairedSurrogates = true

namespace Policy

variable {p q : Policy} {α : Type} {a b : α}

theorem Within.refl (p : Policy) : p.Within p :=
  ⟨fun _ => id, id, id⟩

/-- The policies differ in the depth that they allow. -/
theorem strict_within_deep : strict.Within deep :=
  ⟨fun _ _ => rfl, id, id⟩

/-- Where the content does not matter, numbers and halves of pairs are not looked at. -/
theorem deep_within_lenient : deep.Within lenient :=
  ⟨fun _ _ => rfl, nofun, nofun⟩

/-- So a member that is passed over may hold whatever is a document at all. -/
theorem strict_within_lenient : strict.Within lenient :=
  ⟨fun _ _ => rfl, nofun, nofun⟩

/-- Policies that may differ in depth, and in how they word a fault. -/
structure SameParts (p q : Policy) : Prop where
  numbers : p.boundedNumbers = q.boundedNumbers
  surrogates : p.pairedSurrogates = q.pairedSurrogates

/-- What is refused at any depth is the same under both. -/
theorem deep_sameParts_strict : deep.SameParts strict :=
  ⟨rfl, rfl⟩

/-- What two policies make of the same text: the same, if both pair surrogates or neither does. -/
def Same (p q : Policy) (a b : α) : Prop :=
  p.pairedSurrogates = q.pairedSurrogates → a = b

theorem Same.rfl : Same p q a a := fun _ => .refl a

/-- What is made of the same is the same. -/
theorem Same.map {β : Type} (f : α → β) (h : Same p q a b) : Same p q (f a) (f b) :=
  fun hp => congrArg f (h hp)

theorem Same.map₂ {β γ : Type} {c d : β} (f : α → β → γ) (h : Same p q a b) (h' : Same p q c d) :
    Same p q (f a c) (f b d) :=
  fun hp => congr (congrArg f (h hp)) (h' hp)

end Policy

/-! ### Cursors -/

namespace Cursor

variable {c : Cursor} {ch : Char} {rest : List Char}

/-- To pass over white space takes no character back. -/
theorem length_skipGaps (line column : Nat) (cs : List Char) :
    (skipGaps line column cs).rest.length ≤ cs.length := by
  induction cs generalizing line column with
  | nil => exact Nat.le_refl _
  | cons ch cs ih =>
    rw [skipGaps]
    split
    · exact Nat.le_succ_of_le (ih _ _)
    · split
      · exact Nat.le_succ_of_le (ih _ _)
      · exact Nat.le_refl _

theorem length_settle (c : Cursor) : c.settle.rest.length ≤ c.rest.length :=
  length_skipGaps ..

/-- Behind white space there is nothing more to pass. -/
@[simp] theorem settle_settle (c : Cursor) : c.settle.settle = c.settle := by
  obtain ⟨cs, line, column⟩ := c
  show (skipGaps line column cs).settle = skipGaps line column cs
  induction cs generalizing line column with
  | nil => rfl
  | cons ch cs ih =>
    rw [skipGaps]
    split
    · exact ih _ _
    · split
      · exact ih _ _
      · rw [settle, skipGaps, if_neg ‹_›, if_neg ‹_›]

/-- One character is one character less. -/
theorem length_advance (h : c.rest = ch :: rest) : c.advance.rest.length + 1 = c.rest.length := by
  rw [rest_advance h, h, List.length_cons]

theorem advance_eq (h : c.rest = ch :: rest) : c.advance = c.after ch rest := by
  rw [advance, h]

theorem length_after (h : c.rest = ch :: rest) :
    (c.after ch rest).rest.length + 1 = c.rest.length :=
  advance_eq h ▸ length_advance h

end Cursor

/-! ### Words and numbers -/

section tokens

variable {p q : Policy} {α : Type} {c e : Cursor} {cs : List Char} {j value : Json}

/-- What one reading gives another one gives as well; it is of a certain form, and the reading has
not gone back in the text. -/
structure Carried (P : α → Prop) (cs : List Char) (r r' : Reading α) : Prop where
  carry : ∀ a e, r = .ok (a, e) → e.rest.length ≤ cs.length ∧ P a ∧ r' = .ok (a, e)

variable {P : α → Prop}

/-- Nothing is claimed of a text that is refused. -/
theorem Carried.error {f : Fault} {r' : Reading α} : Carried P cs (.error f) r' :=
  ⟨nofun⟩

theorem Carried.ok {a : α} (ha : P a) (h : e.rest.length ≤ cs.length) :
    Carried P cs (.ok (a, e)) (.ok (a, e)) := by
  refine ⟨?_⟩
  rintro _ _ ⟨⟩
  exact ⟨h, ha, rfl⟩

/-- With more characters in front, there are still fewer left behind. -/
theorem Carried.of_le {cs' : List Char} {r r' : Reading α} (h : Carried P cs r r')
    (hle : cs.length ≤ cs'.length) : Carried P cs' r r' :=
  ⟨fun a e hr => ⟨(h.carry a e hr).1.trans hle, (h.carry a e hr).2⟩⟩

theorem Carried.cons {ch : Char} {r r' : Reading α} (h : Carried P cs r r') :
    Carried P (ch :: cs) r r' :=
  h.of_le (Nat.le_succ _)

/-- The rest of a word stands for the value of the word. -/
theorem carried_readWord (word : List Char) (c : Cursor) :
    Carried (· = value) c.rest (readWord value word c) (readWord value word c) := by
  induction word generalizing c with
  | nil => exact .ok rfl (Nat.le_refl _)
  | cons w word ih =>
    rw [readWord]
    split
    · exact .error
    · rename_i ch rest hrest
      rw [hrest]
      split
      · have hword := ih (c.after ch rest)
        rw [Cursor.rest_after] at hword
        exact hword.cons
      · exact .error

/-- A document that is a number. -/
def IsNum (j : Json) : Prop :=
  ∃ n, j = .num n

/-- Digits make a number, whether it fits into 64 bits or not. -/
theorem isNum_integer (negative : Bool) (significand : Nat) :
    (integer negative significand).IsNum := by
  unfold integer
  split
  · split
    · exact ⟨_, rfl⟩
    · exact ⟨_, rfl⟩
  · exact ⟨_, rfl⟩

/-- To pass over digits takes no character back. -/
theorem length_skipDigits (line column : Nat) (cs : List Char) :
    (skipDigits line column cs).rest.length ≤ cs.length := by
  induction cs generalizing column with
  | nil => exact Nat.le_refl _
  | cons ch cs ih =>
    rw [skipDigits]
    split
    · exact Nat.le_succ_of_le (ih _)
    · exact Nat.le_refl _

variable (h : q.boundedNumbers = true → p.boundedNumbers = true)

include h

/-- The last step: only here may a number be too large. -/
theorem carried_numberOfParts (negative : Bool) (significand : Nat) (exponent : Int)
    (hc : c.rest = cs) :
    Carried IsNum cs (numberOfParts p negative significand exponent c)
      (numberOfParts q negative significand exponent c) := by
  subst hc
  unfold numberOfParts
  split
  · exact .ok ⟨_, rfl⟩ (Nat.le_refl _)
  · split
    · exact .error
    · rw [if_neg (mt h ‹_›)]
      exact .ok ⟨_, rfl⟩ (Nat.le_refl _)

/-- An exponent may be too large as well, unless the digits in front are zero. -/
theorem carried_exponentDigits (negative : Bool) (significand : Nat) (base : Int) (down : Bool)
    (line column e : Nat) (cs : List Char) :
    Carried IsNum cs (exponentDigits p negative significand base down line column e cs)
      (exponentDigits q negative significand base down line column e cs) := by
  induction cs generalizing column e with
  | nil => exact carried_numberOfParts h _ _ _ rfl
  | cons ch cs ih =>
    rw [exponentDigits, exponentDigits]
    split
    · dsimp only
      split
      · exact (ih _ _).cons
      · split
        · exact .error
        · rename_i hbound
          have hbound' : ¬ (significand ≠ 0 ∧ (!down) = true ∧ q.boundedNumbers = true) :=
            fun hq => hbound ⟨hq.1, hq.2.1, h hq.2.2⟩
          rw [if_neg hbound']
          exact .ok ⟨_, rfl⟩ (Nat.le_succ_of_le (length_skipDigits line (column + 1) cs))
    · exact carried_numberOfParts h _ _ _ rfl

/-- An exponent from its mark on. -/
theorem carried_readExponent (negative : Bool) (significand : Nat) (base : Int)
    (hc : c.rest = cs) :
    Carried IsNum cs (readExponent p negative significand base c)
      (readExponent q negative significand base c) := by
  subst hc
  have hadvance (c : Cursor) : c.advance.rest.length ≤ c.rest.length := by
    cases hrest : c.rest with
    | nil => simp [Cursor.advance, hrest]
    | cons ch rest => simp [Cursor.rest_advance hrest]
  have hone := hadvance c
  have htwo := hadvance c.advance
  unfold readExponent
  dsimp only
  -- behind the mark, and a sign if there is one, there must be a digit
  split
  · exact .error
  · rename_i hrest
    split
    · refine (carried_exponentDigits h ..).of_le ?_
      have hlength := congrArg List.length hrest
      rw [List.length_cons] at hlength
      split at hlength <;> dsimp only at hlength <;> omega
    · exact .error

/-- What stands behind the digits: an exponent, or the end. -/
theorem carried_finishNumber (negative : Bool) (significand : Nat) (base : Int)
    (hc : c.rest = cs) :
    Carried IsNum cs (finishNumber p negative significand base c)
      (finishNumber q negative significand base c) := by
  unfold finishNumber
  split
  · exact carried_readExponent h _ _ _ hc
  · exact carried_readExponent h _ _ _ hc
  · exact carried_numberOfParts h _ _ _ hc

/-- The digits behind the point, of which those that no longer fit are passed over. -/
theorem carried_fractionDigits (negative : Bool) (start : Int)
    (line column significand places : Nat) (cs : List Char) :
    Carried IsNum cs (fractionDigits p negative start line column significand places cs)
      (fractionDigits q negative start line column significand places cs) := by
  induction cs generalizing column significand places with
  | nil =>
    rw [fractionDigits, fractionDigits]
    split
    · exact .error
    · exact carried_numberOfParts h _ _ _ rfl
  | cons ch cs ih =>
    rw [fractionDigits, fractionDigits]
    split
    · dsimp only
      split
      · exact (ih _ _ _).cons
      · exact (carried_finishNumber h _ _ _ rfl).of_le (length_skipDigits ..)
    · dsimp only
      split
      · exact .error
      · exact carried_finishNumber h _ _ _ rfl

/-- Digits in front of the point that no longer fit are counted. -/
theorem carried_longDigits (negative : Bool) (significand line column dropped : Nat)
    (cs : List Char) :
    Carried IsNum cs (longDigits p negative significand line column dropped cs)
      (longDigits q negative significand line column dropped cs) := by
  induction cs generalizing column dropped with
  | nil => exact carried_numberOfParts h _ _ _ rfl
  | cons ch cs ih =>
    rw [longDigits, longDigits]
    split
    · exact (ih _ _).cons
    · split
      · exact (carried_fractionDigits h ..).cons
      · exact carried_finishNumber h _ _ _ rfl

/-- The digits in front of the point. -/
theorem carried_wholeDigits (negative : Bool) (line column significand : Nat) (cs : List Char) :
    Carried IsNum cs (wholeDigits p negative line column significand cs)
      (wholeDigits q negative line column significand cs) := by
  induction cs generalizing column significand with
  | nil => exact .ok (isNum_integer ..) (Nat.le_refl _)
  | cons ch cs ih =>
    rw [wholeDigits, wholeDigits]
    split
    · dsimp only
      split
      · exact (ih _ _).cons
      · exact carried_longDigits h ..
    · split
      · exact (carried_fractionDigits h ..).cons
      · split
        · exact carried_readExponent h _ _ _ rfl
        · exact .ok (isNum_integer ..) (Nat.le_refl _)

/-- A number has at least one digit. -/
theorem carried_readNumber {d : Char} (negative : Bool) (hc : c.rest = d :: cs) :
    Carried IsNum cs (readNumber p negative c) (readNumber q negative c) := by
  unfold readNumber
  rw [hc]
  dsimp only
  split
  · split
    · split
      · exact .error
      · exact carried_wholeDigits h ..
    · exact carried_wholeDigits h ..
  · split
    · exact carried_wholeDigits h ..
    · exact .error

end tokens

/-! ### Strings -/

section strings

variable {p q : Policy} {c e : Cursor} {ch : Char} {n fuel : Nat} {text : String} {acc : List Char}

/-- Four digits are at least one character. -/
theorem length_readHex (h : readHex c = .ok (n, e)) : e.rest.length < c.rest.length := by
  unfold readHex at h
  split at h
  · rename_i hrest
    split at h
    · cases h
      simp only [hrest, List.length_cons]
      omega
    · cases h
  · dsimp only at h
    split at h <;> cases h

/-- A pair of halves is longer than one of them. -/
theorem length_readUnicode (h : readUnicode p c = .ok (ch, e)) : e.rest.length < c.rest.length := by
  unfold readUnicode at h
  split at h
  · cases h
  · rename_i n d hn
    have hd := length_readHex hn
    split at h
    · split at h
      · cases h
      · split at h
        · cases h
          exact hd
        · -- the second half of a pair
          split at h
          · cases h
          · rename_i rest hrest
            dsimp only at h
            split at h
            · cases h
            · rename_i rest' hrest'
              split at h
              · cases h
              · rename_i n' e' hn'
                split at h
                · obtain ⟨-, rfl⟩ := Prod.mk.inj (Except.ok.inj h)
                  have := length_readHex hn'
                  have := Cursor.length_advance hrest
                  have := Cursor.length_advance hrest'
                  omega
                · cases h
            · cases h
          · cases h
    · cases h
      exact hd

/-- What follows `\\u` is read alike, unless it is a pair where the other policy does not ask for
pairs: then its halves are two escapes. -/
theorem readUnicode_carried (hpq : q.pairedSurrogates = true → p.pairedSurrogates = true)
    (h : readUnicode p c = .ok (ch, e)) :
    readUnicode q c = .ok (ch, e) ∨
    (p.pairedSurrogates ≠ q.pairedSurrogates ∧ ∃ ch₁ ch₂ e₁ rest,
      readUnicode q c = .ok (ch₁, e₁) ∧ e₁.rest = '\\' :: 'u' :: rest ∧
      readUnicode q e₁.advance.advance = .ok (ch₂, e)) := by
  by_cases hsame : p.pairedSurrogates = q.pairedSurrogates
  · left
    rw [← h, readUnicode, readUnicode, hsame]
  -- the policies differ: `p` pairs surrogates and `q` reads each half by itself
  · have hp : p.pairedSurrogates = true := by
      rw [← Bool.not_eq_false]
      intro hp
      exact hsame (hp.trans (Bool.not_eq_true _ ▸ mt hpq (by simp [hp])).symm)
    have hq : q.pairedSurrogates = false := by
      rw [← Bool.not_eq_true]
      exact fun hq => hsame (hp.trans hq.symm)
    have half {c : Cursor} {n : Nat} {d : Cursor} (hn : readHex c = .ok (n, d)) :
        readUnicode q c = .ok (charOfHalf n, d) := by
      rw [readUnicode, hn]
      simp [hq]
    unfold readUnicode at h
    split at h
    · cases h
    · rename_i n d hn
      rw [if_pos hp] at h
      split at h
      · cases h
      · rename_i hlow
        split at h
        · -- no half at all
          rename_i hhigh
          cases h
          left
          rw [half hn, charOfHalf, if_neg (by omega)]
        · split at h
          · cases h
          · rename_i rest hrest
            dsimp only at h
            split at h
            · cases h
            · rename_i rest' hrest'
              split at h
              · cases h
              · rename_i n' e' hn'
                split at h
                -- a pair for `p`; for `q` two halves in a row
                · obtain ⟨rfl, rfl⟩ := Prod.mk.inj (Except.ok.inj h)
                  rw [Cursor.rest_advance hrest] at hrest'
                  exact .inr ⟨hsame, _, _, d, rest', half hn, hrest.trans (by rw [hrest']),
                    half hn'⟩
                · cases h
            · cases h
          · cases h

/-- An escape has at least one character behind its backslash. -/
theorem length_readEscape (h : readEscape p c = .ok (ch, e)) : e.rest.length < c.rest.length := by
  unfold readEscape at h
  split at h
  · cases h
  · rename_i ch' rest hrest
    dsimp only at h
    have hnext := Cursor.length_after hrest
    split at h
    case h_9 =>
      have := length_readUnicode h
      omega
    case h_10 => cases h
    all_goals
      cases h
      omega

/-- An escape is read alike, or as the first of two. -/
theorem readEscape_carried (hpq : q.pairedSurrogates = true → p.pairedSurrogates = true)
    (h : readEscape p c = .ok (ch, e)) :
    readEscape q c = .ok (ch, e) ∨
    (p.pairedSurrogates ≠ q.pairedSurrogates ∧ ∃ ch₁ ch₂ e₁ rest,
      readEscape q c = .ok (ch₁, e₁) ∧ e₁.rest = '\\' :: rest ∧
      readEscape q (e₁.after '\\' rest) = .ok (ch₂, e)) := by
  unfold readEscape at h
  split at h
  · cases h
  · rename_i ch' rest hrest
    dsimp only at h
    split at h
    -- only `\u` looks at the policy
    case h_9 =>
      have hu (c : Cursor) (rest : List Char) (hrest : c.rest = 'u' :: rest) :
          readEscape q c = readUnicode q (c.after 'u' rest) := by
        rw [readEscape, hrest]
        rfl
      rcases readUnicode_carried hpq h with h | ⟨hne, ch₁, ch₂, e₁, rest₁, h₁, he₁, h₂⟩
      · exact .inl ((hu c rest hrest).trans h)
      · refine .inr ⟨hne, ch₁, ch₂, e₁, 'u' :: rest₁, (hu c rest hrest).trans h₁, he₁, ?_⟩
        rw [← Cursor.advance_eq he₁, hu _ rest₁ (Cursor.rest_advance he₁),
          ← Cursor.advance_eq (Cursor.rest_advance he₁)]
        exact h₂
    case h_10 => cases h
    all_goals
      cases h
      left
      rw [readEscape, hrest]
      rfl

/-- The rest of a string is read as far, and as the same text if both policies pair alike. -/
theorem readChars_carried (hpq : q.pairedSurrogates = true → p.pairedSurrogates = true)
    (h : readChars p fuel acc c = .ok (text, e)) :
    e.rest.length < c.rest.length ∧
    ∀ n acc', c.rest.length < n → Policy.Same p q acc acc' →
      ∃ text', readChars q n acc' c = .ok (text', e) ∧ Policy.Same p q text text' := by
  induction fuel generalizing acc c with
  | zero => cases h
  | succ fuel ih =>
    rw [readChars] at h
    split at h
    · cases h
    · rename_i ch rest hrest
      have hafter := Cursor.length_after hrest
      split at h
      · -- the closing quote
        rename_i hquote
        cases h
        refine ⟨by omega, fun n acc' hn hacc => ?_⟩
        obtain ⟨n, rfl⟩ := Nat.exists_eq_succ_of_ne_zero (Nat.ne_zero_of_lt hn)
        refine ⟨String.ofList acc'.reverse, ?_, hacc.map fun acc => String.ofList acc.reverse⟩
        rw [readChars, hrest]
        simp [hquote]
      · rename_i hquote
        split at h
        · -- an escape, or two in place of one
          rename_i hescape
          split at h
          · cases h
          · rename_i d e₁ hd
            have hlength := length_readEscape hd
            obtain ⟨hle, hread⟩ := ih h
            refine ⟨by omega, fun n acc' hn hacc => ?_⟩
            obtain ⟨n, rfl⟩ := Nat.exists_eq_succ_of_ne_zero (Nat.ne_zero_of_lt hn)
            have hstep {d e₁ n acc'} (hd : readEscape q (c.after ch rest) = .ok (d, e₁)) :
                readChars q (n + 1) acc' c = readChars q n (d :: acc') e₁ := by
              rw [readChars, hrest]
              dsimp only
              rw [if_neg hquote, if_pos hescape, hd]
            rcases readEscape_carried hpq hd with hd' | ⟨hne, d₁, d₂, e₂, rest₂, hd₁, he₂, hd₂⟩
            · rw [hstep hd']
              exact hread n _ (by omega) (hacc.map (d :: ·))
            · have h₂ := length_readEscape hd₁
              obtain ⟨n, rfl⟩ := Nat.exists_eq_succ_of_ne_zero (show n ≠ 0 by omega)
              rw [hstep hd₁, readChars, he₂]
              simp only [hd₂]
              exact hread n _ (by omega) fun hp => absurd hp hne
        · rename_i hescape
          split at h
          · cases h
          · rename_i hcontrol
            obtain ⟨hle, hread⟩ := ih h
            refine ⟨by omega, fun n acc' hn hacc => ?_⟩
            obtain ⟨n, rfl⟩ := Nat.exists_eq_succ_of_ne_zero (Nat.ne_zero_of_lt hn)
            rw [readChars, hrest]
            simp only [hquote, hescape, hcontrol, if_false]
            exact hread n _ (by omega) (hacc.map (ch :: ·))

/-- What a string is read as does not depend on the fuel, if it is enough for the text. -/
theorem readString_carried (hpq : q.pairedSurrogates = true → p.pairedSurrogates = true)
    (h : readString p fuel c = .ok (text, e)) :
    e.rest.length < c.rest.length ∧
    ∀ n, c.rest.length ≤ n →
      ∃ text', readString q n c = .ok (text', e) ∧ Policy.Same p q text text' :=
  have hread := readChars_carried hpq h
  ⟨hread.1, fun n hn => hread.2 (n + 1) [] (Nat.lt_succ_of_le hn) .rfl⟩

end strings

end Json

end Estree
