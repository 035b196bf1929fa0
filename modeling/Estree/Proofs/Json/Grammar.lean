/-
Estree/Proofs/Json/Grammar.lean

The text of a document, apart from how it is read.

The reader is given as much fuel as its text may need, and a policy that says what it refuses.
`ValueAt` says without fuel which value stands at a cursor and where it ends: it has one constructor
for each form of a value, and the items of an array and the members of an object are chains of such
values (`ItemsAt`, `MembersAt`).

* What has been read stands there (`valueAt_of_readValue`), by induction on the fuel.
* What stands there has at least one character (`ValueAt.length_lt`), and is read with three times
  as much fuel as there are characters under every policy that refuses no more (`ValueAt.reads`).
* What stands there under one policy stands there under any other one that differs from it in depth
  alone, if it allows the containers that there are (`ValueAt.of_allows`, `ValueAt.allows`).

So the policy for parts that are passed over reads whatever is a document at all
(`parse_lenient`), and the policy for documents whose content is used reads just those documents
of the policy for deep ones that nest no more than 127 containers (`parse_strict_iff`).
-/
import Estree.Proofs.Json.Policy
import Estree.Proofs.Json.Reading

namespace Estree

namespace Json

/-! ### The grammar -/

/-- Where the next item or member begins: the first one at once, any other after a comma. -/
def Cursor.next? (first : Bool) (c : Cursor) : Option Cursor :=
  if first then some c.settle
  else
    match c.settle.rest with
    | ',' :: _ => some c.settle.advance.settle
    | _ => none

theorem Cursor.next?_comma {c : Cursor} {rest : List Char} (h : c.settle.rest = ',' :: rest) :
    c.next? false = some c.settle.advance.settle := by
  rw [next?, if_neg Bool.false_ne_true, h]
  rfl

mutual

/-- A value stands at a cursor, inside of a number of containers, and another cursor is behind. -/
inductive ValueAt (p : Policy) : Nat → Cursor → Json → Cursor → Prop
  /-- A word or a number, for which no fuel is needed. -/
  | atom {depth : Nat} {c e : Cursor} {j : Json} {ch : Char} {rest : List Char}
      (hrest : c.settle.rest = ch :: rest) (hch : ch ≠ '"' ∧ ch ≠ '[' ∧ ch ≠ '\x7b')
      (h : readValue p 1 depth c = .ok (j, e)) : ValueAt p depth c j e
  | str {depth : Nat} {c e : Cursor} {text : String} {rest : List Char}
      (hrest : c.settle.rest = '"' :: rest)
      (h : readString p c.settle.advance.rest.length c.settle.advance = .ok (text, e)) :
      ValueAt p depth c (.str text) e
  | arr {depth : Nat} {c e : Cursor} {items : List Json} {rest : List Char}
      (hrest : c.settle.rest = '[' :: rest) (ha : p.allows depth = true)
      (h : ItemsAt p (depth + 1) true c.settle.advance items e) : ValueAt p depth c (.arr items) e
  | obj {depth : Nat} {c e : Cursor} {members : List (String × Json)} {rest : List Char}
      (hrest : c.settle.rest = '\x7b' :: rest) (ha : p.allows depth = true)
      (h : MembersAt p (depth + 1) true c.settle.advance members e) :
      ValueAt p depth c (.obj members) e

/-- The items of an array and its closing bracket, from the first one on or after another one. -/
inductive ItemsAt (p : Policy) : Nat → Bool → Cursor → List Json → Cursor → Prop
  | close {depth : Nat} {first : Bool} {c : Cursor} {rest : List Char}
      (hrest : c.settle.rest = ']' :: rest) : ItemsAt p depth first c [] c.settle.advance
  | item {depth : Nat} {first : Bool} {c d e f : Cursor} {j : Json} {items : List Json}
      (hnext : c.next? first = some d) (hopen : ∀ rest, d.rest ≠ ']' :: rest)
      (h : ValueAt p depth d j e) (hitems : ItemsAt p depth false e items f) :
      ItemsAt p depth first c (j :: items) f

/-- The members of an object and its closing brace, from the first one on or after another one. -/
inductive MembersAt (p : Policy) :
    Nat → Bool → Cursor → List (String × Json) → Cursor → Prop
  | close {depth : Nat} {first : Bool} {c : Cursor} {rest : List Char}
      (hrest : c.settle.rest = '\x7d' :: rest) : MembersAt p depth first c [] c.settle.advance
  | member {depth : Nat} {first : Bool} {c d e f g k : Cursor} {name : String} {j : Json}
      {members : List (String × Json)} {rest : List Char} (hnext : c.next? first = some d)
      (hrest : d.rest = '"' :: rest)
      (hname : readString p d.advance.rest.length d.advance = .ok (name, e))
      (hcolon : readColon e = .ok f) (h : ValueAt p depth f j g)
      (hmembers : MembersAt p depth false g members k) :
      MembersAt p depth first c ((name, j) :: members) k

end

section grammar

variable {p q : Policy}

/-! ### The first character of a value -/

section first

variable {depth n : Nat} {c : Cursor} {ch : Char} {rest : List Char}

/-- Words and numbers are read without further fuel. -/
theorem readValue_atom (hrest : c.settle.rest = ch :: rest)
    (hch : ch ≠ '"' ∧ ch ≠ '[' ∧ ch ≠ '\x7b') :
    readValue p (n + 1) depth c = readValue p 1 depth c := by
  obtain ⟨hquote, harr, hobj⟩ := hch
  rw [readValue, readValue]
  simp only [hrest]
  split <;> first | rfl | contradiction

/-- One step of the reader: a string. -/
theorem readValue_quote (hrest : c.settle.rest = '"' :: rest) :
    readValue p (n + 1) depth c
      = match readString p n c.settle.advance with
        | .error f => .error f
        | .ok (text, e) => .ok (.str text, e) := by
  rw [readValue, Cursor.advance_eq hrest]
  rcases hread : readString p n (c.settle.after '"' rest) with f | ⟨text, e⟩
  · simp only [hrest, hread]
  · simp only [hrest, hread]

/-- One step of the reader: an array, if it is allowed at this depth. -/
theorem readValue_bracket (hrest : c.settle.rest = '[' :: rest) :
    readValue p (n + 1) depth c
      = if p.allows depth then readFirstItem p n (depth + 1) c.settle.advance
        else .error (c.settle.faultNext .tooDeep) := by
  rw [readValue, Cursor.advance_eq hrest]
  simp only [hrest]

/-- One step of the reader: an object, if it is allowed at this depth. -/
theorem readValue_brace (hrest : c.settle.rest = '\x7b' :: rest) :
    readValue p (n + 1) depth c
      = if p.allows depth then readFirstMember p n (depth + 1) c.settle.advance
        else .error (c.settle.faultNext .tooDeep) := by
  rw [readValue, Cursor.advance_eq hrest]
  simp only [hrest]

end first

/-! ### What has been read stands there -/

mutual

/-- What has been read as a value stands there, by induction on the fuel. -/
theorem valueAt_of_readValue {depth : Nat} {c e : Cursor} {j : Json} :
    ∀ n, readValue p n depth c = .ok (j, e) → ValueAt p depth c j e
  | 0, h => by
    rw [readValue] at h
    cases h
  | n + 1, h => by
    cases hrest : c.settle.rest with
    | nil =>
      rw [readValue] at h
      simp only [hrest] at h
      cases h
    | cons ch rest =>
      by_cases hch : ch ≠ '"' ∧ ch ≠ '[' ∧ ch ≠ '\x7b'
      · exact .atom hrest hch (readValue_atom hrest hch ▸ h)
      -- three characters open something that has parts
      · have hcases : ch = '"' ∨ ch = '[' ∨ ch = '\x7b' := by
          by_contra hne
          simp only [not_or] at hne
          exact hch hne
        rcases hcases with rfl | rfl | rfl
        · rw [readValue_quote hrest] at h
          split at h
          · cases h
          · rename_i text d htext
            cases h
            obtain ⟨text', htext', hsame⟩ :=
              (readString_carried id htext).2 _ (Nat.le_refl _)
            exact .str hrest (hsame rfl ▸ htext')
        · rw [readValue_bracket hrest] at h
          split at h
          · rename_i ha
            obtain ⟨items, rfl, hitems⟩ := itemsAt_of_readFirstItem n h
            exact .arr hrest ha hitems
          · cases h
        · rw [readValue_brace hrest] at h
          split at h
          · rename_i ha
            obtain ⟨members, rfl, hmembers⟩ := membersAt_of_readFirstMember n h
            exact .obj hrest ha hmembers
          · cases h
termination_by structural n => n

/-- The items after an opening bracket. -/
theorem itemsAt_of_readFirstItem {depth : Nat} {c e : Cursor} {j : Json} :
    ∀ n, readFirstItem p n depth c = .ok (j, e) →
      ∃ items, j = .arr items ∧ ItemsAt p depth true c items e
  | 0, h => by
    rw [readFirstItem] at h
    cases h
  | n + 1, h => by
    rw [readFirstItem] at h
    split at h
    · cases h
    · rename_i hclose
      cases h
      exact ⟨[], rfl, .close hclose⟩
    · rename_i hopen
      split at h
      · cases h
      · rename_i item d hitem
        obtain ⟨items, rfl, hitems⟩ := itemsAt_of_readMoreItems n h
        exact ⟨item :: items, rfl, .item rfl (fun rest hr => hopen rest hr)
          (valueAt_of_readValue n hitem) hitems⟩
termination_by structural n => n

/-- The items after another one; those in front of them are in the accumulator. -/
theorem itemsAt_of_readMoreItems {depth : Nat} {acc : List Json} {c e : Cursor} {j : Json} :
    ∀ n, readMoreItems p n depth acc c = .ok (j, e) →
      ∃ items, j = .arr (acc.reverse ++ items) ∧ ItemsAt p depth false c items e
  | 0, h => by
    rw [readMoreItems] at h
    cases h
  | n + 1, h => by
    rw [readMoreItems] at h
    dsimp only at h
    split at h
    · cases h
    · rename_i hclose
      cases h
      exact ⟨[], by rw [List.append_nil], .close hclose⟩
    · rename_i hcomma
      split at h
      · cases h
      · cases h
      · rename_i hopen
        split at h
        · cases h
        · rename_i item d hitem
          -- the reader collects backwards; what follows is appended to what it has
          obtain ⟨items, rfl, hitems⟩ := itemsAt_of_readMoreItems n h
          refine ⟨item :: items, by rw [List.reverse_cons, List.append_assoc]; rfl, .item ?_
            (fun rest hr => hopen rest hr) (valueAt_of_readValue n hitem) hitems⟩
          exact Cursor.next?_comma hcomma
    · cases h
termination_by structural n => n

/-- The members after an opening brace. -/
theorem membersAt_of_readFirstMember {depth : Nat} {c e : Cursor} {j : Json} :
    ∀ n, readFirstMember p n depth c = .ok (j, e) →
      ∃ members, j = .obj members ∧ MembersAt p depth true c members e
  | 0, h => by
    rw [readFirstMember] at h
    cases h
  | n + 1, h => by
    rw [readFirstMember] at h
    split at h
    · cases h
    · rename_i hclose
      cases h
      exact ⟨[], rfl, .close hclose⟩
    · rename_i hquote
      exact membersAt_of_readMember rfl hquote n h
    · cases h
termination_by structural n => n

/-- One member from its name on, and all after it. -/
theorem membersAt_of_readMember {depth : Nat} {first : Bool} {acc : List (String × Json)}
    {c d e : Cursor} {j : Json} {rest : List Char} (hnext : c.next? first = some d)
    (hrest : d.rest = '"' :: rest) :
    ∀ n, readMember p n depth acc d.advance = .ok (j, e) →
      ∃ members, j = .obj (acc.reverse ++ members) ∧ MembersAt p depth first c members e
  | 0, h => by
    rw [readMember] at h
    cases h
  | n + 1, h => by
    rw [readMember] at h
    split at h
    · cases h
    · rename_i name f hname
      obtain ⟨name', hname', hsame⟩ := (readString_carried id hname).2 _ (Nat.le_refl _)
      -- with one policy on both sides the name is read as the same text
      cases hsame rfl
      split at h
      · cases h
      · rename_i g hcolon
        split at h
        · cases h
        · rename_i value k hvalue
          obtain ⟨members, rfl, hmembers⟩ := membersAt_of_readMoreMembers n h
          exact ⟨(name, value) :: members, by rw [List.reverse_cons, List.append_assoc]; rfl,
            .member hnext hrest hname' hcolon (valueAt_of_readValue n hvalue) hmembers⟩
termination_by structural n => n

/-- The members after another one; those in front of them are in the accumulator. -/
theorem membersAt_of_readMoreMembers {depth : Nat} {acc : List (String × Json)} {c e : Cursor}
    {j : Json} :
    ∀ n, readMoreMembers p n depth acc c = .ok (j, e) →
      ∃ members, j = .obj (acc.reverse ++ members) ∧ MembersAt p depth false c members e
  | 0, h => by
    rw [readMoreMembers] at h
    cases h
  | n + 1, h => by
    rw [readMoreMembers] at h
    dsimp only at h
    split at h
    · cases h
    · rename_i hclose
      cases h
      exact ⟨[], by rw [List.append_nil], .close hclose⟩
    · rename_i hcomma
      have hnext := Cursor.next?_comma hcomma
      split at h
      · cases h
      · rename_i hquote
        exact membersAt_of_readMember hnext hquote n h
      · cases h
      · cases h
    · cases h
termination_by structural n => n

end

/-! ### What stands there is read -/

/-- A colon is at least one character. -/
theorem length_readColon {c d : Cursor} (h : readColon c = .ok d) :
    d.rest.length < c.rest.length := by
  have hsettle := c.length_settle
  unfold readColon at h
  dsimp only at h
  split at h
  · cases h
  · rename_i hrest
    cases h
    have := Cursor.length_advance hrest
    omega
  · cases h

/-- To go to the next item takes no character back. -/
theorem Cursor.length_next? {first : Bool} {c d : Cursor} (h : c.next? first = some d) :
    d.rest.length ≤ c.rest.length := by
  have hsettle := c.length_settle
  unfold next? at h
  split at h
  · cases h
    exact hsettle
  · split at h
    · rename_i hrest
      cases h
      have := length_advance hrest
      have := c.settle.advance.length_settle
      omega
    · cases h

/-- What begins with a character that opens neither a string nor a container: null with an `n`, and
else a truth value or a number. -/
inductive Atomic : Char → Json → Prop
  | null : Atomic 'n' .null
  | bool {ch : Char} {b : Bool} (hch : ch ≠ 'n') : Atomic ch (.bool b)
  | num {ch : Char} {n : JsonNumber} (hch : ch ≠ 'n') : Atomic ch (.num n)

/-- Words and numbers have at least one character, and are read alike by all policies. -/
theorem readValue_atom_carried (hpq : q.boundedNumbers = true → p.boundedNumbers = true)
    {depth : Nat} {c e : Cursor} {j : Json} {ch : Char} {rest : List Char}
    (hrest : c.settle.rest = ch :: rest) (hch : ch ≠ '"' ∧ ch ≠ '[' ∧ ch ≠ '\x7b')
    (h : readValue p 1 depth c = .ok (j, e)) :
    e.rest.length < c.rest.length ∧ Atomic ch j ∧ ∀ depth, readValue q 1 depth c = .ok (j, e) := by
  obtain ⟨hquote, harr, hobj⟩ := hch
  have hlength : rest.length < c.rest.length :=
    Nat.lt_of_lt_of_le (by rw [hrest]; exact Nat.lt_succ_self _) c.length_settle
  -- a word is read whole or not at all, whatever the policy
  have word {value : Json} {word : List Char}
      (h : readWord value word (c.settle.after ch rest) = .ok (j, e)) :
      e.rest.length < c.rest.length ∧ j = value := by
    obtain ⟨hle, hvalue, -⟩ := (carried_readWord word _).carry _ _ h
    rw [Cursor.rest_after] at hle
    exact ⟨Nat.lt_of_le_of_lt hle hlength, hvalue⟩
  rw [readValue] at h
  simp only [readValue, hrest] at h ⊢
  split at h
  · obtain ⟨hlt, rfl⟩ := word h
    exact ⟨hlt, .null, fun _ => h⟩
  · obtain ⟨hlt, rfl⟩ := word h
    exact ⟨hlt, .bool (by decide), fun _ => h⟩
  · obtain ⟨hlt, rfl⟩ := word h
    exact ⟨hlt, .bool (by decide), fun _ => h⟩
  -- behind a minus sign there has to be a digit
  · cases rest with
    | nil =>
      rw [readNumber, Cursor.rest_after] at h
      cases h
    | cons d rest =>
      obtain ⟨hle, ⟨_, rfl⟩, h'⟩ := (carried_readNumber hpq true (Cursor.rest_after ..)).carry _ _ h
      exact ⟨Nat.lt_of_le_of_lt (Nat.le_succ_of_le hle) hlength, .num (by decide), fun _ => h'⟩
  · contradiction
  · contradiction
  · contradiction
  · rename_i hn _ _ _ _ _ _
    split at h
    · obtain ⟨hle, ⟨_, rfl⟩, h'⟩ := (carried_readNumber hpq false hrest).carry _ _ h
      exact ⟨Nat.lt_of_le_of_lt hle hlength, .num hn, fun _ => (if_pos ‹_›).trans h'⟩
    · cases h

theorem Atomic.nesting_eq {ch : Char} {j : Json} : Atomic ch j → j.nesting = 0
  | .null | .bool _ | .num _ => rfl

mutual

/-- A value has at least one character. -/
theorem ValueAt.length_lt {depth : Nat} {c e : Cursor} {j : Json} :
    ValueAt p depth c j e → e.rest.length < c.rest.length
  | .atom hrest hch h => (readValue_atom_carried id hrest hch h).1
  | .str hrest h => by
    have := c.length_settle
    have := Cursor.length_advance hrest
    have := (readString_carried id h).1
    omega
  | .arr hrest _ h => by
    have := c.length_settle
    have := Cursor.length_advance hrest
    have := h.length_lt
    omega
  | .obj hrest _ h => by
    have := c.length_settle
    have := Cursor.length_advance hrest
    have := h.length_lt
    omega

/-- A closing bracket is at least one character. -/
theorem ItemsAt.length_lt {depth : Nat} {first : Bool} {c e : Cursor} {items : List Json} :
    ItemsAt p depth first c items e → e.rest.length < c.rest.length
  | .close hrest => by
    have := c.length_settle
    have := Cursor.length_advance hrest
    omega
  | .item hnext _ h hitems => by
    have := Cursor.length_next? hnext
    have := h.length_lt
    have := hitems.length_lt
    omega

/-- A closing brace is at least one character. -/
theorem MembersAt.length_lt {depth : Nat} {first : Bool} {c e : Cursor}
    {members : List (String × Json)} :
    MembersAt p depth first c members e → e.rest.length < c.rest.length
  | .close hrest => by
    have := c.length_settle
    have := Cursor.length_advance hrest
    omega
  | .member hnext hrest hname hcolon h hmembers => by
    have := Cursor.length_next? hnext
    have := Cursor.length_advance hrest
    have := (readString_carried id hname).1
    have := length_readColon hcolon
    have := h.length_lt
    have := hmembers.length_lt
    omega

end

/-- Behind an item the next one stands after a comma. -/
theorem Cursor.of_next?_comma {c d : Cursor} (h : c.next? false = some d) :
    (∃ rest, c.settle.rest = ',' :: rest) ∧ d = c.settle.advance.settle := by
  rw [next?, if_neg Bool.false_ne_true] at h
  split at h
  · rename_i hrest
    cases h
    exact ⟨⟨_, hrest⟩, rfl⟩
  · cases h

/-- The comma is at least one character. -/
theorem Cursor.length_next?_comma {c d : Cursor} (h : c.next? false = some d) :
    d.rest.length < c.rest.length := by
  obtain ⟨⟨rest, hrest⟩, rfl⟩ := of_next?_comma h
  have := c.length_settle
  have := length_advance hrest
  have := c.settle.advance.length_settle
  omega

section openings

variable {depth n : Nat} {c d : Cursor} {rest : List Char}

/-- One step of the reader in front of the first item. -/
theorem readFirstItem_open (hopen : ∀ rest, c.settle.rest ≠ ']' :: rest)
    (hne : c.settle.rest ≠ []) :
    readFirstItem q (n + 1) depth c
      = match readValue q n depth c.settle with
        | .error f => .error f
        | .ok (j, e) => readMoreItems q n depth [j] e := by
  rw [readFirstItem]
  split
  · contradiction
  · exact absurd ‹_› (hopen _)
  · rfl

/-- One step of the reader in front of any other item. -/
theorem readMoreItems_open {acc : List Json} (hnext : c.next? false = some d)
    (hopen : ∀ rest, d.rest ≠ ']' :: rest) (hne : d.rest ≠ []) :
    readMoreItems q (n + 1) depth acc c
      = match readValue q n depth d with
        | .error f => .error f
        | .ok (j, e) => readMoreItems q n depth (j :: acc) e := by
  obtain ⟨⟨rest, hcomma⟩, rfl⟩ := Cursor.of_next?_comma hnext
  obtain ⟨ch, rest', hrest⟩ := List.exists_cons_of_ne_nil hne
  rw [readMoreItems]
  simp only [hcomma, hrest]
  split
  · contradiction
  · exact absurd (hrest.trans ‹_›) (hopen _)
  · rfl

/-- One step of the reader in front of the first member. -/
theorem readFirstMember_open (hrest : c.settle.rest = '"' :: rest) :
    readFirstMember q (n + 1) depth c = readMember q n depth [] c.settle.advance := by
  rw [readFirstMember]
  simp only [hrest]

/-- One step of the reader in front of any other member. -/
theorem readMoreMembers_open {acc : List (String × Json)} (hnext : c.next? false = some d)
    (hrest : d.rest = '"' :: rest) :
    readMoreMembers q (n + 1) depth acc c = readMember q n depth acc d.advance := by
  obtain ⟨⟨rest, hcomma⟩, rfl⟩ := Cursor.of_next?_comma hnext
  rw [readMoreMembers]
  simp only [hcomma, hrest]

end openings

mutual

/-- A value is read with enough fuel, by every policy that refuses no more. -/
theorem ValueAt.reads (hpq : p.Within q) {depth : Nat} {c e : Cursor} {j : Json} :
    ValueAt p depth c j e → ∀ n, 3 * c.rest.length + 1 ≤ n →
      ∃ j', readValue q n depth c = .ok (j', e) ∧ Policy.Same p q j j'
  | .atom hrest hch h, n + 1, _ =>
    ⟨j, (readValue_atom hrest hch).trans
      ((readValue_atom_carried hpq.numbers hrest hch h).2.2 depth), .rfl⟩
  | .str hrest h, n + 1, hn => by
    have := c.length_settle
    have := Cursor.length_advance hrest
    obtain ⟨text, htext, hsame⟩ := (readString_carried hpq.surrogates h).2 n (by omega)
    refine ⟨.str text, ?_, hsame.map Json.str⟩
    rw [readValue_quote hrest, htext]
  -- a bracket costs one step, and the bound leaves three for each character behind it
  | .arr hrest ha h, n + 1, hn => by
    have := c.length_settle
    have := Cursor.length_advance hrest
    obtain ⟨items, hitems, hsame⟩ := (h.reads hpq).1 rfl n (by omega)
    refine ⟨.arr items, ?_, hsame.map Json.arr⟩
    rw [readValue_bracket hrest, if_pos (hpq.depth _ ha), hitems]
  | .obj hrest ha h, n + 1, hn => by
    have := c.length_settle
    have := Cursor.length_advance hrest
    obtain ⟨members, hmembers, hsame⟩ := (h.reads hpq).1 rfl n (by omega)
    refine ⟨.obj members, ?_, hsame.map Json.obj⟩
    rw [readValue_brace hrest, if_pos (hpq.depth _ ha), hmembers]

/-- Items are read with enough fuel, whatever has been read before. -/
theorem ItemsAt.reads (hpq : p.Within q) {depth : Nat} {first : Bool} {c e : Cursor}
    {items : List Json} :
    ItemsAt p depth first c items e →
      (first = true → ∀ n, 3 * c.rest.length + 2 ≤ n → ∃ items',
        readFirstItem q n depth c = .ok (.arr items', e) ∧ Policy.Same p q items items') ∧
      (first = false → ∀ n acc, 3 * c.rest.length + 1 ≤ n → ∃ items',
        readMoreItems q n depth acc c = .ok (.arr (acc.reverse ++ items'), e) ∧
          Policy.Same p q items items')
  | .close hrest => by
    refine ⟨fun _ n hn => ⟨[], ?_, .rfl⟩, fun _ n acc hn => ⟨[], ?_, .rfl⟩⟩
    · obtain ⟨n, rfl⟩ := Nat.exists_eq_succ_of_ne_zero (Nat.ne_zero_of_lt hn)
      rw [readFirstItem]
      simp only [hrest]
    · obtain ⟨n, rfl⟩ := Nat.exists_eq_succ_of_ne_zero (Nat.ne_zero_of_lt hn)
      rw [readMoreItems, List.append_nil]
      simp only [hrest]
  | @ItemsAt.item _ _ _ c d e _ j items hnext hopen h hitems => by
    -- the item takes at least one character, which pays for the three steps around it
    have hd := Cursor.length_next? hnext
    have he := h.length_lt
    have hne : d.rest ≠ [] := fun hr => by simp [hr] at he
    refine ⟨?_, ?_⟩
    · rintro rfl n hn
      obtain ⟨n, rfl⟩ := Nat.exists_eq_succ_of_ne_zero (Nat.ne_zero_of_lt hn)
      obtain ⟨j', hj, hsame⟩ := h.reads hpq n (by omega)
      obtain ⟨items', hitems', hsame'⟩ := (hitems.reads hpq).2 rfl n [j'] (by omega)
      refine ⟨j' :: items', ?_, hsame.map₂ List.cons hsame'⟩
      cases hnext
      rw [readFirstItem_open hopen hne, hj]
      exact hitems'
    · rintro rfl n acc hn
      have hd' := Cursor.length_next?_comma hnext
      obtain ⟨n, rfl⟩ := Nat.exists_eq_succ_of_ne_zero (Nat.ne_zero_of_lt hn)
      obtain ⟨j', hj, hsame⟩ := h.reads hpq n (by omega)
      obtain ⟨items', hitems', hsame'⟩ := (hitems.reads hpq).2 rfl n (j' :: acc) (by omega)
      refine ⟨j' :: items', ?_, hsame.map₂ List.cons hsame'⟩
      rw [readMoreItems_open hnext hopen hne, hj]
      rw [List.reverse_cons, List.append_assoc] at hitems'
      exact hitems'

/-- Members are read with enough fuel, whatever has been read before. -/
theorem MembersAt.reads (hpq : p.Within q) {depth : Nat} {first : Bool} {c e : Cursor}
    {members : List (String × Json)} :
    MembersAt p depth first c members e →
      (first = true → ∀ n, 3 * c.rest.length + 1 ≤ n → ∃ members',
        readFirstMember q n depth c = .ok (.obj members', e) ∧
          Policy.Same p q members members') ∧
      (first = false → ∀ n acc, 3 * c.rest.length + 1 ≤ n → ∃ members',
        readMoreMembers q n depth acc c = .ok (.obj (acc.reverse ++ members'), e) ∧
          Policy.Same p q members members')
  | .close hrest => by
    refine ⟨fun _ n hn => ⟨[], ?_, .rfl⟩, fun _ n acc hn => ⟨[], ?_, .rfl⟩⟩
    · obtain ⟨n, rfl⟩ := Nat.exists_eq_succ_of_ne_zero (Nat.ne_zero_of_lt hn)
      rw [readFirstMember]
      simp only [hrest]
    · obtain ⟨n, rfl⟩ := Nat.exists_eq_succ_of_ne_zero (Nat.ne_zero_of_lt hn)
      rw [readMoreMembers, List.append_nil]
      simp only [hrest]
  | @MembersAt.member _ _ _ c d e f g k name j members rest hnext hrest hname hcolon h
      hmembers => by
    have hd := Cursor.length_next? hnext
    have hadvance := Cursor.length_advance hrest
    have hf := length_readColon hcolon
    have hg := h.length_lt
    obtain ⟨he, hname⟩ := readString_carried hpq.surrogates hname
    -- both forms go on with a member behind its opening quote
    have member (n : Nat) (acc : List (String × Json)) (hn : 3 * d.advance.rest.length + 2 ≤ n) :
        ∃ members', readMember q n depth acc d.advance = .ok (.obj (acc.reverse ++ members'), k) ∧
          Policy.Same p q ((name, j) :: members) members' := by
      obtain ⟨n, rfl⟩ := Nat.exists_eq_succ_of_ne_zero (Nat.ne_zero_of_lt hn)
      obtain ⟨name', hname', hsame⟩ := hname n (by omega)
      obtain ⟨j', hj, hsame'⟩ := h.reads hpq n (by omega)
      obtain ⟨members', hmembers', hsame''⟩ :=
        (hmembers.reads hpq).2 rfl n ((name', j') :: acc) (by omega)
      refine ⟨(name', j') :: members', ?_, (hsame.map₂ Prod.mk hsame').map₂ List.cons hsame''⟩
      rw [List.reverse_cons, List.append_assoc] at hmembers'
      rw [readMember, hname']
      simp only [hcolon, hj]
      exact hmembers'
    refine ⟨?_, ?_⟩
    · rintro rfl n hn
      obtain ⟨n, rfl⟩ := Nat.exists_eq_succ_of_ne_zero (Nat.ne_zero_of_lt hn)
      cases hnext
      rw [readFirstMember_open hrest]
      exact member n [] (by omega)
    · rintro rfl n acc hn
      obtain ⟨n, rfl⟩ := Nat.exists_eq_succ_of_ne_zero (Nat.ne_zero_of_lt hn)
      rw [readMoreMembers_open hnext hrest]
      exact member n acc (by omega)

end

/-! ### How deep it is -/

mutual

/-- The containers around the innermost parts of a value are allowed. -/
theorem ValueAt.allows {depth k : Nat} {c e : Cursor} {j : Json} :
    ValueAt p depth c j e → depth ≤ k → k < depth + j.nesting → p.allows k = true
  | .atom hrest hch h, hk, hk' => by
    rw [(readValue_atom_carried id hrest hch h).2.1.nesting_eq] at hk'
    exact absurd hk' (Nat.not_lt.2 hk)
  | .str .., hk, hk' => absurd hk' (Nat.not_lt.2 hk)
  | .arr _ ha h, hk, hk' => by
    rcases Nat.eq_or_lt_of_le hk with rfl | hk
    · exact ha
    · exact h.allows hk (by rw [nesting] at hk'; omega)
  | .obj _ ha h, hk, hk' => by
    rcases Nat.eq_or_lt_of_le hk with rfl | hk
    · exact ha
    · exact h.allows hk (by rw [nesting] at hk'; omega)

/-- An item nests no deeper than the deepest one. -/
theorem ItemsAt.allows {depth k : Nat} {first : Bool} {c e : Cursor} {items : List Json} :
    ItemsAt p depth first c items e → depth ≤ k → k < depth + nestingItems items →
      p.allows k = true
  | .close .., hk, hk' => absurd hk' (Nat.not_lt.2 hk)
  | .item _ _ h hitems, hk, hk' => by
    rw [nestingItems] at hk'
    rcases Nat.lt_or_ge k (depth + nesting _) with hlt | hge
    · exact h.allows hk hlt
    · exact hitems.allows hk (by omega)

/-- So does the value of a member. -/
theorem MembersAt.allows {depth k : Nat} {first : Bool} {c e : Cursor}
    {members : List (String × Json)} :
    MembersAt p depth first c members e → depth ≤ k → k < depth + nestingMembers members →
      p.allows k = true
  | .close .., hk, hk' => absurd hk' (Nat.not_lt.2 hk)
  | .member _ _ _ _ h hmembers, hk, hk' => by
    rw [nestingMembers] at hk'
    rcases Nat.lt_or_ge k (depth + nesting _) with hlt | hge
    · exact h.allows hk hlt
    · exact hmembers.allows hk (by omega)

end

mutual

/-- A value stands there under every policy that differs in depth alone and allows its
containers. -/
theorem ValueAt.of_allows (hpq : p.SameParts q) {depth : Nat} {c e : Cursor} {j : Json} :
    ValueAt p depth c j e → (∀ k, depth ≤ k → k < depth + j.nesting → q.allows k = true) →
      ValueAt q depth c j e
  | .atom hrest hch h, _ =>
    .atom hrest hch ((readValue_atom_carried hpq.numbers.ge hrest hch h).2.2 depth)
  | .str hrest h, _ => by
    obtain ⟨text, htext, hsame⟩ := (readString_carried hpq.surrogates.ge h).2 _ (Nat.le_refl _)
    cases hsame hpq.surrogates
    exact .str hrest htext
  | .arr hrest _ h, hk =>
    .arr hrest (hk _ (Nat.le_refl _) (by rw [nesting]; omega))
      (h.of_allows hpq fun k hle hlt => hk k (by omega) (by rw [nesting]; omega))
  | .obj hrest _ h, hk =>
    .obj hrest (hk _ (Nat.le_refl _) (by rw [nesting]; omega))
      (h.of_allows hpq fun k hle hlt => hk k (by omega) (by rw [nesting]; omega))

theorem ItemsAt.of_allows (hpq : p.SameParts q) {depth : Nat} {first : Bool} {c e : Cursor}
    {items : List Json} :
    ItemsAt p depth first c items e →
      (∀ k, depth ≤ k → k < depth + nestingItems items → q.allows k = true) →
      ItemsAt q depth first c items e
  | .close hrest, _ => .close hrest
  | .item hnext hopen h hitems, hk =>
    .item hnext hopen
      (h.of_allows hpq fun k hle hlt => hk k hle (by rw [nestingItems]; omega))
      (hitems.of_allows hpq fun k hle hlt => hk k hle (by rw [nestingItems]; omega))

theorem MembersAt.of_allows (hpq : p.SameParts q) {depth : Nat} {first : Bool} {c e : Cursor}
    {members : List (String × Json)} :
    MembersAt p depth first c members e →
      (∀ k, depth ≤ k → k < depth + nestingMembers members → q.allows k = true) →
      MembersAt q depth first c members e
  | .close hrest, _ => .close hrest
  | .member hnext hrest hname hcolon h hmembers, hk => by
    obtain ⟨name, hname', hsame⟩ := (readString_carried hpq.surrogates.ge hname).2 _ (Nat.le_refl _)
    cases hsame hpq.surrogates
    exact .member hnext hrest hname' hcolon
      (h.of_allows hpq fun k hle hlt => hk k hle (by rw [nestingMembers]; omega))
      (hmembers.of_allows hpq fun k hle hlt => hk k hle (by rw [nestingMembers]; omega))

end

/-! ### Beginnings -/

/-- Items and members begin behind the white space in front of them. -/
theorem Cursor.settle_of_next? {first : Bool} {c d : Cursor} (h : c.next? first = some d) :
    d.settle = d := by
  cases first with
  | true =>
    cases h
    exact c.settle_settle
  | false =>
    rw [(of_next?_comma h).2]
    exact settle_settle _

/-- White space in front does not matter. -/
theorem ValueAt.settle {depth : Nat} {c e : Cursor} {j : Json} (h : ValueAt p depth c j e) :
    ValueAt p depth c.settle j e := by
  cases h with
  | atom hrest hch h =>
    rw [← c.settle_settle] at hrest
    refine .atom hrest hch ?_
    rw [readValue, Cursor.settle_settle]
    rwa [readValue] at h
  | str hrest h =>
    rw [← c.settle_settle] at hrest h
    exact .str hrest h
  | arr hrest ha h =>
    rw [← c.settle_settle] at hrest h
    exact .arr hrest ha h
  | obj hrest ha h =>
    rw [← c.settle_settle] at hrest h
    exact .obj hrest ha h

end grammar

/-! ### Whole texts -/

section texts

variable {p q : Policy} {text : String} {j : Json}

/-- A text is a document if a value stands at its beginning and nothing behind it. -/
theorem parse_eq_ok_iff : parse p text = .ok j ↔
    ∃ e, ValueAt p 0 ⟨text.toList, 1, 0⟩ j e ∧ expectEnd e = .ok () := by
  constructor
  · intro h
    unfold parse at h
    dsimp only at h
    split at h
    · cases h
    · rename_i e hread
      split at h
      · cases h
      · rename_i hend
        cases h
        exact ⟨e, valueAt_of_readValue _ hread, hend⟩
  · rintro ⟨e, h, hend⟩
    obtain ⟨j', hread, hsame⟩ := h.reads (.refl p) (3 * text.toList.length + 3)
      (Nat.le_add_right _ 2)
    cases hsame rfl
    unfold parse read
    simp only [hread, hend]

/-- What is a document under one policy is one under every policy that refuses no more. -/
theorem parse_within (hpq : p.Within q) (h : parse p text = .ok j) :
    ∃ j', parse q text = .ok j' ∧ Policy.Same p q j j' := by
  obtain ⟨e, hvalue, hend⟩ := parse_eq_ok_iff.1 h
  obtain ⟨j', hread, hsame⟩ := hvalue.reads hpq (3 * text.toList.length + 3)
      (Nat.le_add_right _ 2)
  refine ⟨j', ?_, hsame⟩
  unfold parse read
  simp only [hread, hend]

/-- Whatever is a document of any depth is one where its content does not matter. -/
theorem parse_lenient (h : parse .deep text = .ok j) : ∃ j', parse .lenient text = .ok j' :=
  (parse_within Policy.deep_within_lenient h).imp fun _ h => h.1

/-- The documents whose content is used are those of any depth that nest no more than 127
containers. -/
theorem parse_strict_iff :
    parse .strict text = .ok j ↔ parse .deep text = .ok j ∧ j.nesting ≤ 127 := by
  constructor
  · intro h
    obtain ⟨e, hvalue, -⟩ := parse_eq_ok_iff.1 h
    obtain ⟨j', hdeep, hsame⟩ := parse_within Policy.strict_within_deep h
    cases hsame rfl
    refine ⟨hdeep, Nat.not_lt.1 fun hlt => ?_⟩
    -- the innermost of 128 containers is one too many
    exact absurd (hvalue.allows (k := 127) (Nat.zero_le _) (by omega)) (by decide)
  · rintro ⟨h, hnesting⟩
    obtain ⟨e, hvalue, hend⟩ := parse_eq_ok_iff.1 h
    refine parse_eq_ok_iff.2
      ⟨e, hvalue.of_allows Policy.deep_sameParts_strict fun k _ hk => ?_, hend⟩
    exact decide_eq_true (by omega : k < 127)

end texts

end Json

end Estree
