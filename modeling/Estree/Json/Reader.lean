/-
Estree/Json/Reader.lean

Reading a JSON document.  The first fault ends the reading and is reported with its reason,
its line and its column; a column counts the bytes of the line up to and including the
character that was looked at.

Four things depend on the occasion and are set by a `Policy`: how deeply arrays and objects
may be nested, whether a number may exceed the doubles, whether a string may name half of a
surrogate pair, and what is wrong with a number that stops where a digit must follow.
`Policy.strict` is for documents whose content is used, `Policy.lenient` for parts that are
passed over, `Policy.deep` for documents of any depth.

A fraction or an exponent is read by the 64-bit integer of its leading digits, scaled by a
power of ten in floating point: exact for the numbers of everyday use, and otherwise within
a few units of the last place.
-/
import Estree.Json.Basic

namespace Estree

namespace Json

/-! ### Faults -/

/-- Why a text is not a document. -/
inductive Reason where
  | endOfValue | endOfString | endOfList | endOfObject
  | expectedColon | expectedListEnd | expectedObjectEnd
  | expectedWord | expectedValue
  | invalidEscape | invalidNumber | numberOutOfRange
  | controlCharacter | keyNotString | loneSurrogate | unfinishedPair
  | trailingComma | trailingText | tooDeep
deriving DecidableEq

/-- The wording of a reason. -/
def Reason.text : Reason → String
  | endOfValue => "EOF while parsing a value"
  | endOfString => "EOF while parsing a string"
  | endOfList => "EOF while parsing a list"
  | endOfObject => "EOF while parsing an object"
  | expectedColon => "expected `:`"
  | expectedListEnd => "expected `,` or `]`"
  | expectedObjectEnd => "expected `,` or `\x7d`"
  | expectedWord => "expected ident"
  | expectedValue => "expected value"
  | invalidEscape => "invalid escape"
  | invalidNumber => "invalid number"
  | numberOutOfRange => "number out of range"
  | controlCharacter => "control character (\\u0000-\\u001F) found while parsing a string"
  | keyNotString => "key must be a string"
  | loneSurrogate => "lone leading surrogate in hex escape"
  | unfinishedPair => "unexpected end of hex escape"
  | trailingComma => "trailing comma"
  | trailingText => "trailing characters"
  | tooDeep => "recursion limit exceeded"

/-- Whether the text ended too early. -/
def Reason.isEnd : Reason → Bool
  | endOfValue | endOfString | endOfList | endOfObject => true
  | _ => false

/-- A fault and where it was noticed. -/
structure Fault where
  reason : Reason
  line : Nat
  column : Nat
deriving DecidableEq

/-- The wording of a fault. -/
def Fault.text (f : Fault) : String :=
  f.reason.text ++ " at line " ++ toString f.line ++ " column " ++ toString f.column

/-! ### Cursor -/

/-- What is left of a text, and the position reached: the line, and the bytes of it that have
been passed. -/
structure Cursor where
  rest : List Char
  line : Nat := 1
  column : Nat := 0

namespace Cursor

/-- The cursor after a character. -/
def after (c : Cursor) (ch : Char) (rest : List Char) : Cursor :=
  if ch = '\n' then ⟨rest, c.line + 1, 0⟩ else ⟨rest, c.line, c.column + ch.utf8Size⟩

/-- Pass one character, if there is one. -/
def advance (c : Cursor) : Cursor :=
  match c.rest with
  | [] => c
  | ch :: rest => c.after ch rest

/-- A fault at the position reached. -/
def faultHere (c : Cursor) (reason : Reason) : Fault :=
  ⟨reason, c.line, c.column⟩

/-- A fault at the next character: its first byte counts as passed. -/
def faultNext (c : Cursor) (reason : Reason) : Fault :=
  match c.rest with
  | [] => ⟨reason, c.line, c.column⟩
  | ch :: _ => if ch = '\n' then ⟨reason, c.line + 1, 0⟩ else ⟨reason, c.line, c.column + 1⟩

/-- The cursor after a number of bytes; a character that is not passed whole counts with the
bytes that are. -/
def skipBytes (line column : Nat) : Nat → List Char → Cursor
  | 0, rest => ⟨rest, line, column⟩
  | _, [] => ⟨[], line, column⟩
  | n, ch :: rest =>
    if ch.utf8Size ≤ n then
      if ch = '\n' then skipBytes (line + 1) 0 (n - 1) rest
      else skipBytes line (column + ch.utf8Size) (n - ch.utf8Size) rest
    else ⟨rest, line, column + n⟩

/-- The white space of a document. -/
def isGap (c : Char) : Bool :=
  c = ' ' || c = '\n' || c = '\t' || c = '\r'

/-- Pass white space. -/
def skipGaps (line column : Nat) : List Char → Cursor
  | [] => ⟨[], line, column⟩
  | c :: rest =>
    if c = '\n' then skipGaps (line + 1) 0 rest
    else if isGap c then skipGaps line (column + 1) rest
    else ⟨c :: rest, line, column⟩

/-- The cursor at the next character that is not white space. -/
def settle (c : Cursor) : Cursor :=
  skipGaps c.line c.column c.rest

end Cursor

/-- What reading a part gives: the part and the cursor after it, or a fault. -/
abbrev Reading (α : Type) := Except Fault (α × Cursor)

/-! ### Policies -/

/-- What is allowed on an occasion. -/
structure Policy where
  /-- The greatest number of arrays and objects around a value, if there is one. -/
  depth : Option Nat
  /-- Whether numbers beyond the doubles are faults. -/
  boundedNumbers : Bool
  /-- Whether half of a surrogate pair is a fault. -/
  pairedSurrogates : Bool
  /-- The fault of a text that ends where a number needs a digit. -/
  cutNumber : Reason

/-- For documents whose content is used. -/
def Policy.strict : Policy := ⟨some 127, true, true, .endOfValue⟩

/-- For parts that are passed over: only the form matters, and a number cut short is a number
of the wrong form. -/
def Policy.lenient : Policy := ⟨none, false, false, .invalidNumber⟩

/-- For documents of any depth whose content is used. -/
def Policy.deep : Policy := ⟨none, true, true, .endOfValue⟩

/-- Whether a container is allowed inside `depth` others. -/
def Policy.allows (p : Policy) (depth : Nat) : Bool :=
  match p.depth with
  | some limit => depth < limit
  | none => true

/-! ### Words -/

/-- The rest of a word whose first letter has been passed. -/
def readWord (value : Json) : List Char → Cursor → Reading Json
  | [], c => .ok (value, c)
  | expected :: word, c =>
    match c.rest with
    | [] => .error (c.faultHere .endOfValue)
    | ch :: rest =>
      if ch = expected then readWord value word (c.after ch rest)
      else .error (c.faultNext .expectedWord)

/-! ### Numbers -/

/-- The power of ten nearest to `10 ^ e`, for e up to 308. -/
def powerOfTen (e : Nat) : Float :=
  Float.ofScientific 1 false e

/-- `significand · 10 ^ exponent` in floating point: one multiplication or division by a power
of ten, after as many divisions by 10^308 as a very small exponent needs.  `none` if the
result is infinite. -/
def scale (f : Float) : Nat → Int → Option Float
  | 0, _ => some 0
  | fuel + 1, e =>
    if e.natAbs ≤ 308 then
      if 0 ≤ e then
        let r := f * powerOfTen e.natAbs
        if r.isInf then none else some r
      else some (f / powerOfTen e.natAbs)
    else if f == 0 then some f
    else if 0 ≤ e then none
    else scale (f / powerOfTen 308) fuel (e + 308)

/-- The largest integer kept exactly while reading digits. -/
def maxSignificand : Nat := Nat.pow 2 64 - 1

/-- A digit's value. -/
def digit (c : Char) : Nat :=
  c.toNat - '0'.toNat

/-- The number with a given significand and exponent. -/
def numberOfParts (policy : Policy) (negative : Bool) (significand : Nat) (exponent : Int)
    (c : Cursor) : Reading Json :=
  -- below 10^-700 nothing is left of any significand
  match scale (Float.ofNat significand) 8 (max exponent (-2000)) with
  | some x => .ok (.num (.float (if negative then -x else x)), c)
  | none =>
    if policy.boundedNumbers then .error (c.faultHere .numberOutOfRange)
    else .ok (.num (.float (1.0 / 0.0)), c)

/-- Pass digits. -/
def skipDigits (line column : Nat) : List Char → Cursor
  | [] => ⟨[], line, column⟩
  | c :: rest =>
    if c.isDigit then skipDigits line (column + 1) rest else ⟨c :: rest, line, column⟩

/-- The digits of an exponent.  One that does not fit into 32 bits makes the number infinite
or zero at once. -/
def exponentDigits (policy : Policy) (negative : Bool) (significand : Nat) (base : Int)
    (down : Bool) (line column : Nat) (e : Nat) : List Char → Reading Json
  | [] =>
    numberOfParts policy negative significand (if down then base - e else base + e)
      ⟨[], line, column⟩
  | c :: rest =>
    if c.isDigit then
      let e' := 10 * e + digit c
      if e' < Nat.pow 2 31 then
        exponentDigits policy negative significand base down line (column + 1) e' rest
      else if significand ≠ 0 ∧ !down ∧ policy.boundedNumbers then
        .error ⟨.numberOutOfRange, line, column + 1⟩
      else
        let zero : Float := if negative then -0.0 else 0.0
        .ok (.num (.float zero), skipDigits line (column + 1) rest)
    else
      numberOfParts policy negative significand (if down then base - e else base + e)
        ⟨c :: rest, line, column⟩

/-- The exponent of a number, from its mark on. -/
def readExponent (policy : Policy) (negative : Bool) (significand : Nat) (base : Int)
    (c : Cursor) : Reading Json :=
  let c := c.advance
  let (down, c) :=
    match c.rest with
    | '+' :: _ => (false, c.advance)
    | '-' :: _ => (true, c.advance)
    | _ => (false, c)
  match c.rest with
  | [] => .error (c.faultHere policy.cutNumber)
  | d :: rest =>
    if d.isDigit then
      exponentDigits policy negative significand base down c.line (c.column + 1) (digit d) rest
    else .error (c.faultNext .invalidNumber)

/-- Go on after the digits of a number. -/
def finishNumber (policy : Policy) (negative : Bool) (significand : Nat) (base : Int)
    (c : Cursor) : Reading Json :=
  match c.rest with
  | 'e' :: _ | 'E' :: _ => readExponent policy negative significand base c
  | _ => numberOfParts policy negative significand base c

/-- The digits after the point.  Digits that no longer fit are passed over. -/
def fractionDigits (policy : Policy) (negative : Bool) (start : Int) (line column : Nat)
    (significand : Nat) (places : Nat) : List Char → Reading Json
  | [] =>
    if places = 0 then .error ⟨policy.cutNumber, line, column⟩
    else numberOfParts policy negative significand (start - places) ⟨[], line, column⟩
  | c :: rest =>
    if c.isDigit then
      let grown := 10 * significand + digit c
      if grown ≤ maxSignificand then
        fractionDigits policy negative start line (column + 1) grown (places + 1) rest
      else
        finishNumber policy negative significand (start - places)
          (skipDigits line column (c :: rest))
    else
      let here : Cursor := ⟨c :: rest, line, column⟩
      if places = 0 then .error (here.faultNext .invalidNumber)
      else finishNumber policy negative significand (start - places) here

/-- The digits of an integer that no longer fits: they only raise the exponent. -/
def longDigits (policy : Policy) (negative : Bool) (significand : Nat) (line column : Nat)
    (dropped : Nat) : List Char → Reading Json
  | [] => numberOfParts policy negative significand dropped ⟨[], line, column⟩
  | c :: rest =>
    if c.isDigit then longDigits policy negative significand line (column + 1) (dropped + 1) rest
    else if c = '.' then
      fractionDigits policy negative dropped line (column + 1) significand 0 rest
    else finishNumber policy negative significand dropped ⟨c :: rest, line, column⟩

/-- A number without fraction and exponent: an integer if it fits into 64 bits.  Negative zero
is a double. -/
def integer (negative : Bool) (significand : Nat) : Json :=
  if negative then
    if significand = 0 ∨ Nat.pow 2 63 < significand then
      .num (.float (-(Float.ofNat significand)))
    else .num (.int (-(significand : Int)))
  else .num (.int significand)

/-- The digits before the point. -/
def wholeDigits (policy : Policy) (negative : Bool) (line column : Nat) (significand : Nat) :
    List Char → Reading Json
  | [] => .ok (integer negative significand, ⟨[], line, column⟩)
  | c :: rest =>
    if c.isDigit then
      let grown := 10 * significand + digit c
      if grown ≤ maxSignificand then
        wholeDigits policy negative line (column + 1) grown rest
      else longDigits policy negative significand line column 0 (c :: rest)
    else if c = '.' then
      fractionDigits policy negative 0 line (column + 1) significand 0 rest
    else if c = 'e' ∨ c = 'E' then
      readExponent policy negative significand 0 ⟨c :: rest, line, column⟩
    else .ok (integer negative significand, ⟨c :: rest, line, column⟩)

/-- A number after its sign. -/
def readNumber (policy : Policy) (negative : Bool) (c : Cursor) : Reading Json :=
  match c.rest with
  | [] => .error (c.faultHere policy.cutNumber)
  | d :: rest =>
    if d = '0' then
      let c := c.after d rest
      match rest with
      | e :: _ =>
        if e.isDigit then .error (c.faultNext .invalidNumber)
        else wholeDigits policy negative c.line c.column 0 rest
      | [] => wholeDigits policy negative c.line c.column 0 rest
    else if d.isDigit then
      wholeDigits policy negative c.line (c.column + 1) (digit d) rest
    else .error (c.faultNext .invalidNumber)

/-! ### Strings -/

/-- The value of a hexadecimal digit. -/
def hexValue? (c : Char) : Option Nat :=
  if c.isDigit then some (digit c)
  else if 'a' ≤ c ∧ c ≤ 'f' then some (c.toNat - 'a'.toNat + 10)
  else if 'A' ≤ c ∧ c ≤ 'F' then some (c.toNat - 'A'.toNat + 10)
  else none

/-- The number of bytes of a list of characters. -/
def byteCount (cs : List Char) : Nat :=
  cs.foldl (fun n c => n + c.utf8Size) 0

/-- Four hexadecimal digits. -/
def readHex (c : Cursor) : Reading Nat :=
  match c.rest with
  | a :: b :: d :: e :: rest =>
    match hexValue? a, hexValue? b, hexValue? d, hexValue? e with
    | some w, some x, some y, some z =>
      .ok (((w * 16 + x) * 16 + y) * 16 + z, ⟨rest, c.line, c.column + 4⟩)
    | _, _, _, _ => .error ((Cursor.skipBytes c.line c.column 4 c.rest).faultHere .invalidEscape)
  | cs =>
    let stop := Cursor.skipBytes c.line c.column 4 cs
    if 4 ≤ byteCount cs then .error (stop.faultHere .invalidEscape)
    else .error (stop.faultHere .endOfString)

/-- The character of a single unit; half of a pair reads as the replacement character. -/
def charOfHalf (unit : Nat) : Char :=
  if 0xD800 ≤ unit ∧ unit ≤ 0xDFFF then Char.ofNat 0xFFFD else Char.ofNat unit

/-- What follows `\u`: one unit, or two that form a pair. -/
def readUnicode (policy : Policy) (c : Cursor) : Reading Char :=
  match readHex c with
  | .error f => .error f
  | .ok (n, c) =>
    if policy.pairedSurrogates then
      if 0xDC00 ≤ n ∧ n ≤ 0xDFFF then .error (c.faultHere .loneSurrogate)
      else if n < 0xD800 ∨ 0xDBFF < n then .ok (Char.ofNat n, c)
      else
        -- the first half of a pair: the second must follow at once
        match c.rest with
        | [] => .error (c.faultHere .endOfString)
        | '\\' :: _ =>
          let c := c.advance
          match c.rest with
          | [] => .error (c.faultHere .endOfString)
          | 'u' :: _ =>
            match readHex c.advance with
            | .error f => .error f
            | .ok (n2, c) =>
              if 0xDC00 ≤ n2 ∧ n2 ≤ 0xDFFF then
                .ok (Char.ofNat (0x10000 + (n - 0xD800) * 0x400 + (n2 - 0xDC00)), c)
              else .error (c.faultHere .loneSurrogate)
          | _ :: _ => .error (c.faultNext .unfinishedPair)
        | _ :: _ => .error (c.faultNext .unfinishedPair)
    else .ok (charOfHalf n, c)

/-- An escape after its backslash. -/
def readEscape (policy : Policy) (c : Cursor) : Reading Char :=
  match c.rest with
  | [] => .error (c.faultHere .endOfString)
  | ch :: rest =>
    let next := c.after ch rest
    match ch with
    | '"' => .ok ('"', next)
    | '\\' => .ok ('\\', next)
    | '/' => .ok ('/', next)
    | 'b' => .ok (Char.ofNat 8, next)
    | 'f' => .ok (Char.ofNat 12, next)
    | 'n' => .ok ('\n', next)
    | 'r' => .ok ('\r', next)
    | 't' => .ok ('\t', next)
    | 'u' => readUnicode policy next
    | _ => .error (c.faultNext .invalidEscape)

/-- The characters of a string up to its closing quote; `acc` holds those already read,
backwards.  Every step passes a character, so the length of the text bounds the steps. -/
def readChars (policy : Policy) : Nat → List Char → Cursor → Reading String
  | 0, _, c => .error (c.faultHere .endOfString)
  | fuel + 1, acc, c =>
    match c.rest with
    | [] => .error (c.faultHere .endOfString)
    | ch :: rest =>
      if ch = '"' then .ok (String.ofList acc.reverse, c.after ch rest)
      else if ch = '\\' then
        match readEscape policy (c.after ch rest) with
        | .error f => .error f
        | .ok (d, c) => readChars policy fuel (d :: acc) c
      else if ch.toNat < 0x20 then .error (c.faultNext .controlCharacter)
      else readChars policy fuel (ch :: acc) (c.after ch rest)

/-- A string after its opening quote, where at most `limit` characters are left. -/
def readString (policy : Policy) (limit : Nat) (c : Cursor) : Reading String :=
  readChars policy (limit + 1) [] c

/-! ### Values -/

/-- The colon between a name and its value. -/
def readColon (c : Cursor) : Except Fault Cursor :=
  let c := c.settle
  match c.rest with
  | [] => .error (c.faultNext .endOfObject)
  | ':' :: _ => .ok c.advance
  | _ => .error (c.faultNext .expectedColon)

mutual

/-- A value inside `depth` containers. -/
def readValue (policy : Policy) : Nat → Nat → Cursor → Reading Json
  | 0, _, c => .error (c.faultNext .endOfValue)
  | fuel + 1, depth, c =>
    let c := c.settle
    match c.rest with
    | [] => .error (c.faultNext .endOfValue)
    | ch :: rest =>
      let next := c.after ch rest
      match ch with
      | 'n' => readWord .null ['u', 'l', 'l'] next
      | 't' => readWord (.bool true) ['r', 'u', 'e'] next
      | 'f' => readWord (.bool false) ['a', 'l', 's', 'e'] next
      | '-' => readNumber policy true next
      | '"' =>
        match readString policy fuel next with
        | .error f => .error f
        | .ok (s, c) => .ok (.str s, c)
      | '[' =>
        if policy.allows depth then readFirstItem policy fuel (depth + 1) next
        else .error (c.faultNext .tooDeep)
      | '\x7b' =>
        if policy.allows depth then readFirstMember policy fuel (depth + 1) next
        else .error (c.faultNext .tooDeep)
      | _ =>
        if ch.isDigit then readNumber policy false c
        else .error (c.faultNext .expectedValue)

/-- The items of an array after its opening bracket. -/
def readFirstItem (policy : Policy) : Nat → Nat → Cursor → Reading Json
  | 0, _, c => .error (c.faultNext .endOfList)
  | fuel + 1, depth, c =>
    let c := c.settle
    match c.rest with
    | [] => .error (c.faultNext .endOfList)
    | ']' :: _ => .ok (.arr [], c.advance)
    | _ =>
      match readValue policy fuel depth c with
      | .error f => .error f
      | .ok (j, c) => readMoreItems policy fuel depth [j] c

/-- Further items of an array; `acc` holds those already read, backwards. -/
def readMoreItems (policy : Policy) : Nat → Nat → List Json → Cursor → Reading Json
  | 0, _, _, c => .error (c.faultNext .endOfList)
  | fuel + 1, depth, acc, c =>
    let c := c.settle
    match c.rest with
    | [] => .error (c.faultNext .endOfList)
    | ']' :: _ => .ok (.arr acc.reverse, c.advance)
    | ',' :: _ =>
      let c := c.advance.settle
      match c.rest with
      | [] => .error (c.faultNext .endOfValue)
      | ']' :: _ => .error (c.faultNext .trailingComma)
      | _ =>
        match readValue policy fuel depth c with
        | .error f => .error f
        | .ok (j, c) => readMoreItems policy fuel depth (j :: acc) c
    | _ => .error (c.faultNext .expectedListEnd)

/-- The members of an object after its opening brace. -/
def readFirstMember (policy : Policy) : Nat → Nat → Cursor → Reading Json
  | 0, _, c => .error (c.faultNext .endOfObject)
  | fuel + 1, depth, c =>
    let c := c.settle
    match c.rest with
    | [] => .error (c.faultNext .endOfObject)
    | '\x7d' :: _ => .ok (.obj [], c.advance)
    | '"' :: _ => readMember policy fuel depth [] c.advance
    | _ => .error (c.faultNext .keyNotString)

/-- One member after the opening quote of its name, and those that follow it. -/
def readMember (policy : Policy) : Nat → Nat → List (String × Json) → Cursor → Reading Json
  | 0, _, _, c => .error (c.faultNext .endOfObject)
  | fuel + 1, depth, acc, c =>
    match readString policy fuel c with
    | .error f => .error f
    | .ok (name, c) =>
      match readColon c with
      | .error f => .error f
      | .ok c =>
        match readValue policy fuel depth c with
        | .error f => .error f
        | .ok (j, c) => readMoreMembers policy fuel depth ((name, j) :: acc) c

/-- Further members of an object; `acc` holds those already read, backwards. -/
def readMoreMembers (policy : Policy) :
    Nat → Nat → List (String × Json) → Cursor → Reading Json
  | 0, _, _, c => .error (c.faultNext .endOfObject)
  | fuel + 1, depth, acc, c =>
    let c := c.settle
    match c.rest with
    | [] => .error (c.faultNext .endOfObject)
    | '\x7d' :: _ => .ok (.obj acc.reverse, c.advance)
    | ',' :: _ =>
      let c := c.advance.settle
      match c.rest with
      | [] => .error (c.faultNext .endOfValue)
      | '"' :: _ => readMember policy fuel depth acc c.advance
      | '\x7d' :: _ => .error (c.faultNext .trailingComma)
      | _ => .error (c.faultNext .keyNotString)
    | _ => .error (c.faultNext .expectedObjectEnd)

end

/-- A value at the cursor, inside `depth` containers, where at most `limit` characters are left.
Between two characters at most three of the functions above call one another. -/
def read (policy : Policy) (limit depth : Nat) (c : Cursor) : Reading Json :=
  readValue policy (3 * limit + 3) depth c

/-- Nothing but white space may be left. -/
def expectEnd (c : Cursor) : Except Fault Unit :=
  let c := c.settle
  match c.rest with
  | [] => .ok ()
  | _ => .error (c.faultNext .trailingText)

/-- Read a whole text as one document. -/
def parse (policy : Policy) (text : String) : Except Fault Json :=
  let cs := text.toList
  match read policy cs.length 0 ⟨cs, 1, 0⟩ with
  | .error f => .error f
  | .ok (j, c) =>
    match expectEnd c with
    | .error f => .error f
    | .ok () => .ok j

end Json

end Estree
