/-
Estree/Convert.lean

Conversions between values: to text, to numbers, to property keys, to 32-bit integers.

The text of an array is made of the texts of its items, that of an error object of its name
and message.  An array inside itself counts as empty, but an error object whose name or
message leads back to it has no text at all: `text?` gives `none`.  On every other value the
search is no deeper than one pass through all arrays between any two error objects, which is
the bound that `text?` uses.
-/
import Estree.Store
import Estree.Decimal.Layout
import Estree.Decimal.Numeral
import Estree.Text.Blank
import Estree.Text.Search

namespace Estree

/-! ### Texts as numbers -/

/-- The value of a digit in bases up to 36. -/
def digitOf? (base : Nat) (c : Char) : Option Nat :=
  let value :=
    if c.isDigit then some (c.toNat - '0'.toNat)
    else if 'a' ≤ c ∧ c ≤ 'z' then some (c.toNat - 'a'.toNat + 10)
    else if 'A' ≤ c ∧ c ≤ 'Z' then some (c.toNat - 'A'.toNat + 10)
    else none
  value.filter fun v => v < base

/-- The number written by digits of a base, after an optional plus sign.  It must fit into 64
bits. -/
def natOfBase? (base : Nat) (cs : List Char) : Option Nat :=
  let digits :=
    match cs with
    | '+' :: rest => rest
    | _ => cs
  if digits.isEmpty then none
  else
    (digits.foldlM (fun n c => (digitOf? base c).map fun d => n * base + d) 0).filter
      fun n => n < Nat.pow 2 64

/-- The base that the first two characters of an integer announce. -/
def announcedBase? : List Char → Option (Nat × List Char)
  | '0' :: c :: rest =>
    if c = 'x' ∨ c = 'X' then some (16, rest)
    else if c = 'o' ∨ c = 'O' then some (8, rest)
    else if c = 'b' ∨ c = 'B' then some (2, rest)
    else none
  | _ => none

/-- The infinity that a text names. -/
def infinity? (cs : List Char) : Option Float :=
  if cs = "Infinity".toList ∨ cs = "+Infinity".toList then some (1.0 / 0.0)
  else if cs = "-Infinity".toList then some (-1.0 / 0.0)
  else none

/-- Whether a character may stand in a decimal literal. -/
def isLiteralChar (c : Char) : Bool :=
  c.isDigit || ['.', 'e', 'E', '+', '-'].contains c

/-- The number that a text stands for, white space at its ends apart: nothing is zero, then
integers with an announced base, infinities and, of what has no other characters than these, decimal
literals; everything else is NaN. -/
def numberOfText (s : String) : Float :=
  let cs := Text.trim s.toList
  if cs.isEmpty then 0
  else
    match announcedBase? cs with
    | some (base, digits) =>
      match natOfBase? base digits with
      | some n => Float.ofNat n
      | none => 0.0 / 0.0
    | none =>
      match infinity? cs with
      | some x => x
      | none => if cs.all isLiteralChar then (double? cs).getD (0.0 / 0.0) else 0.0 / 0.0

/-! ### Texts of values -/

namespace Store

/-- The text of a function of the program. -/
def closureText (c : Closure) : String :=
  "function " ++ c.displayName ++ "() \x7b [code] \x7d"

/-- The text of a function of the host. -/
def nativeText (n : Native) : String :=
  "function " ++ n.name ++ "() \x7b [native code] \x7d"

/-- Name and message of an error as one text: the one alone if the other is empty. -/
def errorText (name message : String) : String :=
  if message.isEmpty then name
  else if name.isEmpty then message
  else name ++ ": " ++ message

/-- The text of a value, found in at most `n` steps inward.  `seen` are the arrays around it. -/
def textWithin (s : Store) : Nat → List ArrayId → Value → Option String
  | 0, _, _ => none
  | n + 1, seen, v =>
    match v with
    | .undefined => some "undefined"
    | .null => some "null"
    | .bool b => some (if b then "true" else "false")
    | .num x => some (numberText x)
    | .str text => some text
    | .array id =>
      if seen.contains id then some ""
      else
        let parts := (s.items id).toList.mapM fun item =>
          if item.isNullish then some "" else textWithin s n (id :: seen) item
        parts.map (Text.join ",")
    | .object id =>
      let o := s.object id
      match o.brand with
      | .error cls => do
        let name ← match o.props.get? "name" with
          | some v => textWithin s n [] v
          | none => some cls
        let message ← match o.props.get? "message" with
          | some v => textWithin s n [] v
          | none => some ""
        some (errorText name message)
      | .plain | .instance _ => some "[object Object]"
    | .closure id => some (closureText (s.closure id))
    | .native id => some (nativeText (s.native id))

/-- Steps enough for every value that has a text. -/
def textBound (s : Store) : Nat :=
  (s.arrays.size + 2) * (s.objects.size + 1)

/-- The text of a value, if it has one. -/
def text? (s : Store) (v : Value) : Option String :=
  textWithin s s.textBound [] v

/-- The number that a value stands for; an array by its text. -/
def number? (s : Store) (v : Value) : Option Float :=
  match v with
  | .undefined => some (0.0 / 0.0)
  | .null => some 0
  | .bool b => some (if b then 1 else 0)
  | .num x => some x
  | .str text => some (numberOfText text)
  | .array _ => (s.text? v).map numberOfText
  | .object _ | .closure _ | .native _ => some (0.0 / 0.0)

/-- The wording of a cause of failure. -/
def message? (s : Store) (cause : Cause) : Option String :=
  match cause with
  | .thrown v => (s.text? v).map fun text => cause.message fun _ => text
  | _ => some (cause.message fun _ => "")

end Store

/-! ### Conversions in a run -/

namespace Convert

/-- The text of a value. -/
def text (v : Value) : Run Store String :=
  Run.ofOption fun s => s.text? v

/-- The number that a value stands for. -/
def number (v : Value) : Run Store Float :=
  Run.ofOption fun s => s.number? v

/-- The key under which a value finds a property. -/
def key (v : Value) : Run Store String :=
  text v

/-- The value as an unsigned integer of 32 bits. -/
def uint32 (v : Value) : Run Store Nat := do
  return Double.wrap32 (← number v)

/-- The value as a signed integer of 32 bits. -/
def int32 (v : Value) : Run Store Int := do
  return Double.signed32 (← number v)

/-- Reference values by their text, all others as they are. -/
def primitive (v : Value) : Run Store Value := do
  if v.isReference then return .str (← text v) else return v

/-- What a handler is given for an error: the thrown value, or a new error object. -/
def caught (e : EvalError) : Run Store Value :=
  match e.cause with
  | .thrown v => pure v
  | cause => Store.newError cause.errorName (cause.message fun _ => "")

end Convert

end Estree
