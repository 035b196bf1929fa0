/-
Estree/Property.lean

Properties of values: reading, writing, deleting, asking and listing.

Objects and functions have properties of their own.  Arrays and strings have items under
canonical index keys, a length, and built-in members; reading a built-in member makes a new
function each time.

Each operation has one case for each sort of value.  Reading fails on undefined and null only.
Writing also fails where an array would get longer than it may (`maxDenseLength`), for a length that
is no whole number, and for keys of arrays that are neither an index nor the length.  Keys are
listed in the order in which they were entered, indices in ascending order.
-/
import Estree.Convert
import Estree.Text.Units

namespace Estree

/-! ### Index keys -/

/-- The largest length of an array. -/
def maxDenseLength : Nat := Nat.pow 2 24

/-- The index that a key stands for: the key is the decimal numeral of a number below
2^32 - 1, without leading zeros. -/
def arrayIndex? (key : String) : Option Nat :=
  let cs := key.toList
  match cs with
  | [] => none
  | '0' :: _ :: _ => none
  | _ =>
    if cs.all Char.isDigit then
      (some (Numeral.natOfDigits cs)).filter fun n => n < Nat.pow 2 32 - 1
    else none

/-- The key of an index. -/
def indexKey (n : Nat) : String :=
  Decimal.digitsText n

/-- The keys of all indices below a length. -/
def indexKeys (length : Nat) : List String :=
  (List.range length).map indexKey

/-- The failure for lengths that an array cannot have. -/
def invalidLength {σ α : Type} : Run σ α :=
  Run.failWith (.rangeError "Invalid array length")

/-- A number as the length of an array. -/
def denseLength (x : Float) : Run Store Nat :=
  match Binary.ofFloat? x with
  | some b =>
    if b.isIntegral && !(x < 0) && b.floorAbs ≤ maxDenseLength then pure b.floorAbs
    else invalidLength
  | none => invalidLength

/-- Items up to a length; missing ones are undefined. -/
def resize (items : Array Value) (length : Nat) : Array Value :=
  if length ≤ items.size then items.extract 0 length
  else items ++ Array.replicate (length - items.size) .undefined

namespace Property

/-! ### Built-in members -/

/-- A new function for a built-in member. -/
def newMember (name : String) (arity : Nat) (code : Code) : Run Store Value :=
  Store.newNative { name, arity, code }

/-- A member of arrays. -/
def arrayMember (key : String) : Run Store Value :=
  match ArrayMethod.all.find? fun m => m.name == key with
  | some m => newMember m.name m.arity (.array m)
  | none => pure .undefined

/-- A member of strings. -/
def stringMember (key : String) : Run Store Value :=
  match StringMethod.all.find? fun m => m.name == key with
  | some m => newMember m.name m.arity (.string m)
  | none => pure .undefined

/-- A member of numbers. -/
def numberMember (key : String) : Run Store Value :=
  match NumberMethod.all.find? fun m => m.name == key with
  | some m => newMember m.name 1 (.number m)
  | none => pure .undefined

/-- A member of every object. -/
def objectMember (key : String) : Run Store Value :=
  match ObjectMethod.all.find? fun m => m.name == key with
  | some m => newMember m.name m.arity (.object m)
  | none => pure .undefined

/-- Name and length of a function. -/
def functionMember (key name : String) (arity : Nat) : Value :=
  if key = "name" then .str name else if key = "length" then .nat arity else .undefined

/-! ### Reading -/

/-- Read a property. -/
def get (base : Value) (key : String) : Run Store Value := do
  match base with
  | .undefined | .null => Run.failWith (.cannotRead (.ofValue base) key)
  | .object id =>
    match (← Run.read fun s => (s.object id).props.get? key) with
    | some v => pure v
    | none => objectMember key
  | .array id =>
    match arrayIndex? key with
    | some i => Run.read fun s => .orUndefined (s.items id)[i]?
    | none =>
      if key = "length" then Run.read fun s => .nat (s.items id).size else arrayMember key
  | .str text =>
    match arrayIndex? key with
    | some i =>
      match Text.unitAt? text i with
      | some unit => pure (.str (String.ofList [Text.charOfUnit unit]))
      | none => pure .undefined
    | none =>
      if key = "length" then pure (.nat (Text.unitLength text)) else stringMember key
  | .num _ => numberMember key
  | .bool _ => pure .undefined
  | .closure id => Run.read fun s =>
    let c := s.closure id
    (c.props.get? key).getD (functionMember key c.displayName c.arity)
  | .native id => Run.read fun s =>
    let n := s.native id
    (n.props.get? key).getD (functionMember key n.name n.arity)

/-! ### Writing -/

/-- Write an item of an array that need not be there yet. -/
def setItem (id : ArrayId) (i : Nat) (value : Value) : Run Store Unit := do
  let size ← Run.read fun s => (s.items id).size
  if i < size then Store.modifyItems id fun items => items.setIfInBounds i value
  else if maxDenseLength ≤ i then invalidLength
  else Store.modifyItems id fun items => (resize items i).push value

/-- Write a property.  Writes to primitive values have no effect. -/
def set (base : Value) (key : String) (value : Value) : Run Store Unit := do
  match base with
  | .undefined | .null => Run.failWith (.cannotSet (.ofValue base) key)
  | .object id => Store.modifyObject id fun props => props.insert key value
  | .array id =>
    match arrayIndex? key with
    | some i => setItem id i value
    | none =>
      if key = "length" then
        let length ← denseLength (← Convert.number value)
        Store.modifyItems id fun items => resize items length
      else Run.failWith (.typeError ("Cannot add property '" ++ key ++ "' to an array"))
  | .closure id => Store.modifyClosure id fun props => props.insert key value
  | .native id => Store.modifyNative id fun props => props.insert key value
  | .bool _ | .num _ | .str _ => pure ()

/-! ### Deleting -/

/-- Delete a property; gives whether it is gone.  A deleted item of an array is undefined. -/
def delete (base : Value) (key : String) : Run Store Bool := do
  match base with
  | .undefined | .null =>
    Run.failWith (.typeError
      ("Cannot convert undefined or null to object (deleting '" ++ key ++ "')"))
  | .object id =>
    Store.modifyObject id fun props => props.erase key
    pure true
  | .array id =>
    match arrayIndex? key with
    | some i =>
      Store.modifyItems id fun items => items.setIfInBounds i .undefined
      pure true
    | none => pure (key != "length")
  | .closure id =>
    Store.modifyClosure id fun props => props.erase key
    pure true
  | .native id =>
    Store.modifyNative id fun props => props.erase key
    pure true
  | .bool _ | .num _ | .str _ => pure true

/-! ### Asking and listing -/

/-- Whether a key is one of the two that every function has. -/
def isFunctionKey (key : String) : Bool :=
  key == "name" || key == "length"

/-- Whether a reference value has a property. -/
def has (s : Store) (base : Value) (key : String) : Bool :=
  match base with
  | .object id => (s.object id).props.contains key
  | .array id =>
    key == "length" ||
      match arrayIndex? key with
      | some i => i < (s.items id).size
      | none => false
  | .closure id => isFunctionKey key || (s.closure id).props.contains key
  | .native id => isFunctionKey key || (s.native id).props.contains key
  | _ => false

/-- The keys that a `for … in` visits, in order. -/
def keys (s : Store) (base : Value) : List String :=
  match base with
  | .object id => (s.object id).props.keys
  | .array id => indexKeys (s.items id).size
  | .str text => indexKeys (Text.unitLength text)
  | .closure id => (s.closure id).props.keys
  | .native id => (s.native id).props.keys
  | .undefined | .null | .bool _ | .num _ => []

end Property

end Estree
