/-
Estree/Builtin/Json.lean

Values as JSON documents and back.

Undefined and functions have no document: they are left out of objects and are null in
arrays.  A value inside itself is an error.  Everything else has a document; what makes two
values different beyond it (the brand of an object, the sign of zero, numbers that are not
finite) is lost.
-/
import Estree.Convert
import Estree.Json.Reader
import Estree.Json.Writer

namespace Estree

namespace Builtin

/-- Arrays and objects by place: what can lie inside itself. -/
inductive Container where
  | array (id : ArrayId)
  | object (id : ObjectId)
deriving DecidableEq

/-- A number as a document: integers up to 2^53 - 1 by their digits, and null for what is not
finite. -/
def numberJson (x : Float) : Json :=
  match Binary.ofFloat? x with
  | some b =>
    if b.isIntegral && b.floorAbs < Nat.pow 2 53 then .num (.int b.truncate)
    else .num (.float x)
  | none => .null

/-- The document of a value, found in at most `n` steps inward: `some none` if it has none,
`none` if the value lies inside itself.  `path` are the containers around it. -/
def jsonWithin (s : Store) : Nat → List Container → Value → Option (Option Json)
  | 0, _, _ => none
  | n + 1, path, v =>
    match v with
    | .undefined | .closure _ | .native _ => some none
    | .null => some (some .null)
    | .bool b => some (some (.bool b))
    | .num x => some (some (numberJson x))
    | .str text => some (some (.str text))
    | .array id =>
      if path.contains (.array id) then none
      else do
        let items ← (s.items id).toList.mapM fun item =>
          (jsonWithin s n (.array id :: path) item).map fun j => j.getD .null
        some (some (.arr items))
    | .object id =>
      if path.contains (.object id) then none
      else do
        let members ← (s.object id).props.entries.mapM fun entry =>
          (jsonWithin s n (.object id :: path) entry.2).map fun j => (entry.1, j)
        some (some (.obj (members.filterMap fun member => member.2.map fun j => (member.1, j))))

/-- The document of a value.  No path without repetition is longer than the number of
containers. -/
def toJson (s : Store) (v : Value) : Option (Option Json) :=
  jsonWithin s (s.arrays.size + s.objects.size + 2) [] v

/-- The indentation that an argument asks for: that many blanks up to ten, or the first ten
characters of a text. -/
def gapOf : Option Value → String
  | some (.num x) => String.ofList (List.replicate (Double.toNatUpTo 10 x) ' ')
  | some (.str text) => String.ofList (text.toList.take 10)
  | _ => ""

/-- The JSON text of a value, undefined if it has none. -/
def stringify (v : Value) (indent : Option Value) : Run Store Value := do
  match ← Run.read fun s => toJson s v with
  | none => Run.failWith (.typeError "Converting circular structure to JSON")
  | some none => return .undefined
  | some (some j) =>
    let gap := gapOf indent
    if gap.isEmpty then return .str j.compact else return .str (j.indented gap)

mutual

/-- The value of a document. -/
def ofJson : Json → Run Store Value
  | .null => pure .null
  | .bool b => pure (.bool b)
  | .num n => pure (.num n.toFloat)
  | .str s => pure (.str s)
  | .arr items => do
    let values ← ofJsonItems items
    Store.newArray values.toArray
  | .obj members => do
    let props ← ofJsonMembers members
    Store.newPlain props

/-- The values of items. -/
def ofJsonItems : List Json → Run Store (List Value)
  | [] => pure []
  | j :: rest => do
    let v ← ofJson j
    return v :: (← ofJsonItems rest)

/-- The values of members. -/
def ofJsonMembers : List (String × Json) → Run Store (List (String × Value))
  | [] => pure []
  | (name, j) :: rest => do
    let v ← ofJson j
    return (name, v) :: (← ofJsonMembers rest)

end

/-- The value of a JSON text.  A fault is thrown as an error object. -/
def parse (text : String) : Run Store Value := do
  match Json.parse .strict text with
  | .ok j => ofJson j
  | .error fault =>
    let e ← Store.newError "SyntaxError" ("JSON.parse: " ++ fault.text)
    Run.failWith (.thrown e)

end Builtin

end Estree
