/-
Estree/Builtin/Text.lean

The members of strings.  Positions count characters, except for `charCodeAt`, which counts
UTF-16 units.
-/
import Estree.Property
import Estree.Builtin.Range
import Estree.Text.Casing

namespace Estree

namespace Builtin

/-- The member of a list at a position given by a number: none if it is negative, the first
for NaN. -/
def itemAt? {α : Type} (items : List α) (x : Float) : Option α :=
  match Double.truncate? x with
  | some n => if x < 0 then none else items[n.toNat]?
  | none => if x.isNaN then items[0]? else none

/-- The number given by the first argument, zero if there is none. -/
def firstNumber (args : List Value) : Run Store Float :=
  match args[0]? with
  | some v => Convert.number v
  | none => pure 0

/-- The characters of the first argument's text, none if there is no argument. -/
def firstText (args : List Value) : Run Store (List Char) :=
  match args[0]? with
  | some v => do return (← Convert.text v).toList
  | none => pure []

/-- A member of a text. -/
def stringMethod (method : StringMethod) (text : String) (args : List Value) :
    Run Store Value := do
  let cs := text.toList
  match method with
  | .charAt =>
    let index ← firstNumber args
    return .str (String.ofList (itemAt? cs index).toList)
  | .charCodeAt =>
    let index ← firstNumber args
    match itemAt? (Text.units text) index with
    | some unit => return .nat unit
    | none => return .nan
  | .indexOf =>
    match Text.indexOf (← firstText args) cs with
    | some i => return .nat i
    | none => return .num (-1)
  | .includes => return .bool (Text.contains (← firstText args) cs)
  | .startsWith => return .bool ((← firstText args).isPrefixOf cs)
  | .endsWith => return .bool ((← firstText args).isSuffixOf cs)
  | .slice =>
    let (start, stop) ← relativeRange cs.length args
    return .str (String.ofList ((cs.drop start).take (stop - start)))
  | .toUpperCase => return .str (String.ofList (Text.upper cs))
  | .toLowerCase => return .str (String.ofList (Text.lower cs))
  | .trim => return .str (String.ofList (Text.trim cs))
  | .split =>
    match args[0]? with
    | none | some Value.undefined => Store.newArray #[.str text]
    | some v =>
      let separator ← Convert.text v
      let pieces := Text.split separator.toList cs
      Store.newArray (pieces.map fun piece => Value.str (String.ofList piece)).toArray
  | .toString => return .str text

/-- A member of strings on any receiver. -/
def callStringMethod (method : StringMethod) (this : Value) (args : List Value) :
    Run Store Value := do
  match this with
  | .str text => stringMethod method text args
  | _ =>
    let receiver ← Convert.text this
    Run.failWith (.typeError
      ("String method " ++ method.name ++ " called on incompatible receiver " ++ receiver))

end Builtin

end Estree
