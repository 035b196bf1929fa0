/-
Estree/Builtin/Array.lean

The members of arrays.
-/
import Estree.Property
import Estree.Builtin.Range

namespace Estree

namespace Builtin

/-- The texts of the items, nothing for undefined and null, with a separator between them. -/
def joinItems (items : List Value) (separator : String) : Run Store String := do
  let parts ← items.mapM fun item =>
    if item.isNullish then (pure "" : Run Store String) else Convert.text item
  return Text.join separator parts

/-- The items that an argument adds when arrays are put together: its own items if it is an
array, else the argument itself. -/
def itemsToAdd (s : Store) : Value → Array Value
  | .array id => s.items id
  | v => #[v]

/-- A member of the array at a place. -/
def arrayMethod (method : ArrayMethod) (id : ArrayId) (args : List Value) : Run Store Value := do
  match method with
  | .push =>
    Store.modifyItems id fun items => items ++ args
    Run.read fun s => .nat (s.items id).size
  | .pop =>
    let last ← Run.read fun s => (s.items id).back?
    Store.modifyItems id fun items => items.pop
    return .orUndefined last
  | .shift =>
    let first ← Run.read fun s => (s.items id)[0]?
    Store.modifyItems id fun items => items.extract 1 items.size
    return .orUndefined first
  | .unshift =>
    Store.modifyItems id fun items => args.toArray ++ items
    Run.read fun s => .nat (s.items id).size
  | .join =>
    let separator ← match args[0]? with
      | none | some Value.undefined => pure ","
      | some v => Convert.text v
    let items ← Run.read fun s => (s.items id).toList
    return .str (← joinItems items separator)
  | .indexOf =>
    let needle := Value.orUndefined args[0]?
    let found ← Run.read fun s => (s.items id).findIdx? fun item => item.strictEq needle
    match found with
    | some i => return .nat i
    | none => return .num (-1)
  | .includes =>
    let needle := Value.orUndefined args[0]?
    Run.read fun s => .bool ((s.items id).any fun item => item.sameAs needle)
  | .slice =>
    let items ← Run.read fun s => s.items id
    let (start, stop) ← relativeRange items.size args
    Store.newArray (items.extract start stop)
  | .concat =>
    let items ← Run.read fun s =>
      args.foldl (fun acc arg => acc ++ itemsToAdd s arg) (s.items id)
    Store.newArray items
  | .reverse =>
    Store.modifyItems id fun items => items.reverse
    return .array id

/-- A member of arrays on any receiver. -/
def callArrayMethod (method : ArrayMethod) (this : Value) (args : List Value) :
    Run Store Value := do
  match this with
  | .array id => arrayMethod method id args
  | _ =>
    let receiver ← Convert.text this
    Run.failWith (.typeError ("Array method called on incompatible receiver " ++ receiver))

end Builtin

end Estree
