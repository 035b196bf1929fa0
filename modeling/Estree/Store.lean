/-
Estree/Store.lean

The store: all arrays, objects and functions of a run, by place, and the lines written to the
console.  It is what functions of the host can see and change.

Nothing is ever taken out of the store.  A new thing gets the next free place of its sort.

The members of the store are arrays, so a place is a number, and a place that nothing was put at
reads as something empty.
-/
import Estree.Table
import Estree.Run
import Estree.Ast.Node
import Estree.Builtin.Code

namespace Estree

/-- Where a scope is found. -/
abbrev ScopeId := Nat

/-- What made an object. -/
inductive Brand where
  | plain
  /-- An error constructor of the given name. -/
  | error (name : String)
  /-- `new` on a function of the program. -/
  | instance (made : ClosureId)
deriving DecidableEq

/-- An object: its own properties and what made it. -/
structure Object where
  props : Table Value := .empty
  brand : Brand := .plain

/-- The two sorts of functions in a program. -/
inductive ClosureKind where
  /-- Has its own `this` and `arguments`, and may be used with `new`. -/
  | normal
  /-- Sees `this` and `arguments` of the scope it is made in. -/
  | arrow
deriving DecidableEq

/-- A function of the program with the scope it was made in. -/
structure Closure where
  name : Option String
  node : Function
  scope : ScopeId
  kind : ClosureKind
  props : Table Value := .empty

/-- A function of the host. -/
structure Native where
  name : String
  arity : Nat
  code : Code
  /-- Whether it may be used with `new`. -/
  constructs : Bool := false
  props : Table Value := .empty

/-- The lines written to the console; a silent console keeps none. -/
structure Console where
  silent : Bool := false
  lines : Array (Level × String) := #[]

/-- Everything that lives outside of scopes. -/
structure Store where
  arrays : Array (Array Value) := #[]
  objects : Array Object := #[]
  closures : Array Closure := #[]
  natives : Array Native := #[]
  console : Console := {}

instance : Inhabited Object := ⟨{}⟩
instance : Inhabited Closure := ⟨⟨none, default, 0, .normal, .empty⟩⟩
instance : Inhabited Native := ⟨⟨"", 0, .isNaN, false, .empty⟩⟩

/-! ### Functions -/

namespace Closure

/-- The name to show. -/
def displayName (c : Closure) : String :=
  c.name.getD "anonymous"

/-- The number of parameters in front of the first that is not a plain name. -/
def arity (c : Closure) : Nat :=
  (c.node.params.takeWhile fun p => p.ident?.isSome).length

end Closure

namespace Store

/-! ### Reading -/

/-- The items of an array. -/
def items (s : Store) (id : ArrayId) : Array Value :=
  s.arrays.getD id #[]

/-- An object. -/
def object (s : Store) (id : ObjectId) : Object :=
  s.objects.getD id {}

/-- A function of the program. -/
def closure (s : Store) (id : ClosureId) : Closure :=
  s.closures.getD id default

/-- A function of the host. -/
def native (s : Store) (id : NativeId) : Native :=
  s.natives.getD id default

/-! ### New things -/

/-- A new array. -/
def newArray (items : Array Value) : Run Store Value := fun s =>
  .done (.array s.arrays.size) { s with arrays := s.arrays.push items }

/-- A new object. -/
def newObject (o : Object) : Run Store Value := fun s =>
  .done (.object s.objects.size) { s with objects := s.objects.push o }

/-- A new function of the program. -/
def newClosure (c : Closure) : Run Store Value := fun s =>
  .done (.closure s.closures.size) { s with closures := s.closures.push c }

/-- A new function of the host. -/
def newNative (n : Native) : Run Store Value := fun s =>
  .done (.native s.natives.size) { s with natives := s.natives.push n }

/-- A new plain object with the given properties. -/
def newPlain (props : List (String × Value)) : Run Store Value :=
  newObject { props := Table.ofList props }

/-- A new error object: it has a name and a message. -/
def newError (name message : String) : Run Store Value :=
  newObject
    { props := Table.ofList [("name", .str name), ("message", .str message)]
      brand := .error name }

/-! ### Changes -/

/-- Change the items of an array. -/
@[inline]
def modifyItems (id : ArrayId) (f : Array Value → Array Value) : Run Store Unit :=
  Run.modify fun s => { s with arrays := s.arrays.modify id f }

/-- Change the properties of an object. -/
@[inline]
def modifyObject (id : ObjectId) (f : Table Value → Table Value) : Run Store Unit :=
  Run.modify fun s =>
    { s with objects := s.objects.modify id fun o => { o with props := f o.props } }

/-- Change the properties of a function of the program. -/
@[inline]
def modifyClosure (id : ClosureId) (f : Table Value → Table Value) : Run Store Unit :=
  Run.modify fun s =>
    { s with closures := s.closures.modify id fun c => { c with props := f c.props } }

/-- Change the properties of a function of the host. -/
@[inline]
def modifyNative (id : NativeId) (f : Table Value → Table Value) : Run Store Unit :=
  Run.modify fun s =>
    { s with natives := s.natives.modify id fun n => { n with props := f n.props } }

/-- Write a line to the console. -/
def writeLine (level : Level) (text : String) : Run Store Unit :=
  Run.modify fun s =>
    if s.console.silent then s
    else { s with console := { s.console with lines := s.console.lines.push (level, text) } }

end Store

/-- The functions of the embedder: what each does, and what it takes for its instances. -/
structure Host where
  call : Nat → Value → List Value → Run Store Value
  isInstance : Nat → Store → Value → Bool

/-- A host without functions of its own: calling one gives undefined. -/
def Host.none : Host where
  call := fun _ _ _ => pure .undefined
  isInstance := fun _ _ _ => false

end Estree
