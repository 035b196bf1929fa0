/-
Estree/Scope.lean

Scopes.  A scope binds names, each as `var`, `let` or `const`, and has a parent except for the
root.  Names are looked up along the chain of parents.  A new scope is placed after its
parent, so the chain of any scope has at most as many members as there are scopes.

A scope keeps one table for each way to declare a name.  A name that is looked up is searched
among the `var`s first, then among the `let`s and the `const`s; for an assignment the `const`s
come first.

A name that is found nowhere is assigned in the root, as a `var`.  Only `var`s of the root can be
deleted.  A loop that gives each round its own variables copies a scope (`fork`): the copy has the
same parent and the same bindings, and from then on its own values.
-/
import Estree.Table
import Estree.Store

namespace Estree

/-- The bindings of one scope, by the way in which they are declared. -/
structure Scope where
  parent : Option ScopeId := none
  vars : Table Value := .empty
  lets : Table Value := .empty
  consts : Table Value := .empty

instance : Inhabited Scope := ⟨{}⟩

/-- All scopes, by place. -/
abbrev Scopes := Array Scope

/-- Ways in which using a name can fail. -/
inductive ScopeError where
  | declaredTwice (name : String)
  | unbound (name : String)
  | constant (name : String)
deriving DecidableEq

namespace ScopeError

/-- The name that was used. -/
def name : ScopeError → String
  | declaredTwice name | unbound name | constant name => name

/-- The cause of failure of a run. -/
def cause : ScopeError → Cause
  | declaredTwice name => .declaredTwice name
  | unbound name => .unbound name
  | constant name => .constant name

end ScopeError

/-! ### One scope -/

namespace Scope

/-- Bind a name among those that are declared in one way. -/
def insert (s : Scope) (kind : VarKind) (name : String) (value : Value) : Scope :=
  match kind with
  | .var => { s with vars := s.vars.insert name value }
  | .let => { s with lets := s.lets.insert name value }
  | .const => { s with consts := s.consts.insert name value }

/-- How this scope declares a name. -/
def kindHere (s : Scope) (name : String) : Option VarKind :=
  if s.vars.contains name then some .var
  else if s.lets.contains name then some .let
  else if s.consts.contains name then some .const
  else none

/-- The value that this scope binds a name to. -/
def valueHere (s : Scope) (name : String) : Option Value :=
  (s.vars.get? name).orElse fun _ => (s.lets.get? name).orElse fun _ => s.consts.get? name

/-- Declare a name.  Only a `var` may be declared again, and only as `var`; without a value
it then keeps the one it has. -/
def create (s : Scope) (kind : VarKind) (name : String) (value : Option Value) :
    Except ScopeError Scope :=
  match s.kindHere name with
  | some old =>
    if kind = .var ∧ old = .var then
      match value with
      | some v => .ok (s.insert .var name v)
      | none => .ok s
    else .error (.declaredTwice name)
  | none => .ok (s.insert kind name (value.getD .undefined))

/-- Give a name another value, if this scope binds it. -/
def assignHere (s : Scope) (name : String) (value : Value) : Option (Except ScopeError Scope) :=
  if s.consts.contains name then some (.error (.constant name))
  else if s.vars.contains name then some (.ok (s.insert .var name value))
  else if s.lets.contains name then some (.ok (s.insert .let name value))
  else none

end Scope

/-! ### Chains of scopes -/

namespace Scopes

/-- A scope. -/
def scope (ss : Scopes) (id : ScopeId) : Scope :=
  ss.getD id {}

/-- What is found first among the first `n` scopes of a chain, and where it is. -/
@[specialize]
def nearestWithin {α : Type} (ss : Scopes) (f : Scope → Option α) :
    Nat → ScopeId → Option (ScopeId × α)
  | 0, _ => none
  | n + 1, id =>
    let s := ss.scope id
    match f s with
    | some a => some (id, a)
    | none =>
      match s.parent with
      | some p => nearestWithin ss f n p
      | none => none

/-- What is found first along a chain, and where it is. -/
@[inline]
def nearest {α : Type} (ss : Scopes) (f : Scope → Option α) (id : ScopeId) :
    Option (ScopeId × α) :=
  nearestWithin ss f ss.size id

/-- The last of the first `n + 1` scopes of a chain. -/
def rootWithin (ss : Scopes) : Nat → ScopeId → ScopeId
  | 0, id => id
  | n + 1, id =>
    match (ss.scope id).parent with
    | some p => rootWithin ss n p
    | none => id

/-- The root of a chain. -/
def rootOf (ss : Scopes) (id : ScopeId) : ScopeId :=
  rootWithin ss ss.size id

/-- The value of a name. -/
def lookup (ss : Scopes) (id : ScopeId) (name : String) : Option Value :=
  (ss.nearest (fun s => s.valueHere name) id).map Prod.snd

/-- How a name is declared. -/
def kindOf (ss : Scopes) (id : ScopeId) (name : String) : Option VarKind :=
  (ss.nearest (fun s => s.kindHere name) id).map Prod.snd

/-- The value of a name that must be bound. -/
def query (ss : Scopes) (id : ScopeId) (name : String) : Except ScopeError Value :=
  match ss.lookup id name with
  | some v => .ok v
  | none => .error (.unbound name)

/-- A new scope. -/
def add (ss : Scopes) (s : Scope) : ScopeId × Scopes :=
  (ss.size, ss.push s)

/-- A new scope below another. -/
def child (ss : Scopes) (parent : ScopeId) : ScopeId × Scopes :=
  ss.add { parent := some parent }

/-- A copy of a scope: the same parent and the same bindings, from now on apart. -/
def fork (ss : Scopes) (id : ScopeId) : ScopeId × Scopes :=
  ss.add (ss.scope id)

/-- Declare a name in a scope. -/
def create (ss : Scopes) (id : ScopeId) (kind : VarKind) (name : String) (value : Option Value) :
    Except ScopeError Unit × Scopes :=
  match (ss.scope id).create kind name value with
  | .ok s => (.ok (), ss.setIfInBounds id s)
  | .error e => (.error e, ss)

/-- Assign to a name: in the nearest scope that binds it, or else as a new `var` in the root. -/
def update (ss : Scopes) (id : ScopeId) (name : String) (value : Value) :
    Except ScopeError Unit × Scopes :=
  match ss.nearest (fun s => s.assignHere name value) id with
  | some (_, .error e) => (.error e, ss)
  | some (owner, .ok s) => (.ok (), ss.setIfInBounds owner s)
  | none => (.ok (), ss.modify (ss.rootOf id) fun s => s.insert .var name value)

/-- Remove a name from the root.  Gives whether nothing of that name is left there: a `let`
or `const` stays. -/
def delete (ss : Scopes) (id : ScopeId) (name : String) : Bool × Scopes :=
  let root := ss.rootOf id
  let s := ss.scope root
  if s.vars.contains name then
    (true, ss.modify root fun s => { s with vars := s.vars.erase name })
  else (!(s.lets.contains name || s.consts.contains name), ss)

end Scopes

end Estree
