/-
Estree/Eval/State.lean

The state of a run, and the steps that touch one part of it: the store, the scopes, or the
stack of running functions.

No step touches two parts at once.  That is what most of the theory rests on: what holds of the
scopes can be shown from the operations on scopes, and what holds of the list of running functions
from `enter` and `leave` alone.
-/
import Estree.Scope
import Estree.CallStack

namespace Estree

/-- The whole state of a run. -/
structure State where
  store : Store := {}
  scopes : Scopes := #[]
  calls : CallStack := {}

instance : Inhabited State := ⟨{}⟩

/-- Computations of the evaluator. -/
abbrev Eval := Run State

namespace Eval

variable {α : Type}

/-! ### Store -/

/-- A computation on the store alone. -/
@[always_inline, inline]
def onStore (m : Run Store α) : Eval α := fun ⟨store, scopes, calls⟩ =>
  match m store with
  | .done a store => .done a ⟨store, scopes, calls⟩
  | .failed e store => .failed e ⟨store, scopes, calls⟩
  | .endless => .endless

/-! ### Scopes -/

/-- A computation on the scopes that may fail. -/
@[always_inline, inline]
def onScopes (f : Scopes → Except ScopeError α × Scopes) : Eval α :=
  fun ⟨store, scopes, calls⟩ =>
  match f scopes with
  | (.ok a, scopes) => .done a ⟨store, scopes, calls⟩
  | (.error e, scopes) => .failed { cause := e.cause } ⟨store, scopes, calls⟩

/-- A new scope below another. -/
def newChild (parent : ScopeId) : Eval ScopeId := fun ⟨store, scopes, calls⟩ =>
  let (id, scopes) := scopes.child parent
  .done id ⟨store, scopes, calls⟩

/-- A copy of a scope. -/
def newFork (id : ScopeId) : Eval ScopeId := fun ⟨store, scopes, calls⟩ =>
  let (copy, scopes) := scopes.fork id
  .done copy ⟨store, scopes, calls⟩

/-- Declare a name. -/
def declare (scope : ScopeId) (kind : VarKind) (name : String) (value : Option Value) :
    Eval Unit :=
  onScopes fun ss => ss.create scope kind name value

/-- Assign to a name. -/
def assign (scope : ScopeId) (name : String) (value : Value) : Eval Unit :=
  onScopes fun ss => ss.update scope name value

/-- The value of a name that must be bound. -/
def query (scope : ScopeId) (name : String) : Eval Value := fun s =>
  match s.scopes.query scope name with
  | .ok v => .done v s
  | .error e => .failed { cause := e.cause } s

/-- The value of a name, if it is bound. -/
def lookup (scope : ScopeId) (name : String) : Eval (Option Value) :=
  Run.read fun s => s.scopes.lookup scope name

/-- Remove a name from the root. -/
def deleteName (scope : ScopeId) (name : String) : Eval Bool := fun ⟨store, scopes, calls⟩ =>
  let (gone, scopes) := scopes.delete scope name
  .done gone ⟨store, scopes, calls⟩

/-- The value of `this`. -/
def thisValue (scope : ScopeId) : Eval Value := do
  return .orUndefined (← lookup scope "this")

/-! ### Running functions -/

/-- Enter a function.  If that is refused, the error carries the functions that are running. -/
def enter (name : String) : Eval Unit := fun ⟨store, scopes, calls⟩ =>
  match calls.push name with
  | (.ok (), calls) => .done () ⟨store, scopes, calls⟩
  | (.error e, calls) => .failed (calls.attach e) ⟨store, scopes, calls⟩

/-- Leave the innermost function. -/
def leave : Eval Unit := fun ⟨store, scopes, calls⟩ =>
  .done () ⟨store, scopes, calls.pop⟩

/-- An error with the running functions as its backtrace. -/
def withBacktrace (e : EvalError) : Eval EvalError :=
  Run.read fun s => s.calls.attach e

end Eval

end Estree
