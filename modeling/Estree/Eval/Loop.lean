/-
Estree/Eval/Loop.lean

Loops.  Every round runs the body in a new scope.  A loop that has not ended after as many
rounds as the evaluator allows counts as endless.

The kinds of loops differ in what happens between two rounds.  A `while` makes a new empty scope for
each round below the scope of the statement.  A `for` makes a scope for its header and gives each
round a copy of it, so that a function made in one round keeps the variables of that round.  A
`for … in` makes a scope below that of the statement and gives its target the next key there.  What
follows a round is decided in one place for all of them (`LoopStep.of`).
-/
import Estree.Eval.Expression

namespace Estree

namespace Eval

/-- The name of a pattern that must be a plain identifier. -/
def bindingName (p : Pattern) : Eval String :=
  match p.ident? with
  | some name => pure name
  | none => Run.failWith (.unsupported p.kind)

/-- Declare variables one after the other. -/
def declareVariables (ev : Evaluator) (scope : ScopeId) (kind : VarKind) :
    List Declarator → Eval Unit
  | [] => pure ()
  | .mk target init :: rest => do
    let name ← bindingName target
    let value ← match init with
      | some e => do pure (some (← named ev e name scope))
      | none => pure none
    declare scope kind name value
    declareVariables ev scope kind rest

/-- Run the body of a loop in the scope of a round.  A block does not open another scope. -/
def loopBody (ev : Evaluator) (body : Stmt) (round : ScopeId) : Eval Completion :=
  match body with
  | .block stmts => runBody ev stmts round
  | s => ev.stmt s round []

/-! ### `while` and `do … while` -/

/-- Rounds of a `while`. -/
def whileRounds (ev : Evaluator) (test : Expr) (body : Stmt) (scope : ScopeId)
    (labels : List String) : Nat → Value → Eval Completion
  | 0, _ => ev.spent
  | n + 1, last => do
    let t ← ev.expr test scope
    if t.truthy then
      let round ← newChild scope
      let completion ← loopBody ev body round
      match LoopStep.of labels last completion with
      | .next last => whileRounds ev test body scope labels n last
      | .stop => pure (.normal last)
      | .pass signal => pure signal
    else pure (.normal last)

/-- Rounds of a `do … while`. -/
def doWhileRounds (ev : Evaluator) (test : Expr) (body : Stmt) (scope : ScopeId)
    (labels : List String) : Nat → Value → Eval Completion
  | 0, _ => ev.spent
  | n + 1, last => do
    let round ← newChild scope
    let completion ← loopBody ev body round
    match LoopStep.of labels last completion with
    | .next last =>
      let t ← ev.expr test scope
      if t.truthy then doWhileRounds ev test body scope labels n last else pure (.normal last)
    | .stop => pure (.normal last)
    | .pass signal => pure signal

/-! ### `for` -/

/-- The header of a `for`.  A `var` belongs to the scope around the loop, everything else to the
scope of the header. -/
def forHeader (ev : Evaluator) (scope header : ScopeId) : Option ForInit → Eval Unit
  | some (.variables kind declarators) =>
    declareVariables ev (if kind = .var then scope else header) kind declarators
  | some (.expression e) => do
    let _ ← ev.expr e header
  | none => pure ()

/-- Whether a `for` goes on. -/
def forTest (ev : Evaluator) (round : ScopeId) : Option Expr → Eval Bool
  | some test => do return (← ev.expr test round).truthy
  | none => pure true

/-- The last part of a `for` header. -/
def forUpdate (ev : Evaluator) (round : ScopeId) : Option Expr → Eval Unit
  | some e => do
    let _ ← ev.expr e round
  | none => pure ()

/-- Rounds of a `for`.  Each round has a copy of the header's bindings; the next copy is made
before the update. -/
def forRounds (ev : Evaluator) (test update : Option Expr) (body : Stmt) (labels : List String) :
    Nat → ScopeId → Value → Eval Completion
  | 0, _, _ => ev.spent
  | n + 1, round, last => do
    if ← forTest ev round test then
      let inner ← newChild round
      let completion ← loopBody ev body inner
      match LoopStep.of labels last completion with
      | .next last =>
        let next ← newFork round
        forUpdate ev next update
        forRounds ev test update body labels n next last
      | .stop => pure (.normal last)
      | .pass signal => pure signal
    else pure (.normal last)

/-- A `for` statement. -/
def forLoop (ev : Evaluator) (init : Option ForInit) (test update : Option Expr) (body : Stmt)
    (scope : ScopeId) (labels : List String) : Eval Completion := do
  let header ← newChild scope
  forHeader ev scope header init
  let round ← newFork header
  forRounds ev test update body labels ev.rounds round .undefined

/-! ### `for … in` -/

/-- The only name that a `for … in` may declare. -/
def forInName : List Declarator → Eval String
  | [.mk target _] => bindingName target
  | _ => Run.failWith (.unsupported "VariableDeclaration")

/-- Give the target of a `for … in` a key. -/
def forInBind (ev : Evaluator) (round : ScopeId) (target : ForTarget) (key : Value) :
    Eval Unit := do
  match target with
  | .variables kind declarators =>
    let name ← forInName declarators
    if kind = .var then assign round name key else declare round kind name (some key)
  | .ident name => assign round name key
  | .member object property computed =>
    let (base, name) ← memberParts ev round object property computed
    onStore (Property.set base name key)
  | .destructuring node => Run.failWith (.unsupported node.kind)

/-- Rounds of a `for … in`, one for each key. -/
def forInRounds (ev : Evaluator) (target : ForTarget) (body : Stmt) (scope : ScopeId)
    (labels : List String) : List String → Value → Eval Completion
  | [], last => pure (.normal last)
  | key :: keys, last => do
    let round ← newChild scope
    forInBind ev round target (.str key)
    let completion ← loopBody ev body round
    match LoopStep.of labels last completion with
    | .next last => forInRounds ev target body scope labels keys last
    | .stop => pure (.normal last)
    | .pass signal => pure signal

/-- A `for … in` statement.  The keys are those that the object has at the start; a `var` is
declared even if there are none. -/
def forInLoop (ev : Evaluator) (target : ForTarget) (object : Expr) (body : Stmt)
    (scope : ScopeId) (labels : List String) : Eval Completion := do
  match target with
  | .variables .var declarators =>
    let name ← forInName declarators
    declare scope .var name none
  | _ => pure ()
  let v ← ev.expr object scope
  let keys ← Run.read fun s => Property.keys s.store v
  forInRounds ev target body scope labels keys .undefined

end Eval

end Estree
