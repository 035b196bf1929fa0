/-
Estree/Eval/Statement.lean

Execution of statements, one level deep.

A statement completes with a `Completion`, and whatever contains it looks only at that: a list of
statements goes on after a normal completion, a loop takes up the jumps addressed to it, a call
takes up a `return`.  An error is no completion but an outcome of the computation, which `try` turns
into a value (`Run.attempt`) to look at it.

The labels that come with a statement are those written directly in front of it; parts are executed
without labels, except for the body of a labelled statement.
-/
import Estree.Eval.Loop

namespace Estree

namespace Eval

/-! ### `switch` -/

/-- Whether a case is one to begin with: it is a default, or its test has the value of the
discriminant. -/
def applies (ev : Evaluator) (scope : ScopeId) (discriminant : Value) : Option Expr → Eval Bool
  | none => pure true
  | some test => do return (← ev.expr test scope).strictEq discriminant

/-- Go through the cases.  The first that applies is `matched`, and from there on the bodies are
run, and no test is evaluated.  A `break` addressed to the `switch` ends it. -/
def caseRounds (ev : Evaluator) (scope : ScopeId) (labels : List String) (discriminant : Value) :
    (matched : Bool) → (last : Value) → List Case → Eval Completion
  | _, last, [] => pure (.normal last)
  | matched, last, .mk test body :: rest => do
    let found ← (if matched then pure true else applies ev scope discriminant test)
    if found then
      match ← runHoisted ev scope body .undefined with
      | .normal value => caseRounds ev scope labels discriminant true value rest
      | .breaks label =>
        if addressed labels label then pure (.normal last) else pure (.breaks label)
      | signal => pure signal
    else caseRounds ev scope labels discriminant false last rest

/-- Declare the functions of all cases. -/
def hoistCases (scope : ScopeId) : List Case → Eval Unit
  | [] => pure ()
  | .mk _ body :: rest => do
    hoist scope body
    hoistCases scope rest

/-- A `switch` statement. -/
def switchStmt (ev : Evaluator) (discriminant : Expr) (cases : List Case) (scope : ScopeId)
    (labels : List String) : Eval Completion := do
  let v ← ev.expr discriminant scope
  let inner ← newChild scope
  hoistCases inner cases
  caseRounds ev inner labels v false .undefined cases

/-! ### `try` -/

/-- Run a handler on an error. -/
def runHandler (ev : Evaluator) (scope : ScopeId) (h : Handler) (e : EvalError) :
    Eval Completion := do
  match h with
  | .mk param body =>
    let inner ← newChild scope
    match param with
    | some p =>
      let name ← bindingName p
      let v ← onStore (Convert.caught e)
      declare inner .var name (some v)
    | none => pure ()
    runBody ev body inner

/-- The `try` and `catch` parts: a catchable error of the block goes to the handler. -/
def tryCatch (ev : Evaluator) (block : List Stmt) (handler : Option Handler) (scope : ScopeId) :
    Eval Completion := do
  let inner ← newChild scope
  match handler with
  | none => runBody ev block inner
  | some h =>
    match ← Run.attempt (runBody ev block inner) with
    | .ok completion => pure completion
    | .error e => if e.isCatchable then runHandler ev scope h e else Run.fail e

/-- A `try` statement.  Unless the error is fatal, the finalizer's completion replaces whatever
came before. -/
def tryStmt (ev : Evaluator) (block : List Stmt) (handler : Option Handler)
    (finalizer : Option (List Stmt)) (scope : ScopeId) : Eval Completion := do
  match finalizer with
  | none => tryCatch ev block handler scope
  | some body =>
    match ← Run.attempt (tryCatch ev block handler scope) with
    | .ok _ =>
      let inner ← newChild scope
      runBody ev body inner
    | .error e =>
      if e.isCatchable then
        let inner ← newChild scope
        runBody ev body inner
      else Run.fail e

/-! ### All statements -/

/-- A labelled statement: a `break` with its label ends it. -/
def labeledStmt (ev : Evaluator) (label : String) (body : Stmt) (scope : ScopeId)
    (labels : List String) : Eval Completion := do
  match ← ev.stmt body scope (labels ++ [label]) with
  | .breaks (some l) => if l = label then pure .empty else pure (.breaks (some l))
  | completion => pure completion

/-- Execute a statement that has the given labels. -/
def stmt (ev : Evaluator) (s : Stmt) (scope : ScopeId) (labels : List String) :
    Eval Completion := do
  match s with
  | .expression e => return .normal (← ev.expr e scope)
  | .block body =>
    let inner ← newChild scope
    runBody ev body inner
  | .empty | .debugger => return .empty
  | .variables kind declarators =>
    declareVariables ev scope kind declarators
    return .empty
  | .function f =>
    declareFunction f scope
    return .empty
  | .returns none => return .returns .undefined
  | .returns (some e) => return .returns (← ev.expr e scope)
  | .breaks label => return .breaks label
  | .continues label => return .continues label
  | .branch test consequent alternate =>
    let t ← ev.expr test scope
    if t.truthy then ev.stmt consequent scope []
    else
      match alternate with
      | some other => ev.stmt other scope []
      | none => return .empty
  | .switch discriminant cases => switchStmt ev discriminant cases scope labels
  | .while test body => whileRounds ev test body scope labels ev.rounds .undefined
  | .doWhile test body => doWhileRounds ev test body scope labels ev.rounds .undefined
  | .for init test update body => forLoop ev init test update body scope labels
  | .forIn target object body => forInLoop ev target object body scope labels
  | .labeled label body => labeledStmt ev label body scope labels
  | .tries block handler finalizer => tryStmt ev block handler finalizer scope
  | .throws e => do
    let v ← ev.expr e scope
    Run.failWith (.thrown v)
  | .inert node => Run.failWith (.unsupported node.kind)

end Eval

end Estree
