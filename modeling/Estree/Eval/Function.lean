/-
Estree/Eval/Function.lean

Functions: making them, binding their parameters, calling them.

Everything here works over an `Evaluator`, which knows how to evaluate the parts of a node.
No definition in this or the following modules calls itself on anything but a list or a
number of rounds; the knot is tied in `Estree.Eval.Machine`.

A call goes through four steps: it enters the function, unless the stack is full; it makes a scope
below the one that the function was made in; it declares `this` and `arguments`, if the function is
not an arrow, and then the parameters from left to right; and it runs the body.  What the body
returns is the value of the call, and an error on the way gets the running functions as its
backtrace.
-/
import Estree.Eval.State
import Estree.Eval.Completion
import Estree.Builtin.Call

namespace Estree

/-- How the parts of a node are evaluated, how many rounds a loop may run, and what it does when
it has run so many. -/
structure Evaluator where
  expr : Expr → ScopeId → Eval Value
  stmt : Stmt → ScopeId → List String → Eval Completion
  call : ClosureId → Value → List Value → Eval Value
  rounds : Nat
  spent : Eval Completion

namespace Eval

/-! ### Making functions -/

/-- A new function of the program.  Generators and asynchronous functions are not supported. -/
def makeClosure (f : Function) (name : Option String) (scope : ScopeId) (kind : ClosureKind) :
    Eval Value :=
  if f.generator then Run.failWith (.unsupported "generator function")
  else if f.async then Run.failWith (.unsupported "async function")
  else onStore (Store.newClosure { name, node := f, scope, kind })

/-- Evaluate an expression whose value is given a name: a function without a name of its own
takes it. -/
def named (ev : Evaluator) (e : Expr) (name : String) (scope : ScopeId) : Eval Value :=
  match e with
  | .function f =>
    if f.id.isNone then makeClosure f (some name) scope .normal else ev.expr e scope
  | .arrow f => makeClosure f (some name) scope .arrow
  | _ => ev.expr e scope

/-- Declare a function under its own name. -/
def declareFunction (f : Function) (scope : ScopeId) : Eval Unit := do
  match f.id with
  | none => Run.failWith (.unsupported "FunctionDeclaration without a name")
  | some name =>
    let v ← makeClosure f (some name) scope .normal
    declare scope .var name (some v)

/-! ### Bodies -/

/-- Declare the functions of a list of statements. -/
def hoist (scope : ScopeId) : List Stmt → Eval Unit
  | [] => pure ()
  | .function f :: rest => do
    declareFunction f scope
    hoist scope rest
  | _ :: rest => hoist scope rest

/-- Run the statements that are not function declarations, up to the first signal. -/
def runHoisted (ev : Evaluator) (scope : ScopeId) : List Stmt → Value → Eval Completion
  | [], last => pure (.normal last)
  | .function _ :: rest, last => runHoisted ev scope rest last
  | s :: rest, _ => do
    match ← ev.stmt s scope [] with
    | .normal value => runHoisted ev scope rest value
    | signal => pure signal

/-- Run a list of statements: first its function declarations, then all others. -/
def runBody (ev : Evaluator) (body : List Stmt) (scope : ScopeId) : Eval Completion := do
  hoist scope body
  runHoisted ev scope body .undefined

/-! ### Parameters -/

/-- Bind one parameter.  A default stands in for undefined. -/
def bindParameter (ev : Evaluator) (scope : ScopeId) : Pattern → Value → Eval Unit
  | .ident name, value => declare scope .var name (some value)
  | .default target init, value => do
    let value ←
      if value.isUndefined then
        match target.ident? with
        | some name => named ev init name scope
        | none => ev.expr init scope
      else pure value
    bindParameter ev scope target value
  | p, _ => Run.failWith (.unsupported p.kind)

/-- Bind the parameters from left to right; a rest parameter takes all arguments that are
left. -/
def bindParameters (ev : Evaluator) (scope : ScopeId) : List Pattern → List Value → Eval Unit
  | [], _ => pure ()
  | .rest target :: params, args => do
    let rest ← onStore (Store.newArray args.toArray)
    bindParameter ev scope target rest
    bindParameters ev scope params []
  | p :: params, args => do
    bindParameter ev scope p (.orUndefined args.head?)
    bindParameters ev scope params args.tail

/-! ### Calls -/

/-- What a body's completion means for the call. -/
def resultOf : Completion → Eval Value
  | .normal _ => pure .undefined
  | .returns value => pure value
  | .breaks label => Run.failWith (.strayBreak label)
  | .continues label => Run.failWith (.strayContinue label)

/-- Run a function in a new scope of its own. -/
def invoke (ev : Evaluator) (c : Closure) (this : Value) (args : List Value) : Eval Value := do
  let scope ← newChild c.scope
  if c.kind = .normal then
    declare scope .const "this" (some this)
    let all ← onStore (Store.newArray args.toArray)
    declare scope .var "arguments" (some all)
  bindParameters ev scope c.node.params args
  match c.node.body with
  | .concise value => ev.expr value scope
  | .block body => do
    let completion ← runBody ev body scope
    resultOf completion

/-- Call a function of the program.  An error that leaves it gets a backtrace. -/
def callClosure (ev : Evaluator) (id : ClosureId) (this : Value) (args : List Value) :
    Eval Value := do
  let c ← Run.read fun s => s.store.closure id
  enter c.displayName
  match ← Run.attempt (invoke ev c this args) with
  | .ok value =>
    leave
    pure value
  | .error e =>
    let e ← withBacktrace e
    leave
    Run.fail e

/-- Call a function of the host. -/
def callNative (host : Host) (id : NativeId) (this : Value) (args : List Value) :
    Run Store Value := do
  let code ← Run.read fun s => (s.native id).code
  Builtin.call host code this args

/-- Call a value. -/
def callValue (host : Host) (ev : Evaluator) (callee this : Value) (args : List Value) :
    Eval Value := do
  match callee with
  | .closure id => ev.call id this args
  | .native id => onStore (callNative host id this args)
  | _ =>
    let text ← onStore (Convert.text callee)
    Run.failWith (.notCallable text)

/-- Whether a value may be used with `new`. -/
def isConstructor (s : Store) : Value → Bool
  | .closure id => (s.closure id).kind == .normal
  | .native id => (s.native id).constructs
  | _ => false

/-- Make a new object with a function.  A function of the program runs on a fresh object, which
is the result unless the function gives back a reference. -/
def construct (host : Host) (ev : Evaluator) (callee : Value) (args : List Value) :
    Eval Value := do
  match callee with
  | .closure id =>
    let c ← Run.read fun s => s.store.closure id
    if c.kind = .normal then
      let made ← onStore (Store.newObject { brand := .instance id })
      let result ← ev.call id made args
      if result.isReference then pure result else pure made
    else Run.failWith (.notConstructor c.displayName)
  | .native id =>
    let n ← Run.read fun s => s.store.native id
    if n.constructs then onStore (callNative host id .undefined args)
    else Run.failWith (.notConstructor n.name)
  | _ =>
    let text ← onStore (Convert.text callee)
    Run.failWith (.notConstructor text)

end Eval

end Estree
