/-
Estree/Interpreter.lean

Interpreters: a root scope with the names that the embedder provides, and programs and calls
that run one after the other on it.

In module mode the root scope also has the constants `module` and `exports`, and what a
program gives is the `exports` of its module.

Nothing is kept between two programs but the state: what one has declared in the root, the next one
finds there, and a program that fails leaves behind what it has done so far.  A jump that leaves a
program is an error.
-/
import Estree.Eval.Machine
import Estree.Catalog

namespace Estree

/-- The root scope. -/
def rootScope : ScopeId := 0

/-- How deep calls may be nested unless the embedder says otherwise. -/
def defaultCallDepth : Nat := 10000

/-- A budget that no run of practical size uses up. -/
def ampleBudget : Nat := Nat.pow 2 62

/-- What an embedder asks for. -/
structure Config where
  standardGlobals : Bool := false
  bindings : Table Value := .empty
  maxCallDepth : Option Nat := some defaultCallDepth
  isModule : Bool := false

/-- One thing that an embedder asks for. -/
inductive Setting where
  /-- Add a name. -/
  | binding (name : String) (value : Value)
  /-- Add all names of a table into which these pairs have been entered. -/
  | bindings (pairs : List (String × Value))
  | standardGlobals
  | maxCallDepth (limit : Option Nat)
  | isModule (on : Bool)

namespace Config

/-- What is asked for after one more setting. -/
def add (c : Config) : Setting → Config
  | .binding name value => { c with bindings := c.bindings.insert name value }
  | .bindings pairs => { c with bindings := c.bindings.insertAll (Table.ofList pairs).entries }
  | .standardGlobals => { c with standardGlobals := true }
  | .maxCallDepth limit => { c with maxCallDepth := limit }
  | .isModule on => { c with isModule := on }

/-- What is asked for by settings, one after the other. -/
def ofSettings (settings : List Setting) : Config :=
  settings.foldl add {}

end Config

/-- An interpreter between two runs. -/
structure Interpreter where
  state : State
  module : Option Value := none

namespace Interpreter

/-! ### Building -/

/-- Declare the names of a table as `var`. -/
def install (scope : ScopeId) : List (String × Value) → Eval Unit
  | [] => pure ()
  | (name, value) :: rest => do
    Eval.declare scope .var name (some value)
    install scope rest

/-- Declare `module` and `exports`. -/
def installModule (scope : ScopeId) : Eval Value := do
  let exports ← Eval.onStore (Store.newPlain [])
  let module ← Eval.onStore (Store.newPlain [("exports", exports)])
  Eval.declare scope .const "module" (some module)
  Eval.declare scope .const "exports" (some exports)
  return module

/-- Prepare the root scope: the standard names if they are wanted, then the embedder's, which
replace those, then the module. -/
def prepare (config : Config) : Eval (Option Value) := do
  let standard ←
    if config.standardGlobals then Eval.onStore Catalog.standard else pure Table.empty
  install rootScope (standard.insertAll config.bindings.entries).entries
  if config.isModule then return some (← installModule rootScope) else return none

/-- Build an interpreter over a store. -/
def build (config : Config) (store : Store) : Outcome State Interpreter :=
  match prepare config { store, scopes := #[{}], calls := { limit := config.maxCallDepth } } with
  | .done module state => .done { state, module } state
  | .failed e state => .failed e state
  | .endless => .endless

/-! ### Running -/

/-- What the completion of a whole program gives. -/
def programResult : Completion → Eval Value
  | .normal value | .returns value => pure value
  | .breaks label => Run.failWith (.strayBreak label)
  | .continues label => Run.failWith (.strayContinue label)

/-- Run a program in the root scope. -/
def runProgram (host : Host) (budget : Nat) (module : Option Value) (p : Program) :
    Eval Value := do
  let completion ← Eval.runBody (Machine.evaluator host budget) p.body rootScope
  let value ← programResult completion
  match module with
  | some m => Eval.onStore (Property.get m "exports")
  | none => return value

/-- Call a value. -/
def callFunction (host : Host) (budget : Nat) (callee this : Value) (args : List Value) :
    Eval Value :=
  Eval.callValue host (Machine.evaluator host budget) callee this args

/-- Make a new object with a value. -/
def construct (host : Host) (budget : Nat) (callee : Value) (args : List Value) : Eval Value :=
  Eval.construct host (Machine.evaluator host budget) callee args

end Interpreter

end Estree
