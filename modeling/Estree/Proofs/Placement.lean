/-
Estree/Proofs/Placement.lean

Where in a list of statements its functions are declared.

A list is run in two passes, one over its function declarations and one over all else.  Neither pass
sees what the other works on (`hoist_eq`, `runHoisted_eq`), so a list counts only by its two parts,
each in its own order.  Two lists with the same parts are one computation
(`FunctionsMoved.runBody`), whatever the declarations collide with and wherever a statement breaks
off.  Whatever runs a list of statements inherits this.

That the lists are the same computation, and not only give the same value, is what makes the
inheritance easy: whatever runs them is then the same computation as well, with the same errors and
the same state left behind.
-/
import Estree.Proofs.Switch

namespace Estree

/-! ### Moving declarations -/

/-- Two lists that differ in the places of their function declarations: the declarations are the
same and in the same order, and so are the other statements. -/
structure FunctionsMoved (stmts stmts' : List Stmt) : Prop where
  functions : stmts.filterMap Stmt.declared? = stmts'.filterMap Stmt.declared?
  others : (stmts.filter fun s => s.declared?.isNone) = stmts'.filter fun s => s.declared?.isNone

namespace FunctionsMoved

/-- One declaration is moved past statements that are no declarations. -/
theorem past (f : Function) (before : List Stmt) {between : List Stmt} (after : List Stmt)
    (h : ∀ s ∈ between, s.declared? = none) :
    FunctionsMoved (before ++ .function f :: between ++ after)
      (before ++ between ++ .function f :: after) := by
  have hnone : between.filterMap Stmt.declared? = [] := List.filterMap_eq_nil_iff.2 h
  have hhere : (Stmt.function f).declared? = some f := rfl
  constructor
  · simp [hnone, hhere]
  · simp [hhere]

variable {stmts stmts' : List Stmt}

/-- A list is run as every other list with its declarations moved. -/
theorem runBody (h : FunctionsMoved stmts stmts') (ev : Evaluator) (scope : ScopeId) :
    Eval.runBody ev stmts scope = Eval.runBody ev stmts' scope := by
  unfold Eval.runBody
  rw [Eval.hoist_eq, Eval.hoist_eq, h.functions, Eval.runHoisted_eq, Eval.runHoisted_eq, h.others]

end FunctionsMoved

/-! ### What runs a list of statements -/

/-- A function with another body. -/
def Closure.withBody (c : Closure) (body : List Stmt) : Closure :=
  { c with node := .mk c.node.id c.node.params (.block body) c.node.generator c.node.async }

namespace FunctionsMoved

variable {stmts stmts' : List Stmt} (h : FunctionsMoved stmts stmts') (ev : Evaluator)
include h

theorem block (scope : ScopeId) (labels : List String) :
    Eval.stmt ev (.block stmts) scope labels = Eval.stmt ev (.block stmts') scope labels :=
  congrArg (Eval.newChild scope >>= ·) (funext (h.runBody ev))

theorem runHandler (param : Option Pattern) (e : EvalError) (scope : ScopeId) :
    Eval.runHandler ev scope (.mk param stmts) e
      = Eval.runHandler ev scope (.mk param stmts') e := by
  simp only [Eval.runHandler, h.runBody ev]

theorem tries_block (handler : Option Handler) (finalizer : Option (List Stmt)) (scope : ScopeId) :
    Eval.tryStmt ev stmts handler finalizer scope
      = Eval.tryStmt ev stmts' handler finalizer scope := by
  simp only [Eval.tryStmt, Eval.tryCatch, h.runBody ev]

theorem tries_handler (block : List Stmt) (param : Option Pattern)
    (finalizer : Option (List Stmt)) (scope : ScopeId) :
    Eval.tryStmt ev block (some (.mk param stmts)) finalizer scope
      = Eval.tryStmt ev block (some (.mk param stmts')) finalizer scope := by
  simp only [Eval.tryStmt, Eval.tryCatch, h.runHandler ev]

theorem tries_finalizer (block : List Stmt) (handler : Option Handler) (scope : ScopeId) :
    Eval.tryStmt ev block handler (some stmts) scope
      = Eval.tryStmt ev block handler (some stmts') scope := by
  simp only [Eval.tryStmt, h.runBody ev]

theorem invoke (c : Closure) (this : Value) (args : List Value) :
    Eval.invoke ev (c.withBody stmts) this args = Eval.invoke ev (c.withBody stmts') this args := by
  have body (b : List Stmt) : (c.withBody b).node.body = .block b := rfl
  have params (b : List Stmt) : (c.withBody b).node.params = c.node.params := rfl
  simp only [Eval.invoke, body, params, h.runBody ev]
  rfl

theorem runProgram (host : Host) (n : Nat) (module : Option Value) (kind : SourceType) :
    Interpreter.runProgram host n module ⟨stmts, kind⟩
      = Interpreter.runProgram host n module ⟨stmts', kind⟩ := by
  simp only [Interpreter.runProgram, h.runBody]

end FunctionsMoved

/-- **It does not matter where functions are declared.**  If two lists of statements differ in the
places of their function declarations only, then to run the one is to run the other: in every state
both give the same completion or error and leave the same state.  The same holds for programs,
blocks, the parts of a `try`, and functions that have the one or the other as their body.  A call
of a function does what the function with the other body would do in its place. -/
theorem placement_of_functions_does_not_matter (host : Host) (n : Nat) {stmts stmts' : List Stmt}
    (h : FunctionsMoved stmts stmts') :
    let ev := Machine.evaluator host n
    (∀ scope, Eval.runBody ev stmts scope = Eval.runBody ev stmts' scope) ∧
    (∀ module kind, Interpreter.runProgram host n module ⟨stmts, kind⟩
      = Interpreter.runProgram host n module ⟨stmts', kind⟩) ∧
    (∀ scope labels, Machine.execStmt host (n + 1) (.block stmts) scope labels
      = Machine.execStmt host (n + 1) (.block stmts') scope labels) ∧
    (∀ handler finalizer scope labels,
      Machine.execStmt host (n + 1) (.tries stmts handler finalizer) scope labels
        = Machine.execStmt host (n + 1) (.tries stmts' handler finalizer) scope labels) ∧
    (∀ block param finalizer scope labels,
      Machine.execStmt host (n + 1) (.tries block (some (.mk param stmts)) finalizer) scope labels
        = Machine.execStmt host (n + 1) (.tries block (some (.mk param stmts')) finalizer) scope
            labels) ∧
    (∀ block handler scope labels,
      Machine.execStmt host (n + 1) (.tries block handler (some stmts)) scope labels
        = Machine.execStmt host (n + 1) (.tries block handler (some stmts')) scope labels) ∧
    ∀ (c : Closure) this args,
      Eval.invoke ev (c.withBody stmts) this args = Eval.invoke ev (c.withBody stmts') this args ∧
      ∀ id s, s.store.closure id = c.withBody stmts →
        Machine.callClosure host (n + 1) id this args s
          = Eval.framed c.displayName (Eval.invoke ev (c.withBody stmts') this args) s := by
  intro ev
  refine ⟨h.runBody ev, h.runProgram host n, h.block ev, ?_, ?_, ?_, fun c this args => ?_⟩
  · exact fun handler finalizer scope _ => h.tries_block ev handler finalizer scope
  · exact fun block param finalizer scope _ => h.tries_handler ev block param finalizer scope
  · exact fun block handler scope _ => h.tries_finalizer ev block handler scope
  · refine ⟨h.invoke ev c this args, fun id s hc => ?_⟩
    rw [← h.invoke ev c this args]
    calc Machine.callClosure host (n + 1) id this args s
        = Rule.callClosure (Machine.perform host n) id this args s :=
          congrFun (Machine.callClosure_eq_rule host n id this args) s
      _ = Eval.framed (s.store.closure id).displayName
            (Eval.invoke ev (s.store.closure id) this args) s := rfl
      _ = _ := by
        rw [hc]
        rfl

/-- A function may be called in front of its declaration, in a list of statements as in the body of
a function. -/
theorem call_before_its_declaration :
    let ev := Machine.evaluator Host.none 4
    let called : Body := .concise (.literal { value := .str "called" })
    let f : Function := .mk (some "f") [] called false false
    let call : Stmt := .returns (some (.call (.ident "f") []))
    let g : Closure := ⟨some "g", default, rootScope, .arrow, .empty⟩
    let s : State :=
      { store := { closures := #[g.withBody [.function f, call]] }, scopes := #[{}] }
    FunctionsMoved [.function f, call] [call, .function f] ∧
      (∃ s',
        Eval.runBody ev [.function f, call] rootScope s = .done (.returns (.str "called")) s' ∧
        Eval.runBody ev [call, .function f] rootScope s = .done (.returns (.str "called")) s') ∧
      ∃ s', Machine.callClosure Host.none 5 0 .undefined [] s = .done (.str "called") s' ∧
        Eval.framed "g" (Eval.invoke ev (g.withBody [call, .function f]) .undefined []) s
          = .done (.str "called") s' := by
  intro ev called f call g s
  have h : FunctionsMoved [.function f, call] [call, .function f] :=
    @FunctionsMoved.past f [] [call] [] (by simp [call, Stmt.declared?])
  obtain ⟨body, -, -, -, -, -, inside⟩ := placement_of_functions_does_not_matter Host.none 4 h
  refine ⟨h, ⟨_, rfl, (congrFun (body rootScope) s).symm.trans rfl⟩, _, rfl, ?_⟩
  exact ((inside g .undefined []).2 0 s rfl).symm.trans rfl

end Estree
