/-
Estree/Eval/Machine.lean

The evaluator itself.  With budget `n + 1` a node is evaluated by the rules of one level, its
parts with budget `n`; with budget 0 nothing is, and the outcome is `endless`.  A run ends if
it does so with some budget, and then it does the same with every larger one.

The budget is what makes the evaluator a function that can be defined by recursion; it is no part of
the language.  It is spent by expressions, statements and calls alike, one for each level that the
evaluation goes down, so that a recursion without end runs out of it; and a loop may take as many
rounds as there is budget left.
-/
import Estree.Eval.Statement

namespace Estree

namespace Machine

mutual

/-- Evaluate an expression within a budget. -/
def evalExpr (host : Host) : Nat → Expr → ScopeId → Eval Value
  | 0, _, _ => Run.endless
  | n + 1, e, scope =>
    Eval.expr host
      { expr := evalExpr host n, stmt := execStmt host n, call := callClosure host n,
        rounds := n, spent := Run.endless }
      e scope

/-- Execute a statement within a budget. -/
def execStmt (host : Host) : Nat → Stmt → ScopeId → List String → Eval Completion
  | 0, _, _, _ => Run.endless
  | n + 1, s, scope, labels =>
    Eval.stmt
      { expr := evalExpr host n, stmt := execStmt host n, call := callClosure host n,
        rounds := n, spent := Run.endless }
      s scope labels

/-- Call a function of the program within a budget. -/
def callClosure (host : Host) : Nat → ClosureId → Value → List Value → Eval Value
  | 0, _, _, _ => Run.endless
  | n + 1, id, this, args =>
    Eval.callClosure
      { expr := evalExpr host n, stmt := execStmt host n, call := callClosure host n,
        rounds := n, spent := Run.endless }
      id this args

end

/-- The evaluator with a given budget. -/
def evaluator (host : Host) (budget : Nat) : Evaluator where
  expr := evalExpr host budget
  stmt := execStmt host budget
  call := callClosure host budget
  rounds := budget
  spent := Run.endless

end Machine

end Estree
