/-
Estree/Proofs/Assignment.lean

Assignment operators and updates, spelled out with `=`.

Both sides of each law are evaluated by rules of their own: `x op= e` reads its target and
goes on with the right side, `x = x op e` evaluates a whole expression and then writes.  Each
law is an equation of computations, so it holds in every state and for every outcome.  Only the
budgets differ, since the longer side nests its parts deeper: a part must have the same budget
on both sides.

The long forms are written down here and do not ask the operators what they do: `op=` is found
among the assignment operators by a table of its own (`ArithOp.compound`, `LogicalOp.compound`),
and it is the one whose symbol is that of `op` with `=` behind it; `++` adds and `--` subtracts.
That the evaluator, which asks `AssignOp.combining` and `UpdateOp.arith`, comes to the same is what
is proved.

The value of a name is read within any budget that is left, and that is why an update, which has
no parts but names and a literal, equals its long form whatever the two budgets are.

The laws of the logical operators need that the right side does not take the name of the
variable.  In `x = e` a function without a name of its own does, and in `x ??= e` it does not.
-/
import Estree.Proofs.Task

namespace Estree

/-! ### Long forms -/

/-- `op=` for an arithmetic operator. -/
def ArithOp.compound : ArithOp → AssignOp
  | .shl => .shl | .shr => .shr | .ushr => .ushr
  | .add => .add | .sub => .sub | .mul => .mul | .div => .div | .mod => .mod | .exp => .exp
  | .bitOr => .bitOr | .bitXor => .bitXor | .bitAnd => .bitAnd

/-- `op=` for a logical operator. -/
def LogicalOp.compound : LogicalOp → AssignOp
  | .or => .or | .and => .and | .coalesce => .coalesce

/-- `op=` is written as `op` with `=` behind it. -/
theorem ArithOp.symbol_compound (op : ArithOp) : op.compound.symbol = op.symbol ++ "=" := by
  cases op <;> rfl

theorem LogicalOp.symbol_compound (op : LogicalOp) : op.compound.symbol = op.symbol ++ "=" := by
  cases op <;> rfl

/-- `op=` combines the old value and the right side by `op`. -/
theorem ArithOp.combining_compound (op : ArithOp) : op.compound.combining = .arith op := by
  cases op <;> rfl

theorem LogicalOp.combining_compound (op : LogicalOp) : op.compound.combining = .logical op := by
  cases op <;> rfl

/-- Whether an expression takes the name of the variable that it is assigned to: an arrow function,
or a function expression without a name of its own. -/
def Expr.takesName : Expr → Bool
  | .arrow _ => true
  | .function f => f.id.isNone
  | _ => false

namespace Expr

variable (x : String) (e : Expr)

/-- `x = e`. -/
def assigned : Expr := .assign .replace (.ident x) e

/-- `x op e`, for a name and an arithmetic operator. -/
def combined (op : ArithOp) : Expr := .binary (.arith op) (.ident x) e

/-- `+x op 1`, for a name and an arithmetic operator. -/
def stepped (op : ArithOp) : Expr :=
  .binary (.arith op) (.unary .plus (.ident x)) (.literal { value := .num 1 })

end Expr

namespace Eval

variable {ev : Evaluator} {scope : ScopeId} {x : String} {e : Expr}

/-- An expression that takes no name is evaluated as if none were there. -/
theorem named_of_not_takesName (h : e.takesName = false) (x : String) :
    named ev e x scope = ev.expr e scope := by
  cases e with
  | function f =>
    have hf : ¬ f.id.isNone = true := Bool.eq_false_iff.1 h
    rw [named, if_neg hf]
  | arrow f => cases h
  | _ => rfl

/-- An assignment with `=` evaluates the right side and then writes. -/
theorem assignExpr_replace (h : e.takesName = false) :
    assignExpr ev scope .replace (.ident x) e = do
      let value ← ev.expr e scope
      assign scope x value
      return value :=
  congrArg (· >>= fun value => assign scope x value >>= fun _ => pure value)
    (named_of_not_takesName h x)

/-- A compound assignment reads the old value before the right side is evaluated. -/
theorem assignExpr_arith {assign' : AssignOp} {op : ArithOp} (h : assign'.combining = .arith op) :
    assignExpr ev scope assign' (.ident x) e = do
      let current ← query scope x
      let v ← ev.expr e scope
      let value ← onStore (Operator.arith op current v)
      assign scope x value
      return value := by
  unfold assignExpr
  rw [h]
  rfl

/-- A logical assignment stops at the old value, or it goes on with the right side. -/
theorem assignExpr_logical {assign' : AssignOp} {op : LogicalOp}
    (h : assign'.combining = .logical op) :
    assignExpr ev scope assign' (.ident x) e = do
      let current ← query scope x
      if Operator.goesOn op current then
        let value ← ev.expr e scope
        assign scope x value
        return value
      else return current := by
  unfold assignExpr
  rw [h]
  rfl

/-- The old value of a variable as a number. -/
def oldNumber (scope : ScopeId) (x : String) : Eval Float := do
  let current ← query scope x
  onStore (Convert.number current)

/-- `++x` and `x++` alike: the new value is written, and one of the two is given. -/
theorem updateExpr_eq (op : UpdateOp) (leading : Bool) :
    updateExpr ev scope op (.ident x) leading = do
      let old ← oldNumber scope x
      let new ← onStore (Operator.arith op.arith (.num old) (.num 1))
      assign scope x new
      return if leading then new else .num old :=
  (bind_assoc (query scope x) (fun current => onStore (Convert.number current)) _).symm

/-- To read the old value of a variable changes nothing. -/
theorem of_oldNumber {s s' : State} {old : Float} (h : oldNumber scope x s = .done old s') :
    s' = s ∧ ∃ current, s.scopes.query scope x = .ok current ∧
      s.store.number? current = some old := by
  unfold oldNumber at h
  rw [Run.bind_apply, query] at h
  cases hq : s.scopes.query scope x with
  | error e =>
    rw [hq] at h
    cases h
  | ok current =>
    rw [hq] at h
    dsimp only [onStore, Convert.number, Run.ofOption] at h
    cases hn : s.store.number? current with
    | none =>
      rw [hn] at h
      cases h
    | some x =>
      rw [hn] at h
      cases h
      exact ⟨rfl, current, rfl, hn⟩

end Eval

namespace Machine

variable (host : Host) (scope : ScopeId) (x : String)

theorem evalExpr_assign (n : Nat) (op : AssignOp) (e : Expr) :
    evalExpr host (n + 1) (.assign op (.ident x) e) scope
      = Eval.assignExpr (evaluator host n) scope op (.ident x) e :=
  rfl

/-- `x = e` evaluates `e` one level deeper and then writes. -/
theorem evalExpr_assigned (n : Nat) {e : Expr} (h : e.takesName = false) :
    evalExpr host (n + 1) (e.assigned x) scope = do
      let value ← evalExpr host n e scope
      Eval.assign scope x value
      return value :=
  Eval.assignExpr_replace h

/-- `x op e` reads the variable before the right side is evaluated. -/
theorem evalExpr_combined (n : Nat) (op : ArithOp) (e : Expr) :
    evalExpr host (n + 2) (e.combined x op) scope = (do
      let current ← Eval.query scope x
      let v ← evalExpr host (n + 1) e scope
      Eval.onStore (Operator.arith op current v)) :=
  rfl

/-- `+x op 1` applies the operator to the old value as a number. -/
theorem evalExpr_stepped (n : Nat) (op : ArithOp) :
    evalExpr host (n + 3) (.stepped x op) scope = (do
      let old ← Eval.oldNumber scope x
      Eval.onStore (Operator.arith op (.num old) (.num 1))) := by
  have plus (v : Value) : Eval.onStore (Operator.unary .plus v)
      = Eval.onStore (Convert.number v) >>= fun old => pure (.num old) :=
    Eval.onStore_bind (Convert.number v) _
  calc evalExpr host (n + 3) (.stepped x op) scope
      = (do
          let v ← Eval.query scope x
          Eval.onStore (Operator.unary .plus v)) >>=
            fun l => Eval.onStore (Operator.arith op l (.num 1)) := rfl
    _ = _ := by
      simp only [plus, Eval.oldNumber, bind_assoc, pure_bind]

/-- `x op= e` is `x = x op e`. -/
theorem arith_assignment (n : Nat) {assign : AssignOp} {op : ArithOp}
    (h : assign.combining = .arith op) (e : Expr) :
    evalExpr host (n + 2) (.assign assign (.ident x) e) scope
      = evalExpr host (n + 3) ((e.combined x op).assigned x) scope := by
  rw [evalExpr_assigned host scope x (n + 2) rfl, evalExpr_combined, evalExpr_assign,
    Eval.assignExpr_arith h]
  simp only [bind_assoc]
  rfl

/-- `x op= e` is `x op (x = e)`. -/
theorem logical_assignment (n : Nat) {assign : AssignOp} {op : LogicalOp}
    (hop : assign.combining = .logical op) {e : Expr} (h : e.takesName = false) :
    evalExpr host (n + 1) (.assign assign (.ident x) e) scope
      = evalExpr host (n + 2) (.logical op (.ident x) (e.assigned x)) scope := by
  rw [evalExpr_assign, Eval.assignExpr_logical hop]
  refine congrArg (Eval.query scope x >>= ·) (funext fun current => ?_)
  exact congrArg (fun m : Eval Value => if Operator.goesOn op current then m else pure current)
    (evalExpr_assigned host scope x n h).symm

/-- `++x` is `x = +x op 1` for the operator that the update applies. -/
theorem leading_update (n m : Nat) (op : UpdateOp) :
    evalExpr host (n + 1) (.update op (.ident x) true) scope
      = evalExpr host (m + 4) ((Expr.stepped x op.arith).assigned x) scope := by
  rw [evalExpr_assigned host scope x (m + 3) rfl, evalExpr_stepped, bind_assoc]
  exact Eval.updateExpr_eq op true

end Machine

/-! ### Trailing updates -/

/-- Whether a value is the old value of a variable, converted to a number. -/
def State.IsOld (s : State) (scope : ScopeId) (x : String) (v : Value) : Prop :=
  ∃ current old, s.scopes.query scope x = .ok current ∧ s.store.number? current = some old ∧
    v = .num old

/-- The outcome of `++x` beside that of `x++`: the same error and the same state, and if there is a
value, then one with the property `P` for the second. -/
inductive Outcome.Trails (P : Value → Prop) : Outcome State Value → Outcome State Value → Prop
  | done {v w : Value} {s : State} (h : P w) : Trails P (.done v s) (.done w s)
  | failed {e : EvalError} {s : State} : Trails P (.failed e s) (.failed e s)
  | endless : Trails P .endless .endless

/-- Two computations that begin alike and trail each other from there on. -/
theorem Outcome.Trails.bind {α : Type} {P : Value → Prop} {m : Eval α} {f f' : α → Eval Value}
    {s : State} (h : ∀ a s', m s = .done a s' → (f a s').Trails P (f' a s')) :
    ((m >>= f) s).Trails P ((m >>= f') s) := by
  cases hm : m s with
  | done a s' =>
    rw [Run.bind_done hm, Run.bind_done hm]
    exact h a s' hm
  | failed e s' =>
    rw [Run.bind_failed hm, Run.bind_failed hm]
    exact .failed
  | endless =>
    rw [Run.bind_endless hm, Run.bind_endless hm]
    exact .endless

/-- `x++` writes what `++x` does and gives the old value. -/
theorem Eval.updateExpr_trails (ev : Evaluator) (scope : ScopeId) (x : String) (op : UpdateOp)
    (s : State) :
    (updateExpr ev scope op (.ident x) true s).Trails (s.IsOld scope x)
      (updateExpr ev scope op (.ident x) false s) := by
  rw [updateExpr_eq, updateExpr_eq]
  refine .bind fun old s' hold => ?_
  obtain ⟨rfl, current, hq, hn⟩ := of_oldNumber hold
  -- from here on both do the same, up to the value that is given at the end
  refine .bind fun new s₁ _ => ?_
  refine .bind fun _ s₂ _ => ?_
  exact .done ⟨current, old, hq, hn, rfl⟩

/-! ### All assignment operators -/

/-- **Assignment operators are short forms.**  Each arithmetic and each logical operator `op` has an
assignment operator that is written `op=`.  On a name, `x op= e` for an arithmetic operator is the
same computation as `x = x op e`, and for a logical operator it is the same as `x op (x = e)` if `e`
does not take the name of the variable.  `++x` is the same as `x = +x + 1`, and `--x` as
`x = +x - 1`.  `x++` and `x--` fail as those do and leave the same state, but they give the old
value of the variable, converted to a number. -/
theorem assignment_operators_are_short_forms (host : Host) (scope : ScopeId) (x : String) :
    (∀ op : ArithOp, op.compound.symbol = op.symbol ++ "=" ∧ ∀ (e : Expr) (n : Nat),
      Machine.evalExpr host (n + 2) (.assign op.compound (.ident x) e) scope
        = Machine.evalExpr host (n + 3) ((e.combined x op).assigned x) scope) ∧
    (∀ op : LogicalOp, op.compound.symbol = op.symbol ++ "=" ∧
      ∀ (e : Expr) (n : Nat), e.takesName = false →
        Machine.evalExpr host (n + 1) (.assign op.compound (.ident x) e) scope
          = Machine.evalExpr host (n + 2) (.logical op (.ident x) (e.assigned x)) scope) ∧
    (∀ n m : Nat,
      Machine.evalExpr host (n + 1) (.update .increment (.ident x) true) scope
        = Machine.evalExpr host (m + 4) ((Expr.stepped x .add).assigned x) scope ∧
      Machine.evalExpr host (n + 1) (.update .decrement (.ident x) true) scope
        = Machine.evalExpr host (m + 4) ((Expr.stepped x .sub).assigned x) scope) ∧
    ∀ (op : UpdateOp) (n : Nat) (s : State),
      (Machine.evalExpr host (n + 1) (.update op (.ident x) true) scope s).Trails (s.IsOld scope x)
        (Machine.evalExpr host (n + 1) (.update op (.ident x) false) scope s) := by
  refine ⟨?_, ?_, ?_, ?_⟩
  · intro op
    exact ⟨op.symbol_compound, fun e n =>
      Machine.arith_assignment host scope x n op.combining_compound e⟩
  · intro op
    exact ⟨op.symbol_compound, fun e n h =>
      Machine.logical_assignment host scope x n op.combining_compound h⟩
  · intro n m
    exact ⟨Machine.leading_update host scope x n m .increment,
      Machine.leading_update host scope x n m .decrement⟩
  · intro op n s
    exact Eval.updateExpr_trails (Machine.evaluator host n) scope x op s

/-- A right side that assigns to the variable itself is evaluated once and has the last word, in
`x ??= (x = "first", "second")` as in `x ?? (x = (x = "first", "second"))`. -/
theorem right_side_has_the_last_word :
    let text (t : String) : Expr := .literal { value := .str t }
    let e : Expr := .sequence [(text "first").assigned "x", text "second"]
    let s (v : Value) : State := { scopes := #[{ vars := Table.ofList [("x", v)] }] }
    e.takesName = false ∧
      Machine.evalExpr Host.none 4 (.assign .coalesce (.ident "x") e) rootScope (s .null)
        = .done (.str "second") (s (.str "second")) ∧
      Machine.evalExpr Host.none 5 (.logical .coalesce (.ident "x") (e.assigned "x")) rootScope
        (s .null) = .done (.str "second") (s (.str "second")) := by
  intro text e s
  have short : Machine.evalExpr Host.none 4 (.assign .coalesce (.ident "x") e) rootScope
      (s .null) = .done (.str "second") (s (.str "second")) := rfl
  obtain ⟨-, logical, -, -⟩ := assignment_operators_are_short_forms Host.none rootScope "x"
  exact ⟨rfl, short, (logical .coalesce).2 e 3 rfl ▸ short⟩

end Estree
