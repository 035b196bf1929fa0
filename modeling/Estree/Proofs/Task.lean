/-
Estree/Proofs/Task.lean

Everything that is evaluated, as one type.

A `Task` is an expression, a statement, a call and so on together with all it is evaluated
with, except for the state; a `Performer` knows an outcome for every task and state.  What one
level of evaluation does is then one function from performers to performers (`rule`), and
the evaluator with a budget is a performer too (`Machine.perform`): the latter is `rule` of
itself, with the budget one smaller where a budget is spent (`perform_eq_rule`).

`rule` leaves to the performer more than the rules of the evaluator leave to an
`Evaluator`: also the parts around which errors are taken up.  These are the block, the
handler and the finalizer of a `try`, and the inside of a called function.  So whatever can
fail inside of a guard is a task of its own.
-/
import Estree.Interpreter

namespace Estree

/-! ### Guards -/

namespace Run

variable {σ α β : Type}

/-- Go on after a value in one way and after a catchable error in another; pass on a fatal
error. -/
def recover (m : Run σ α) (next : α → Run σ β) (handler : EvalError → Run σ β) : Run σ β := do
  match ← attempt m with
  | .ok a => next a
  | .error e => if e.isCatchable then handler e else fail e

variable {m : Run σ α} {f next : α → Run σ β} {handler : EvalError → Run σ β}
variable {s s' : σ} {a : α} {e : EvalError}

/-- Two steps in a row, by the outcome of the first. -/
theorem bind_apply (m : Run σ α) (f : α → Run σ β) (s : σ) :
    (m >>= f) s = match m s with
      | .done a s' => f a s'
      | .failed e s' => .failed e s'
      | .endless => .endless := rfl

instance lawfulMonad : LawfulMonad (Run σ) :=
  LawfulMonad.mk' _
    (fun m => funext fun s => by
      show (m >>= pure) s = m s
      rw [bind_apply]
      cases m s <;> rfl)
    (fun _ _ => rfl)
    fun m f g => funext fun s => by
      rw [bind_apply, bind_apply, bind_apply]
      cases m s <;> rfl

theorem bind_done (h : m s = .done a s') : (m >>= f) s = f a s' := by
  rw [bind_apply, h]

theorem bind_failed (h : m s = .failed e s') : (m >>= f) s = .failed e s' := by
  rw [bind_apply, h]

theorem bind_endless (h : m s = .endless) : (m >>= f) s = .endless := by
  rw [bind_apply, h]

/-- Steps that each give a value and leave the state alone do so one after the other. -/
theorem mapM_done {l : List α} {g : α → β} (h : ∀ a ∈ l, f a s = .done (g a) s) :
    l.mapM f s = .done (l.map g) s := by
  induction l with
  | nil => rfl
  | cons a l ih =>
    obtain ⟨ha, hl⟩ := List.forall_mem_cons.1 h
    rw [List.mapM_cons, bind_done ha, bind_done (ih hl)]
    rfl

/-- A recovery goes on with the value of what did not fail. -/
theorem recover_done (h : m s = .done a s') : recover m next handler s = next a s' := by
  rw [recover, bind_apply, attempt, h]

/-- A recovery hands a failure that programs can catch to its handler. -/
theorem recover_failed (h : m s = .failed e s') (he : e.isCatchable = true) :
    recover m next handler s = handler e s' := by
  rw [recover, bind_apply, attempt, h]
  dsimp only
  rw [if_pos he]

/-- A recovery lets a fatal failure through, with the state as it was left. -/
theorem recover_fatal (h : m s = .failed e s') (he : e.isCatchable = false) :
    recover m next handler s = .failed e s' := by
  rw [recover, bind_apply, attempt, h]
  dsimp only
  rw [if_neg (Bool.eq_false_iff.1 he)]
  rfl

theorem recover_endless (h : m s = .endless) : recover m next handler s = .endless := by
  rw [recover, bind_apply, attempt, h]

end Run

namespace State

/-- The state in which a function of the given name has just been entered. -/
def entered (s : State) (name : String) : State :=
  { s with calls := { s.calls with frames := s.calls.frames.push name } }

/-- The state after the innermost function has been left. -/
def left (s : State) : State :=
  { s with calls := s.calls.pop }

end State

namespace Eval

variable {α : Type}

/-- Computations on the store alone follow each other like those on the state. -/
theorem onStore_bind {β : Type} (m : Run Store α) (f : α → Run Store β) :
    onStore (m >>= f) = onStore m >>= fun a => onStore (f a) := by
  funext s
  rw [Run.bind_apply]
  unfold onStore
  dsimp only
  rw [Run.bind_apply]
  cases m s.store <;> rfl

/-- Run something as the inside of a function of the given name. -/
def framed (name : String) (m : Eval α) : Eval α := do
  enter name
  match ← Run.attempt m with
  | .ok value =>
    leave
    pure value
  | .error e =>
    let e ← withBacktrace e
    leave
    Run.fail e

/-- The error of a call that is refused. -/
def refusal (calls : CallStack) : EvalError :=
  calls.attach { cause := .tooDeep (calls.limit.getD 0) }

/-- A full stack refuses the call and keeps the state. -/
theorem enter_of_full {s : State} (h : s.calls.isFull = true) (name : String) :
    enter name s = .failed (refusal s.calls) s := by
  simp [enter, CallStack.push, h, refusal]

/-- Otherwise the call opens one frame. -/
theorem enter_of_not_full {s : State} (h : s.calls.isFull = false) (name : String) :
    enter name s = .done () (s.entered name) := by
  simp [enter, CallStack.push, h, State.entered]

/-- A refused call runs nothing. -/
theorem framed_of_full {s : State} (h : s.calls.isFull = true) (name : String) (m : Eval α) :
    framed name m s = .failed (refusal s.calls) s := by
  rw [framed, Run.bind_failed (enter_of_full h name)]

/-! Any other call runs the inside one frame deeper and takes that frame away again. -/

variable {m : Eval α} {name : String} {s s' : State}

/-- The frame of a call that returns is closed. -/
theorem framed_done (hs : s.calls.isFull = false) {a : α} (h : m (s.entered name) = .done a s') :
    framed name m s = .done a s'.left := by
  rw [framed, Run.bind_done (enter_of_not_full hs name), Run.bind_apply, Run.attempt, h]
  rfl

/-- The frame of a call that fails is closed too, after the backtrace was attached. -/
theorem framed_failed (hs : s.calls.isFull = false) {e : EvalError}
    (h : m (s.entered name) = .failed e s') :
    framed name m s = .failed (s'.calls.attach e) s'.left := by
  rw [framed, Run.bind_done (enter_of_not_full hs name), Run.bind_apply, Run.attempt, h]
  rfl

theorem framed_endless (hs : s.calls.isFull = false) (h : m (s.entered name) = .endless) :
    framed name m s = .endless := by
  rw [framed, Run.bind_done (enter_of_not_full hs name), Run.bind_apply, Run.attempt, h]

/-- A call that does not return has entered the function, and the inside does not return. -/
theorem of_framed_endless (h : framed name m s = .endless) :
    s.calls.isFull = false ∧ m (s.entered name) = .endless := by
  cases hs : s.calls.isFull with
  | true => cases (framed_of_full hs name m).symm.trans h
  | false =>
    refine ⟨rfl, ?_⟩
    cases ho : m (s.entered name) with
    | done a s' => cases (framed_done hs ho).symm.trans h
    | failed e s' => cases (framed_failed hs ho).symm.trans h
    | endless => rfl

/-- A call that is not refused fails if the inside does, with the error that came out of it. -/
theorem of_framed_failed (hs : s.calls.isFull = false) {e : EvalError}
    (h : framed name m s = .failed e s') :
    ∃ e₁ s₁, m (s.entered name) = .failed e₁ s₁ ∧ e = s₁.calls.attach e₁ ∧ s' = s₁.left := by
  cases ho : m (s.entered name) with
  | done a s₁ => cases (framed_done hs ho).symm.trans h
  | failed e₁ s₁ =>
    cases (framed_failed hs ho).symm.trans h
    exact ⟨e₁, s₁, rfl, rfl, rfl⟩
  | endless => cases (framed_endless hs ho).symm.trans h

/-- What a call does depends on the inside one frame deeper. -/
theorem framed_congr {m' : Eval α} (h : m (s.entered name) = m' (s.entered name)) :
    framed name m s = framed name m' s := by
  cases hs : s.calls.isFull with
  | true => rw [framed_of_full hs, framed_of_full hs]
  | false =>
    generalize ho : m' (s.entered name) = o at h
    cases o with
    | done a s' => rw [framed_done hs h, framed_done hs ho]
    | failed e s' => rw [framed_failed hs h, framed_failed hs ho]
    | endless => rw [framed_endless hs h, framed_endless hs ho]

end Eval

/-! ### Tasks -/

/-- What can be evaluated. -/
inductive Task where
  | expr (e : Expr) (scope : ScopeId)
  | stmt (s : Stmt) (scope : ScopeId) (labels : List String)
  /-- A call of a function of the program, by place. -/
  | call (id : ClosureId) (this : Value) (args : List Value)
  /-- A list of statements: the block or the finalizer of a `try`. -/
  | body (stmts : List Stmt) (scope : ScopeId)
  /-- The handler of a `try`, on an error. -/
  | handler (h : Handler) (e : EvalError) (scope : ScopeId)
  /-- The inside of a called function: its parameters, then its body. -/
  | invoke (c : Closure) (this : Value) (args : List Value)
  /-- A call of any value. -/
  | apply (callee this : Value) (args : List Value)
  | construct (callee : Value) (args : List Value)
  /-- A whole program, with the module object in module mode. -/
  | program (module : Option Value) (p : Program)
  /-- To go on with a loop that has run as many rounds as it may.  The evaluator never returns from
  this; as a task of its own it can be told from all else that does not return. -/
  | spent

namespace Task

/-- What a task gives. -/
@[reducible]
def Result : Task → Type
  | expr _ _ | call _ _ _ | invoke _ _ _ | apply _ _ _ | construct _ _ | program _ _ => Value
  | stmt _ _ _ | body _ _ | handler _ _ _ => Completion
  | spent => Empty

/-- How much of a budget a task spends. -/
def cost : Task → Nat
  | expr _ _ | stmt _ _ _ | call _ _ _ | spent => 1
  | body _ _ | handler _ _ _ | invoke _ _ _ | apply _ _ _ | construct _ _ | program _ _ => 0

end Task

/-- A way to perform every task. -/
abbrev Performer := (t : Task) → Eval t.Result

namespace Performer

/-- The evaluator that asks a performer. -/
def evaluator (p : Performer) (rounds : Nat) : Evaluator where
  expr e scope := p (.expr e scope)
  stmt s scope labels := p (.stmt s scope labels)
  call id this args := p (.call id this args)
  rounds := rounds
  spent := p .spent >>= nofun

end Performer

/-! ### One level -/

namespace Rule

/-- The `try` and `catch` parts over a performer. -/
def tryCatch (p : Performer) (block : List Stmt) (handler : Option Handler) (scope : ScopeId) :
    Eval Completion := do
  let inner ← Eval.newChild scope
  match handler with
  | none => p (.body block inner)
  | some h => Run.recover (p (.body block inner)) pure fun e => p (.handler h e scope)

/-- A `try` over a performer. -/
def tryStmt (p : Performer) (block : List Stmt) (handler : Option Handler)
    (finalizer : Option (List Stmt)) (scope : ScopeId) : Eval Completion :=
  match finalizer with
  | none => tryCatch p block handler scope
  | some body =>
    let final := do
      let inner ← Eval.newChild scope
      p (.body body inner)
    Run.recover (tryCatch p block handler scope) (fun _ => final) fun _ => final

/-- A call over a performer. -/
def callClosure (p : Performer) (id : ClosureId) (this : Value) (args : List Value) :
    Eval Value := do
  let c ← Run.read fun s => s.store.closure id
  Eval.framed c.displayName (p (.invoke c this args))

/-- A program over a performer. -/
def runProgram (p : Performer) (rounds : Nat) (module : Option Value) (q : Program) :
    Eval Value := do
  let completion ← Eval.runBody (p.evaluator rounds) q.body rootScope
  let value ← Interpreter.programResult completion
  match module with
  | some m => Eval.onStore (Property.get m "exports")
  | none => return value

end Rule

/-- One level of evaluation: how a task is performed when its parts are left to a performer and
loops may run the given number of rounds. -/
def rule (host : Host) (rounds : Nat) (p : Performer) : Performer
  | .expr e scope => Eval.expr host (p.evaluator rounds) e scope
  | .stmt s scope labels =>
    match s with
    | .tries block handler finalizer => Rule.tryStmt p block handler finalizer scope
    | s => Eval.stmt (p.evaluator rounds) s scope labels
  | .call id this args => Rule.callClosure p id this args
  | .body stmts scope => Eval.runBody (p.evaluator rounds) stmts scope
  | .handler h e scope => Eval.runHandler (p.evaluator rounds) scope h e
  | .invoke c this args => Eval.invoke (p.evaluator rounds) c this args
  | .apply callee this args => Eval.callValue host (p.evaluator rounds) callee this args
  | .construct callee args => Eval.construct host (p.evaluator rounds) callee args
  | .program module q => Rule.runProgram p rounds module q
  | .spent => Run.endless

namespace Machine

/-- The evaluator with a given budget, as a performer. -/
def perform (host : Host) (budget : Nat) : Performer
  | .expr e scope => evalExpr host budget e scope
  | .stmt s scope labels => execStmt host budget s scope labels
  | .call id this args => callClosure host budget id this args
  | .body stmts scope => Eval.runBody (evaluator host budget) stmts scope
  | .handler h e scope => Eval.runHandler (evaluator host budget) scope h e
  | .invoke c this args => Eval.invoke (evaluator host budget) c this args
  | .apply callee this args => Interpreter.callFunction host budget callee this args
  | .construct callee args => Interpreter.construct host budget callee args
  | .program module p => Interpreter.runProgram host budget module p
  | .spent => Run.endless

variable (host : Host) (n : Nat)

/-- The evaluator's `try` with a handler is the rule, with the evaluator asked for the parts. -/
theorem tryCatch_eq_rule (block : List Stmt) (handler : Option Handler) (scope : ScopeId) :
    Eval.tryCatch (evaluator host n) block handler scope
      = Rule.tryCatch (perform host n) block handler scope := by
  cases handler with
  | none => rfl
  | some h =>
    refine congrArg (Eval.newChild scope >>= ·) (funext fun inner => ?_)
    refine congrArg (Run.attempt (Eval.runBody (evaluator host n) block inner) >>= ·)
      (funext fun result => ?_)
    cases result <;> rfl

/-- The evaluator's `try` statement is the rule, with the evaluator asked for the parts. -/
theorem tryStmt_eq_rule (block : List Stmt) (handler : Option Handler)
    (finalizer : Option (List Stmt)) (scope : ScopeId) :
    Eval.tryStmt (evaluator host n) block handler finalizer scope
      = Rule.tryStmt (perform host n) block handler finalizer scope := by
  cases finalizer with
  | none => exact tryCatch_eq_rule host n block handler scope
  | some body =>
    simp only [Eval.tryStmt, Rule.tryStmt, tryCatch_eq_rule]
    refine congrArg (Run.attempt (Rule.tryCatch (perform host n) block handler scope) >>= ·)
      (funext fun result => ?_)
    cases result <;> rfl

/-- The evaluator's call of a closure is the rule, with the evaluator asked for the parts. -/
theorem callClosure_eq_rule (id : ClosureId) (this : Value) (args : List Value) :
    Eval.callClosure (evaluator host n) id this args
      = Rule.callClosure (perform host n) id this args := by
  refine congrArg (Run.read (fun s : State => s.store.closure id) >>= ·) (funext fun c => ?_)
  refine congrArg (Eval.enter c.displayName >>= ·) (funext fun _ => ?_)
  refine congrArg (Run.attempt (Eval.invoke (evaluator host n) c this args) >>= ·)
    (funext fun result => ?_)
  cases result <;> rfl

/-- The evaluator performs a task by one level over itself. -/
theorem perform_eq_rule (t : Task) :
    perform host (n + t.cost) t = rule host n (perform host n) t := by
  -- only `try` and calls are composed otherwise than in the evaluator
  cases t with
  | stmt s scope labels =>
    cases s with
    | tries block handler finalizer => exact tryStmt_eq_rule host n block handler finalizer scope
    | _ => rfl
  | call id this args => exact callClosure_eq_rule host n id this args
  | _ => rfl

/-- Without a budget nothing is performed that spends one. -/
theorem perform_zero {t : Task} (h : t.cost = 1) : perform host 0 t = Run.endless := by
  cases t <;> first | rfl | cases h

end Machine

end Estree
