/-
Estree/Proofs/Incremental.lean

Two programs run one after the other, and the program that has the statements of both.

A list of statements is run in two passes, and both take lists apart: the functions of
`ss ++ ts` are declared list by list (`hoist_append`), and the statements of `ts` are run if those
of `ss` have completed normally (`runHoisted_append`).  What keeps the passes from taking a whole
body apart is that the functions of `ts` are declared before anything of `ss` is run, and that an
empty `ts` completes with undefined.  If `ts` has statements but declares no functions, its first
pass does nothing and its second one forgets the value it begins with, and a body is its parts
one after the other (`runBody_append`).
-/
import Estree.Proofs.Task

namespace Estree

namespace Completion

/-- Go on after a normal completion; pass a signal on. -/
def andThen (next : Value → Eval Completion) : Completion → Eval Completion
  | .normal value => next value
  | signal => pure signal

end Completion

namespace Eval

variable {ev : Evaluator} {scope : ScopeId}

/-! ### The two passes -/

theorem hoist_append (scope : ScopeId) (ss ts : List Stmt) :
    hoist scope (ss ++ ts) = hoist scope ss >>= fun _ => hoist scope ts := by
  induction ss with
  | nil => rfl
  | cons s ss ih =>
    cases s with
    | function f =>
      show (declareFunction f scope >>= fun _ => hoist scope (ss ++ ts)) = _
      rw [ih, ← bind_assoc]
      rfl
    | _ => exact ih

/-- Without function declarations there is nothing to declare. -/
theorem hoist_of_no_function {ts : List Stmt} (h : ∀ f, Stmt.function f ∉ ts) :
    hoist scope ts = pure () := by
  induction ts with
  | nil => rfl
  | cons t ts ih =>
    have ih := ih fun f hf => h f (List.mem_cons_of_mem _ hf)
    cases t with
    | function f => exact absurd List.mem_cons_self (h f)
    | _ => exact ih

theorem runHoisted_append (ev : Evaluator) (scope : ScopeId) (ss ts : List Stmt) (last : Value) :
    runHoisted ev scope (ss ++ ts) last
      = runHoisted ev scope ss last >>= Completion.andThen (runHoisted ev scope ts) := by
  induction ss generalizing last with
  | nil => rfl
  | cons s ss ih =>
    -- a declaration is passed over; after any other statement the rest is reached by a value only
    cases s with
    | function f => exact ih last
    | _ =>
      refine Eq.trans ?_ (bind_assoc _ _ _).symm
      refine congrArg (_ >>= ·) (funext fun completion => ?_)
      cases completion with
      | normal value => exact ih value
      | _ => rfl

/-- The value that comes before a statement is forgotten. -/
theorem runHoisted_forgets {ts : List Stmt} (hne : ts ≠ []) (h : ∀ f, Stmt.function f ∉ ts)
    (last last' : Value) : runHoisted ev scope ts last = runHoisted ev scope ts last' := by
  cases ts with
  | nil => exact absurd rfl hne
  | cons t ts =>
    cases t with
    | function f => exact absurd List.mem_cons_self (h f)
    | _ => rfl

/-- A body is its parts one after the other, if the second has statements but declares no
function. -/
theorem runBody_append (ev : Evaluator) (scope : ScopeId) (ss : List Stmt) {ts : List Stmt}
    (hne : ts ≠ []) (h : ∀ f, Stmt.function f ∉ ts) :
    runBody ev (ss ++ ts) scope
      = runBody ev ss scope >>= Completion.andThen fun _ => runBody ev ts scope := by
  have hts (value : Value) : runHoisted ev scope ts value = runBody ev ts scope := by
    rw [runBody, hoist_of_no_function h]
    exact runHoisted_forgets hne h value .undefined
  calc runBody ev (ss ++ ts) scope
      = hoist scope ss >>= fun _ =>
          runHoisted ev scope ss .undefined >>= Completion.andThen (runHoisted ev scope ts) := by
        rw [runBody, hoist_append, hoist_of_no_function h, bind_assoc, runHoisted_append]
        rfl
    _ = runBody ev ss scope >>= Completion.andThen (runHoisted ev scope ts) :=
        (bind_assoc _ _ _).symm
    _ = _ := by rw [funext hts]

end Eval

/-! ### Programs -/

namespace Interpreter

variable {host : Host} {budget : Nat} {p : Program} {s s' : State}

/-- If the statements of a program complete normally, the program gives their value. -/
theorem runProgram_of_normal {value : Value}
    (h : Eval.runBody (Machine.evaluator host budget) p.body rootScope s
      = .done (.normal value) s') :
    runProgram host budget none p s = .done value s' := by
  rw [runProgram, Run.bind_done h]
  rfl

/-- A program fails in two ways: a statement fails, or a jump leaves the program. -/
theorem runProgram_failed {e : EvalError} (h : runProgram host budget none p s = .failed e s') :
    Eval.runBody (Machine.evaluator host budget) p.body rootScope s = .failed e s' ∨
    ∃ signal, Eval.runBody (Machine.evaluator host budget) p.body rootScope s = .done signal s' ∧
      programResult signal s' = .failed e s' := by
  rw [runProgram] at h
  cases hb : Eval.runBody (Machine.evaluator host budget) p.body rootScope s with
  | failed e₁ s₁ =>
    rw [Run.bind_failed hb] at h
    cases h
    exact .inl rfl
  | endless =>
    rw [Run.bind_endless hb] at h
    cases h
  | done signal s₁ =>
    rw [Run.bind_done hb] at h
    -- a signal that leaves the program is an error for jumps alone
    cases signal with
    | normal value => cases h
    | returns value => cases h
    | breaks label =>
      cases h
      exact .inr ⟨_, rfl, rfl⟩
    | continues label =>
      cases h
      exact .inr ⟨_, rfl, rfl⟩

/-- **Incremental runs equal one run.**  Let a program have statements, none of which declares a
function, and let it be run after another one on an interpreter in script mode.  If the statements
of the first complete normally, the first run gives their value, and the second run does what one
run of the statements of both does: it gives the same value or error and leaves the same scopes,
store and console, or neither ends.  If the first run fails, the run of both fails with the same
error in the same state. -/
theorem incremental_runs_equal_one_run (host : Host) (budget : Nat) {p q joined : Program}
    (hjoined : joined.body = p.body ++ q.body) (hne : q.body ≠ [])
    (hq : ∀ f, Stmt.function f ∉ q.body) (s : State) :
    (∀ value s', Eval.runBody (Machine.evaluator host budget) p.body rootScope s
        = .done (.normal value) s' →
      runProgram host budget none p s = .done value s' ∧
        runProgram host budget none q s' = runProgram host budget none joined s) ∧
    (∀ e s', runProgram host budget none p s = .failed e s' →
      runProgram host budget none joined s = .failed e s') := by
  have hbody := Eval.runBody_append (Machine.evaluator host budget) rootScope p.body hne hq
  rw [← hjoined] at hbody
  refine ⟨fun value s' h => ⟨runProgram_of_normal h, ?_⟩, fun e s' h => ?_⟩
  · rw [runProgram, runProgram, hbody, bind_assoc, Run.bind_done h]
    rfl
  · rw [runProgram, hbody, bind_assoc]
    obtain h | ⟨signal, h, hf⟩ := runProgram_failed h
    · rw [Run.bind_failed h]
    · -- a jump that leaves the first program is passed on past the second
      rw [Run.bind_done h]
      cases signal with
      | normal value => cases hf
      | returns value => cases hf
      | breaks label => exact hf
      | continues label => exact hf

/-- A name that is declared in one run and read in the next, and one that is read too early. -/
theorem second_run_reads_what_the_first_declared :
    let declaring : Program := ⟨[.variables .const [.mk (.ident "a") (some (.object []))]], .script⟩
    let reading : Program := ⟨[.expression (.ident "a")], .script⟩
    let both : Program := ⟨declaring.body ++ reading.body, .script⟩
    let early : Program := ⟨reading.body ++ declaring.body, .script⟩
    ∃ i s₀ s e, build {} {} = .done i s₀ ∧
      runProgram Host.none 9 none declaring s₀ = .done .undefined s ∧
      runProgram Host.none 9 none reading s = .done (.object 0) s ∧
      runProgram Host.none 9 none both s₀ = .done (.object 0) s ∧
      runProgram Host.none 9 none early s₀ = .failed e s₀ := by
  intro declaring reading both early
  obtain ⟨i, s₀, s, e, hbuild, hdeclare, hread, hearly⟩ : ∃ i s₀ s e,
      build {} {} = .done i s₀ ∧
      Eval.runBody (Machine.evaluator Host.none 9) declaring.body rootScope s₀
        = .done (.normal .undefined) s ∧
      runProgram Host.none 9 none reading s = .done (.object 0) s ∧
      runProgram Host.none 9 none reading s₀ = .failed e s₀ :=
    ⟨_, _, _, _, rfl, rfl, rfl, rfl⟩
  have hjoined : both.body = declaring.body ++ reading.body := rfl
  have hswapped : early.body = reading.body ++ declaring.body := rfl
  obtain ⟨hdone, hboth⟩ := (incremental_runs_equal_one_run Host.none 9 hjoined
    (by simp [reading]) (by simp [reading]) s₀).1 _ _ hdeclare
  have hfailed := (incremental_runs_equal_one_run Host.none 9 hswapped
    (by simp [declaring]) (by simp [declaring]) s₀).2 _ _ hearly
  exact ⟨i, s₀, s, e, hbuild, hdone, hread, hboth ▸ hread, hfailed⟩

end Interpreter

end Estree
