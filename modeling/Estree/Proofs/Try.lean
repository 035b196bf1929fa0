/-
Estree/Proofs/Try.lean

Two laws of `try`.

A handler that does nothing but throw again what it is given adds nothing to the block
(`Rethrown`): what is not for a handler passes it by, and a thrown value goes on as it came.  Any
other error that can be caught has become an error object on the way.  What is left of the handler
is the scope in which it bound the error, and nothing leads to that scope any more
(`State.Unreferenced`): functions are made in scopes that are in reach, and the handler makes none.

A finalizer is a block that is executed where the statement without it has ended, unless that has
failed fatally (`Finalized`).  Nothing of what came before it is remembered.
-/
import Estree.Proofs.WellScoped

namespace Estree

variable {host : Host} {n : Nat} {s s' : State} {scope : ScopeId} {name : String} {v : Value}

/-! ### What a handler is given -/

/-- Causes that are not thrown values. -/
def Cause.isOwn : Cause → Bool
  | .thrown _ => false
  | _ => true

theorem EvalError.eq_thrown {e : EvalError} (h : e.cause.isOwn = false) :
    ∃ v b, e = ⟨.thrown v, b⟩ := by
  obtain ⟨cause, b⟩ := e
  cases cause with
  | thrown v => exact ⟨v, b, rfl⟩
  | _ => cases h

/-- Only the wording of a thrown value depends on the wording of values. -/
theorem Cause.message_congr {cause : Cause} (h : cause.isOwn = true) (text text' : Value → String) :
    cause.message text = cause.message text' := by
  cases cause with
  | thrown _ => cases h
  | _ => rfl

/-- The error object for a cause. -/
def Cause.errorObject (cause : Cause) (text : Value → String) : Object where
  props := Table.ofList
    [("name", .str cause.errorName), ("message", .str (cause.message text))]
  brand := .error cause.errorName

/-- The state with one more object. -/
def State.withObject (s : State) (o : Object) : State :=
  { s with store := { s.store with objects := s.store.objects.push o } }

/-- The state with a scope below another in which one variable is bound. -/
def State.binding (s : State) (parent : ScopeId) (name : String) (v : Value) : State :=
  s.opened { parent := some parent, vars := Table.ofList [(name, v)] }

/-- A handler that throws again what it is given. -/
def Handler.rethrowing (name : String) : Handler :=
  .mk (some (.ident name)) [.throws (.ident name)]

namespace Scopes

/-- A name that a scope binds itself is looked up there. -/
theorem query_of_valueHere {ss : Scopes} {id : ScopeId} (hid : id < ss.size)
    (h : (ss.scope id).valueHere name = some v) : ss.query id name = .ok v := by
  obtain ⟨n, hn⟩ := Nat.exists_eq_add_of_lt hid
  have hl : ss.nearest (fun s => s.valueHere name) id = some (id, v) := by
    unfold nearest
    rw [hn, nearestWithin, h]
  unfold query lookup
  rw [hl]
  rfl

end Scopes

namespace Eval

/-- An error that is not a thrown value is handed on as a new object. -/
theorem caught_own {e : EvalError} (h : e.cause.isOwn = true) (text : Value → String) (s : State) :
    onStore (Convert.caught e) s
      = .done (.object s.store.objects.size) (s.withObject (e.cause.errorObject text)) := by
  obtain ⟨cause, b⟩ := e
  unfold Cause.errorObject
  rw [Cause.message_congr h text fun _ => ""]
  cases cause with
  | thrown _ => cases h
  | _ => rfl

theorem declare_child (s : State) (parent : ScopeId) (name : String) (v : Value) :
    declare s.scopes.size .var name (some v) (s.opened { parent := some parent })
      = .done () (s.binding parent name v) :=
  declare_opened s rfl

theorem query_binding (s : State) (parent : ScopeId) (name : String) (v : Value) :
    query s.scopes.size name (s.binding parent name v) = .done v (s.binding parent name v) := by
  have hid : s.scopes.size < (s.binding parent name v).scopes.size := by
    rw [State.binding, State.opened, Array.size_push]
    exact Nat.lt_succ_self _
  have hv : ((s.binding parent name v).scopes.scope s.scopes.size).valueHere name = some v := by
    rw [State.binding, State.opened, Scopes.scope_push, if_pos rfl]
    simp [Scope.valueHere, Table.ofList, Table.insertAll, Table.insert, Table.insertEntry,
      Table.empty, Table.get?]
  unfold query
  rw [Scopes.query_of_valueHere hid hv]

/-- To throw the value of a name. -/
theorem runBody_throws (host : Host) (n : Nat) (h : query scope name s = .done v s) :
    runBody (Machine.evaluator host (n + 2)) [.throws (.ident name)] scope s
      = .failed { cause := .thrown v } s := by
  let ev := Machine.evaluator host (n + 2)
  have hstmt : ev.stmt (.throws (.ident name)) scope [] s = .failed { cause := .thrown v } s :=
    Run.bind_done h
  have hbody : runHoisted ev scope [.throws (.ident name)] .undefined s
      = .failed { cause := .thrown v } s := Run.bind_failed hstmt
  exact hbody

/-- A handler that throws again fails with the value it is given. -/
theorem runHandler_rethrowing (host : Host) (n : Nat) (name : String) {e : EvalError}
    (h : onStore (Convert.caught e) (s.opened { parent := some scope })
      = .done v (s'.opened { parent := some scope }))
    (hs : s'.scopes.size = s.scopes.size) :
    runHandler (Machine.evaluator host (n + 2)) scope (.rethrowing name) e s
      = .failed { cause := .thrown v } (s'.binding scope name v) := by
  let run := runBody (Machine.evaluator host (n + 2)) [.throws (.ident name)]
  have hd : declare s.scopes.size .var name (some v) (s'.opened { parent := some scope })
      = .done () (s'.binding scope name v) := hs ▸ declare_child s' scope name v
  calc runHandler (Machine.evaluator host (n + 2)) scope (.rethrowing name) e s
      = (onStore (Convert.caught e) >>= fun v =>
          declare s.scopes.size .var name (some v) >>= fun _ => run s.scopes.size)
          (s.opened { parent := some scope }) := rfl
    _ = (declare s.scopes.size .var name (some v) >>= fun _ => run s.scopes.size)
          (s'.opened { parent := some scope }) := Run.bind_done h
    _ = run s.scopes.size (s'.binding scope name v) := Run.bind_done hd
    _ = _ := runBody_throws host n (hs ▸ query_binding s' scope name v)

end Eval

/-! ### A handler that throws again -/

/-- No function was made in a scope, and no scope is below it. -/
def State.Unreferenced (s : State) (id : ScopeId) : Prop :=
  (∀ c, (s.store.closure c).scope ≠ id) ∧ ∀ inner, (s.scopes.scope inner).parent ≠ some id

/-- Nothing leads to a scope that has just been opened. -/
theorem WellScoped.unreferenced {Γ : Reach} (h : WellScoped Γ s) (hs : scope < s.scopes.size)
    (name : String) (v : Value) : (s.binding scope name v).Unreferenced s.scopes.size := by
  refine ⟨fun c => Nat.ne_of_lt (h.made c), fun inner => ?_⟩
  rw [State.binding, State.opened, Scopes.scope_push]
  split
  · simpa using Nat.ne_of_lt hs
  · intro hp
    have hlt := h.rooted.founded hp
    rw [Scopes.scope_of_size_le (Nat.le_of_lt hlt)] at hp
    cases hp

/-- A new object is no function. -/
theorem WellScoped.withObject {Γ : Reach} (h : WellScoped Γ s) (o : Object) :
    WellScoped Γ (s.withObject o) :=
  ⟨h.rooted, h.known, h.fresh, h.made⟩

/-- What comes of a block, and what comes of it when each error that can be caught is bound to a
name below a scope and thrown again. -/
inductive Rethrown (text : Value → String) (scope : ScopeId) (name : String) :
    Outcome State Completion → Outcome State Completion → Prop
  | done {c : Completion} {s : State} : Rethrown text scope name (.done c s) (.done c s)
  | endless : Rethrown text scope name .endless .endless
  | fatal {e : EvalError} {s : State} (h : e.isCatchable = false) :
      Rethrown text scope name (.failed e s) (.failed e s)
  | thrown {v : Value} {b : Option Backtrace} {s : State}
      (hu : (s.binding scope name v).Unreferenced s.scopes.size) :
      Rethrown text scope name (.failed ⟨.thrown v, b⟩ s)
        (.failed { cause := .thrown v } (s.binding scope name v))
  | own {e : EvalError} {s s' : State} (h : e.isCatchable = true) (ho : e.cause.isOwn = true)
      (hs : s' = (s.withObject (e.cause.errorObject text)).binding scope name
        (.object s.store.objects.size))
      (hu : s'.Unreferenced s.scopes.size) :
      Rethrown text scope name (.failed e s)
        (.failed { cause := .thrown (.object s.store.objects.size) } s')

namespace Machine

/-- A handler that throws again is given every error that can be caught. -/
theorem execStmt_rethrowing (host : Host) (n : Nat) (block : List Stmt) (scope : ScopeId)
    (name : String) (labels : List String) (s : State) :
    execStmt host (n + 1) (.tries block (some (.rethrowing name)) none) scope labels s
      = Run.recover (execStmt host (n + 1) (.block block) scope labels) pure
          (Eval.runHandler (evaluator host n) scope (.rethrowing name)) s :=
  congrFun (tryStmt_eq_rule host n block (some (.rethrowing name)) none scope) s

/-- What comes of a block when its errors are thrown again. -/
theorem execStmt_rethrown (text : Value → String) (labels : List String) {block : List Stmt}
    (hw : (execStmt host (n + 3) (.block block) scope labels s).Leaves fun s' =>
      WellScoped .none s' ∧ scope < s'.scopes.size) :
    Rethrown text scope name (execStmt host (n + 3) (.block block) scope labels s)
      (execStmt host (n + 3) (.tries block (some (.rethrowing name)) none) scope labels s) := by
  rw [execStmt_rethrowing]
  generalize ho : execStmt host (n + 3) (.block block) scope labels s = o at hw
  cases o with
  | done c s' =>
    rw [Run.recover_done ho]
    exact .done
  | endless =>
    rw [Run.recover_endless ho]
    exact .endless
  | failed e s' =>
    obtain ⟨hw, hs⟩ := hw
    cases he : e.isCatchable with
    | false =>
      rw [Run.recover_fatal ho he]
      exact .fatal he
    | true =>
      rw [Run.recover_failed ho he]
      -- an error of the interpreter is caught as a fresh object; a thrown value is caught as it is
      cases hc : e.cause.isOwn with
      | true =>
        let o := e.cause.errorObject text
        have hb : Eval.onStore (Convert.caught e) (s'.opened { parent := some scope })
            = .done (.object s'.store.objects.size)
              ((s'.withObject o).opened { parent := some scope }) := Eval.caught_own hc text _
        rw [Eval.runHandler_rethrowing host n name hb rfl]
        exact .own he hc rfl ((hw.withObject o).unreferenced hs name _)
      | false =>
        obtain ⟨v, b, rfl⟩ := EvalError.eq_thrown hc
        have hb : Eval.onStore (Convert.caught ⟨.thrown v, b⟩) (s'.opened { parent := some scope })
            = .done v (s'.opened { parent := some scope }) := rfl
        rw [Eval.runHandler_rethrowing host n name hb rfl]
        exact .thrown (hw.unreferenced hs name v)

end Machine

/-! ### A finalizer -/

/-- What comes of a statement, and what comes of it with a finalizer. -/
inductive Finalized (final : Eval Completion) :
    Outcome State Completion → Outcome State Completion → Prop
  | endless : Finalized final .endless .endless
  | fatal {e : EvalError} {s : State} (h : e.isCatchable = false) :
      Finalized final (.failed e s) (.failed e s)
  | error {e : EvalError} {s : State} (h : e.isCatchable = true) :
      Finalized final (.failed e s) (final s)
  | done {c : Completion} {s : State} : Finalized final (.done c s) (final s)

namespace Machine

/-- A finalizer is a block that is executed where the statement without it has ended. -/
theorem execStmt_finalized (host : Host) (n : Nat) (block : List Stmt) (handler : Option Handler)
    (final : List Stmt) (scope : ScopeId) (labels : List String) (s : State) :
    Finalized (execStmt host n (.block final) scope labels)
      (execStmt host n (.tries block handler none) scope labels s)
      (execStmt host n (.tries block handler (some final)) scope labels s) := by
  cases n with
  | zero => exact .endless
  | succ n =>
    -- with a finalizer the statement is the one without, and then the block either way
    have hr : execStmt host (n + 1) (.tries block handler (some final)) scope labels s
        = Run.recover (execStmt host (n + 1) (.tries block handler none) scope labels)
            (fun _ => execStmt host (n + 1) (.block final) scope labels)
            (fun _ => execStmt host (n + 1) (.block final) scope labels) s := by
      have hn : execStmt host (n + 1) (.tries block handler none) scope labels
          = Rule.tryStmt (perform host n) block handler none scope :=
        tryStmt_eq_rule host n block handler none scope
      rw [hn]
      exact congrFun (tryStmt_eq_rule host n block handler (some final) scope) s
    rw [hr]
    cases ho : execStmt host (n + 1) (.tries block handler none) scope labels s with
    | done c s' =>
      rw [Run.recover_done ho]
      exact .done
    | endless =>
      rw [Run.recover_endless ho]
      exact .endless
    | failed e s' =>
      cases he : e.isCatchable with
      | true =>
        rw [Run.recover_failed ho he]
        exact .error he
      | false =>
        rw [Run.recover_fatal ho he]
        exact .fatal he

end Machine

/-! ### Both laws -/

/-- What a statement leaves behind is in order if it is executed in a scope that exists. -/
theorem WellScoped.execStmt (hk : host.KeepsFunctions) (n : Nat) (t : Stmt) (labels : List String)
    (h : WellScoped .none s) (hs : scope < s.scopes.size) :
    (Machine.execStmt host n t scope labels s).Leaves fun s' =>
      WellScoped .none s' ∧ scope < s'.scopes.size := by
  let L := ScopeLaw.silent.law hk
  have ht : Existing (.stmt t scope labels) s := fun id hid => hid ▸ hs
  refine ((L.perform n (.stmt t scope labels) s (fun _ _ => Discipline.admits_all _)
    (Discipline.asks_all _) ⟨h.task ht, ⟨⟩, ⟨⟩⟩).leaves).mono fun s' hs' => ?_
  exact ⟨hs'.1.1.narrow (Reach.none_le _), hs'.1.1.known rfl⟩

/-- **The laws of `try`.**  Take a statement in a scope of a reachable state.

With a handler that throws again what it is given, a block does what it does without: it completes
in the same way, does not end, fails fatally, or throws the same value.  Any other error is thrown
as a new object with the error's name and text.  The states that are left behind differ in nothing
but that object and one scope, which nothing leads to.  (The budget must leave something for the
handler.)

With a finalizer, any `try` that fails fatally or does not end does what it does without.  Any other
does what the block of the finalizer does in the state that the `try` leaves without it. -/
theorem laws_of_try (hk : host.KeepsFunctions) (hr : Reachable host s)
    (hs : scope < s.scopes.size) (labels : List String) :
    (∀ text name block n,
      Rethrown text scope name (Machine.execStmt host (n + 3) (.block block) scope labels s)
        (Machine.execStmt host (n + 3) (.tries block (some (.rethrowing name)) none) scope labels
          s)) ∧
    ∀ block handler final n,
      Finalized (Machine.execStmt host n (.block final) scope labels)
        (Machine.execStmt host n (.tries block handler none) scope labels s)
        (Machine.execStmt host n (.tries block handler (some final)) scope labels s) := by
  refine ⟨fun text name block n => ?_, fun block handler final n => ?_⟩
  · exact Machine.execStmt_rethrown text labels
      ((hr.wellScoped hk).execStmt hk (n + 3) (.block block) labels hs)
  · exact Machine.execStmt_finalized host n block handler final scope labels s

/-- A name that is not bound is read in a block, whose error is thrown again or followed by a
finalizer that returns. -/
theorem unbound_name_is_rethrown_and_replaced :
    let block : List Stmt := [.expression (.ident "nowhere")]
    let again : Stmt := .tries block (some (.rethrowing "e")) none
    let final : List Stmt := [.returns none]
    ∃ i s₀ e s s', Interpreter.build {} {} = .done i s₀ ∧
      Machine.execStmt Host.none 4 (.block block) rootScope [] s₀ = .failed e s ∧
      e.cause = .unbound "nowhere" ∧
      Machine.execStmt Host.none 4 again rootScope [] s₀
        = .failed { cause := .thrown (.object s.store.objects.size) } s' ∧
      Rethrown (fun _ => "") rootScope "e" (.failed e s)
        (.failed { cause := .thrown (.object s.store.objects.size) } s') ∧
      Finalized (Machine.execStmt Host.none 4 (.block final) rootScope []) (.failed e s)
        (Machine.execStmt Host.none 4 (.tries block none (some final)) rootScope [] s₀) := by
  intro block again final
  -- the block fails, is caught and thrown again, and is replaced by a return
  obtain ⟨i, s₀, e, s, s', hbuild, hblock, he, hagain, hplain⟩ : ∃ i s₀ e s s',
      Interpreter.build {} {} = .done i s₀ ∧
      Machine.execStmt Host.none 4 (.block block) rootScope [] s₀ = .failed e s ∧
      e.cause = .unbound "nowhere" ∧
      Machine.execStmt Host.none 4 again rootScope [] s₀
        = .failed { cause := .thrown (.object s.store.objects.size) } s' ∧
      Machine.execStmt Host.none 4 (.tries block none none) rootScope [] s₀ = .failed e s :=
    ⟨_, _, _, _, _, rfl, rfl, rfl, rfl, rfl⟩
  have hk := Host.none_keepsFunctions
  have hr : Reachable Host.none s₀ := .of_build hbuild
  obtain ⟨rethrown, finalized⟩ := laws_of_try hk hr (hr.wellScoped hk).rooted.nonempty []
  refine ⟨i, s₀, e, s, s', hbuild, hblock, he, hagain, ?_, ?_⟩
  · have h := rethrown (fun _ => "") "e" block 1
    rwa [hblock, hagain] at h
  · have h := finalized block none final 4
    rwa [hplain] at h

end Estree
