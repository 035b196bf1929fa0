/-
Estree/Proofs/Backtrace.lean

What a backtrace tells.

An error gets its backtrace from the first function that it leaves, or from the call that is
refused, and keeps it from there on.  So while it is on its way, the functions that still run are
the outermost ones of its backtrace (`Backtrace.Describes`), however often errors have been caught
and thrown anew before.  What is known of such an error is `EvalError.Traced`; it is kept when a
function is left, whether the error gets its backtrace at that moment or has one already
(`EvalError.Traced.attach`), and every evaluation fails with such errors only (`Law.traced`).

No step of an evaluation gives an error a backtrace, and none fails for the reason of a refused
call (`Step.fails_plainly`).  Of the embedder's functions this is an assumption,
`Host.FailsPlainly`.
-/
import Estree.Proofs.CallBalance

namespace Estree

/-! ### Errors without a history -/

/-- An error that has not left a function, and is not that of a refused call. -/
structure EvalError.IsPlain (e : EvalError) : Prop where
  backtrace : e.backtrace = none
  cause : ∀ depth, e.cause ≠ .tooDeep depth

theorem EvalError.IsPlain.of_cause {cause : Cause} (h : ∀ depth, cause ≠ .tooDeep depth) :
    EvalError.IsPlain { cause } :=
  ⟨rfl, h⟩

/-- The embedder's functions give their errors no backtrace, and do not refuse calls. -/
def Host.FailsPlainly (host : Host) : Prop :=
  ∀ id this args s e s', host.call id this args s = .failed e s' → e.IsPlain

theorem Host.none_failsPlainly : Host.none.FailsPlainly :=
  fun _ _ _ _ _ _ h => nomatch h

section plain

variable {host : Host} {α : Type} {e : EvalError}

/-- So it is with all routines. -/
theorem Routine.fails_plainly (hh : host.FailsPlainly) {m : Run Store α} (hm : Routine host m)
    {s s' : Store} (h : m s = .failed e s') : e.IsPlain := by
  induction hm generalizing s with
  | @bind α β m f _ _ ihm ihf =>
    rw [Run.bind_apply] at h
    cases hs : m s with
    | done a s₁ =>
      rw [hs] at h
      exact ihf a h
    | failed e₁ s₁ =>
      rw [hs] at h
      cases h
      exact ihm hs
    | endless =>
      rw [hs] at h
      cases h
  | ofOption _ =>
    rw [Run.ofOption] at h
    split at h <;> cases h
  -- the library's own failures are of other kinds than a full stack
  | fail hc =>
    cases h
    refine .of_cause fun depth hd => ?_
    rw [hd] at hc
    cases hc
  | host id this args => exact hh id this args s e s' h
  | _ => cases h

/-- No step fails in another way. -/
theorem Step.fails_plainly (hh : host.FailsPlainly) (st : Step host α) {s s' : State}
    (h : st.run s = .failed e s') : e.IsPlain := by
  have store {α : Type} {m : Run Store α} (hm : Routine host m)
      (h : Eval.onStore m s = .failed e s') : e.IsPlain := by
    cases hs : m s.store with
    | done a store => simp [Eval.onStore, hs] at h
    | failed e₁ store =>
      obtain ⟨rfl, -⟩ : e₁ = e ∧ _ := by simpa [Eval.onStore, hs] using h
      exact hm.fails_plainly hh hs
    | endless => simp [Eval.onStore, hs] at h
  have scope (se : ScopeError) : EvalError.IsPlain { cause := se.cause } :=
    .of_cause fun depth hd => by cases se <;> cases hd
  have scopes {α : Type} {f : Scopes → Except ScopeError α × Scopes}
      (h : Eval.onScopes f s = .failed e s') : e.IsPlain := by
    rcases hs : f s.scopes with ⟨se | a, ss⟩
    · obtain ⟨rfl, -⟩ : { cause := se.cause } = e ∧ _ := by simpa [Eval.onScopes, hs] using h
      exact scope se
    · simp [Eval.onScopes, hs] at h
  cases st with
  | store m hm => exact store hm h
  | closure c => cases h
  -- a name that is not bound
  | query name =>
    simp only [Step.run, Eval.query] at h
    split at h
    · cases h
    · cases h
      exact scope _
  | lookup scope name => cases h
  | declare scope kind name value => exact scopes (f := fun ss => ss.create scope kind name value) h
  | assign scope name value => exact scopes (f := fun ss => ss.update scope name value) h
  | delete scope name => cases h

end plain

/-! ### The stack and its limit -/

namespace CallStack

/-- No more functions run than the limit allows. -/
def Within (c : CallStack) : Prop :=
  ∀ limit, c.limit = some limit → c.depth ≤ limit

variable {c : CallStack}

theorem Within.push (h : c.isFull = false) (name : String) :
    Within { c with frames := c.frames.push name } := by
  intro limit hl
  have hd : ¬ limit ≤ c.depth := by
    rw [← isFull_iff (c := c) hl, h]
    exact Bool.false_ne_true
  simp [depth] at hd ⊢
  omega

theorem Within.pop (h : c.Within) : c.pop.Within := by
  intro limit hl
  have hd := h limit hl
  simp [depth, CallStack.pop] at hd ⊢
  omega

/-- A full stack within its limit is exactly as deep as the limit. -/
theorem Within.depth_eq (h : c.Within) (hf : c.isFull = true) :
    ∃ limit, c.limit = some limit ∧ c.depth = limit := by
  cases hl : c.limit with
  | none => simp [isFull, hl] at hf
  | some limit => exact ⟨limit, rfl, Nat.le_antisymm (h limit hl) ((isFull_iff hl).1 hf)⟩

theorem capture_length (c : CallStack) : c.capture.frames.length = c.depth := by
  simp [capture, depth]

/-- When the innermost function is left, those that still run are the others. -/
theorem capture_pop_suffix (c : CallStack) : c.pop.capture.frames <:+ c.capture.frames := by
  simp only [capture, pop, Array.toList_pop, List.reverse_suffix]
  exact List.dropLast_prefix _

theorem attach_of_isSome {e : EvalError} (h : e.backtrace.isSome = true) : c.attach e = e := by
  simp [attach, h]

theorem attach_of_isEmpty {e : EvalError} (h : c.frames = #[]) : c.attach e = e := by
  simp [attach, h]

theorem attach_of_none {e : EvalError} (hf : c.frames ≠ #[]) (h : e.backtrace = none) :
    c.attach e = { e with backtrace := some c.capture } := by
  simp [attach, hf, h]

/-- Where a function runs, every error gets a backtrace. -/
theorem attach_backtrace_eq_none {e : EvalError} :
    (c.attach e).backtrace = none ↔ c.frames = #[] ∧ e.backtrace = none := by
  by_cases hf : c.frames = #[]
  · simp [attach_of_isEmpty hf, hf]
  · cases hb : e.backtrace with
    | none => simp [attach_of_none hf hb, hf]
    | some b => simp [attach_of_isSome (c := c) (e := e) (by simp [hb]), hb]

end CallStack

/-! ### Errors on their way -/

/-- A backtrace that begins with functions that have been left, if any, goes on with those that
run, and is no longer than their limit allows. -/
structure Backtrace.Describes (b : Backtrace) (c : CallStack) : Prop where
  nonempty : b.frames ≠ []
  suffix : c.capture.frames <:+ b.frames
  bounded : ∀ limit, c.limit = some limit → b.frames.length ≤ limit

/-- What is known of an error that is on its way while functions run: its backtrace describes
them, and if it is that of a refused call, so many functions were running as the limit allows. -/
structure EvalError.Traced (e : EvalError) (c : CallStack) : Prop where
  describes : ∀ b, e.backtrace = some b → b.Describes c
  refused : ∀ depth, e.cause = .tooDeep depth → c.limit = some depth ∧
    (0 < depth → ∃ b, e.backtrace = some b ∧ b.frames.length = depth)

/-- The running functions as a backtrace. -/
theorem CallStack.capture_describes {c : CallStack} (hc : c.Within) (hf : c.frames ≠ #[]) :
    c.capture.Describes c where
  nonempty := by simpa [capture] using hf
  suffix := List.suffix_rfl
  bounded limit hl := (capture_length c).symm ▸ hc limit hl

namespace EvalError

variable {e : EvalError} {c : CallStack}

/-- An error as it is raised. -/
theorem IsPlain.traced (h : e.IsPlain) : e.Traced c where
  describes b hb := by simp [h.backtrace] at hb
  refused depth hd := absurd hd (h.cause depth)

namespace Traced

/-- An error that goes on after a function has been left. -/
theorem pop (h : e.Traced c) : e.Traced c.pop where
  describes b hb :=
    { nonempty := (h.describes b hb).nonempty
      suffix := c.capture_pop_suffix.trans (h.describes b hb).suffix
      bounded := (h.describes b hb).bounded }
  refused := h.refused

/-- An error that gets its backtrace if it has none. -/
theorem attach (hc : c.Within) (h : e.Traced c) : (c.attach e).Traced c := by
  by_cases hf : c.frames = #[]
  · rwa [CallStack.attach_of_isEmpty hf]
  · cases hb : e.backtrace with
    | some b => rwa [CallStack.attach_of_isSome (by simp [hb])]
    | none =>
      rw [CallStack.attach_of_none hf hb]
      refine ⟨fun b h => ?_, fun depth hd => ⟨(h.refused depth hd).1, fun hpos => ?_⟩⟩
      · cases h
        exact CallStack.capture_describes hc hf
      · -- the error of a refused call already has its backtrace
        obtain ⟨b, hs, -⟩ := (h.refused depth hd).2 hpos
        simp [hb] at hs

/-- The error of a call that is refused: with no function running it has no backtrace. -/
theorem refusal (hc : c.Within) (hf : c.isFull = true) : (Eval.refusal c).Traced c := by
  obtain ⟨limit, hl, hd⟩ := hc.depth_eq hf
  by_cases he : c.frames = #[]
  · have hz : limit = 0 := by simpa [CallStack.depth, he] using hd.symm
    rw [Eval.refusal, CallStack.attach_of_isEmpty he]
    refine ⟨fun b hb => ?_, fun depth h => ?_⟩
    · cases hb
    · obtain rfl : limit = depth := by simpa [hl] using h
      exact ⟨hl, fun hpos => absurd hz (Nat.ne_of_gt hpos)⟩
  · rw [Eval.refusal, CallStack.attach_of_none he rfl]
    refine ⟨fun b hb => ?_, fun depth h => ?_⟩
    · cases hb
      exact CallStack.capture_describes hc he
    · obtain rfl : limit = depth := by simpa [hl] using h
      exact ⟨hl, fun _ => ⟨_, rfl, (CallStack.capture_length c).trans hd⟩⟩

end Traced

end EvalError

/-! ### The law -/

section law

variable {host : Host} {n : Nat} {t : Task} {s s' : State} {e : EvalError}

/-- The law that errors on their way are traced. -/
def Law.traced (hh : host.FailsPlainly) : Law host .unrefused where
  inv _ s := s.calls.Within
  rel _ _ := True
  err e s := s.calls.Within ∧ e.Traced s.calls
  refl _ := trivial
  trans _ _ := trivial
  frame _ _ h := h
  narrow _ h := h
  fail {_ _ cause} hc h := by
    refine ⟨h, EvalError.IsPlain.traced (.of_cause fun depth hd => ?_)⟩
    obtain hc | hc := hc
    · rw [hd] at hc
      cases hc
    · exact hc depth hd
  step {_ s} _ st _ h := by
    have kept := (st.keeps_calls s).mono fun s' hs => (hs ▸ h : s'.calls.Within)
    refine .of_leaves (kept.mono fun s' hs => ⟨hs, trivial⟩) fun e s' ho => ?_
    exact ⟨kept.ends (.inr ⟨e, ho⟩), (st.fails_plainly hh ho).traced⟩
  child _ h := ⟨h, trivial⟩
  fork _ h := ⟨h, trivial⟩
  load _ _ h := ⟨trivial, h⟩
  refused h hs := ⟨h, .refusal h hs⟩
  enter _ _ hs := .push hs _
  leave _ _ h _ := ⟨h.pop, trivial⟩
  carry h := ⟨h.1.pop, (h.2.attach h.1).pop⟩

/-- Within the limit of the stack, evaluations fail with traced errors only. -/
theorem EvalError.traced_of_failed (hh : host.FailsPlainly) (hs : s.calls.Within)
    (hf : Machine.perform host n t s = .failed e s') : e.Traced s.calls := by
  have h := (Law.traced hh).perform n t s (fun _ _ => Discipline.unrefused_admits _)
    (Discipline.unrefused_asks t) hs
  rw [hf] at h
  have hc : s'.calls = s.calls := (calls_kept host n t s).ends (.inr ⟨e, hf⟩)
  exact hc ▸ h.2.2.2

/-- In a reachable state no more functions run than the limit allows. -/
theorem Reachable.within (hr : Reachable host s) : s.calls.Within := by
  obtain ⟨config, store, i, s₀, -, hb, hs⟩ := hr
  let L := Law.balanced host CallStack.Within fun _ name _ hf => .push hf name
  have h₀ : L.inv .none s₀ :=
    L.build (fun _ => trivial) hb ⟨trivial, fun limit _ => Nat.zero_le limit⟩
  have h : L.inv .none s := L.session (fun {_ t _} _ hi =>
    ⟨Discipline.asks_all t, hi, fun _ _ => Discipline.admits_all _⟩) hs h₀
  exact h.2

/-- A call of a function of the program, in one of the ways to call one. -/
inductive CallsFunction (s : State) : Task → Prop
  | call (id : ClosureId) (this : Value) (args : List Value) : CallsFunction s (.call id this args)
  | apply (id : ClosureId) (this : Value) (args : List Value) :
      CallsFunction s (.apply (.closure id) this args)
  | construct {id : ClosureId} (hk : (s.store.closure id).kind = .normal) (args : List Value) :
      CallsFunction s (.construct (.closure id) args)

/-- The error of a call has no backtrace only if no function may run at all. -/
theorem backtrace_of_call_failed {id : ClosureId} {this : Value} {args : List Value}
    (hf : Machine.perform host n (.call id this args) s = .failed e s') :
    e.backtrace = none ↔ s.calls.limit = some 0 ∧ s.calls.frames = #[] := by
  cases n with
  | zero => cases hf
  | succ n =>
    rw [Machine.perform_call] at hf
    cases hs : s.calls.isFull with
    | true =>
      obtain ⟨rfl, -⟩ : Eval.refusal s.calls = e ∧ _ := by
        simpa [Eval.framed_of_full hs] using hf
      rw [Eval.refusal, CallStack.attach_backtrace_eq_none]
      refine ⟨fun h => ⟨?_, h.1⟩, fun h => ⟨h.2, rfl⟩⟩
      -- a stack without functions is full only if there may be none
      cases hl : s.calls.limit with
      | none => simp [CallStack.isFull, hl] at hs
      | some limit => simpa [CallStack.isFull, CallStack.depth, hl, h.1] using hs
    | false =>
      have hne : ¬ (s.calls.limit = some 0 ∧ s.calls.frames = #[]) := by
        rintro ⟨hl, -⟩
        simp [CallStack.isFull, hl] at hs
      refine iff_of_false (fun hb => ?_) hne
      obtain ⟨e₁, s₁, ho, rfl, -⟩ := Eval.of_framed_failed hs hf
      have hc : s₁.calls.frames = s.calls.frames.push (s.store.closure id).displayName :=
        congrArg CallStack.frames ((calls_kept host n _ _).ends (.inr ⟨e₁, ho⟩))
      have he := (CallStack.attach_backtrace_eq_none.1 hb).1
      simp [hc] at he

/-- So it is however the function is called. -/
theorem CallsFunction.backtrace (hc : CallsFunction s t)
    (hf : Machine.perform host n t s = .failed e s') :
    e.backtrace = none ↔ s.calls.limit = some 0 ∧ s.calls.frames = #[] := by
  cases hc with
  | call id this args => exact backtrace_of_call_failed hf
  | apply id this args =>
    have hf' : Machine.perform host n (.call id this args) s = .failed e s' := hf
    exact backtrace_of_call_failed hf'
  | @construct id hk args =>
    rw [Machine.perform_construct host n hk] at hf
    split at hf
    · cases hf
    · -- the object that is made first has no part in the list of running functions
      rename_i ho
      cases hf
      exact backtrace_of_call_failed (s := s.preparing id) ho
    · cases hf

/-- **Backtraces describe the running functions.**  If an evaluation that begins in a reachable
state fails, then a backtrace of its error is not empty, ends in the functions that run in that
state, innermost first, and is no longer than the limit.  A call of a function of the program that
fails always gives a backtrace, unless no function may run at all.  The error of a refused call
names the limit, and its backtrace is as long as that. -/
theorem backtraces_describe_the_stack (hh : host.FailsPlainly) (hr : Reachable host s)
    (hf : Machine.perform host n t s = .failed e s') :
    (∀ b, e.backtrace = some b → b.frames ≠ [] ∧ s.calls.capture.frames <:+ b.frames ∧
      ∀ limit, s.calls.limit = some limit → b.frames.length ≤ limit) ∧
    (CallsFunction s t →
      (e.backtrace = none ↔ s.calls.limit = some 0 ∧ s.calls.frames = #[])) ∧
    ∀ depth, e.cause = .tooDeep depth → s.calls.limit = some depth ∧
      (0 < depth → ∃ b, e.backtrace = some b ∧ b.frames.length = depth) := by
  have ht : e.Traced s.calls := EvalError.traced_of_failed hh hr.within hf
  refine ⟨fun b hb => ?_, fun hc => hc.backtrace hf, ht.refused⟩
  have hd := ht.describes b hb
  exact ⟨hd.nonempty, hd.suffix, hd.bounded⟩

/-- A function that calls itself, with room for two: the third call is refused, and the error keeps
the backtrace of both functions while it leaves them. -/
theorem refused_call_has_full_backtrace :
    let again : Stmt := .expression (.call (.ident "f") [])
    let f : Function := .mk (some "f") [] (.block [again]) false false
    let program : Program := ⟨[.function f, again], .script⟩
    ∃ i s₀ e s', Interpreter.build { maxCallDepth := some 2 } {} = .done i s₀ ∧
      Machine.perform Host.none 9 (.program none program) s₀ = .failed e s' ∧
      e.cause = .tooDeep 2 ∧ s₀.calls.limit = some 2 ∧
      (0 < 2 → ∃ b, e.backtrace = some b ∧ b.frames.length = 2) := by
  intro again f program
  obtain ⟨i, s₀, e, s', hb, hf, hc⟩ : ∃ i s₀ e s',
      Interpreter.build { maxCallDepth := some 2 } {} = .done i s₀ ∧
      Machine.perform Host.none 9 (.program none program) s₀ = .failed e s' ∧
      e.cause = .tooDeep 2 := by
    dsimp only [program, f, again]
    exact ⟨_, _, _, _, rfl, rfl, rfl⟩
  have hr : Reachable Host.none s₀ := .of_build hb
  have h := backtraces_describe_the_stack Host.none_failsPlainly hr hf
  exact ⟨i, s₀, e, s', hb, hf, hc, h.2.2 2 hc⟩

end law

end Estree
