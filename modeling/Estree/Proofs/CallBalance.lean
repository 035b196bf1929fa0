/-
Estree/Proofs/CallBalance.lean

The list of running functions.

No step of an evaluation touches the list (`Step.keeps_calls`); only the guard around a called
function does, and it takes away what it has added.  So whatever comes out of an evaluation, the
list is what it was (`calls_kept`), and whatever holds of lists and is kept when a function
may be entered holds all the time (`calls_enclosed`).

The two kinds of statements are proved in turn: first what a single step keeps, then what a rule
keeps that is composed of steps and questions (`Abides`), and then what the evaluator keeps, by
induction on its budget.
-/
import Estree.Proofs.Enclosed
import Estree.Proofs.Level.Part
import Estree.Proofs.Session

namespace Estree

variable {host : Host} {n : Nat} {t : Task} {s : State}

/-! ### Steps -/

/-- No step touches the list of running functions. -/
theorem Step.keeps_calls {α : Type} (st : Step host α) (s : State) :
    (st.run s).Leaves fun s' => s'.calls = s.calls := by
  -- nothing needs to be known of the routine: it has no access to the frames
  have unknown {α : Type} (m : Run Store α) : (m s.store).Leaves fun _ => True := by
    rcases m s.store with ⟨a, st⟩ | ⟨e, st⟩ | - <;> trivial
  have store {α : Type} (m : Run Store α) :
      (Eval.onStore m s).Leaves fun s' => s'.calls = s.calls := by
    refine (Eval.onStore_leaves (unknown m)).mono ?_
    rintro _ ⟨st, -, rfl⟩
    rfl
  have scopes {α : Type} (f : Scopes → Except ScopeError α × Scopes) :
      (Eval.onScopes f s).Leaves fun s' => s'.calls = s.calls := by
    refine (Eval.onScopes_leaves f s).mono ?_
    rintro _ rfl
    rfl
  cases st with
  | store m h => exact store m
  | closure c => exact store (Store.newClosure c)
  | query scope name => exact Eval.query_leaves scope name rfl
  | lookup scope name => rfl
  | declare scope kind name value => exact scopes fun ss => ss.create scope kind name value
  | assign scope name value => exact scopes fun ss => ss.update scope name value
  | delete scope name => rfl

/-! ### Balance -/

/-- A contract together with this: the list of running functions is what it was, and something
holds of it. -/
def Contract.counting (C : Contract) (P : CallStack → Prop) : Contract where
  inv Γ s := C.inv Γ s ∧ P s.calls
  rel s s' := C.rel s s' ∧ s'.calls = s.calls
  err := C.err

theorem Contract.Ensures.counting {C : Contract} {P : CallStack → Prop} {Γ : Reach} {α : Type}
    {Q : α → Prop} {o : Outcome State α} (h : C.Ensures Γ Q s o)
    (hk : o.Leaves fun s' => s'.calls = s.calls) (hP : P s.calls) :
    (C.counting P).Ensures Γ Q s o := by
  cases o with
  | done a s' =>
    have hc : s'.calls = s.calls := hk
    exact ⟨⟨h.1, hc ▸ hP⟩, ⟨h.2.1, hc⟩, h.2.2⟩
  | failed e s' =>
    have hc : s'.calls = s.calls := hk
    exact ⟨⟨h.1, hc ▸ hP⟩, ⟨h.2.1, hc⟩, h.2.2⟩
  | endless => trivial

/-- The law of such a contract, if what holds of the list is kept when a function may be entered. -/
def Law.counting {D : Discipline} (L : Law host D) (P : CallStack → Prop)
    (entered : D.enters → ∀ (s : State) (name : String), P s.calls → s.calls.isFull = false →
      P (s.entered name).calls) : Law host D where
  toContract := L.toContract.counting P
  refl h := ⟨L.refl h.1, rfl⟩
  trans h h' := ⟨L.trans h.1 h'.1, h'.2.trans h.2⟩
  frame h hr h' := ⟨L.frame h.1 hr.1 h'.1, hr.2 ▸ h.2⟩
  narrow hΓ h := ⟨L.narrow hΓ h.1, h.2⟩
  fail hc h := L.fail hc h.1
  step {_ s} _ st hst h := (L.step st hst h.1).counting (st.keeps_calls s) h.2
  child hp h := ⟨⟨(L.child hp h.1).1, h.2⟩, (L.child hp h.1).2, rfl⟩
  fork hs h := ⟨⟨(L.fork hs h.1).1, h.2⟩, (L.fork hs h.1).2, rfl⟩
  load id he h := ⟨(L.load id he h.1).1, (L.load id he h.1).2, h.2⟩
  refused h hs := L.refused h.1 hs
  enter he h hs := ⟨L.enter he h.1 hs, entered he _ _ h.2 hs⟩
  leave {_ s s' name} h hs h' hr := by
    -- the function that was entered is on top again
    have hc : s'.left.calls = s.calls := by
      show s'.calls.pop = s.calls
      rw [hr.2]
      show CallStack.mk (s.calls.frames.push name).pop s.calls.limit = s.calls
      rw [Array.pop_push]
    obtain ⟨hi, hrel⟩ := L.leave h.1 hs h'.1 hr.1
    exact ⟨⟨hi, hc ▸ h.2⟩, hrel, hc⟩
  carry := L.carry

/-- The law that claims nothing but this. -/
def Law.balanced (host : Host) (P : CallStack → Prop)
    (entered : ∀ (s : State) (name : String), P s.calls → s.calls.isFull = false →
      P (s.entered name).calls) : Law host {} :=
  (Law.idle host fun _ => trivial).counting P fun _ => entered

/-- Whatever comes out of an evaluation, the same functions are running as before. -/
theorem calls_kept (host : Host) (n : Nat) (t : Task) (s : State) :
    (Machine.perform host n t s).Leaves fun s' => s'.calls = s.calls := by
  have h := (Law.balanced host (fun _ => True) fun _ _ _ _ => trivial).perform n t s
    (fun _ _ => Discipline.admits_all _) (Discipline.asks_all t) ⟨trivial, trivial⟩
  exact h.leaves.mono fun _ hs => hs.2.2

/-- The evaluator keeps with a law also that the same functions are running. -/
theorem Law.Keeps.counting {D : Discipline} {L : Law host D} {P : CallStack → Prop}
    {entered : D.enters → ∀ (s : State) (name : String), P s.calls → s.calls.isFull = false →
      P (s.entered name).calls} (h : L.Keeps (Machine.perform host n)) :
    (L.counting P entered).Keeps (Machine.perform host n) :=
  fun t s ha hi => (h t s ha hi.1).counting (calls_kept host n t s) hi.2

/-- What holds of the running functions at the start, and is kept when one may be entered, holds
wherever an evaluation begins. -/
theorem calls_enclosed {P : CallStack → Prop}
    (entered : ∀ (s : State) (name : String), P s.calls → s.calls.isFull = false →
      P (s.entered name).calls)
    {m : Nat} {t' : Task} {s' : State} (h : Encloses host n t s m t' s') (hs : P s.calls) :
    P s'.calls :=
  ((Law.balanced host P entered).enclosed h (fun _ _ => Discipline.admits_all _)
    (Discipline.asks_all t) ⟨trivial, hs⟩).2.2

/-! ### The limit -/

theorem CallStack.isFull_iff {c : CallStack} {m : Nat} (h : c.limit = some m) :
    c.isFull = true ↔ m ≤ c.depth := by
  rw [CallStack.isFull, h]
  exact decide_eq_true_iff

theorem Machine.perform_call (host : Host) (n : Nat) (id : ClosureId) (this : Value)
    (args : List Value) (s : State) :
    Machine.perform host (n + 1) (.call id this args) s
      = Eval.framed (s.store.closure id).displayName
          (Machine.perform host n (.invoke (s.store.closure id) this args)) s :=
  congrFun (Machine.perform_eq_rule host n (.call id this args)) s

/-- The state in which a function is about to be run on an object that was made for it. -/
def State.preparing (s : State) (id : ClosureId) : State :=
  { s with store := { s.store with objects := s.store.objects.push { brand := .instance id } } }

/-- `new` on a function of the program calls it on a new object, which stands in for a result that
is not a reference. -/
theorem Machine.perform_construct (host : Host) (n : Nat) {id : ClosureId} {s : State}
    (hk : (s.store.closure id).kind = .normal) (args : List Value) :
    Machine.perform host n (.construct (.closure id) args) s
      = match Machine.perform host n (.call id (.object s.store.objects.size) args)
          (s.preparing id) with
        | .done r s' => .done (if r.isReference then r else .object s.store.objects.size) s'
        | .failed e s' => .failed e s'
        | .endless => .endless := by
  show Eval.construct host (Machine.evaluator host n) (.closure id) args s = _
  have hr (f : Closure → Eval Value) :
      (Run.read (fun s : State => s.store.closure id) >>= f) s = f (s.store.closure id) s := rfl
  simp only [Eval.construct, hr, if_pos hk]
  show (Machine.perform host n (.call id (.object s.store.objects.size) args) >>= _)
    (s.preparing id) = _
  rw [Run.bind_apply]
  cases Machine.perform host n (.call id (.object s.store.objects.size) args) (s.preparing id) with
  | done r s' => by_cases h : r.isReference <;> simp [h] <;> rfl
  | failed e s' => rfl
  | endless => rfl

/-- A call below the limit runs the body. -/
theorem call_asks (hs : s.calls.isFull = false) (id : ClosureId) (this : Value)
    (args : List Value) :
    Asks host n (.call id this args) s (.invoke (s.store.closure id) this args)
      (s.entered (s.store.closure id).displayName) := by
  -- the inside is reached whatever else the performer does
  have reached : Reaches (fun _ _ => True) (fun p => rule host n p (.call id this args) s)
      (Machine.perform host n) (.invoke (s.store.closure id) this args)
      (s.entered (s.store.closure id).displayName) :=
    ⟨1, fun _ _ => ⟨fun h => Eval.framed_endless hs h, fun _ _ h _ => Eval.framed_failed hs h⟩⟩
  exact Sequential.needs_of_reaches reached trivial

/-- A call at the limit runs nothing. -/
theorem call_refused (hs : s.calls.isFull = true) (id : ClosureId) (this : Value)
    (args : List Value) (t' : Task) (s' : State) : ¬ Asks host n (.call id this args) s t' s' := by
  rintro ⟨o, ho⟩
  exact ho ((Eval.framed_of_full hs _ _).trans (Eval.framed_of_full hs _ _).symm)

/-- A call asks for the body only, one function deeper. -/
theorem eq_of_call_asks {id : ClosureId} {this : Value} {args : List Value} {t' : Task} {s' : State}
    (h : Asks host n (.call id this args) s t' s') :
    t' = .invoke (s.store.closure id) this args ∧
      s' = s.entered (s.store.closure id).displayName := by
  obtain ⟨o, ho⟩ := h
  -- with another answer elsewhere the inside comes out the same
  refine Classical.byContradiction fun hne => ho (Eval.framed_congr ?_)
  exact Performer.answering_of_ne fun ⟨ht, hs⟩ => hne ⟨ht.symm, hs.symm⟩

/-- Anything but a call asks for tasks while the same functions are running. -/
theorem calls_of_asks (hc : ∀ id this args, t ≠ .call id this args) {t' : Task} {s' : State}
    (h : Asks host n t s t' s') : s'.calls = s.calls := by
  let L := (Law.idle host (D := { enters := False }) fun _ => trivial).counting
    (fun c => c = s.calls) False.elim
  have hp : L.Keeps (Machine.perform host n) := (Law.idle_keeps rfl rfl _).counting
  have hr : Abides host { enters := False } (Reach.of t) _ fun p => rule host n p t :=
    Abides.rule (Discipline.admits_unentered hc)
  have hl := hr.sound hp ⟨trivial, rfl⟩
  obtain ⟨o, ho⟩ := h
  exact Classical.byContradiction fun hne =>
    ho (hl.2 _ (Performer.answering_agreeOff fun hX => hne hX.2.2))

/-- When an interpreter has been built, no function is running. -/
theorem Interpreter.calls_of_build {config : Config} {store : Store} {i : Interpreter}
    (hb : Interpreter.build config store = .done i s) :
    s.calls = { limit := config.maxCallDepth } := by
  let L := (Law.idle Host.none (D := { enters := False }) fun _ => trivial).counting
    (fun c => c = { limit := config.maxCallDepth }) False.elim
  exact (L.build (fun _ => trivial) hb ⟨trivial, rfl⟩).2

/-- Each function that is entered has taken of the budget. -/
theorem depth_enclosed {m : Nat} {t' : Task} {s' : State} (h : Encloses host n t s m t' s') :
    s'.calls.depth + m ≤ s.calls.depth + n := by
  induction h with
  | self => exact Nat.le_refl _
  | @step n m t t₁ t' s s₁ s' ha _ ih =>
    by_cases hc : ∃ id this args, t = .call id this args
    · obtain ⟨id, this, args, rfl⟩ := hc
      obtain ⟨-, rfl⟩ := eq_of_call_asks ha
      have hd : (s.entered (s.store.closure id).displayName).calls.depth = s.calls.depth + 1 :=
        Array.size_push _
      rw [hd] at ih
      show _ ≤ _ + (n + 1)
      omega
    · rw [calls_of_asks (fun id this args ht => hc ⟨id, this, args, ht⟩) ha] at ih
      omega

/-- A call of a function of the program that is refused: it fails with the given limit, changes
nothing and asks for nothing, not even for the body. -/
def Refuses (host : Host) (n : Nat) (id : ClosureId) (this : Value) (args : List Value) (s : State)
    (m : Nat) : Prop :=
  (∃ e, Machine.perform host (n + 1) (.call id this args) s = .failed e s ∧ e.cause = .tooDeep m) ∧
    ∀ t' s', ¬ Asks host n (.call id this args) s t' s'

/-- Below a limit or at it, exactly the calls at it are refused. -/
theorem refuses_iff {m : Nat} (hl : s.calls.limit = some m) (hd : s.calls.depth ≤ m)
    (id : ClosureId) (this : Value) (args : List Value) :
    Refuses host n id this args s m ↔ s.calls.depth = m := by
  constructor
  · rintro ⟨-, hn⟩
    refine Classical.byContradiction fun hne => ?_
    have hs : s.calls.isFull = false := by
      rw [Bool.eq_false_iff, Ne, CallStack.isFull_iff hl]
      omega
    exact hn _ _ (call_asks hs id this args)
  · intro h
    have hs : s.calls.isFull = true := (CallStack.isFull_iff hl).2 (Nat.le_of_eq h.symm)
    refine ⟨⟨Eval.refusal s.calls, ?_, ?_⟩, call_refused hs id this args⟩
    · rw [Machine.perform_call, Eval.framed_of_full hs]
    · rw [Eval.refusal, CallStack.attach_cause, hl]
      rfl

/-- Within a limit, entering a function that may be entered stays within it. -/
theorem entered_within {m : Nat} (s : State) (name : String)
    (h : s.calls.limit = some m ∧ s.calls.depth ≤ m) (hs : s.calls.isFull = false) :
    (s.entered name).calls.limit = some m ∧ (s.entered name).calls.depth ≤ m := by
  refine ⟨h.1, ?_⟩
  rw [Bool.eq_false_iff, Ne, CallStack.isFull_iff h.1] at hs
  show (s.calls.frames.push name).size ≤ m
  rw [Array.size_push]
  exact Nat.lt_of_not_le hs

/-- **Balance and limit of the call stack.**  Whatever comes out of an evaluation, the same
functions are running as before.  When a function is left, it is the innermost one, so that there
is one to leave.  With a limit, at no point do more functions run than it allows, and a call is
refused exactly when as many run as it allows. -/
theorem call_stack_balanced_and_limited (host : Host) (n : Nat) (t : Task) (s : State) :
    (Machine.perform host n t s).Leaves (fun s' => s'.calls = s.calls) ∧
    (∀ k id this args r, Encloses host n t s (k + 1) (.call id this args) r →
      r.calls.isFull = false →
      (Machine.perform host k (.invoke (r.store.closure id) this args)
        (r.entered (r.store.closure id).displayName)).Leaves fun s' =>
          s'.calls.frames = r.calls.frames.push (r.store.closure id).displayName) ∧
    ∀ m, s.calls.limit = some m → s.calls.depth ≤ m →
      (∀ k t' s', Encloses host n t s k t' s' → s'.calls.depth ≤ m) ∧
      ∀ k id this args r, Encloses host n t s (k + 1) (.call id this args) r →
        (Refuses host k id this args r m ↔ r.calls.depth = m) := by
  refine ⟨calls_kept host n t s, fun k id this args r _ _ => ?_, fun m hl hd => ?_⟩
  · exact (calls_kept host k _ _).mono fun s' hs => congrArg CallStack.frames hs
  · have within {k : Nat} {t' : Task} {s' : State} (h : Encloses host n t s k t' s') :
        s'.calls.limit = some m ∧ s'.calls.depth ≤ m :=
      calls_enclosed (P := fun c => c.limit = some m ∧ c.depth ≤ m) entered_within h ⟨hl, hd⟩
    refine ⟨fun k t' s' h => (within h).2, fun k id this args r h => ?_⟩
    obtain ⟨hl', hd'⟩ := within h
    exact refuses_iff hl' hd' id this args

end Estree
