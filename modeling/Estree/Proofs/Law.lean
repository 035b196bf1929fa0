/-
Estree/Proofs/Law.lean

Laws: what holds of every evaluation because every part of one level respects it.

A `Contract` says what holds of a state while scopes are in reach, how the state after an
evaluation is related to the one before, and what is known of errors.  A `Law` is a contract
together with what it takes to show that it is kept: one obligation for each way in which a
computation under a discipline is composed.  No obligation mentions a node of the syntax.

The main result is `Abides.sound`.  Its second half says where a computation asks for what: only
in states for which the contract holds.
-/
import Estree.Proofs.Level.Statement

namespace Estree

/-! ### Performers that agree -/

/-- Two performers that differ at most for the given tasks and states. -/
def Performer.AgreeOff (X : Task → State → Prop) (q p : Performer) : Prop :=
  ∀ t s, ¬ X t s → q t s = p t s

/-! ### States left behind -/

namespace Outcome

variable {σ α : Type} {P P' : σ → Prop} {o : Outcome σ α}

/-- Whether an outcome leaves a state behind. -/
def Ends (o : Outcome σ α) (s : σ) : Prop :=
  (∃ a, o = .done a s) ∨ ∃ e, o = .failed e s

/-- Whatever state an outcome leaves behind has a property. -/
def Leaves (P : σ → Prop) : Outcome σ α → Prop
  | .done _ s | .failed _ s => P s
  | .endless => True

theorem Leaves.mono (h : o.Leaves P) (hP : ∀ s, P s → P' s) : o.Leaves P' := by
  cases o with
  | done a s => exact hP s h
  | failed e s => exact hP s h
  | endless => trivial

/-- What is left behind has both properties if it has each. -/
theorem Leaves.and (h : o.Leaves P) (h' : o.Leaves P') : o.Leaves fun s => P s ∧ P' s := by
  cases o with
  | done a s => exact ⟨h, h'⟩
  | failed e s => exact ⟨h, h'⟩
  | endless => trivial

theorem Leaves.ends {s : σ} (h : o.Leaves P) (ho : o.Ends s) : P s := by
  obtain ⟨a, rfl⟩ | ⟨e, rfl⟩ := ho
  · exact h
  · exact h

end Outcome

/-- What a computation does to the store is all it does. -/
theorem Eval.onStore_leaves {α : Type} {m : Run Store α} {P : Store → Prop} {s : State}
    (h : (m s.store).Leaves P) :
    (Eval.onStore m s).Leaves fun s' => ∃ store, P store ∧ s' = { s with store } := by
  unfold Eval.onStore
  dsimp only
  generalize m s.store = o at h ⊢
  rcases o with ⟨a, store⟩ | ⟨e, store⟩ | -
  · exact ⟨store, h, rfl⟩
  · exact ⟨store, h, rfl⟩
  · trivial

/-- What a computation does to the scopes is all it does. -/
theorem Eval.onScopes_leaves {α : Type} (f : Scopes → Except ScopeError α × Scopes) (s : State) :
    (Eval.onScopes f s).Leaves fun s' => s' = { s with scopes := (f s.scopes).2 } := by
  unfold Eval.onScopes
  dsimp only
  rcases f s.scopes with ⟨e | a, ss⟩
  · rfl
  · rfl

/-- To ask for the value of a name changes nothing. -/
theorem Eval.query_leaves {P : State → Prop} {s : State} (scope : ScopeId) (name : String)
    (h : P s) : (Eval.query scope name s).Leaves P := by
  unfold Eval.query
  split
  · exact h
  · exact h

/-- Whatever store a routine leaves behind, it is related to the one before as a law of stores
says. -/
theorem Routine.leaves {host : Host} {α : Type} {m : Run Store α} (h : Routine host m)
    (L : StoreLaw host) (s : Store) : (m s).Leaves (L.rel s) := by
  have h := h.sound L s
  generalize m s = o at h ⊢
  rcases o with ⟨a, s'⟩ | ⟨e, s'⟩ | -
  · exact h
  · exact h.1
  · trivial

/-- A step does to the store what a routine does, or it makes a function of the program. -/
theorem Step.leaves_store {host : Host} {α : Type} (st : Step host α) {s : State} {P : Store → Prop}
    (same : P s.store)
    (routine : ∀ {β : Type} {m : Run Store β}, Routine host m → (m s.store).Leaves P)
    (made : ∀ c, P { s.store with closures := s.store.closures.push c }) :
    (st.run s).Leaves fun s' => P s'.store := by
  have scopes {β : Type} (f : Scopes → Except ScopeError β × Scopes) :
      (Eval.onScopes f s).Leaves fun s' => P s'.store := by
    refine (Eval.onScopes_leaves f s).mono ?_
    rintro _ rfl
    exact same
  cases st with
  | store m hm =>
    refine (Eval.onStore_leaves (routine hm)).mono ?_
    rintro _ ⟨store, h, rfl⟩
    exact h
  | closure c => exact made c
  | query scope name => exact Eval.query_leaves scope name same
  | lookup scope name => exact same
  | declare scope kind name value => exact scopes fun ss => ss.create scope kind name value
  | assign scope name value => exact scopes fun ss => ss.update scope name value
  | delete scope name => exact same

/-! ### Contracts -/

/-- What is claimed of evaluations. -/
structure Contract where
  /-- What holds of the state, with the scopes in reach. -/
  inv : Reach → State → Prop
  /-- How the state before and the state after are related. -/
  rel : State → State → Prop
  /-- What is known of errors and the states in which they are on their way. -/
  err : EvalError → State → Prop

/-- What a contract promises of the outcome of something that starts in the given state. -/
def Contract.Ensures (C : Contract) {α : Type} (Γ : Reach) (Q : α → Prop) (s : State) :
    Outcome State α → Prop
  | .done a s' => C.inv Γ s' ∧ C.rel s s' ∧ Q a
  | .failed e s' => C.inv Γ s' ∧ C.rel s s' ∧ C.err e s'
  | .endless => True

/-- The state with a new scope. -/
def State.opened (s : State) (scope : Scope) : State :=
  { s with scopes := s.scopes.push scope }

/-- A contract that is kept. -/
structure Law (host : Host) (D : Discipline) extends Contract where
  refl : ∀ {Γ s}, inv Γ s → rel s s
  trans : ∀ {s₁ s₂ s₃}, rel s₁ s₂ → rel s₂ s₃ → rel s₁ s₃
  frame : ∀ {Γ Γ' s s'}, inv Γ s → rel s s' → inv Γ' s' → inv Γ s'
  narrow : ∀ {Γ Γ' s}, Γ'.Le Γ → inv Γ s → inv Γ' s
  fail : ∀ {Γ s cause}, cause.isOrdinary = true ∨ D.fails cause → inv Γ s → err { cause } s
  step : ∀ {Γ s} {α : Type} (st : Step host α), st.Allowed D Γ → inv Γ s →
    toContract.Ensures Γ (fun _ => True) s (st.run s)
  child : ∀ {Γ s parent}, Γ.known parent → inv Γ s →
    inv (Γ.add s.scopes.size) (s.opened { parent := some parent }) ∧
      rel s (s.opened { parent := some parent })
  fork : ∀ {Γ s source}, Γ.fresh source → inv Γ s →
    inv (Γ.add s.scopes.size) (s.opened (s.scopes.scope source)) ∧
      rel s (s.opened (s.scopes.scope source))
  load : ∀ {Γ s} id, D.enters → inv Γ s →
    D.function (s.store.closure id).node ∧ inv (Γ.learn (s.store.closure id).scope) s
  refused : ∀ {Γ s}, inv Γ s → s.calls.isFull = true → err (Eval.refusal s.calls) s
  enter : ∀ {Γ s name}, D.enters → inv Γ s → s.calls.isFull = false → inv Γ (s.entered name)
  leave : ∀ {Γ s s' name}, inv Γ s → s.calls.isFull = false → inv Γ s' →
    rel (s.entered name) s' → inv Γ s'.left ∧ rel s s'.left
  carry : ∀ {e s}, err e s → err (s.calls.attach e) s.left

/-- A contract is kept by what keeps the state in order and fails with known errors. -/
theorem Contract.Ensures.of_leaves {C : Contract} {Γ : Reach} {α : Type} {s : State}
    {o : Outcome State α} (h : o.Leaves fun s' => C.inv Γ s' ∧ C.rel s s')
    (he : ∀ e s', o = .failed e s' → C.err e s') : C.Ensures Γ (fun _ => True) s o := by
  cases o with
  | done a s' => exact ⟨h.1, h.2, trivial⟩
  | failed e s' => exact ⟨h.1, h.2, he e s' rfl⟩
  | endless => trivial

/-- What a contract promises of the state that is left behind. -/
theorem Contract.Ensures.leaves {C : Contract} {Γ : Reach} {α : Type} {Q : α → Prop} {s : State}
    {o : Outcome State α} (h : C.Ensures Γ Q s o) : o.Leaves fun s' => C.inv Γ s' ∧ C.rel s s' := by
  cases o with
  | done a s' => exact ⟨h.1, h.2.1⟩
  | failed e s' => exact ⟨h.1, h.2.1⟩
  | endless => trivial

/-- The law that the store is related to that of some earlier moment, in a way that is kept by
routines and when functions of the program are made. -/
def Law.ofStore {host : Host} (R : Store → Store → Prop) (refl : ∀ s, R s s)
    (trans : ∀ {s₁ s₂ s₃}, R s₁ s₂ → R s₂ s₃ → R s₁ s₃)
    (routine : ∀ {α : Type} {m : Run Store α}, Routine host m → ∀ s, (m s).Leaves (R s))
    (made : ∀ s c, R s { s with closures := s.closures.push c }) (earlier : Store) :
    Law host {} where
  inv _ s := R earlier s.store
  rel _ _ := True
  err _ _ := True
  refl _ := trivial
  trans _ _ := trivial
  frame _ _ h := h
  narrow _ h := h
  fail _ _ := trivial
  step {_ s} _ st _ h := by
    have hs : (st.run s).Leaves fun s' => R s.store s'.store :=
      st.leaves_store (refl _) (fun hm => routine hm _) (made _)
    exact .of_leaves (hs.mono fun s' hs => ⟨trans h hs, trivial⟩) fun _ _ _ => trivial
  child _ h := ⟨h, trivial⟩
  fork _ h := ⟨h, trivial⟩
  load _ _ h := ⟨trivial, h⟩
  refused _ _ := trivial
  enter _ h _ := h
  leave _ _ h _ := ⟨h, trivial⟩
  carry _ := trivial

namespace Contract.Ensures

variable {host : Host} {D : Discipline} {L : Law host D} {Γ Γ' : Reach} {α : Type}
variable {Q Q' : α → Prop} {s s₁ : State} {o : Outcome State α}

theorem weaken (h : L.Ensures Γ Q s o) (hQ : ∀ a, Q a → Q' a) : L.Ensures Γ Q' s o := by
  cases o with
  | done a s' => exact ⟨h.1, h.2.1, hQ a h.2.2⟩
  | failed e s' => exact h
  | endless => trivial

/-- What is ensured from a later state on is ensured from the state before. -/
theorem after (hr : L.rel s s₁) (h : L.Ensures Γ Q s₁ o) : L.Ensures Γ Q s o := by
  cases o with
  | done a s' => exact ⟨h.1, L.trans hr h.2.1, h.2.2⟩
  | failed e s' => exact ⟨h.1, L.trans hr h.2.1, h.2.2⟩
  | endless => trivial

/-- What is ensured with other scopes in reach is ensured with those of before. -/
theorem within (hi : L.inv Γ s) (h : L.Ensures Γ' Q s o) : L.Ensures Γ Q s o := by
  cases o with
  | done a s' => exact ⟨L.frame hi h.2.1 h.1, h.2⟩
  | failed e s' => exact ⟨L.frame hi h.2.1 h.1, h.2⟩
  | endless => trivial

end Contract.Ensures

/-! ### Soundness -/

section sound

variable {host : Host} {D : Discipline} (L : Law host D)

/-- The tasks and states that a computation under a law does not ask for. -/
def Law.Outside (t : Task) (s : State) : Prop := ¬ (D.asks t ∧ L.inv (Reach.of t) s)

/-- A performer that keeps a law. -/
def Law.Keeps (p : Performer) : Prop :=
  ∀ t s, D.asks t → L.inv (Reach.of t) s → L.Ensures (Reach.of t) (D.gives t) s (p t s)

/-- What a computation under a law does: it keeps the law, and it asks for nothing outside. -/
def Law.Holds (p : Performer) {α : Type} (Γ : Reach) (Q : α → Prop) (s : State)
    (f : Performer → Outcome State α) : Prop :=
  L.Ensures Γ Q s (f p) ∧ ∀ q, Performer.AgreeOff L.Outside q p → f q = f p

variable {L} {p : Performer} {Γ : Reach} {α β : Type} {Q : α → Prop} {Q' : β → Prop}
variable {F : Performer → Eval α} {G : α → Performer → Eval β} {H : EvalError → Performer → Eval β}
variable {s : State}

namespace Law.Holds

variable {f g : Performer → Outcome State α}

theorem const {o : Outcome State α} (h : L.Ensures Γ Q s o) : L.Holds p Γ Q s fun _ => o :=
  ⟨h, fun _ _ => rfl⟩

theorem congr (hg : L.Holds p Γ Q s g)
    (h : ∀ q, Performer.AgreeOff L.Outside q p → f q = g q) : L.Holds p Γ Q s f := by
  have hp := h p fun _ _ _ => rfl
  refine ⟨hp ▸ hg.1, fun q hq => ?_⟩
  rw [h q hq, hg.2 q hq, hp]

theorem after {s₁ : State} (hr : L.rel s s₁) (h : L.Holds p Γ Q s₁ f) : L.Holds p Γ Q s f :=
  ⟨h.1.after hr, h.2⟩

theorem within {Γ' : Reach} (hi : L.inv Γ s) (h : L.Holds p Γ' Q s f) : L.Holds p Γ Q s f :=
  ⟨h.1.within hi, h.2⟩

theorem bind (hF : L.Holds p Γ Q s fun q => F q s)
    (hG : ∀ a s', Q a → L.inv Γ s' → L.Holds p Γ Q' s' fun q => G a q s') :
    L.Holds p Γ Q' s fun q => (F q >>= fun a => G a q) s := by
  -- over every performer in question the first part comes out as over `p`
  obtain ⟨hF, same⟩ := hF
  dsimp only at hF same
  cases h : F p s with
  | done a s' =>
    rw [h] at hF same
    obtain ⟨hi, hr, hQ⟩ := hF
    exact ((hG a s' hQ hi).after hr).congr fun q hq => Run.bind_done (same q hq)
  | failed e s' =>
    rw [h] at hF same
    have ho : L.Ensures Γ Q' s (.failed e s') := hF
    exact (const ho).congr fun q hq => Run.bind_failed (same q hq)
  | endless =>
    rw [h] at same
    have ho : L.Ensures Γ Q' s .endless := trivial
    exact (const ho).congr fun q hq => Run.bind_endless (same q hq)

theorem recover (hF : L.Holds p Γ Q s fun q => F q s)
    (hG : ∀ a s', Q a → L.inv Γ s' → L.Holds p Γ Q' s' fun q => G a q s')
    (hH : ∀ e s', L.inv Γ s' → L.Holds p Γ Q' s' fun q => H e q s') :
    L.Holds p Γ Q' s fun q => Run.recover (F q) (fun a => G a q) (fun e => H e q) s := by
  obtain ⟨hF, same⟩ := hF
  dsimp only at hF same
  cases h : F p s with
  | done a s' =>
    rw [h] at hF same
    obtain ⟨hi, hr, hQ⟩ := hF
    exact ((hG a s' hQ hi).after hr).congr fun q hq => Run.recover_done (same q hq)
  | failed e s' =>
    rw [h] at hF same
    -- the handler runs in the state that the failure left, which keeps the invariant
    cases he : e.isCatchable with
    | true =>
      exact ((hH e s' hF.1).after hF.2.1).congr fun q hq => Run.recover_failed (same q hq) he
    | false =>
      have ho : L.Ensures Γ Q' s (.failed e s') := hF
      exact (const ho).congr fun q hq => Run.recover_fatal (same q hq) he
  | endless =>
    rw [h] at same
    have ho : L.Ensures Γ Q' s .endless := trivial
    exact (const ho).congr fun q hq => Run.recover_endless (same q hq)

theorem framed {name : String} (he : D.enters) (hi : L.inv Γ s)
    (hF : ∀ s', L.inv Γ s' → L.Holds p Γ Q s' fun q => F q s') :
    L.Holds p Γ Q s fun q => Eval.framed name (F q) s := by
  cases hs : s.calls.isFull with
  | true =>
    -- a call that is refused runs nothing
    have ho : L.Ensures Γ Q s (.failed (Eval.refusal s.calls) s) :=
      ⟨hi, L.refl hi, L.refused hi hs⟩
    exact (const ho).congr fun q _ => Eval.framed_of_full hs name _
  | false =>
    obtain ⟨hF, same⟩ := hF _ (L.enter he hi hs)
    dsimp only at hF same
    cases h : F p (s.entered name) with
    | done a s' =>
      rw [h] at hF same
      obtain ⟨hi', hr⟩ := L.leave hi hs hF.1 hF.2.1
      have ho : L.Ensures Γ Q s (.done a s'.left) := ⟨hi', hr, hF.2.2⟩
      exact (const ho).congr fun q hq => Eval.framed_done hs (same q hq)
    | failed e s' =>
      rw [h] at hF same
      obtain ⟨hi', hr⟩ := L.leave hi hs hF.1 hF.2.1
      have ho : L.Ensures Γ Q s (.failed (s'.calls.attach e) s'.left) :=
        ⟨hi', hr, L.carry hF.2.2⟩
      exact (const ho).congr fun q hq => Eval.framed_failed hs (same q hq)
    | endless =>
      rw [h] at same
      have ho : L.Ensures Γ Q s .endless := trivial
      exact (const ho).congr fun q hq => Eval.framed_endless hs (same q hq)

end Law.Holds

/-- A computation that abides by a discipline keeps every law of the discipline, and it asks
for nothing outside of the law. -/
theorem Abides.sound (h : Abides host D Γ Q F) (hp : L.Keeps p) (hi : L.inv Γ s) :
    L.Holds p Γ Q s fun q => F q s := by
  induction h generalizing s with
  | pure h => exact .const ⟨hi, L.refl hi, h⟩
  | endless _ => exact .const trivial
  | fail h => exact .const ⟨hi, L.refl hi, L.fail h hi⟩
  | step st h => exact .const (L.step st h hi)
  | ask t h _ hΓ =>
    -- the only place where performers may differ, and the contract holds there
    have ht := L.narrow hΓ hi
    exact ⟨(hp t s h ht).within hi, fun q hq => hq t s fun hX => hX ⟨h, ht⟩⟩
  | weaken _ hQ ih => exact ⟨(ih hi).1.weaken hQ, (ih hi).2⟩
  | bind _ _ ihF ihG => exact (ihF hi).bind fun a _ ha hi => ihG a ha hi
  | child hs _ ih =>
    -- a scope that was opened on the way is out of reach again at the end
    obtain ⟨hi', hr⟩ := L.child hs hi
    exact ((ih _ hi').after hr).within hi
  | fork hs _ ih =>
    obtain ⟨hi', hr⟩ := L.fork hs hi
    exact ((ih _ hi').after hr).within hi
  | @load _ _ _ _ id he _ ih =>
    obtain ⟨hf, hi'⟩ := L.load id he hi
    exact (ih _ hf hi').within hi
  | recover _ _ _ ihF ihG ihH =>
    exact (ihF hi).recover (fun a _ ha hi => ihG a ha hi) fun e _ hi => ihH e hi
  | framed he _ ih => exact .framed he hi fun _ hi => ih hi

end sound

end Estree
