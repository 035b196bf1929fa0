/-
Estree/Proofs/Simulation.lean

Two runs side by side.

A `Simulation` is a relation on states that every step of a computation under a discipline hands
on: taken in related states, a step gives the same value or fails with the same error, and what
it leaves behind is related again.  Like a law, it has one obligation for each way in which a
computation is composed, and none of them mentions a node of the syntax.

The main result is `Simulation.perform`: what the evaluator does in one of two related states it
does in the other too, within the same budget.
-/
import Estree.Proofs.Law
import Estree.Proofs.Enclosed

namespace Estree

/-! ### Outcomes side by side -/

/-- Two outcomes that are alike: the same value, which has the property `Q`, or the same error, with
related states left behind; or both do not end. -/
inductive Outcome.Alike {σ α : Type} (R : σ → σ → Prop) (Q : α → Prop) :
    Outcome σ α → Outcome σ α → Prop
  | done {a : α} {s s' : σ} (hQ : Q a) (h : R s s') : Alike R Q (.done a s) (.done a s')
  | failed {e : EvalError} {s s' : σ} (h : R s s') : Alike R Q (.failed e s) (.failed e s')
  | endless : Alike R Q .endless .endless

/-- An outcome is like itself. -/
theorem Outcome.Leaves.alike {σ α : Type} {P : σ → Prop} {o : Outcome σ α} (h : o.Leaves P) :
    o.Alike (fun s s' => s' = s ∧ P s) (fun _ => True) o := by
  cases o with
  | done a s => exact .done trivial ⟨rfl, h⟩
  | failed e s => exact .failed ⟨rfl, h⟩
  | endless => exact .endless

namespace Outcome.Alike

section

variable {σ α : Type} {R R' : σ → σ → Prop} {Q Q' : α → Prop} {o o' : Outcome σ α}

theorem mono (h : o.Alike R Q o') (hR : ∀ s s', R s s' → R' s s') (hQ : ∀ a, Q a → Q' a) :
    o.Alike R' Q' o' := by
  cases h with
  | done ha hs => exact .done (hQ _ ha) (hR _ _ hs)
  | failed hs => exact .failed (hR _ _ hs)
  | endless => exact .endless

/-- What the first of two outcomes leaves behind is related to something. -/
theorem leaves (h : o.Alike R Q o') : o.Leaves fun s => ∃ s', R s s' := by
  cases h with
  | done _ hs => exact ⟨_, hs⟩
  | failed hs => exact ⟨_, hs⟩
  | endless => trivial

/-- Two outcomes that are both like a third. -/
theorem join {R₁ R₂ : σ → σ → Prop} {o₁ o₂ : Outcome σ α} (h₁ : o₁.Alike R₁ Q o)
    (h₂ : o₂.Alike R₂ Q' o) : o₁.Alike (fun s₁ s₂ => ∃ s, R₁ s₁ s ∧ R₂ s₂ s) Q o₂ := by
  cases h₁ with
  | done ha hs₁ =>
    cases h₂ with
    | done _ hs₂ => exact .done ha ⟨_, hs₁, hs₂⟩
  | failed hs₁ =>
    cases h₂ with
    | failed hs₂ => exact .failed ⟨_, hs₁, hs₂⟩
  | endless =>
    cases h₂ with
    | endless => exact .endless

end

variable {σ α β : Type} {R R' : σ → σ → Prop} {Q : α → Prop} {Q' : β → Prop} {m m' : Run σ α}
variable {f f' : α → Run σ β} {h h' : EvalError → Run σ β} {s s' : σ}

theorem bind (hm : (m s).Alike R Q (m' s')) (hR : ∀ s s', R s s' → R' s s')
    (hf : ∀ a s s', Q a → R s s' → (f a s).Alike R' Q' (f' a s')) :
    ((m >>= f) s).Alike R' Q' ((m' >>= f') s') := by
  generalize ho : m s = o at hm
  generalize ho' : m' s' = o' at hm
  cases hm with
  | done ha hs =>
    rw [Run.bind_done ho, Run.bind_done ho']
    exact hf _ _ _ ha hs
  | failed hs =>
    rw [Run.bind_failed ho, Run.bind_failed ho']
    exact .failed (hR _ _ hs)
  | endless =>
    rw [Run.bind_endless ho, Run.bind_endless ho']
    exact .endless

theorem recover (hm : (m s).Alike R Q (m' s'))
    (hf : ∀ a s s', Q a → R s s' → (f a s).Alike R Q' (f' a s'))
    (hh : ∀ e s s', R s s' → (h e s).Alike R Q' (h' e s')) :
    (Run.recover m f h s).Alike R Q' (Run.recover m' f' h' s') := by
  generalize ho : m s = o at hm
  generalize ho' : m' s' = o' at hm
  cases hm with
  | done ha hs =>
    rw [Run.recover_done ho, Run.recover_done ho']
    exact hf _ _ _ ha hs
  | @failed e _ _ hs =>
    cases he : e.isCatchable with
    | true =>
      rw [Run.recover_failed ho he, Run.recover_failed ho' he]
      exact hh _ _ _ hs
    | false =>
      rw [Run.recover_fatal ho he, Run.recover_fatal ho' he]
      exact .failed hs
  | endless =>
    rw [Run.recover_endless ho, Run.recover_endless ho']
    exact .endless

end Outcome.Alike

/-! ### Simulations -/

/-- A relation on states that a discipline hands on. -/
structure Simulation (host : Host) (D : Discipline) where
  /-- How the states of the two runs are related. -/
  rel : State → State → Prop
  /-- What is required of the scopes in reach. -/
  reach : Reach → Prop
  reach_of : ∀ t, reach (Reach.of t)
  learn : ∀ {Γ} scope, reach Γ → reach (Γ.learn scope)
  step : ∀ {Γ s s'} {α : Type} (st : Step host α), st.Allowed D Γ → reach Γ → rel s s' →
    (st.run s).Alike rel (fun _ => True) (st.run s')
  size : ∀ {s s'}, rel s s' → s'.scopes.size = s.scopes.size
  child : ∀ {Γ s s' parent}, Γ.known parent → reach Γ → rel s s' →
    reach (Γ.add s.scopes.size) ∧
      rel (s.opened { parent := some parent }) (s'.opened { parent := some parent })
  fork : ∀ {Γ s s' source}, Γ.fresh source → reach Γ → rel s s' →
    reach (Γ.add s.scopes.size) ∧
      rel (s.opened (s.scopes.scope source)) (s'.opened (s'.scopes.scope source))
  load : ∀ {s s'} id, rel s s' →
    D.function (s.store.closure id).node ∧ s'.store.closure id = s.store.closure id
  calls : ∀ {s s'}, D.enters → rel s s' → s'.calls = s.calls
  withCalls : ∀ {s s'} calls, D.enters → rel s s' → rel { s with calls } { s' with calls }

section simulated

variable {host : Host} {D : Discipline} (S : Simulation host D)

/-- Two performers that do the same in related states. -/
def Simulation.Matches (p p' : Performer) : Prop :=
  ∀ t s s', D.asks t → S.rel s s' → (p t s).Alike S.rel (D.gives t) (p' t s')

variable {S} {p p' : Performer} {α : Type} {Q : α → Prop} {m m' : Eval α} {s s' : State}

theorem Outcome.Alike.framed {name : String} (he : D.enters) (hs : S.rel s s')
    (hm : ∀ s s', S.rel s s' → (m s).Alike S.rel Q (m' s')) :
    (Eval.framed name m s).Alike S.rel Q (Eval.framed name m' s') := by
  -- equal stacks are refused together, and stay equal when a frame is opened or closed
  have entered (hs : S.rel s s') : S.rel (s.entered name) (s'.entered name) := by
    unfold State.entered
    rw [S.calls he hs]
    exact S.withCalls _ he hs
  have left {s s' : State} (hs : S.rel s s') : S.rel s.left s'.left := by
    unfold State.left
    rw [S.calls he hs]
    exact S.withCalls _ he hs
  cases hc : s.calls.isFull with
  | true =>
    have hc' : s'.calls.isFull = true := (congrArg CallStack.isFull (S.calls he hs)).trans hc
    rw [Eval.framed_of_full hc, Eval.framed_of_full hc', S.calls he hs]
    exact .failed hs
  | false =>
    have hc' : s'.calls.isFull = false := (congrArg CallStack.isFull (S.calls he hs)).trans hc
    have hi := hm _ _ (entered hs)
    generalize ho : m (s.entered name) = o at hi
    generalize ho' : m' (s'.entered name) = o' at hi
    cases hi with
    | done ha hs =>
      rw [Eval.framed_done hc ho, Eval.framed_done hc' ho']
      exact .done ha (left hs)
    | failed hs =>
      rw [Eval.framed_failed hc ho, Eval.framed_failed hc' ho', S.calls he hs]
      exact .failed (left hs)
    | endless =>
      rw [Eval.framed_endless hc ho, Eval.framed_endless hc' ho']
      exact .endless

/-- A computation that abides by a discipline does the same in related states, over performers that
do. -/
theorem Abides.simulated {Γ : Reach} {F : Performer → Eval α} (h : Abides host D Γ Q F)
    (hp : S.Matches p p') (hΓ : S.reach Γ) (hs : S.rel s s') :
    (F p s).Alike S.rel Q (F p' s') := by
  induction h generalizing s s' with
  | pure h => exact .done h hs
  | endless _ => exact .endless
  | fail h => exact .failed hs
  | step st h => exact S.step st h hΓ hs
  | ask t h _ _ => exact hp t s s' h hs
  | weaken _ hQ ih => exact (ih hΓ hs).mono (fun _ _ => id) hQ
  | bind _ _ ihF ihG =>
    exact .bind (ihF hΓ hs) (fun _ _ => id) fun a _ _ ha hs => ihG a ha hΓ hs
  | @child _ _ _ G _ hp _ ih =>
    -- the new scope has the same place in both runs
    obtain ⟨hΓ', hs'⟩ := S.child hp hΓ hs
    show (G s.scopes.size p _).Alike S.rel _ (G s'.scopes.size p' _)
    rw [S.size hs]
    exact ih _ hΓ' hs'
  | @fork _ _ _ G _ hp _ ih =>
    obtain ⟨hΓ', hs'⟩ := S.fork hp hΓ hs
    show (G s.scopes.size p _).Alike S.rel _ (G s'.scopes.size p' _)
    rw [S.size hs]
    exact ih _ hΓ' hs'
  | @load _ _ _ G id _ _ ih =>
    obtain ⟨hf, hc⟩ := S.load id hs
    show (G (s.store.closure id) p s).Alike S.rel _ (G (s'.store.closure id) p' s')
    rw [hc]
    exact ih _ hf (S.learn _ hΓ) hs
  | recover _ _ _ ihF ihG ihH =>
    exact .recover (ihF hΓ hs) (fun a _ _ ha hs => ihG a ha hΓ hs) fun e _ _ hs => ihH e hΓ hs
  | framed he _ ih => exact .framed he hs fun _ _ hs => ih hΓ hs

variable (S)

/-- What the evaluator does in one of two related states it does in the other. -/
theorem Simulation.perform (hD : ∀ t, D.asks t → D.Admits t) (n : Nat) :
    S.Matches (Machine.perform host n) (Machine.perform host n) := by
  intro t s s' ht hs
  refine Machine.levels host
    (C := fun t m => ∀ s s', D.asks t → S.rel s s' → (m s).Alike S.rel (D.gives t) (m s'))
    (fun _ _ _ _ _ => .endless) (fun n p hp t s s' ht hs => ?_) n t s s' ht hs
  exact (Abides.rule (hD t ht)).simulated hp (S.reach_of t) hs

end simulated

end Estree
