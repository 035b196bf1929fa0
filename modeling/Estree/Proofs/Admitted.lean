/-
Estree/Proofs/Admitted.lean

Evaluations of trees that a discipline admits.

If a discipline admits whatever it lets be asked for, then evaluations that begin with admitted
tasks stay among them, and fail only for causes that the discipline allows.  What it takes is an
invariant of states, `State.FunctionsIn`: every function that was ever made is one that the
discipline lets be called.  The main result is `Discipline.fails_of_enclosed`; it is about
whole sessions on an interpreter that was built over a store without functions of the program.

The step is that of a single rule: it asks only for what the discipline lets be asked for, and makes
only functions that may be called.  From there on, induction on the budget covers one evaluation,
and induction on the session what comes after it.
-/
import Estree.Proofs.Function

namespace Estree

/-! ### Functions in the store -/

/-- All functions of the program have a property. -/
def State.FunctionsIn (P : Function → Prop) (s : State) : Prop :=
  ∀ id, P (s.store.closure id).node

namespace State.FunctionsIn

variable {P : Function → Prop} {s : State}

theorem sameFunctions {store : Store} (h : s.FunctionsIn P) (hs : SameFunctions s.store store) :
    State.FunctionsIn P { s with store } := by
  intro id
  have hc : (store.closure id).core.node = (s.store.closure id).core.node :=
    congrArg Closure.node (hs.core id)
  show P (store.closure id).core.node
  rw [hc]
  exact h id

theorem newClosure {c : Closure} (h : s.FunctionsIn P) (hc : P c.node) :
    State.FunctionsIn P
      { s with store := { s.store with closures := s.store.closures.push c } } := by
  intro id
  dsimp only
  rw [Store.closure_push]
  split
  · exact hc
  · exact h id

/-- Where there are no functions, each place reads as the default one. -/
theorem of_empty (hs : s.store.closures = #[]) (hP : P (default : Closure).node) :
    s.FunctionsIn P := by
  intro id
  unfold Store.closure
  rw [hs]
  exact hP

end State.FunctionsIn

/-! ### The law -/

/-- A discipline that allows for every cause which does not lie in a tree. -/
structure Discipline.Covers (D : Discipline) (host : Host) : Prop where
  ordinary : ∀ cause, cause.isOrdinary = true → D.fails cause
  scope : ∀ e : ScopeError, D.fails e.cause
  depth : ∀ n, D.fails (.tooDeep n)
  host : ∀ id this args s e s', host.call id this args s = .failed e s' → D.fails e.cause

/-- What it means as a contract that a discipline is followed. -/
def Contract.admitted (D : Discipline) : Contract where
  inv _ s := s.FunctionsIn D.function
  rel _ _ := True
  err e _ := D.fails e.cause

section law

variable {host : Host} {D : Discipline}

/-- A step fails for causes that are allowed, and makes only functions that are allowed. -/
theorem Step.admitted (hk : host.KeepsFunctions) (hD : D.Covers host) {Γ : Reach} {s : State}
    {α : Type} (st : Step host α) (hst : st.Allowed D Γ) (h : s.FunctionsIn D.function) :
    (Contract.admitted D).Ensures Γ (fun _ => True) s (st.run s) := by
  have scopes {α : Type} (f : Scopes → Except ScopeError α × Scopes) :
      (Contract.admitted D).Ensures Γ (fun _ => True) s (Eval.onScopes f s) := by
    unfold Eval.onScopes
    dsimp only
    rcases f s.scopes with ⟨e | a, ss⟩
    · exact ⟨h, trivial, hD.scope e⟩
    · exact ⟨h, trivial, trivial⟩
  cases st with
  -- whatever a routine of the library does to the store, no function of it changes
  | store m hm =>
    have hs := hm.sound (StoreLaw.functions hk D.fails hD.ordinary hD.host) s.store
    show (Contract.admitted D).Ensures Γ _ s (Eval.onStore m s)
    unfold Eval.onStore
    dsimp only
    generalize m s.store = o at hs ⊢
    rcases o with ⟨a, store⟩ | ⟨e, store⟩ | -
    · exact ⟨h.sameFunctions hs, trivial, trivial⟩
    · exact ⟨h.sameFunctions hs.1, trivial, hs.2⟩
    · trivial
  -- the one step that makes a function; `Allowed` says that it is admitted
  | closure c => exact ⟨h.newClosure hst.1, trivial, trivial⟩
  | query scope name =>
    show (Contract.admitted D).Ensures Γ _ s (Eval.query scope name s)
    unfold Eval.query
    split
    · exact ⟨h, trivial, trivial⟩
    · exact ⟨h, trivial, hD.scope _⟩
  | lookup scope name => exact ⟨h, trivial, trivial⟩
  | declare scope kind name value => exact scopes fun ss => ss.create scope kind name value
  | assign scope name value => exact scopes fun ss => ss.update scope name value
  | delete scope name => exact ⟨h, trivial, trivial⟩

/-- The law that a discipline is followed. -/
def Law.admitted (hk : host.KeepsFunctions) (hD : D.Covers host) : Law host D where
  toContract := .admitted D
  refl _ := trivial
  trans _ _ := trivial
  frame _ _ h := h
  narrow _ h := h
  fail h _ := h.elim (hD.ordinary _) id
  step st hst h := st.admitted hk hD hst h
  child _ h := ⟨h, trivial⟩
  fork _ h := ⟨h, trivial⟩
  load id _ h := ⟨h id, h⟩
  refused {_ s} _ _ := by
    show D.fails (Eval.refusal s.calls).cause
    rw [Eval.refusal, CallStack.attach_cause]
    exact hD.depth _
  enter _ h _ := h
  leave _ _ h _ := ⟨h, trivial⟩
  carry {e s} h := by
    show D.fails (s.calls.attach e).cause
    rw [CallStack.attach_cause]
    exact h

/-! ### Sessions -/

/-- **Admitted tasks fail only for causes that are allowed**, however often the interpreter has been
used for such tasks, and so does every evaluation within them. -/
theorem Discipline.fails_of_enclosed (hk : host.KeepsFunctions) (hD : D.Covers host)
    (admits : ∀ t, D.asks t → D.Admits t) (names : ∀ name, D.names name)
    (hf : D.function (default : Closure).node) {allow : Task → Prop}
    (asks : ∀ t, allow t → D.asks t) {config : Config} {store : Store}
    (hc : store.closures = #[]) {i : Interpreter} {s₀ s : State}
    (hb : Interpreter.build config store = .done i s₀)
    (hs : Session host (fun _ t _ => allow t) s₀ s) {n : Nat} {t : Task} (ht : allow t)
    {m : Nat} {t' : Task} {s' : State} (he : Encloses host n t s m t' s') {e : EvalError}
    {σ : State} (hfail : Machine.perform host m t' s' = .failed e σ) : D.fails e.cause := by
  let L := Law.admitted hk hD
  have h₀ : s₀.FunctionsIn D.function := L.build names hb (State.FunctionsIn.of_empty hc hf)
  have h : s.FunctionsIn D.function :=
    L.session (fun ht h => ⟨asks _ ht, h, fun _ => admits _⟩) hs h₀
  obtain ⟨ht', hi⟩ := L.enclosed he (fun _ => admits _) (asks t ht) h
  have hp := L.perform m t' s' (fun _ => admits _) ht' hi
  rw [hfail] at hp
  exact hp.2.2

end law

end Estree
