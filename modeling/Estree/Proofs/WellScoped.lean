/-
Estree/Proofs/WellScoped.lean

Scopes in order.

In every reachable state all scopes that are in use exist, and the chains of their parents lead to
the root (`WellScoped`).  Whatever is claimed of scopes beyond that need only be shown of the five
operations that write to them, given that they are applied where they should be.  A `ScopeLaw`
lists these obligations, and `ScopeLaw.law` makes a law of evaluations of it.

The conditions under which the operations are applied come from the discipline: a scope that is
read from is known, one that is declared in is owned, and a new one is fresh.  That these hold
wherever an operation is reached is shown once, for all laws.
-/
import Estree.Proofs.Function
import Estree.Proofs.Scope

namespace Estree

/-! ### States in order -/

/-- The scopes in reach exist, and those that were opened are not the root; so do the scopes that
functions were made in. -/
structure WellScoped (Γ : Reach) (s : State) : Prop where
  rooted : s.scopes.Rooted
  known : ∀ {id}, Γ.known id → id < s.scopes.size
  fresh : ∀ {id}, Γ.fresh id → id ≠ rootScope
  made : ∀ id, (s.store.closure id).scope < s.scopes.size

namespace WellScoped

variable {Γ Γ' : Reach} {s s' : State}

theorem narrow (hΓ : Γ'.Le Γ) (h : WellScoped Γ s) : WellScoped Γ' s where
  rooted := h.rooted
  known hid := h.known (hΓ.known hid)
  fresh hid := h.fresh (hΓ.fresh hid)
  made := h.made

theorem frame (h : WellScoped Γ s) (hs : s.scopes.size ≤ s'.scopes.size)
    (h' : WellScoped Γ' s') : WellScoped Γ s' where
  rooted := h'.rooted
  known hid := Nat.lt_of_lt_of_le (h.known hid) hs
  fresh := h.fresh
  made := h'.made

/-- Scopes are changed in place. -/
theorem rewrite {ss : Scopes} (h : WellScoped Γ s) (hs : s.scopes.SameChains ss) :
    WellScoped Γ { s with scopes := ss } where
  rooted := h.rooted.rewrite hs
  known hid := Nat.lt_of_lt_of_eq (h.known hid) hs.size.symm
  fresh := h.fresh
  made id := Nat.lt_of_lt_of_eq (h.made id) hs.size.symm

/-- A scope is opened below one that exists. -/
theorem opened {scope : Scope} {p : ScopeId} (h : WellScoped Γ s) (hs : scope.parent = some p)
    (hp : p < s.scopes.size) : WellScoped (Γ.add s.scopes.size) (s.opened scope) := by
  have hsize : (s.opened scope).scopes.size = s.scopes.size + 1 := Array.size_push _
  refine ⟨h.rooted.push hs hp, ?_, ?_, fun id => ?_⟩
  · rintro id (rfl | hid)
    · rw [hsize]
      exact Nat.lt_succ_self _
    · rw [hsize]
      exact Nat.lt_succ_of_lt (h.known hid)
  · rintro id (rfl | hid)
    · exact Nat.ne_of_gt h.rooted.nonempty
    · exact h.fresh hid
  · rw [hsize]
    exact Nat.lt_succ_of_lt (h.made id)

/-- A function is called. -/
theorem learn (h : WellScoped Γ s) (id : ClosureId) :
    WellScoped (Γ.learn (s.store.closure id).scope) s where
  rooted := h.rooted
  known := by
    rintro i (rfl | hi)
    · exact h.made id
    · exact h.known hi
  fresh := h.fresh
  made := h.made

/-- A function is made. -/
theorem newClosure {c : Closure} (h : WellScoped Γ s) (hc : Γ.known c.scope) :
    WellScoped Γ { s with store := { s.store with closures := s.store.closures.push c } } where
  rooted := h.rooted
  known := h.known
  fresh := h.fresh
  made id := by
    dsimp only
    rw [Store.closure_push]
    split
    · exact h.known hc
    · exact h.made id

/-- Something is done to the store. -/
theorem sameFunctions {store : Store} (h : WellScoped Γ s) (hs : SameFunctions s.store store) :
    WellScoped Γ { s with store } where
  rooted := h.rooted
  known := h.known
  fresh := h.fresh
  made id := by
    have hc := congrArg Closure.scope (hs.core id)
    exact Nat.lt_of_le_of_lt (Nat.le_of_eq hc) (h.made id)

/-- The list of running functions plays no part. -/
theorem withCalls {calls : CallStack} (h : WellScoped Γ s) : WellScoped Γ { s with calls } :=
  ⟨h.rooted, h.known, h.fresh, h.made⟩

/-- A task that comes with scopes that exist may be performed. -/
theorem task {t : Task} (h : WellScoped .none s) (ht : Existing t s) :
    WellScoped (Reach.of t) s where
  rooted := h.rooted
  known hid := ht _ hid
  fresh hid := absurd hid (Reach.not_fresh_of t)
  made := h.made

/-- The state that an interpreter is built in is in order. -/
theorem initial {store : Store} (calls : CallStack) (h : store.closures = #[]) :
    WellScoped (.owning rootScope) { store, scopes := #[{}], calls } where
  rooted :=
    { nonempty := Nat.one_pos
      root := rfl
      chain := fun id hid h0 => absurd (Nat.lt_one_iff.1 hid) h0 }
  known hid := hid ▸ Nat.one_pos
  fresh := False.elim
  made id := by
    unfold Store.closure
    rw [h]
    exact Nat.one_pos

end WellScoped

/-- A declaration in a scope that has just been opened. -/
theorem Eval.declare_opened (s : State) {scope scope' : Scope} {kind : VarKind} {name : String}
    {value : Option Value} (h : scope.create kind name value = .ok scope') :
    declare s.scopes.size kind name value (s.opened scope) = .done () (s.opened scope') := by
  unfold declare onScopes State.opened
  dsimp only
  rw [Scopes.create_push s.scopes h]

/-! ### Laws of scopes -/

/-- What is claimed of the scopes, and of those in reach, while only the given names are deleted:
an obligation for each operation that writes to scopes. -/
structure ScopeLaw (d : String → Prop) where
  /-- What holds of the scopes. -/
  inv : Scopes → Prop
  /-- What holds of the scopes in reach. -/
  reach : Reach → Prop
  narrow : ∀ {Γ Γ'}, Γ'.Le Γ → reach Γ → reach Γ'
  learn : ∀ {Γ} id, reach Γ → reach (Γ.learn id)
  create : ∀ {Γ ss id} kind name value, reach Γ → Γ.own id → id < ss.size → inv ss →
    inv (ss.create id kind name value).2
  update : ∀ {ss id} name value, ss.Rooted → id < ss.size → inv ss →
    inv (ss.update id name value).2
  delete : ∀ {ss id name}, d name → ss.Rooted → id < ss.size → inv ss →
    inv (ss.delete id name).2
  child : ∀ {ss parent}, parent < ss.size → inv ss → inv (ss.child parent).2
  fork : ∀ {ss id}, id < ss.size → inv ss → inv (ss.fork id).2
  opened : ∀ {Γ ss}, reach Γ → inv ss → reach (Γ.add ss.size)

variable {host : Host} {d : String → Prop}

namespace ScopeLaw

/-- Every step keeps the scopes in order and keeps a law of scopes. -/
theorem step (L : ScopeLaw d) (hk : host.KeepsFunctions) {Γ : Reach} {s : State} {α : Type}
    (st : Step host α) (hst : st.Allowed (.deleting d) Γ) (hw : WellScoped Γ s)
    (hΓ : L.reach Γ) (hi : L.inv s.scopes) :
    (st.run s).Leaves fun s' =>
      (WellScoped Γ s' ∧ L.inv s'.scopes) ∧ s.scopes.size ≤ s'.scopes.size := by
  have same : (WellScoped Γ s ∧ L.inv s.scopes) ∧ s.scopes.size ≤ s.scopes.size :=
    ⟨⟨hw, hi⟩, Nat.le_refl _⟩
  -- the scopes are changed in place
  have rewritten {ss : Scopes} (hs : s.scopes.SameChains ss) (h : L.inv ss) :
      (WellScoped Γ { s with scopes := ss } ∧ L.inv ss) ∧ s.scopes.size ≤ ss.size :=
    ⟨⟨hw.rewrite hs, h⟩, Nat.le_of_eq hs.size.symm⟩
  cases st with
  | store m hm =>
    refine (Eval.onStore_leaves (hm.sameFunctions hk s.store)).mono ?_
    rintro _ ⟨store, hs, rfl⟩
    exact ⟨⟨hw.sameFunctions hs, hi⟩, Nat.le_refl _⟩
  | closure c => exact ⟨⟨hw.newClosure hst.2, hi⟩, Nat.le_refl _⟩
  | query scope name => exact Eval.query_leaves scope name same
  | lookup scope name => exact same
  | declare scope kind name value =>
    refine (Eval.onScopes_leaves (fun ss => ss.create scope kind name value) s).mono ?_
    rintro _ rfl
    exact rewritten (Scopes.sameChains_create ..)
      (L.create kind name value hΓ hst.1 (hw.known (Γ.own_known hst.1)) hi)
  | assign scope name value =>
    refine (Eval.onScopes_leaves (fun ss => ss.update scope name value) s).mono ?_
    rintro _ rfl
    exact rewritten (Scopes.sameChains_update ..)
      (L.update name value hw.rooted (hw.known hst.1) hi)
  | delete scope name =>
    exact rewritten (Scopes.sameChains_delete ..)
      (L.delete hst.2.2 hw.rooted (hw.known hst.1) hi)

/-- A law of scopes as a law of evaluations. -/
def law (L : ScopeLaw d) (hk : host.KeepsFunctions) : Law host (.deleting d) where
  inv Γ s := WellScoped Γ s ∧ L.reach Γ ∧ L.inv s.scopes
  rel s s' := s.scopes.size ≤ s'.scopes.size
  err _ _ := True
  refl _ := Nat.le_refl _
  trans := Nat.le_trans
  frame h hr h' := ⟨h.1.frame hr h'.1, h.2.1, h'.2.2⟩
  narrow hΓ h := ⟨h.1.narrow hΓ, L.narrow hΓ h.2.1, h.2.2⟩
  fail _ _ := trivial
  step st hst h := by
    refine .of_leaves ((L.step hk st hst h.1 h.2.1 h.2.2).mono fun s' hs => ?_)
      fun _ _ _ => trivial
    exact ⟨⟨hs.1.1, h.2.1, hs.1.2⟩, hs.2⟩
  child {_ s parent} hp h := by
    have hid := h.1.known hp
    refine ⟨⟨h.1.opened rfl hid, L.opened h.2.1 h.2.2, L.child hid h.2.2⟩, ?_⟩
    exact Nat.le_of_lt (Array.size_push _ ▸ Nat.lt_succ_self _)
  fork {Γ s source} hs h := by
    have hid := h.1.known (Γ.own_known (Γ.fresh_own hs))
    -- the copy has the parent of its source, which is not the root
    obtain ⟨p, hp, he⟩ := h.1.rooted.chain source hid (h.1.fresh hs)
    refine ⟨⟨h.1.opened he (Nat.lt_trans hp hid), L.opened h.2.1 h.2.2, L.fork hid h.2.2⟩, ?_⟩
    exact Nat.le_of_lt (Array.size_push _ ▸ Nat.lt_succ_self _)
  load id _ h := ⟨trivial, h.1.learn id, L.learn _ h.2.1, h.2.2⟩
  refused _ _ := trivial
  enter _ h _ := ⟨h.1.withCalls, h.2⟩
  leave _ _ h hr := ⟨⟨h.1.withCalls, h.2⟩, hr⟩
  carry _ := trivial

end ScopeLaw

/-! ### Sessions -/

/-- An evaluation in which no other identifiers are deleted than the given. -/
def DeletesOnly (host : Host) (d : String → Prop) (n : Nat) (t : Task) (s : State) : Prop :=
  ∀ {m name scope s'}, Encloses host n t s m (.expr (.unary .delete (.ident name)) scope) s' →
    d name

/-- Where only the given names are deleted, all that is asked for may be done. -/
theorem DeletesOnly.admits {n : Nat} {t : Task} {s : State} (h : DeletesOnly host d n t s)
    {m : Nat} {t' : Task} {s' : State} (he : Encloses host n t s m t' s') :
    (Discipline.deleting d).Admits t' := by
  refine Discipline.deleting_task _ fun name scope ht => ?_
  subst ht
  exact h he

namespace ScopeLaw

variable (L : ScopeLaw d) {s s' : State}

/-- A law of scopes is kept by every session. -/
theorem session (hk : host.KeepsFunctions) (hΓ : ∀ Γ, L.reach Γ) (hw : WellScoped .none s)
    (hi : L.inv s.scopes)
    (hs : Session host (fun n t r => Existing t r ∧ DeletesOnly host d n t r) s s') :
    WellScoped .none s' ∧ L.inv s'.scopes := by
  have h := (L.law hk).session (fun ht h =>
    ⟨Discipline.asks_all _, ⟨h.1.task ht.1, hΓ _, h.2.2⟩, fun he _ => DeletesOnly.admits ht.2 he⟩)
    hs ⟨hw, hΓ _, hi⟩
  exact ⟨h.1, h.2.2⟩

/-- A law of scopes that holds of an empty root holds in every reachable state. -/
theorem reachable (L : ScopeLaw fun _ => True) (hk : host.KeepsFunctions) (hΓ : ∀ Γ, L.reach Γ)
    (hi : L.inv #[{}]) (h : Reachable host s) : WellScoped .none s ∧ L.inv s.scopes := by
  obtain ⟨config, store, i, s₀, hc, hb, hs⟩ := h
  have h₀ := (L.law hk).build (fun _ => trivial) hb ⟨.initial _ hc, hΓ _, hi⟩
  have h := (L.law hk).session (fun ht h =>
    ⟨Discipline.asks_all _, ⟨h.1.task ht, hΓ _, h.2.2⟩, fun _ _ => Discipline.admits_all _⟩) hs h₀
  exact ⟨h.1, h.2.2⟩

/-- The law that says nothing more of scopes. -/
def silent : ScopeLaw fun _ => True where
  inv _ := True
  reach _ := True
  narrow _ _ := ⟨⟩
  learn _ _ := ⟨⟩
  create _ _ _ _ _ _ _ := ⟨⟩
  update _ _ _ _ _ := ⟨⟩
  delete _ _ _ _ := ⟨⟩
  child _ _ := ⟨⟩
  fork _ _ := ⟨⟩
  opened _ _ := ⟨⟩

end ScopeLaw

/-- In every reachable state the scopes are in order. -/
theorem Reachable.wellScoped (hk : host.KeepsFunctions) {s : State} (h : Reachable host s) :
    WellScoped .none s :=
  (ScopeLaw.silent.reachable hk (fun _ => ⟨⟩) ⟨⟩ h).1

/-- Whatever comes with the root scope alone may be performed in every reachable state. -/
theorem Reachable.existing (hk : host.KeepsFunctions) {s : State} (h : Reachable host s) {t : Task}
    (ht : ∀ id, (Reach.of t).known id → id = rootScope) : Existing t s :=
  fun id hid => ht id hid ▸ (h.wellScoped hk).rooted.nonempty

end Estree
