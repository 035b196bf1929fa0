/-
Estree/Proofs/Iteration.lean

Each round of a `for` has its own copy of what the header declares.

When a round is over, the next one is given a copy of its scope, and all that the loop still does
is done through that copy (`Eval.restOfFor`).  Its chain avoids the scope of the round that is over,
and so do the chains of all scopes that are made below it, so that nothing in reach leads back
there.  There is one other way to a scope, and that is to enter a function that was made below it.
The law of this module (`Law.sparing`) therefore holds of computations that enter no function.  What
enters one is dealt with by hand: the function avoids the scope as well, or else it has been made
in the round that is over (`Machine.perform_spares`).
-/
import Estree.Proofs.CallBalance
import Estree.Proofs.Fork

namespace Estree

variable {host : Host} {n : Nat} {s s' : State} {r : ScopeId} {own : Scope} {Γ Γ' : Reach}

/-! ### A scope that nothing in reach leads to -/

/-- A scope that is as given, where no chain of a scope in reach passes through it. -/
structure Sparing (r : ScopeId) (own : Scope) (Γ : Reach) (s : State) : Prop where
  inOrder : WellScoped Γ s
  lt : r < s.scopes.size
  avoids : ∀ {id}, Γ.known id → s.scopes.Avoids id r
  same : s.scopes.scope r = own

namespace Sparing

theorem narrow (hΓ : Γ'.Le Γ) (h : Sparing r own Γ s) : Sparing r own Γ' s :=
  ⟨h.inOrder.narrow hΓ, h.lt, fun hid => h.avoids (hΓ.known hid), h.same⟩

theorem frame (h : Sparing r own Γ s) (hs : s.scopes.KeepsChains s'.scopes)
    (h' : Sparing r own Γ' s') : Sparing r own Γ s' where
  inOrder := h.inOrder.frame hs.size h'.inOrder
  lt := h'.lt
  avoids hid := hs.avoids h.inOrder.rooted.founded (h.inOrder.known hid) (h.avoids hid)
  same := h'.same

/-- A scope is opened below one whose chain avoids the spared one. -/
theorem opened (h : Sparing r own Γ s) {scope : Scope} {p : ScopeId} (hs : scope.parent = some p)
    (hp : p < s.scopes.size) (ha : s.scopes.Avoids p r) :
    Sparing r own (Γ.add s.scopes.size) (s.opened scope) where
  inOrder := h.inOrder.opened hs hp
  lt := Nat.lt_of_lt_of_le h.lt (Scopes.KeepsChains.push ..).size
  avoids := by
    have hf : s.scopes.Founded := h.inOrder.rooted.founded
    rintro id (rfl | hid)
    · refine .push hf h.lt fun q hq => ?_
      obtain rfl : p = q := Option.some.inj (hs.symm.trans hq)
      exact ⟨hp, ha⟩
    · exact (Scopes.KeepsChains.push ..).avoids hf (h.inOrder.known hid) (h.avoids hid)
  same := by
    rw [State.opened, Scopes.scope_push, if_neg (Nat.ne_of_lt h.lt)]
    exact h.same

/-- The list of running functions plays no part. -/
theorem withCalls {calls : CallStack} (h : Sparing r own Γ s) :
    Sparing r own Γ { s with calls } :=
  ⟨h.inOrder.withCalls, h.lt, h.avoids, h.same⟩

end Sparing

/-- A step leaves alone what the chains of the scopes in reach avoid. -/
theorem Step.leaves_alone {D : Discipline} {α : Type} (st : Step host α) (hst : st.Allowed D Γ)
    (hs : s.scopes.Founded) (hΓ : ∀ {id}, Γ.known id → id < s.scopes.size ∧ s.scopes.Avoids id r) :
    (st.run s).Leaves fun s' =>
      s.scopes.SameChains s'.scopes ∧ s'.scopes.scope r = s.scopes.scope r := by
  have same : s.scopes.SameChains s.scopes ∧ s.scopes.scope r = s.scopes.scope r := ⟨.refl _, rfl⟩
  have store {α : Type} (m : Run Store α) :
      (Eval.onStore m s).Leaves fun s' =>
        s.scopes.SameChains s'.scopes ∧ s'.scopes.scope r = s.scopes.scope r := by
    have unknown : (m s.store).Leaves fun _ => True := by
      rcases m s.store with ⟨a, st⟩ | ⟨e, st⟩ | - <;> trivial
    refine (Eval.onStore_leaves unknown).mono ?_
    rintro _ ⟨store, -, rfl⟩
    exact same
  cases st with
  | store m _ => exact store m
  | closure c => exact store (Store.newClosure c)
  | query scope name => exact Eval.query_leaves scope name same
  | lookup scope name => exact same
  -- the scope declared in, or the one the walk stops at, is not `r`
  | declare scope kind name value =>
    refine (Eval.onScopes_leaves (fun ss => ss.create scope kind name value) s).mono ?_
    rintro _ rfl
    have ha := (hΓ (Γ.own_known hst.1)).2
    exact ⟨Scopes.sameChains_create .., Scopes.scope_create_of_ne ha.ne ..⟩
  | assign scope name value =>
    refine (Eval.onScopes_leaves (fun ss => ss.update scope name value) s).mono ?_
    rintro _ rfl
    obtain ⟨hid, ha⟩ := hΓ hst.1
    exact ⟨Scopes.sameChains_update .., Scopes.scope_update_of_avoids hs hid ha ..⟩
  | delete scope name =>
    obtain ⟨hid, ha⟩ := hΓ hst.1
    exact ⟨Scopes.sameChains_delete .., Scopes.scope_delete_of_avoids hs hid ha ..⟩

/-! ### Computations that enter no function -/

/-- The law that a scope is as it was, for computations that enter no function and that no scope in
reach leads to it. -/
def Law.sparing (hk : host.KeepsFunctions) (r : ScopeId) (own : Scope) :
    Law host { enters := False } where
  inv := Sparing r own
  rel s s' := s.scopes.KeepsChains s'.scopes
  err _ _ := True
  refl _ := .refl _
  trans := .trans
  frame h hr h' := h.frame hr h'
  narrow hΓ h := h.narrow hΓ
  fail _ _ := trivial
  step {Γ s} _ st hst h := by
    have alone := st.leaves_alone hst h.inOrder.rooted.founded
      fun hid => ⟨h.inOrder.known hid, h.avoids hid⟩
    have ordered := ScopeLaw.silent.step hk st hst h.inOrder ⟨⟩ ⟨⟩
    refine .of_leaves ((alone.and ordered).mono fun s' hs => ?_) fun _ _ _ => trivial
    obtain ⟨⟨hchains, hsame⟩, ⟨hw, -⟩, -⟩ := hs
    have hkeeps := hchains.keeps
    refine ⟨⟨hw, Nat.lt_of_lt_of_le h.lt hkeeps.size, fun hid => ?_, hsame.trans h.same⟩, hkeeps⟩
    exact hkeeps.avoids h.inOrder.rooted.founded (h.inOrder.known hid) (h.avoids hid)
  child hp h := ⟨h.opened rfl (h.inOrder.known hp) (h.avoids hp), .push ..⟩
  fork {Γ s source} hs h := by
    have known := Γ.own_known (Γ.fresh_own hs)
    have hid := h.inOrder.known known
    obtain ⟨p, hp, he⟩ := h.inOrder.rooted.chain source hid (h.inOrder.fresh hs)
    exact ⟨h.opened he (Nat.lt_trans hp hid) ((h.avoids known).parent he), .push ..⟩
  load _ he := he.elim
  refused _ _ := trivial
  enter he := he.elim
  leave _ _ h hr := ⟨h.withCalls, hr⟩
  carry _ := trivial

/-! ### Functions that are entered -/

/-- The law that the chains of the scopes of some earlier moment stay. -/
def ScopeLaw.keepsChains (earlier : Scopes) : ScopeLaw fun _ => True where
  inv := earlier.KeepsChains
  reach _ := True
  narrow _ _ := ⟨⟩
  learn _ _ := ⟨⟩
  create _ _ _ _ _ _ h := h.trans (Scopes.sameChains_create ..).keeps
  update _ _ _ _ h := h.trans (Scopes.sameChains_update ..).keeps
  delete _ _ _ h := h.trans (Scopes.sameChains_delete ..).keeps
  child _ h := h.trans (.push ..)
  fork _ h := h.trans (.push ..)
  opened _ _ := ⟨⟩

/-- Whatever comes out of an evaluation, the scopes are in order and their chains have stayed. -/
theorem WellScoped.perform (hk : host.KeepsFunctions) (n : Nat) {t : Task}
    (h : WellScoped (Reach.of t) s) :
    (Machine.perform host n t s).Leaves fun s' =>
      WellScoped (Reach.of t) s' ∧ s.scopes.KeepsChains s'.scopes := by
  have hl := ((ScopeLaw.keepsChains s.scopes).law hk).perform n t s
    (fun _ _ => Discipline.admits_all _) (Discipline.asks_all t) ⟨h, ⟨⟩, .refl _⟩
  exact hl.leaves.mono fun s' hs => ⟨hs.1.1, hs.1.2.2⟩

theorem Sparing.after (h : Sparing r own Γ s) (hw : WellScoped Γ s')
    (hs : s.scopes.KeepsChains s'.scopes) (hr : s'.scopes.scope r = own) : Sparing r own Γ s' where
  inOrder := hw
  lt := Nat.lt_of_lt_of_le h.lt hs.size
  avoids hid := hs.avoids h.inOrder.rooted.founded (h.inOrder.known hid) (h.avoids hid)
  same := hr

/-- The evaluations that a computation over the evaluator with a budget needs, and what happens
within them. -/
def Within (host : Host) {α : Type} (n : Nat) (f : Performer → Outcome State α) (m : Nat) (t : Task)
    (s : State) : Prop :=
  ∃ t₁ s₁, Needs f (Machine.perform host n) t₁ s₁ ∧ Encloses host n t₁ s₁ m t s

/-- Among the given evaluations, a function is entered that was made below a scope, and it does not
leave the scope as it was. -/
def CallChanges (host : Host) (r : ScopeId) (W : Nat → Task → State → Prop) : Prop :=
  ∃ m c this args s, W m (.invoke c this args) s ∧ ¬ s.scopes.Avoids c.scope r ∧
    ¬ (Machine.perform host m (.invoke c this args) s).Leaves fun s' =>
      s'.scopes.scope r = s.scopes.scope r

/-- If no function changes a scope, then each that was made below it leaves it as it was. -/
theorem CallChanges.spared {W : Nat → Task → State → Prop} (hc : ¬ CallChanges host r W) {m : Nat}
    {c : Closure} {this : Value} {args : List Value} (hW : W m (.invoke c this args) s)
    (hr : ¬ s.scopes.Avoids c.scope r) :
    (Machine.perform host m (.invoke c this args) s).Leaves fun s' =>
      s'.scopes.scope r = s.scopes.scope r :=
  Classical.byContradiction fun hs => hc ⟨m, c, this, args, s, hW, hr, hs⟩

theorem CallChanges.mono {W W' : Nat → Task → State → Prop} (h : CallChanges host r W)
    (hW : ∀ {m t s}, W m t s → W' m t s) : CallChanges host r W' := by
  obtain ⟨m, c, this, args, s, h, hs⟩ := h
  exact ⟨m, c, this, args, s, hW h, hs⟩

/-- What a function does is what its inside does, one function deeper. -/
theorem Eval.framed_leaves {α : Type} {name : String} {m : Eval α} {P : State → Prop} (hs : P s)
    (h : s.calls.isFull = false → (m (s.entered name)).Leaves P) (hp : ∀ s, P s → P s.left) :
    (framed name m s).Leaves P := by
  cases hf : s.calls.isFull with
  | true =>
    rw [framed_of_full hf]
    exact hs
  | false =>
    have h := h hf
    cases ho : m (s.entered name) with
    | done a s' =>
      rw [framed_done hf ho]
      rw [ho] at h
      exact hp s' h
    | failed e s' =>
      rw [framed_failed hf ho]
      rw [ho] at h
      exact hp s' h
    | endless =>
      rw [framed_endless hf ho]
      trivial

/-- A computation that enters no function itself spares a scope if all that it needs does. -/
theorem Abides.spares_of (hk : host.KeepsFunctions) {α : Type} {Q : α → Prop}
    {F : Performer → Eval α} (h : Abides host { enters := False } Γ Q F)
    (hi : Sparing r own Γ s)
    (needed : ∀ t' s', Needs (fun p => F p s) (Machine.perform host n) t' s' →
      Sparing r own (Reach.of t') s' →
      (Machine.perform host n t' s').Leaves fun s' => s'.scopes.scope r = own) :
    ((F (Machine.perform host n) s).Leaves fun s' => s'.scopes.scope r = own) ∧
      ∀ t' s', Needs (fun p => F p s) (Machine.perform host n) t' s' →
        s'.scopes.scope r = own := by
  -- every piece of a task asks its questions one after the other
  have sequential : Sequential fun p => F p s := by
    intro X p
    have hp : (Law.idle host (D := { enters := False }) fun _ => trivial).Keeps p :=
      Law.idle_keeps rfl rfl p
    exact h.decided hp trivial X
  let L := Law.sparing hk r own
  have kept (t' s') (hn : Needs (fun p => F p s) (Machine.perform host n) t' s')
      (hi : Sparing r own (Reach.of t') s') :
      L.Ensures (Reach.of t') (Discipline.gives { enters := False } t') s'
        (Machine.perform host n t' s') := by
    have hs := (hi.inOrder.perform hk n).and (needed t' s' hn hi)
    refine (Contract.Ensures.of_leaves (hs.mono fun s₁ hs => ?_) fun _ _ _ => trivial).weaken
      fun a _ => Discipline.gives_all rfl rfl t' a
    exact ⟨hi.after hs.1.1 hs.1.2 hs.2, hs.1.2⟩
  have hl := L.composed h sequential (fun t' s' hn _ hi => kept t' s' hn hi) hi
  exact ⟨hl.1.leaves.mono fun s' hs => hs.1.same, fun t' s' hn => (hl.2 t' s' hn).2.same⟩

/-- An evaluation through scopes whose chains avoid another leaves that one as it was, if all
functions do so that were made below it. -/
theorem Machine.perform_spares (hk : host.KeepsFunctions) (n : Nat) (t : Task) (s : State)
    (h : Sparing r own (Reach.of t) s) (hc : ¬ CallChanges host r (Encloses host n t s)) :
    (perform host n t s).Leaves fun s' => s'.scopes.scope r = own := by
  induction n, t, s using Machine.induction host with
  | zero t s ht =>
    rw [perform_zero host ht]
    trivial
  | step n t s ih =>
    have asked (t' s') (ha : Asks host n t s t' s') (hi : Sparing r own (Reach.of t') s') :
        (perform host n t' s').Leaves fun s' => s'.scopes.scope r = own :=
      ih t' s' ha hi fun h => hc (h.mono (.step ha))
    -- a call is the one task that enters a scope it was not given
    by_cases ht : ∃ id this args, t = .call id this args
    · obtain ⟨id, this, args, rfl⟩ := ht
      rw [show n + (Task.call id this args).cost = n + 1 from rfl, perform_call]
      refine Eval.framed_leaves h.same (fun hf => ?_) fun _ hs => hs
      have ha : Asks host n (.call id this args) s (.invoke (s.store.closure id) this args)
          (s.entered (s.store.closure id).displayName) := call_asks hf id this args
      -- a closure made away from `r` never reaches it; any other one was ruled out by `hc`
      by_cases hr : s.scopes.Avoids (s.store.closure id).scope r
      · have hw : WellScoped (.seeing (s.store.closure id).scope) s :=
          (h.inOrder.learn id).narrow (Reach.seeing_le (Or.inl rfl))
        have known : Sparing r own (.seeing (s.store.closure id).scope) s :=
          ⟨hw, h.lt, fun hid => hid ▸ hr, h.same⟩
        exact asked _ _ ha known.withCalls
      · exact (CallChanges.spared hc (.step ha .self) hr).mono fun s' hs => hs.trans h.same
    · rw [perform_eq_rule]
      have rule : Abides host { enters := False } (Reach.of t) _ fun p => Estree.rule host n p t :=
        Abides.rule (Discipline.admits_unentered fun id this args he => ht ⟨id, this, args, he⟩)
      exact (rule.spares_of hk h asked).1

/-- So does a computation that enters no function itself, and wherever it needs something the scope
is as it was. -/
theorem Abides.spares (hk : host.KeepsFunctions) {α : Type} {Q : α → Prop}
    {F : Performer → Eval α} (h : Abides host { enters := False } Γ Q F)
    (hi : Sparing r own Γ s) (hc : ¬ CallChanges host r (Within host n fun p => F p s)) :
    ((F (Machine.perform host n) s).Leaves fun s' => s'.scopes.scope r = own) ∧
      ∀ t' s', Needs (fun p => F p s) (Machine.perform host n) t' s' →
        s'.scopes.scope r = own :=
  h.spares_of hk hi fun t' s' hn hi =>
    Machine.perform_spares hk n t' s' hi fun h => hc (h.mono fun he => ⟨t', s', hn, he⟩)

/-! ### Rounds of a `for` -/

namespace Eval

variable (ev : Evaluator) (init : Option ForInit) (test update : Option Expr) (body : Stmt)
variable (scope : ScopeId) (labels : List String)

/-- What is left of a `for` when the next round has just been given its scope. -/
def restOfFor (rounds : Nat) (next : ScopeId) (last : Value) : Eval Completion := do
  forUpdate ev next update
  forRounds ev test update body labels rounds next last

/-- A round of a `for` that is over and is followed by another. -/
structure Passes (round : ScopeId) (last : Value) (s : State) (last' : Value) (s' : State) :
    Prop where
  passes : ∃ s₁ c, forTest ev round test s = .done true s₁ ∧
    loopBody ev body s₁.scopes.size (s₁.opened { parent := some round }) = .done c s' ∧
    LoopStep.of labels last c = .next last'

/-- A `for` comes to a round, with a number of rounds left, the scope of the round and the loop's
last value. -/
inductive ComesTo (s : State) : Nat → ScopeId → Value → State → Prop
  | first {s₁ : State} (hh : forHeader ev scope s.scopes.size init
      (s.opened { parent := some scope }) = .done () s₁) :
      ComesTo s ev.rounds s₁.scopes.size .undefined (s₁.opened (s₁.scopes.scope s.scopes.size))
  | next {n : Nat} {round : ScopeId} {last last' : Value} {s₁ s₂ s₃ : State}
      (h : ComesTo s (n + 1) round last s₁)
      (hp : Passes ev test body labels round last s₁ last' s₂)
      (hu : forUpdate ev s₂.scopes.size update (s₂.opened (s₂.scopes.scope round)) = .done () s₃) :
      ComesTo s n s₂.scopes.size last' s₃

variable {ev init test update body scope labels} {n : Nat} {round : ScopeId} {last last' : Value}
variable {s s₁ s₂ : State}

/-- After a round, what is left of the loop is what follows the copying of its scope. -/
theorem Passes.forRounds_eq (h : Passes ev test body labels round last s₁ last' s₂) :
    forRounds ev test update body labels (n + 1) round last s₁
      = restOfFor ev test update body labels n s₂.scopes.size last'
          (s₂.opened (s₂.scopes.scope round)) := by
  obtain ⟨s₃, c, ht, hb, hc⟩ := h.passes
  rw [forRounds, Run.bind_done ht, if_pos rfl]
  have hb : (newChild round >>= fun inner => loopBody ev body inner) s₃ = .done c s₂ := hb
  refine Eq.trans (congrFun (bind_assoc _ _ _).symm s₃) ?_
  rw [Run.bind_done hb, hc]
  rfl

/-- A loop that comes to a round does what is left of it from there. -/
theorem ComesTo.forLoop_eq (h : ComesTo ev init test update body scope labels s n round last s₁) :
    forLoop ev init test update body scope labels s
      = forRounds ev test update body labels n round last s₁ := by
  induction h with
  | first hh => exact Run.bind_done hh
  | next _ hp hu ih =>
    rw [ih, hp.forRounds_eq]
    exact Run.bind_done hu

end Eval

/-! ### Scopes of rounds -/

theorem Reach.le_add (Γ : Reach) (scope : ScopeId) : Γ.Le (Γ.add scope) :=
  ⟨Or.inr, Or.inr, Or.inr⟩

/-- What a computation leaves behind is in order if what it begins with is. -/
theorem WellScoped.after (hk : host.KeepsFunctions) {α : Type} {Q : α → Prop} {a : α}
    {F : Performer → Eval α} (h : Abides host (.deleting fun _ => True) Γ Q F) (hw : WellScoped Γ s)
    (ho : F (Machine.perform host n) s = .done a s') : WellScoped Γ s' := by
  let L := ScopeLaw.silent.law hk
  exact ((h.sound (L := L) (L.keeps n) ⟨hw, ⟨⟩, ⟨⟩⟩).1.leaves.ends (.inl ⟨a, ho⟩)).1.1

/-- A scope that was opened is copied. -/
theorem WellScoped.forked {round : ScopeId} (h : WellScoped Γ s) (hr : Γ.fresh round) :
    WellScoped (Reach.none.add s.scopes.size) (s.opened (s.scopes.scope round)) := by
  have hid := h.known (Γ.own_known (Γ.fresh_own hr))
  obtain ⟨p, hp, he⟩ := h.rooted.chain round hid (h.fresh hr)
  refine (h.opened he (Nat.lt_trans hp hid)).narrow ⟨?_, ?_, ?_⟩
  · exact fun hid => hid.elim .inl False.elim
  · exact fun hid => hid.elim .inl False.elim
  · exact fun hid => hid.elim .inl False.elim

section rounds

variable {init : Option ForInit} {test update : Option Expr} {body : Stmt} {scope round : ScopeId}
variable {labels : List String} {k : Nat} {last last' : Value} {s₁ s₂ : State}

/-- A round leaves the scopes in order. -/
theorem Eval.Passes.inOrder (hk : host.KeepsFunctions)
    (h : Passes (Machine.evaluator host n) test body labels round last s₁ last' s₂)
    (hw : WellScoped (Reach.none.add round) s₁) : WellScoped (Reach.none.add round) s₂ := by
  obtain ⟨s₃, c, htest, hbody, -⟩ := h.passes
  have tested : Abides host (.deleting fun _ => True) (Reach.none.add round) (fun _ => True)
      fun p => Eval.forTest (p.evaluator n) round test :=
    Abides.forTest (fun _ _ => trivial) Reach.known_add
  have hw₃ : WellScoped (Reach.none.add round) s₃ := hw.after hk tested htest
  have inner : WellScoped ((Reach.none.add round).add s₃.scopes.size)
      (s₃.opened { parent := some round }) := hw₃.opened rfl (hw₃.known Reach.known_add)
  have ran : Abides host (.deleting fun _ => True) ((Reach.none.add round).add s₃.scopes.size) _
      fun p => Eval.loopBody (p.evaluator n) body s₃.scopes.size :=
    Abides.loopBody (Discipline.deleting_loop labels body).1 Reach.own_add
  exact (inner.after hk ran hbody).narrow (Reach.le_add _ _)

/-- Wherever a loop comes to a round, the scopes are in order and that of the round has been
opened. -/
theorem Eval.ComesTo.inOrder (hk : host.KeepsFunctions) (hw : WellScoped (.owning scope) s)
    (h : ComesTo (Machine.evaluator host n) init test update body scope labels s k round last s₁) :
    WellScoped (Reach.none.add round) s₁ := by
  induction h with
  | first hh =>
    have header : WellScoped ((Reach.owning scope).add s.scopes.size)
        (s.opened { parent := some scope }) := hw.opened rfl (hw.known rfl)
    have begun : Abides host (.deleting fun _ => True) ((Reach.owning scope).add s.scopes.size)
        (fun _ => True) fun p => Eval.forHeader (p.evaluator n) scope s.scopes.size init :=
      Abides.forHeader (fun i _ => Discipline.deleting_forInit i) (fun _ _ => Or.inr rfl)
        Reach.own_add
    exact (header.after hk begun hh).forked Reach.fresh_add
  | @next _ _ _ _ _ s₂ _ _ hp hu ih =>
    have updated : Abides host (.deleting fun _ => True) (Reach.none.add s₂.scopes.size)
        (fun _ => True) fun p => Eval.forUpdate (p.evaluator n) s₂.scopes.size update :=
      Abides.forUpdate (fun _ _ => trivial) Reach.known_add
    exact ((hp.inOrder hk ih).forked Reach.fresh_add).after hk updated hu

/-- When the scope of a round has been copied, nothing that is in reach leads to it. -/
theorem WellScoped.sparing_fork (h : WellScoped Γ s) (hr : Γ.fresh round) :
    Sparing round (s.scopes.scope round) (Reach.none.add s.scopes.size)
      (s.opened (s.scopes.scope round)) := by
  have hf : s.scopes.Founded := h.rooted.founded
  have hid := h.known (Γ.own_known (Γ.fresh_own hr))
  have hw := h.forked hr
  refine ⟨hw, Nat.lt_of_lt_of_le hid (Scopes.KeepsChains.push ..).size, fun hi => ?_, ?_⟩
  · obtain rfl := hi.resolve_right id
    refine .push hf hid fun p hp => ?_
    have hlt : p < round := hf hp
    exact ⟨Nat.lt_trans hlt hid, .of_lt hf hlt⟩
  · rw [State.opened, Scopes.scope_push, if_neg (Nat.ne_of_lt hid)]

/-- When a round is over and its scope has been copied, what is left of the loop leaves the scope of
the round as it was, and so it is found wherever an evaluation begins that the loop still asks for.
Only a function that was made below the scope may change it. -/
theorem Eval.Passes.spares (hk : host.KeepsFunctions)
    (h : Passes (Machine.evaluator host n) test body labels round last s₁ last' s₂)
    (hw : WellScoped (Reach.none.add round) s₁) (k : Nat)
    (hc : ¬ CallChanges host round (Within host n fun p =>
      restOfFor (p.evaluator n) test update body labels k s₂.scopes.size last'
        (s₂.opened (s₂.scopes.scope round)))) :
    (restOfFor (Machine.evaluator host n) test update body labels k s₂.scopes.size last'
        (s₂.opened (s₂.scopes.scope round))).Leaves
      (fun s' => s'.scopes.scope round = s₂.scopes.scope round) ∧
    ∀ t' s', Needs (fun p =>
        restOfFor (p.evaluator n) test update body labels k s₂.scopes.size last'
          (s₂.opened (s₂.scopes.scope round))) (Machine.perform host n) t' s' →
      s'.scopes.scope round = s₂.scopes.scope round := by
  obtain ⟨hl, -, ht, hu, hb⟩ := Discipline.admits_unentered
    (t := .stmt (.for none test update body) round labels) fun _ _ _ => nofun
  exact Abides.spares hk
    (.bind (Abides.forUpdate hu Reach.known_add) fun _ _ =>
      Abides.forRounds hl ht hu hb k Reach.fresh_add last')
    ((h.inOrder hk hw).sparing_fork Reach.fresh_add) hc

end rounds

/-- **Rounds are isolated.**  Wherever the scopes of a run have come to, a scope and its copy are
alike and go apart: nothing that is done through the one, or through scopes that are made on the
way, changes the other, and what is bound above them stays common to both.

So it is with the rounds of a `for`.  When a round is over, what is left of the loop begins with a
copy of its scope.  From there on the scope of the round stays as it is, wherever the loop asks for
the evaluation of an update, a test or a body and also at the end, unless a function is entered that
was made below it, that is in that round, and changes it. -/
theorem rounds_are_isolated (hk : host.KeepsFunctions) :
    (∀ ss id, Scopes.Built ss → id < ss.size → Scopes.GoApart (ss.fork id).2 id (ss.fork id).1) ∧
    (∀ s, Reachable host s → s.scopes.Built) ∧
    ∀ n init test update body scope labels s k round last s₁ last' s₂,
      Reachable host s → scope < s.scopes.size →
      Eval.ComesTo (Machine.evaluator host n) init test update body scope labels s
        (k + 1) round last s₁ →
      Eval.Passes (Machine.evaluator host n) test body labels round last s₁ last' s₂ →
      let copied := s₂.opened (s₂.scopes.scope round)
      let rest := fun p : Performer =>
        Eval.restOfFor (p.evaluator n) test update body labels k s₂.scopes.size last' copied
      Machine.execStmt host (n + 1) (.for init test update body) scope labels s
        = rest (Machine.perform host n) ∧
      copied.scopes.scope s₂.scopes.size = s₂.scopes.scope round ∧
      (CallChanges host round (Within host n rest) ∨
        (rest (Machine.perform host n)).Leaves
          (fun s' => s'.scopes.scope round = s₂.scopes.scope round) ∧
        ∀ t' s', Needs rest (Machine.perform host n) t' s' →
          s'.scopes.scope round = s₂.scopes.scope round) := by
  refine ⟨fun ss id h hid => h.goApart hid, fun s hr => ?_, ?_⟩
  · exact (ScopeLaw.built.reachable hk (fun _ => ⟨⟩) (.root .none) hr).2
  intro n init test update body scope labels s k round last s₁ last' s₂ hr hs hcomes hpasses
  dsimp only
  have hw : WellScoped (.owning scope) s :=
    (hr.wellScoped hk).task (t := .stmt .empty scope []) fun _ he => he ▸ hs
  refine ⟨hcomes.forLoop_eq.trans hpasses.forRounds_eq, ?_, ?_⟩
  · rw [State.opened, Scopes.scope_push, if_pos rfl]
  · exact Classical.or_iff_not_imp_left.2 fun hc => hpasses.spares hk (hcomes.inOrder hk hw) k hc

/-- A round in which a flag is set is followed by one whose copy of the flag has been cleared.  The
flag of the round before is still set at the end. -/
theorem rounds_of_a_flag :
    let flag : Expr := .ident "i"
    let init : ForInit :=
      .variables .let [.mk (.ident "i") (some (.literal { value := .bool true }))]
    let clear : Expr := .assign .replace (.ident "i") (.literal { value := .bool false })
    let ev := Machine.evaluator Host.none 4
    ∃ i s₀ s₁ s₂ s₃ round, Interpreter.build {} {} = .done i s₀ ∧
      Eval.ComesTo ev (some init) (some flag) (some clear) .empty rootScope [] s₀ 4 round
        .undefined s₁ ∧
      Eval.Passes ev (some flag) .empty [] round .undefined s₁ .undefined s₂ ∧
      let copied := s₂.opened (s₂.scopes.scope round)
      let rest := fun p : Performer =>
        Eval.restOfFor (p.evaluator 4) (some flag) (some clear) .empty [] 3 s₂.scopes.size
          .undefined copied
      rest (Machine.perform Host.none 4) = .done (.normal .undefined) s₃ ∧
      s₃.scopes.lookup round "i" = some (.bool true) ∧
      s₃.scopes.lookup s₂.scopes.size "i" = some (.bool false) ∧
      (CallChanges Host.none round (Within Host.none 4 rest) ∨
        (rest (Machine.perform Host.none 4)).Leaves
          (fun s' => s'.scopes.scope round = s₂.scopes.scope round) ∧
        ∀ t' s', Needs rest (Machine.perform Host.none 4) t' s' →
          s'.scopes.scope round = s₂.scopes.scope round) := by
  intro flag init clear ev
  let loop : Stmt := .for (some init) (some flag) (some clear) .empty
  obtain ⟨i, s₀, s, s₁, c, s₂, s₃, hbuild, hheader, hs₁, htest, hbody, hnext, hloop, hold, hnew⟩ :
      ∃ i s₀ s s₁ c s₂ s₃, Interpreter.build {} {} = .done i s₀ ∧
        Eval.forHeader ev rootScope s₀.scopes.size (some init)
          (s₀.opened { parent := some rootScope }) = .done () s ∧
        s₁ = s.opened (s.scopes.scope s₀.scopes.size) ∧
        Eval.forTest ev s.scopes.size (some flag) s₁ = .done true s₁ ∧
        Eval.loopBody ev .empty s₁.scopes.size (s₁.opened { parent := some s.scopes.size })
          = .done c s₂ ∧
        LoopStep.of [] .undefined c = .next .undefined ∧
        Machine.execStmt Host.none 5 loop rootScope [] s₀ = .done (.normal .undefined) s₃ ∧
        s₃.scopes.lookup s.scopes.size "i" = some (.bool true) ∧
        s₃.scopes.lookup s₂.scopes.size "i" = some (.bool false) :=
    ⟨_, _, _, _, _, _, _, rfl, rfl, rfl, rfl, rfl, rfl, rfl, rfl, rfl⟩
  have hk := Host.none_keepsFunctions
  have hr : Reachable Host.none s₀ := .of_build hbuild
  have hcomes : Eval.ComesTo ev (some init) (some flag) (some clear) .empty rootScope [] s₀ 4
      s.scopes.size .undefined s₁ := hs₁ ▸ .first hheader
  have hpasses : Eval.Passes ev (some flag) .empty [] s.scopes.size .undefined s₁ .undefined s₂ :=
    ⟨s₁, c, htest, hbody, hnext⟩
  obtain ⟨hrest, -, hspared⟩ := (rounds_are_isolated hk).2.2 4 (some init) (some flag) (some clear)
    .empty rootScope [] s₀ 3 _ _ s₁ _ s₂ hr (hr.wellScoped hk).rooted.nonempty hcomes hpasses
  exact ⟨i, s₀, s₁, s₂, s₃, _, hbuild, hcomes, hpasses, hrest.symm.trans hloop, hold, hnew, hspared⟩

end Estree
