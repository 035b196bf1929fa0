/-
Estree/Proofs/Pairing/Step.lean

Computations that do the same in states with paired scopes.

Two states are paired (`Paired`) if their scopes are, and if their stores are the same but for the
scopes of functions, which stand for each other.  A computation mirrors another
(`Pairing.Mirrors`) if, taken in paired states, both give the same value or fail with the same
error and leave states that are paired again; the pairing may have grown by scopes that were made
on the way.

Here is one lemma for each way in which the evaluator composes its computations, and one for each
step that it takes itself.
-/
import Estree.Proofs.Function
import Estree.Proofs.Simulation
import Estree.Proofs.Pairing.Scopes

namespace Estree

/-- States whose scopes are paired and whose stores differ in the scopes of functions only. -/
structure Paired (w : Pairing) (s s' : State) : Prop where
  scopes : w.Holds s.scopes s'.scopes
  store : s'.store.unscoped = s.store.unscoped
  made : ∀ id, w.known (s.store.closure id).scope (s'.store.closure id).scope
  calls : s'.calls = s.calls

/-- Only the scopes changed, and the grown pairing holds of them. -/
theorem Paired.withScopes {w w₁ : Pairing} {s s' : State} {scopes scopes' : Scopes}
    (h : Paired w s s') (hw : w.Le w₁) (hs : w₁.Holds scopes scopes') :
    Paired w₁ { s with scopes } { s' with scopes := scopes' } :=
  ⟨hs, h.store, fun id => hw.known (h.made id), h.calls⟩

/-- States that are paired by a pairing or one that has grown out of it. -/
def PairedFrom (w : Pairing) (s s' : State) : Prop :=
  ∃ w₁, w.Le w₁ ∧ Paired w₁ s s'

theorem Paired.from {w : Pairing} {s s' : State} (h : Paired w s s') : PairedFrom w s s' :=
  ⟨w, .refl w, h⟩

/-- States paired from a grown pairing are paired from the smaller one. -/
theorem PairedFrom.mono {w w₁ : Pairing} {s s' : State} (hw : w.Le w₁) (h : PairedFrom w₁ s s') :
    PairedFrom w s s' := by
  obtain ⟨w₂, hw₂, h⟩ := h
  exact ⟨w₂, hw.trans hw₂, h⟩

/-! ### Outcomes side by side -/

namespace Outcome

variable {σ τ α : Type} {o o' : Outcome σ α}

/-- Outcomes that are the same once something has been done to the states. -/
theorem alike_of_mapState_eq {f : σ → τ} (h : o'.mapState f = o.mapState f) :
    o.Alike (fun s s' => f s' = f s) (fun _ => True) o' := by
  cases o with
  -- outcomes of different kinds have different images
  | done a s =>
    cases o' with
    | done a' s' =>
      injection h with ha hs
      exact ha ▸ .done trivial hs
    | failed _ _ => cases h
    | endless => cases h
  | failed e s =>
    cases o' with
    | failed e' s' =>
      injection h with he hs
      exact he ▸ .failed hs
    | done _ _ => cases h
    | endless => cases h
  | endless =>
    cases o' with
    | endless => exact .endless
    | done _ _ => cases h
    | failed _ _ => cases h

/-- What is known of each of two states that are left behind is known of both. -/
theorem Alike.leaving {R : σ → σ → Prop} {Q : α → Prop} {P P' : σ → Prop} (h : o.Alike R Q o')
    (hl : o.Leaves P) (hl' : o'.Leaves P') :
    o.Alike (fun s s' => R s s' ∧ P s ∧ P' s') Q o' := by
  cases h with
  | done ha hs => exact .done ha ⟨hs, hl, hl'⟩
  | failed hs => exact .failed ⟨hs, hl, hl'⟩
  | endless => exact .endless

end Outcome

/-! ### Computations side by side -/

namespace Pairing

/-- Computations that do the same in paired states. -/
def Mirrors (w : Pairing) {α : Type} (m m' : Eval α) : Prop :=
  ∀ w₁ s s', w.Le w₁ → Paired w₁ s s' →
    (m s).Alike (PairedFrom w₁) (fun _ => True) (m' s')

namespace Mirrors

variable {w w₁ : Pairing} {i j : ScopeId} {α β : Type} {m m' : Eval α} {f f' : α → Eval β}

theorem mono (h : w.Mirrors m m') (hw : w.Le w₁) : w₁.Mirrors m m' :=
  fun w₂ s s' hw₂ => h w₂ s s' (hw.trans hw₂)

/-! ### Composition -/

theorem pure (a : α) : w.Mirrors (Pure.pure a) (Pure.pure a) :=
  fun _ _ _ _ hs => .done trivial hs.from

theorem fail (e : EvalError) : w.Mirrors (Run.fail e : Eval α) (Run.fail e) :=
  fun _ _ _ _ hs => .failed hs.from

theorem endless : w.Mirrors (Run.endless : Eval α) Run.endless :=
  fun _ _ _ _ _ => .endless

/-- What mirrors in two steps mirrors; the second step starts from the grown pairing. -/
theorem bind (hm : w.Mirrors m m') (hf : ∀ a, w.Mirrors (f a) (f' a)) :
    w.Mirrors (m >>= f) (m' >>= f') := by
  intro w₁ s s' hw hs
  refine .bind (hm w₁ s s' hw hs) (fun _ _ => id) ?_
  rintro a t t' - ⟨w₂, hw₂, ht⟩
  exact (hf a w₂ t t' (hw.trans hw₂) ht).mono (fun _ _ => .mono hw₂) fun _ => id

/-- An attempt turns failures into answers, on both sides the same. -/
theorem attempt (hm : w.Mirrors m m') : w.Mirrors (Run.attempt m) (Run.attempt m') := by
  intro w₁ s s' hw hs
  have h := hm w₁ s s' hw hs
  unfold Run.attempt
  generalize m s = o at h ⊢
  generalize m' s' = o' at h ⊢
  cases h with
  | done _ h => exact .done trivial h
  | failed h => exact .done trivial h
  | endless => exact .endless

/-! ### The store -/

section store

variable {host : Host} (hk : host.KeepsFunctions) (hh : host.IgnoresScopes)

/-- What is read of the store without the scopes of functions is the same. -/
theorem read (f : Store → α) (hf : ∀ s, f (Store.unscoped s) = f s) :
    w.Mirrors (Run.read fun s => f s.store) (Run.read fun s => f s.store) := by
  intro w₁ s s' _ hs
  have he : f s'.store = f s.store := by rw [← hf, hs.store, hf]
  show (Outcome.done (f s.store) s).Alike _ _ (.done (f s'.store) s')
  rw [he]
  exact .done trivial hs.from

/-- A function of the program is looked up. -/
theorem load {id : ClosureId} {f f' : Closure → Eval α}
    (hf : ∀ {w₁ c c'}, w.Le w₁ → c'.unscoped = c.unscoped → w₁.known c.scope c'.scope →
      w₁.Mirrors (f c) (f' c')) :
    w.Mirrors (Run.read (fun s => s.store.closure id) >>= f)
      (Run.read (fun s => s.store.closure id) >>= f') := by
  intro w₁ s s' hw hs
  have hc : (s'.store.closure id).unscoped = (s.store.closure id).unscoped := by
    rw [← Store.closure_unscoped, ← Store.closure_unscoped, hs.store]
  exact hf hw hc (hs.made id) w₁ s s' (.refl _) hs

/-- Functions that differ in their scopes are made. -/
theorem closure {c c' : Closure} (hc : c'.unscoped = c.unscoped) (hs : w.known c.scope c'.scope) :
    w.Mirrors (Eval.onStore (Store.newClosure c)) (Eval.onStore (Store.newClosure c')) := by
  intro w₁ s s' hw h
  -- as many functions have been made on both sides, so that the new one has the same place
  have hsize : s'.store.closures.size = s.store.closures.size := by
    have he := congrArg (fun t : Store => t.closures.size) h.store
    dsimp only [Store.unscoped] at he
    rwa [Array.size_map, Array.size_map] at he
  have hp : Paired w₁
      { s with store := { s.store with closures := s.store.closures.push c } }
      { s' with store := { s'.store with closures := s'.store.closures.push c' } } := by
    refine ⟨h.scopes, ?_, fun id => ?_, h.calls⟩
    · have he := congrArg (fun t : Store => { t with closures := t.closures.push c.unscoped })
        h.store
      dsimp only [Store.unscoped] at he ⊢
      rw [Array.map_push, Array.map_push, hc, he]
    · dsimp only
      rw [Store.closure_push, Store.closure_push, hsize]
      split
      · exact hw.known hs
      · exact h.made id
  show (Outcome.done (Value.closure s.store.closures.size) _).Alike _ _
    (.done (Value.closure s'.store.closures.size) _)
  rw [hsize]
  exact .done trivial hp.from

include hk hh in
/-- A routine that does not read the scopes of functions does the same. -/
theorem store {m : Run Store α} (hm : Scopeless host m) :
    w.Mirrors (Eval.onStore m) (Eval.onStore m) := by
  intro w₁ s s' _ hs
  have he : (m s'.store).mapState Store.unscoped = (m s.store).mapState Store.unscoped := by
    rw [← hm.unscoped hh, ← hm.unscoped hh, hs.store]
  -- the scopes of functions are those that there were before, and they are paired
  have ha := (Outcome.alike_of_mapState_eq he).leaving (hm.routine.sameFunctions hk s.store)
    (hm.routine.sameFunctions hk s'.store)
  have hp {t t' : Store} (h : t'.unscoped = t.unscoped ∧ SameFunctions s.store t ∧
      SameFunctions s'.store t') : PairedFrom w₁ { s with store := t } { s' with store := t' } := by
    refine Paired.from ⟨hs.scopes, h.1, fun id => ?_, hs.calls⟩
    have hc := congrArg Closure.scope (h.2.1.core id)
    have hc' := congrArg Closure.scope (h.2.2.core id)
    dsimp only [Closure.core] at hc hc' ⊢
    rw [hc, hc']
    exact hs.made id
  unfold Eval.onStore
  dsimp only
  generalize m s.store = o at ha ⊢
  generalize m s'.store = o' at ha ⊢
  cases ha with
  | done _ h => exact .done trivial (hp h)
  | failed h => exact .failed (hp h)
  | endless => exact .endless

end store

/-! ### Scopes -/

/-- A question about a name, asked from known scopes. -/
theorem query (h : w.known i j) (name : String) :
    w.Mirrors (Eval.query i name) (Eval.query j name) := by
  intro w₁ s s' hw hs
  unfold Eval.query
  rw [hs.scopes.query_eq (hw.known h)]
  cases s.scopes.query i name with
  | ok v => exact .done trivial hs.from
  | error e => exact .failed hs.from

/-- A name read from known scopes. -/
theorem lookup (h : w.known i j) (name : String) :
    w.Mirrors (Eval.lookup i name) (Eval.lookup j name) := by
  intro w₁ s s' hw hs
  show (Outcome.done (s.scopes.lookup i name) s).Alike _ _ (.done (s'.scopes.lookup j name) s')
  rw [hs.scopes.lookup_eq (hw.known h)]
  exact .done trivial hs.from

/-- An operation on scopes that may fail. -/
theorem onScopes {f f' : Scopes → Except ScopeError α × Scopes}
    (hf : ∀ {w₁ ss ss'}, w.Le w₁ → w₁.Holds ss ss' → w₁.Agree (f ss) (f' ss')) :
    w.Mirrors (Eval.onScopes f) (Eval.onScopes f') := by
  intro w₁ s s' hw hs
  have h := hf hw hs.scopes
  unfold Eval.onScopes
  dsimp only
  generalize f s.scopes = r at h ⊢
  generalize f' s'.scopes = r' at h ⊢
  obtain ⟨r, h⟩ := h
  cases r with
  | ok a => exact .done trivial (hs.withScopes (.refl _) h).from
  | error e => exact .failed (hs.withScopes (.refl _) h).from

/-- A declaration in own scopes. -/
theorem declare (h : w.own i j) (kind : VarKind) (name : String) (value : Option Value) :
    w.Mirrors (Eval.declare i kind name value) (Eval.declare j kind name value) :=
  onScopes fun hw hs => hs.create (hw.own h) kind name value

/-- An assignment from known scopes. -/
theorem assign (h : w.known i j) (name : String) (value : Value) :
    w.Mirrors (Eval.assign i name value) (Eval.assign j name value) :=
  onScopes fun hw hs => hs.update (hw.known h) name value

/-- A deletion from known scopes. -/
theorem deleteName (h : w.known i j) (name : String) :
    w.Mirrors (Eval.deleteName i name) (Eval.deleteName j name) := by
  intro w₁ s s' hw hs
  have h := hs.scopes.delete (hw.known h) name
  unfold Eval.deleteName
  dsimp only
  generalize s.scopes.delete i name = r at h ⊢
  generalize s'.scopes.delete j name = r' at h ⊢
  obtain ⟨gone, h⟩ := h
  exact .done trivial (hs.withScopes (.refl _) h).from

/-- A scope is made below scopes that stand for each other. -/
theorem child {p q : ScopeId} {f f' : ScopeId → Eval α} (h : w.known p q)
    (hf : ∀ {w₁ i j}, w.Le w₁ → w₁.own i j → w₁.Mirrors (f i) (f' j)) :
    w.Mirrors (Eval.newChild p >>= f) (Eval.newChild q >>= f') := by
  intro w₁ s s' hw hs
  have hp : (w₁.add s.scopes.size s'.scopes.size).Holds
      (s.scopes.push { parent := some p }) (s'.scopes.push { parent := some q }) :=
    hs.scopes.push rfl nofun fun p' hp => ⟨q, rfl, Option.some.inj hp ▸ hw.known h⟩
  have h := hf (hw.trans le_add) own_add _ _ _ (.refl _) (hs.withScopes le_add hp)
  exact h.mono (fun _ _ => .mono le_add) fun _ => id

/-- Scopes that are paired are copied. -/
theorem fork {p q : ScopeId} {f f' : ScopeId → Eval α} (h : w.own p q)
    (hf : ∀ {w₁ i j}, w.Le w₁ → w₁.own i j → w₁.Mirrors (f i) (f' j)) :
    w.Mirrors (Eval.newFork p >>= f) (Eval.newFork q >>= f') := by
  intro w₁ s s' hw hs
  have ho := hw.own h
  have hp := hs.scopes.push (hs.scopes.same ho) (hs.scopes.top ho) fun _ hp =>
    hs.scopes.parent ho hp
  have h := hf (hw.trans le_add) own_add _ _ _ (.refl _) (hs.withScopes le_add hp)
  exact h.mono (fun _ _ => .mono le_add) fun _ => id

theorem thisValue (h : w.known i j) : w.Mirrors (Eval.thisValue i) (Eval.thisValue j) :=
  .bind (lookup h "this") fun _ => .pure _

/-! ### Spare scopes -/

/-- A spare scope is made below a scope that is known. -/
theorem spareChild {q k : ScopeId} {f' : ScopeId → Eval α} (ho : w.own i k) (h : w.known i q)
    (hf : ∀ {w₁ j}, w.Le w₁ → w₁.known i j → j ≠ k → w₁.Mirrors m (f' j)) :
    w.Mirrors m (Eval.newChild q >>= f') := by
  intro w₁ s s' hw hs
  have hp := hs.scopes.pushSpare (hw.known h)
  have hne : s'.scopes.size ≠ k :=
    Nat.ne_of_gt (hs.scopes.lt (w₁.own_known (hw.own ho))).2
  have h := hf (hw.trans le_addSpare) known_addSpare hne _ _ _ (.refl _)
    (hs.withScopes le_addSpare hp)
  exact h.mono (fun _ _ => .mono le_addSpare) fun _ => id

/-- A spare scope is copied: that makes another one in the same place. -/
theorem spareFork {k : ScopeId} {f' : ScopeId → Eval α} (ho : w.own i k) (h : w.known i j)
    (hj : j ≠ k) (hf : ∀ {w₁ j}, w.Le w₁ → w₁.known i j → j ≠ k → w₁.Mirrors m (f' j)) :
    w.Mirrors m (Eval.newFork j >>= f') := by
  intro w₁ s s' hw hs
  obtain hown | ⟨q, hq, hk⟩ := hs.scopes.between (hw.known h)
  · exact absurd (hs.scopes.left (hw.own ho) hown) hj
  · -- a copy of a scope without bindings is a scope below the same one
    have he : (Eval.newFork j >>= f') s' = (Eval.newChild q >>= f') s' := by
      show f' s'.scopes.size { s' with scopes := s'.scopes.push (s'.scopes.scope j) } = _
      rw [hq]
      rfl
    rw [he]
    exact spareChild (hw.own ho) hk (fun hw₂ => hf (hw.trans hw₂)) _ _ _ (.refl _) hs

/-! ### Running functions -/

/-- A call opens a frame on both sides, or is refused on both. -/
theorem enter (name : String) : w.Mirrors (Eval.enter name) (Eval.enter name) := by
  intro w₁ s s' _ hs
  unfold Eval.enter
  dsimp only
  rw [hs.calls]
  rcases s.calls.push name with ⟨e | -, calls⟩
  · exact .failed (Paired.from ⟨hs.scopes, hs.store, hs.made, rfl⟩)
  · exact .done trivial (Paired.from ⟨hs.scopes, hs.store, hs.made, rfl⟩)

theorem leave : w.Mirrors Eval.leave Eval.leave := fun _ _ _ _ hs =>
  .done trivial (Paired.from ⟨hs.scopes, hs.store, hs.made, congrArg CallStack.pop hs.calls⟩)

/-- The frames are equal, so are the backtraces taken from them. -/
theorem withBacktrace (e : EvalError) :
    w.Mirrors (Eval.withBacktrace e) (Eval.withBacktrace e) := by
  intro w₁ s s' _ hs
  show (Outcome.done (s.calls.attach e) s).Alike _ _ (.done (s'.calls.attach e) s')
  rw [hs.calls]
  exact .done trivial hs.from

end Mirrors

end Pairing

/-! ### Evaluators -/

/-- An evaluator that does the same in paired states, and a host whose routines do. -/
structure Evaluator.Faithful (host : Host) (ev : Evaluator) : Prop where
  store : ∀ {w : Pairing} {α : Type} {m : Run Store α}, Scopeless host m →
    w.Mirrors (Eval.onStore m) (Eval.onStore m)
  expr : ∀ {w : Pairing} {i j}, w.known i j → ∀ e, w.Mirrors (ev.expr e i) (ev.expr e j)
  stmt : ∀ {w : Pairing} {i j}, w.own i j → ∀ s labels,
    w.Mirrors (ev.stmt s i labels) (ev.stmt s j labels)
  call : ∀ (w : Pairing) id this args, w.Mirrors (ev.call id this args) (ev.call id this args)
  spent : ∀ w : Pairing, w.Mirrors ev.spent ev.spent

end Estree
