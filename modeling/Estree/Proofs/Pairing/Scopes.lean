/-
Estree/Proofs/Pairing/Scopes.lean

Scopes of two runs that stand for each other.

A `Pairing` says of some scopes of a first run and some of a second that the same names are found
from them (`known`), and of some of those that they also bind the same names, so that names may be
declared in them (`own`).  The second run may have spare scopes: they bind nothing and stand in a
chain between a scope and what it is paired with (`Pairing.Holds.between`).

Searches go past spare scopes, so that two searches from known scopes stop in scopes that are paired
(`Pairing.Holds.stops`).  Every operation on scopes therefore does the same on both sides
(`Pairing.Holds.lookup_eq`, `Pairing.Holds.create`, `Pairing.Holds.update`, `Pairing.Holds.delete`),
and new scopes are paired as well (`Pairing.Holds.push`, `Pairing.Holds.pushSpare`).
-/
import Estree.Proofs.Walk

namespace Estree

/-! ### A scope below another one -/

namespace Scope

/-- The same bindings below another parent. -/
def below (s : Scope) (parent : Option ScopeId) : Scope := { s with parent }

variable (s : Scope) (parent : Option ScopeId) (kind : VarKind) (name : String)

@[simp] theorem parent_below : (s.below parent).parent = parent := rfl

@[simp] theorem vars_below : (s.below parent).vars = s.vars := rfl

@[simp] theorem lets_below : (s.below parent).lets = s.lets := rfl

@[simp] theorem consts_below : (s.below parent).consts = s.consts := rfl

/-- Moving a scope below another parent does not touch its tables. -/
theorem insert_below (v : Value) :
    (s.below parent).insert kind name v = (s.insert kind name v).below parent := by
  cases kind <;> rfl

/-- A declaration has the same outcome wherever the scope hangs. -/
theorem create_below (value : Option Value) :
    (s.below parent).create kind name value
      = (s.create kind name value).map fun t => t.below parent := by
  unfold create
  rw [show (s.below parent).kindHere name = s.kindHere name from rfl]
  split
  · split
    · split
      · rw [insert_below]
        rfl
      · rfl
    · rfl
  · rw [insert_below]
    rfl

/-- An assignment has the same outcome wherever the scope hangs. -/
theorem assignHere_below (v : Value) :
    (s.below parent).assignHere name v
      = (s.assignHere name v).map fun r => r.map fun t => t.below parent := by
  unfold assignHere
  simp only [insert_below, vars_below, lets_below, consts_below]
  split
  · rfl
  · split
    · rfl
    · split <;> rfl

end Scope

/-! ### Pairings -/

/-- Scopes of two runs from which the same names are found, and those that bind the same names. -/
structure Pairing where
  known : ScopeId → ScopeId → Prop
  own : ScopeId → ScopeId → Prop
  own_known : ∀ {i j}, own i j → known i j

namespace Pairing

variable {w w₁ w₂ : Pairing} {i j k o o' p q : ScopeId}

/-- One pairing within another. -/
structure Le (w w₁ : Pairing) : Prop where
  known : ∀ {i j}, w.known i j → w₁.known i j
  own : ∀ {i j}, w.own i j → w₁.own i j

theorem Le.refl (w : Pairing) : w.Le w := ⟨id, id⟩

theorem Le.trans (h : w.Le w₁) (h' : w₁.Le w₂) : w.Le w₂ :=
  ⟨fun hk => h'.known (h.known hk), fun ho => h'.own (h.own ho)⟩

/-- With two scopes that have just been made. -/
def add (w : Pairing) (i j : ScopeId) : Pairing where
  known i' j' := i' = i ∧ j' = j ∨ w.known i' j'
  own i' j' := i' = i ∧ j' = j ∨ w.own i' j'
  own_known h := h.imp_right w.own_known

/-- With a spare scope of the second run. -/
def addSpare (w : Pairing) (i j : ScopeId) : Pairing where
  known i' j' := i' = i ∧ j' = j ∨ w.known i' j'
  own := w.own
  own_known h := .inr (w.own_known h)

/-- A pairing grows by a further pair of own scopes. -/
theorem le_add : w.Le (w.add i j) := ⟨.inr, .inr⟩

/-- A pairing grows by a further pair of known scopes. -/
theorem le_addSpare : w.Le (w.addSpare i j) := ⟨.inr, id⟩

theorem own_add : (w.add i j).own i j := .inl ⟨rfl, rfl⟩

theorem known_addSpare : (w.addSpare i j).known i j := .inl ⟨rfl, rfl⟩

/-- A pairing of scopes that are there. -/
structure Holds (w : Pairing) (ss ss' : Scopes) : Prop where
  founded : ss.Founded
  founded' : ss'.Founded
  root : w.own rootScope rootScope
  lt : ∀ {i j}, w.known i j → i < ss.size ∧ j < ss'.size
  same : ∀ {i j}, w.own i j → ss'.scope j = (ss.scope i).below (ss'.scope j).parent
  top : ∀ {i j}, w.own i j → (ss.scope i).parent = none → (ss'.scope j).parent = none
  parent : ∀ {i j p}, w.own i j → ss.Parent i p → ∃ q, ss'.Parent j q ∧ w.known p q
  between : ∀ {i j}, w.known i j →
    w.own i j ∨ ∃ q, ss'.scope j = Scope.below {} (some q) ∧ w.known i q
  left : ∀ {i j k}, w.own i j → w.own i k → k = j
  /-- A scope that is paired is not spare, and it is paired with one scope only. -/
  right : ∀ {i j k}, w.own i j → w.known k j → k = i

/-- Operations that give the same on both sides and leave scopes that are paired. -/
inductive Agree (w : Pairing) {β : Type} : β × Scopes → β × Scopes → Prop
  | mk {ss ss' : Scopes} (b : β) (h : w.Holds ss ss') : Agree w (b, ss) (b, ss')

namespace Holds

variable {ss ss' : Scopes} {α : Type} {name : String}

/-! ### Searches -/

/-- Searches from scopes that stand for each other stop in scopes that are paired. -/
theorem stops (h : w.Holds ss ss') {f : Scope → Option α}
    (hf : ∀ s p, f (Scope.below s p) = none ↔ f s = none) (he : f {} = none)
    (hk : w.known i j) (hs : ss.Stops f i o) : ∃ o', ss'.Stops f j o' ∧ w.own o o' := by
  induction j using Nat.strongRecOn generalizing i with
  | ind j ih =>
    obtain hown | ⟨q, hq, hkq⟩ := h.between hk
    · have hsame : f (ss'.scope j) = none ↔ f (ss.scope i) = none := by
        rw [h.same hown]
        exact hf _ _
      cases hs with
      | found hfound =>
        refine ⟨j, .found (Option.isSome_iff_ne_none.2 fun hn => ?_), hown⟩
        exact Option.isSome_iff_ne_none.1 hfound (hsame.1 hn)
      | root hroot => exact ⟨j, .root (h.top hown hroot), hown⟩
      | up hn hp hs =>
        obtain ⟨q, hq, hpq⟩ := h.parent hown hp
        obtain ⟨o', ho', hoo'⟩ := ih q (h.founded' hq) hpq hs
        exact ⟨o', .up (hsame.2 hn) hq ho', hoo'⟩
    · -- a spare scope has nothing to be found, and the search goes on above it
      have hparent : ss'.Parent j q := congrArg Scope.parent hq
      obtain ⟨o', ho', hoo'⟩ := ih q (h.founded' hparent) hkq hs
      exact ⟨o', .up (hq ▸ (hf _ _).2 he) hparent ho', hoo'⟩

/-- What is found on both sides is found in scopes that are paired. -/
theorem nearest_eq (h : w.Holds ss ss') {f : Scope → Option α}
    (hf : ∀ s p, f (Scope.below s p) = none ↔ f s = none) (he : f {} = none)
    (hk : w.known i j) :
    ∃ o o', w.own o o' ∧ ss.nearest f i = (f (ss.scope o)).map (o, ·) ∧
      ss'.nearest f j = (f (ss'.scope o')).map (o', ·) := by
  obtain ⟨hi, hj⟩ := h.lt hk
  obtain ⟨o, ho⟩ := Scopes.Founded.stops h.founded f i
  obtain ⟨o', ho', hoo'⟩ := h.stops hf he hk ho
  exact ⟨o, o', hoo', Scopes.Founded.nearest_eq h.founded hi ho,
    Scopes.Founded.nearest_eq h.founded' hj ho'⟩

/-- The roots are paired. -/
theorem rootOf (h : w.Holds ss ss') (hk : w.known i j) : w.own (ss.rootOf i) (ss'.rootOf j) := by
  obtain ⟨hi, hj⟩ := h.lt hk
  obtain ⟨o', ho', hoo'⟩ :=
    h.stops (fun _ _ => .rfl) rfl hk (Scopes.Founded.stops_rootOf h.founded hi)
  exact ho'.unique (Scopes.Founded.stops_rootOf h.founded' hj) ▸ hoo'

/-- Paired scopes read every name alike. -/
theorem lookup_eq (h : w.Holds ss ss') (hk : w.known i j) (name : String) :
    ss'.lookup j name = ss.lookup i name := by
  obtain ⟨o, o', hoo', hn, hn'⟩ :=
    h.nearest_eq (f := fun s => s.valueHere name) (fun _ _ => .rfl) rfl hk
  rw [Scopes.lookup, Scopes.lookup, hn, hn', h.same hoo', Option.map_map, Option.map_map]
  rfl

/-- Paired scopes answer every question about a name alike. -/
theorem query_eq (h : w.Holds ss ss') (hk : w.known i j) (name : String) :
    ss'.query j name = ss.query i name := by
  rw [Scopes.query, Scopes.query, h.lookup_eq hk]

/-! ### Changes in place -/

/-- Two scopes that are paired are changed alike. -/
theorem modify (h : w.Holds ss ss') (ho : w.own o o') (f f' : Scope → Scope)
    (hp : (f (ss.scope o)).parent = (ss.scope o).parent)
    (hf : f' (ss'.scope o') = (f (ss.scope o)).below (ss'.scope o').parent) :
    w.Holds (ss.modify o f) (ss'.modify o' f') := by
  -- the second change keeps its parent too, since it mirrors the first one
  have hp' : (f' (ss'.scope o')).parent = (ss'.scope o').parent := by
    rw [hf, Scope.parent_below]
  have hs : Scopes.SameChains ss (ss.modify o f) := .modify hp
  have hs' : Scopes.SameChains ss' (ss'.modify o' f') := .modify hp'
  refine
    { founded := fun {i p} hi => h.founded (hs.parent i ▸ hi)
      founded' := fun {i p} hi => h.founded' (hs'.parent i ▸ hi)
      root := h.root
      lt := fun hk => ?_
      same := fun {i j} hown => ?_
      top := fun {i j} hown hi => (hs'.parent j).trans (h.top hown ((hs.parent i).symm.trans hi))
      parent := fun {i j p} hown hi => ?_
      between := fun {i j} hk => ?_
      left := h.left
      right := h.right }
  · rw [hs.size, hs'.size]
    exact h.lt hk
  · obtain ⟨hi, hj⟩ := h.lt (w.own_known hown)
    rw [hs'.parent, Scopes.scope_modify, Scopes.scope_modify]
    -- either the changed pair itself or one that the change does not touch
    by_cases hio : o = i
    · subst hio
      obtain rfl := h.left ho hown
      rw [if_pos ⟨rfl, hj⟩, if_pos ⟨rfl, hi⟩, hf]
    · have hjo : o' ≠ j := fun he => hio (h.right (he ▸ ho) (w.own_known hown)).symm
      rw [if_neg fun he => hjo he.1, if_neg fun he => hio he.1]
      exact h.same hown
  · obtain ⟨q, hq, hk⟩ := h.parent hown ((hs.parent i).symm.trans hi)
    exact ⟨q, (hs'.parent j).trans hq, hk⟩
  · obtain hown | ⟨q, hq, hkq⟩ := h.between hk
    · exact .inl hown
    · by_cases hjo : o' = j
      · -- the changed scope is not spare
        subst hjo
        exact .inl (h.right ho hk ▸ ho)
      · refine .inr ⟨q, ?_, hkq⟩
        rw [Scopes.scope_modify, if_neg fun he => hjo he.1, hq]

/-- A declaration in paired own scopes fails on both sides or keeps the pairing. -/
theorem create (h : w.Holds ss ss') (ho : w.own i j) (kind : VarKind) (name : String)
    (value : Option Value) :
    w.Agree (ss.create i kind name value) (ss'.create j kind name value) := by
  unfold Scopes.create
  rw [h.same ho, Scope.create_below]
  cases ht : (ss.scope i).create kind name value with
  | error e => exact .mk _ h
  | ok t =>
    dsimp only [Except.map]
    rw [Scopes.set_eq_modify, Scopes.set_eq_modify]
    exact .mk _ (h.modify ho _ _ (Scope.parent_of_create ht) rfl)

/-- An assignment from paired scopes reaches paired scopes, or fails on both sides. -/
theorem update (h : w.Holds ss ss') (hk : w.known i j) (name : String) (v : Value) :
    w.Agree (ss.update i name v) (ss'.update j name v) := by
  have hf (s : Scope) (p : Option ScopeId) :
      (s.below p).assignHere name v = none ↔ s.assignHere name v = none := by
    rw [Scope.assignHere_below, Option.map_eq_none_iff]
  obtain ⟨o, o', ho, hn, hn'⟩ := h.nearest_eq (f := fun s => s.assignHere name v) hf rfl hk
  unfold Scopes.update
  rw [hn, hn', h.same ho, Scope.assignHere_below]
  rcases ht : (ss.scope o).assignHere name v with - | ⟨e | t⟩
  · -- a name that is bound nowhere becomes a variable of the root
    have hr := h.rootOf hk
    refine .mk _ (h.modify hr _ _ (Scope.parent_insert ..) ?_)
    rw [← Scope.insert_below, ← h.same hr]
  · exact .mk _ h
  · dsimp only [Option.map, Except.map]
    rw [Scopes.set_eq_modify, Scopes.set_eq_modify]
    exact .mk _ (h.modify ho _ _ (Scope.parent_of_assignHere ht) rfl)

/-- A deletion from paired scopes has the same outcome on both sides. -/
theorem delete (h : w.Holds ss ss') (hk : w.known i j) (name : String) :
    w.Agree (ss.delete i name) (ss'.delete j name) := by
  have hr := h.rootOf hk
  have hs := h.same hr
  unfold Scopes.delete
  dsimp only
  rw [hs]
  have same (p : Option ScopeId) :
      ((ss.scope (ss.rootOf i)).below p).vars.contains name
        = (ss.scope (ss.rootOf i)).vars.contains name := rfl
  by_cases hv : (ss.scope (ss.rootOf i)).vars.contains name = true
  · rw [if_pos hv, if_pos ((same _).trans hv)]
    refine .mk true (h.modify hr _ _ rfl ?_)
    exact congrArg (fun s : Scope => { s with vars := s.vars.erase name }) hs
  · rw [if_neg hv, if_neg (same _ ▸ hv)]
    exact .mk _ h

/-! ### New scopes -/

/-- Scopes with the same bindings below scopes that stand for each other are made on both sides. -/
theorem push (h : w.Holds ss ss') {s s' : Scope} (hs : s' = s.below s'.parent)
    (top : s.parent = none → s'.parent = none)
    (parent : ∀ p, s.parent = some p → ∃ q, s'.parent = some q ∧ w.known p q) :
    (w.add ss.size ss'.size).Holds (ss.push s) (ss'.push s') := by
  have new : Scopes.scope (ss.push s) ss.size = s := by rw [Scopes.scope_push, if_pos rfl]
  have new' : Scopes.scope (ss'.push s') ss'.size = s' := by rw [Scopes.scope_push, if_pos rfl]
  have old {i : ScopeId} (hi : i < ss.size) : Scopes.scope (ss.push s) i = ss.scope i := by
    rw [Scopes.scope_push, if_neg (Nat.ne_of_lt hi)]
  have old' {j : ScopeId} (hj : j < ss'.size) : Scopes.scope (ss'.push s') j = ss'.scope j := by
    rw [Scopes.scope_push, if_neg (Nat.ne_of_lt hj)]
  -- the new scope hangs below a scope that is there
  have above (q : ScopeId) (hq : s'.parent = some q) : q < ss'.size := by
    cases hp : s.parent with
    | none => exact nomatch hq.symm.trans (top hp)
    | some p =>
      obtain ⟨q', hq', hk⟩ := parent p hp
      obtain rfl := Option.some.inj (hq.symm.trans hq')
      exact (h.lt hk).2
  refine
    { founded := Scopes.Founded.push h.founded fun p hp => ?_
      founded' := Scopes.Founded.push h.founded' above
      root := .inr h.root
      lt := ?_
      same := ?_
      top := ?_
      parent := ?_
      between := ?_
      left := ?_
      right := ?_ }
  · obtain ⟨q, -, hk⟩ := parent p hp
    exact (h.lt hk).1
  · rw [Array.size_push, Array.size_push]
    rintro i j (⟨rfl, rfl⟩ | hk)
    · exact ⟨Nat.lt_succ_self _, Nat.lt_succ_self _⟩
    · exact (h.lt hk).imp Nat.lt_succ_of_lt Nat.lt_succ_of_lt
  · rintro i j (⟨rfl, rfl⟩ | hown)
    · rw [new, new']
      exact hs
    · obtain ⟨hi, hj⟩ := h.lt (w.own_known hown)
      rw [old hi, old' hj]
      exact h.same hown
  · rintro i j (⟨rfl, rfl⟩ | hown)
    · rw [new, new']
      exact top
    · obtain ⟨hi, hj⟩ := h.lt (w.own_known hown)
      rw [old hi, old' hj]
      exact h.top hown
  · rintro i j p (⟨rfl, rfl⟩ | hown) hp
    · rw [Scopes.Parent, new] at hp
      obtain ⟨q, hq, hk⟩ := parent p hp
      exact ⟨q, by rwa [Scopes.Parent, new'], .inr hk⟩
    · obtain ⟨hi, hj⟩ := h.lt (w.own_known hown)
      rw [Scopes.Parent, old hi] at hp
      obtain ⟨q, hq, hk⟩ := h.parent hown hp
      exact ⟨q, by rwa [Scopes.Parent, old' hj], .inr hk⟩
  · rintro i j (hnew | hk)
    · exact .inl (.inl hnew)
    · obtain hown | ⟨q, hq, hkq⟩ := h.between hk
      · exact .inl (.inr hown)
      · rw [old' (h.lt hk).2]
        exact .inr ⟨q, hq, .inr hkq⟩
  · -- new scopes come after all that are paired already
    rintro i j k (⟨rfl, rfl⟩ | hown) (⟨hi, rfl⟩ | hown')
    · rfl
    · exact absurd (h.lt (w.own_known hown')).1 (Nat.lt_irrefl _)
    · exact absurd (hi ▸ (h.lt (w.own_known hown)).1) (Nat.lt_irrefl _)
    · exact h.left hown hown'
  · rintro i j k (⟨rfl, rfl⟩ | hown) (⟨rfl, hj⟩ | hk)
    · rfl
    · exact absurd (h.lt hk).2 (Nat.lt_irrefl _)
    · exact absurd (hj ▸ (h.lt (w.own_known hown)).2) (Nat.lt_irrefl _)
    · exact h.right hown hk

/-- The second run makes a spare scope. -/
theorem pushSpare (h : w.Holds ss ss') (hk : w.known i q) :
    (w.addSpare i ss'.size).Holds ss (ss'.push { parent := some q }) := by
  obtain ⟨hi, hq⟩ := h.lt hk
  -- the new scope is empty and hangs below the partner of `i`
  have new : Scopes.scope (ss'.push { parent := some q }) ss'.size = Scope.below {} (some q) := by
    rw [Scopes.scope_push, if_pos rfl]
    rfl
  have old {j : ScopeId} (hj : j < ss'.size) :
      Scopes.scope (ss'.push { parent := some q }) j = ss'.scope j := by
    rw [Scopes.scope_push, if_neg (Nat.ne_of_lt hj)]
  refine
    { founded := h.founded
      founded' := Scopes.Founded.push h.founded' fun p hp => ?_
      root := h.root
      lt := ?_
      same := fun {i j} hown => ?_
      top := fun {i j} hown => ?_
      parent := fun {i j p} hown hp => ?_
      between := ?_
      left := h.left
      right := ?_ }
  · obtain rfl : q = p := Option.some.inj hp
    exact hq
  · rw [Array.size_push]
    rintro i j (⟨rfl, rfl⟩ | hk)
    · exact ⟨hi, Nat.lt_succ_self _⟩
    · exact (h.lt hk).imp_right Nat.lt_succ_of_lt
  · rw [old (h.lt (w.own_known hown)).2]
    exact h.same hown
  · rw [old (h.lt (w.own_known hown)).2]
    exact h.top hown
  · obtain ⟨q', hq', hk'⟩ := h.parent hown hp
    exact ⟨q', by rwa [Scopes.Parent, old (h.lt (w.own_known hown)).2], .inr hk'⟩
  · rintro i j (⟨rfl, rfl⟩ | hk')
    · -- the only case that is not as before: the new scope is spare
      exact .inr ⟨q, new, .inr hk⟩
    · obtain hown | ⟨q', hq', hkq⟩ := h.between hk'
      · exact .inl hown
      · rw [old (h.lt hk').2]
        exact .inr ⟨q', hq', .inr hkq⟩
  · rintro i j k hown (⟨rfl, rfl⟩ | hk')
    · exact absurd (h.lt (w.own_known hown)).2 (Nat.lt_irrefl _)
    · exact h.right hown hk'

end Holds

end Pairing

end Estree
