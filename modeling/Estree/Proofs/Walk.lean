/-
Estree/Proofs/Walk.lean

Walks along chains of scopes.

A search goes from a scope to its parent until something is found or a scope has no parent.
`Scopes.Stops` says where that is, without a bound on the number of steps.  Two searches that find
something in the same scopes stop at the same place, whatever it is that they find; and a search
that finds nothing anywhere stops at the root.

Where every parent stands in front of its scopes, every search stops (`Founded.stops`), and the
bounds of `Scopes.nearest` and `Scopes.rootOf` are enough for it (`Founded.nearest_eq`,
`Founded.rootOf_eq`).
-/
import Mathlib.Logic.Relation
import Estree.Proofs.Scope

namespace Estree

namespace Scopes

open Relation

variable {ss ss' : Scopes} {id i p owner : ScopeId} {α β : Type}
variable {f : Scope → Option α} {g : Scope → Option β}

/-- One step up. -/
def Parent (ss : Scopes) (id p : ScopeId) : Prop := (ss.scope id).parent = some p

/-- Where a search along the chain of a scope stops: at the first scope in which something is found,
or where there is no parent to go on to. -/
inductive Stops (ss : Scopes) (f : Scope → Option α) : ScopeId → ScopeId → Prop
  | found {id : ScopeId} (h : (f (ss.scope id)).isSome) : Stops ss f id id
  | root {id : ScopeId} (h : (ss.scope id).parent = none) : Stops ss f id id
  | up {id p owner : ScopeId} (h : f (ss.scope id) = none) (hp : ss.Parent id p)
      (hs : Stops ss f p owner) : Stops ss f id owner

/-! ### Where searches stop -/

namespace Stops

/-- A search stops at one place only. -/
theorem unique (h : ss.Stops f id owner) (h' : ss.Stops f id i) : owner = i := by
  induction h with
  | found hf =>
    cases h' with
    | found _ => rfl
    | root _ => rfl
    | up hn _ _ =>
      rw [hn] at hf
      cases hf
  | root hr =>
    cases h' with
    | found _ => rfl
    | root _ => rfl
    | up _ hp _ => exact nomatch hr.symm.trans hp
  -- both walks go on to the same parent
  | up hn hp _ ih =>
    cases h' with
    | found hf =>
      rw [hn] at hf
      cases hf
    | root hr => exact nomatch hr.symm.trans hp
    | up _ hq hs =>
      obtain rfl := Option.some.inj (hp.symm.trans hq)
      exact ih hs

/-- It stops on the chain. -/
theorem reaches (h : ss.Stops f id owner) : ReflTransGen ss.Parent id owner := by
  induction h with
  | found _ => exact .refl
  | root _ => exact .refl
  | up _ hp _ ih => exact .head hp ih

/-- It stops without having found anything only where the chain ends. -/
theorem parent_eq_none (h : ss.Stops f id owner) (hn : f (ss.scope owner) = none) :
    (ss.scope owner).parent = none := by
  induction h with
  | found hf =>
    rw [hn] at hf
    cases hf
  | root hr => exact hr
  | up _ _ _ ih => exact ih hn

/-- Where two searches find something does not depend on what they find. -/
theorem transfer (h : ss.Stops f id owner)
    (hfg : ∀ i, g (ss'.scope i) = none ↔ f (ss.scope i) = none)
    (hp : ∀ i, (ss'.scope i).parent = (ss.scope i).parent) : ss'.Stops g id owner := by
  induction h with
  | found hf =>
    refine .found (Option.isSome_iff_ne_none.2 fun hn => ?_)
    exact Option.isSome_iff_ne_none.1 hf ((hfg _).1 hn)
  | root hr => exact .root ((hp _).trans hr)
  | up hn hq _ ih => exact .up ((hfg _).2 hn) ((hp _).trans hq) ih

/-- A search in the same scopes for something that is found in the same places. -/
theorem congr (h : ss.Stops f id owner) (hfg : ∀ s, g s = none ↔ f s = none) :
    ss.Stops g id owner :=
  h.transfer (fun _ => hfg _) fun _ => rfl

/-- A search stops at the same place after something has been put where it could have stopped. -/
theorem put (h : ss.Stops f id i) (hp : ∀ i, (ss'.scope i).parent = (ss.scope i).parent)
    (hf : ∀ i ≠ owner, f (ss'.scope i) = f (ss.scope i)) (ho : (f (ss'.scope owner)).isSome)
    (hr : f (ss.scope owner) = none → (ss.scope owner).parent = none) : ss'.Stops f id i := by
  induction h with
  | @found id hs =>
    by_cases hid : id = owner
    · subst hid
      exact .found ho
    · exact .found (hf id hid ▸ hs)
  | root hn => exact .root ((hp _).trans hn)
  | @up id _ _ hn hq _ ih =>
    -- the search has not passed the changed scope: it would not have found a parent there
    have hid : id ≠ owner := by
      rintro rfl
      exact nomatch (hr hn).symm.trans hq
    exact .up ((hf id hid).trans hn) ((hp _).trans hq) ih

/-- Enough steps lead to where a search stops. -/
theorem nearestWithin_eq (h : ss.Stops f id owner) (hs : ss.Founded) {n : Nat} (hn : id < n) :
    ss.nearestWithin f n id = (f (ss.scope owner)).map (owner, ·) := by
  obtain ⟨n, rfl⟩ := Nat.exists_eq_add_one.2 (Nat.zero_lt_of_lt hn)
  rw [nearestWithin]
  induction h generalizing n with
  | found hf =>
    obtain ⟨a, ha⟩ := Option.isSome_iff_exists.1 hf
    simp only [ha, Option.map_some]
  | @root id hr =>
    cases hf : f (ss.scope id) with
    | some a => rfl
    | none => simp only [hr, Option.map_none]
  | up hf hp _ ih =>
    -- the parent stands in front, so that a step less is enough for it
    have hpn := Nat.lt_of_lt_of_le (hs hp) (Nat.le_of_lt_succ hn)
    obtain ⟨n, rfl⟩ := Nat.exists_eq_add_one.2 (Nat.zero_lt_of_lt hpn)
    simp only [hf, show (ss.scope _).parent = _ from hp]
    rw [nearestWithin]
    exact ih n hpn

/-- Enough steps lead to the root, which is where a search stops that finds nothing. -/
theorem rootWithin_eq (h : ss.Stops (fun _ => (none : Option Unit)) id owner) (hs : ss.Founded)
    {n : Nat} (hn : id ≤ n) : ss.rootWithin n id = owner := by
  induction h generalizing n with
  | found hf => cases hf
  | root hr =>
    cases n with
    | zero => rfl
    | succ n => simp only [rootWithin, hr]
  | up _ hp _ ih =>
    have hpn := Nat.lt_of_lt_of_le (hs hp) hn
    obtain ⟨n, rfl⟩ := Nat.exists_eq_add_one.2 (Nat.zero_lt_of_lt hpn)
    simp only [rootWithin, show (ss.scope _).parent = _ from hp]
    exact ih (Nat.le_of_lt_succ hpn)

end Stops

/-! ### Chains that end -/

namespace Founded

/-- Every search stops. -/
theorem stops (h : ss.Founded) (f : Scope → Option α) (id : ScopeId) :
    ∃ owner, ss.Stops f id owner := by
  induction id using Nat.strongRecOn with
  | ind id ih =>
    cases hf : f (ss.scope id) with
    | some a => exact ⟨id, .found (Option.isSome_iff_exists.2 ⟨a, hf⟩)⟩
    | none =>
      cases hp : (ss.scope id).parent with
      | none => exact ⟨id, .root hp⟩
      | some p =>
        obtain ⟨owner, ho⟩ := ih p (h hp)
        exact ⟨owner, .up hf hp ho⟩

/-- What is found along a chain is found where the search stops. -/
theorem nearest_eq (h : ss.Founded) (hid : id < ss.size) (hs : ss.Stops f id owner) :
    ss.nearest f id = (f (ss.scope owner)).map (owner, ·) :=
  hs.nearestWithin_eq h hid

/-- The root of a chain is where a search stops that finds nothing. -/
theorem stops_rootOf (h : ss.Founded) (hid : id < ss.size) :
    ss.Stops (fun _ => (none : Option Unit)) id (ss.rootOf id) := by
  obtain ⟨owner, ho⟩ := h.stops (fun _ => (none : Option Unit)) id
  have he : ss.rootOf id = owner := ho.rootWithin_eq h (Nat.le_of_lt hid)
  exact he ▸ ho

/-- A search that finds nothing stops at the root. -/
theorem rootOf_eq (h : ss.Founded) (hid : id < ss.size) (hs : ss.Stops f id owner)
    (hn : f (ss.scope owner) = none) : ss.rootOf id = owner := by
  have nothing : ss.Stops (fun _ => (none : Option Unit)) id owner := by
    have hp := hs.parent_eq_none hn
    clear hn
    induction hs with
    | found _ => exact .root hp
    | root hr => exact .root hr
    | up _ hq _ ih => exact .up rfl hq (ih (Nat.lt_trans (h hq) hid) hp)
  exact (h.stops_rootOf hid).unique nothing

/-- A new scope comes after its parent. -/
theorem push (h : ss.Founded) {s : Scope} (hs : ∀ p, s.parent = some p → p < ss.size) :
    Scopes.Founded (ss.push s) := by
  intro id p hp
  rw [scope_push] at hp
  split at hp
  · subst id
    exact hs p hp
  · exact h hp

/-- A chain leads to scopes in front only. -/
theorem lt_of_above (h : ss.Founded) (hi : TransGen ss.Parent id i) : i < id := by
  induction hi with
  | single hp => exact h hp
  | tail _ hp ih => exact Nat.lt_trans (h hp) ih

/-- No scope is above itself. -/
theorem not_above_self (h : ss.Founded) (id : ScopeId) : ¬ TransGen ss.Parent id id :=
  fun hi => Nat.lt_irrefl id (h.lt_of_above hi)

end Founded

/-- A search that finds the same in scopes with the same parents. -/
theorem nearest_congr (hs : SameChains ss ss') (hf : ∀ i, f (ss'.scope i) = f (ss.scope i))
    (id : ScopeId) : ss'.nearest f id = ss.nearest f id := by
  unfold nearest
  rw [hs.size]
  generalize ss.size = n
  induction n generalizing id with
  | zero => rfl
  | succ n ih => simp only [nearestWithin, hf, hs.parent, ih]

end Scopes

end Estree
