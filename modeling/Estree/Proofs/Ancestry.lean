/-
Estree/Proofs/Ancestry.lean

The chains of scopes are well founded.

In every reachable state the scopes form a tree: the first scope has no parent, and every other has
one that stands in front of it (`WellScoped`).  So every chain leads to the first scope in finitely
many steps (`Rooted.reaches`), none leads back to where it began (`Founded.not_above_self`), and a
search along it stops (`Founded.stops`).  What is done to the root of a chain is done to the first
scope (`Rooted.delete_eq`, `Rooted.update_eq`).

A session only puts new scopes behind the others and never gives a scope another parent
(`Session.permanent`).  The scopes that an evaluation comes with exist wherever it begins
(`Reachable.enclosed`).
-/
import Estree.Proofs.Permanence
import Estree.Proofs.Walk

namespace Estree

open Relation

variable {host : Host} {s s' : State}

/-! ### One root -/

namespace Scopes

variable {ss : Scopes} {id : ScopeId} {name : String}

/-- Every chain leads to the first scope. -/
theorem Rooted.reaches (h : ss.Rooted) (hid : id < ss.size) :
    ReflTransGen ss.Parent id rootScope := by
  have hs := Founded.stops_rootOf h.founded hid
  rw [rootOf_eq h hid] at hs
  exact hs.reaches

/-- A name is deleted from the same scope, wherever that is asked for. -/
theorem Rooted.delete_eq (h : ss.Rooted) (hid : id < ss.size) (name : String) :
    ss.delete id name = ss.delete rootScope name := by
  unfold delete
  rw [rootOf_eq h hid, rootOf_eq h h.nonempty]

/-- A name that is not bound is made one of the same scope, wherever it is assigned to. -/
theorem Rooted.update_eq (h : ss.Rooted) (hid : id < ss.size) (hn : ss.kindOf id name = none)
    (v : Value) :
    ss.update id name v = (.ok (), ss.modify rootScope fun s => s.insert .var name v) := by
  obtain ⟨owner, ho⟩ := Founded.stops h.founded (fun s => s.kindHere name) id
  have hf (s : Scope) : s.assignHere name v = none ↔ s.kindHere name = none := by
    rw [Scope.assignHere_eq_none_iff, Scope.kindHere_eq, Option.map_eq_none_iff]
  rw [kindOf, Founded.nearest_eq h.founded hid ho, Option.map_map, Option.map_eq_none_iff] at hn
  rw [update, Founded.nearest_eq h.founded hid (ho.congr hf), (hf _).2 hn, rootOf_eq h hid]
  rfl

end Scopes

/-! ### Reachable states -/

/-- Wherever an evaluation begins within another, the scopes that it comes with exist. -/
theorem Reachable.enclosed (hk : host.KeepsFunctions) (hr : Reachable host s) {n m : Nat}
    {t t' : Task} (ht : Existing t s) (he : Encloses host n t s m t' s') :
    Reachable host s' ∧ Existing t' s' := by
  obtain ⟨config, store, i, s₀, hc, hb, hs⟩ := id hr
  refine ⟨⟨config, store, i, s₀, hc, hb, .midst hs ht he⟩, fun id hid => ?_⟩
  have h := (ScopeLaw.silent.law hk).enclosed he (fun _ _ => Discipline.admits_all _)
    (Discipline.asks_all t) ⟨(hr.wellScoped hk).task ht, trivial, trivial⟩
  exact h.2.1.known hid

/-- **The chains of scopes are well founded.**  In every reachable state each scope reaches the root
in finitely many steps from parent to parent, and none is above itself; the scopes that functions
were made in exist, and so do those that an evaluation comes with wherever it begins.  Nothing that
happens takes a scope away or gives it another parent.  So every search along a chain stops, within
the bound that it is given, and what is done to the root of a chain is always done to the same
scope. -/
theorem chains_lead_to_one_root (hk : host.KeepsFunctions) (hr : Reachable host s) :
    (∀ id < s.scopes.size, ReflTransGen s.scopes.Parent id rootScope) ∧
    (s.scopes.scope rootScope).parent = none ∧
    (∀ id, ¬ TransGen s.scopes.Parent id id) ∧
    (∀ id, (s.store.closure id).scope < s.scopes.size) ∧
    (∀ {n m t t' s'}, Existing t s → Encloses host n t s m t' s' →
      Reachable host s' ∧ Existing t' s') ∧
    (∀ {s'}, Session host (fun _ t s => Existing t s) s s' → ∀ id < s.scopes.size,
      id < s'.scopes.size ∧ (s'.scopes.scope id).parent = (s.scopes.scope id).parent) ∧
    ∀ id < s.scopes.size,
      (∀ {α : Type} (f : Scope → Option α), ∃ owner, s.scopes.Stops f id owner ∧
        s.scopes.nearest f id = (f (s.scopes.scope owner)).map (owner, ·) ∧
        (f (s.scopes.scope owner) = none → owner = rootScope)) ∧
      s.scopes.rootOf id = rootScope ∧
      (∀ name, s.scopes.delete id name = s.scopes.delete rootScope name) ∧
      ∀ name v, s.scopes.kindOf id name = none → s.scopes.update id name v
        = (.ok (), s.scopes.modify rootScope fun s => s.insert .var name v) := by
  have hw := hr.wellScoped hk
  have hf : s.scopes.Founded := hw.rooted.founded
  refine ⟨fun id hid => hw.rooted.reaches hid, hw.rooted.root,
    fun id => Scopes.Founded.not_above_self hf id, hw.made, fun ht he => hr.enclosed hk ht he,
    fun hs id hid => ?_, fun id hid => ?_⟩
  -- a session declares all it likes, and moves no scope
  · have hp : Permanent (fun _ => True) _ _ :=
      (hs.mono fun ht => ⟨ht, fun _ => trivial⟩).permanent hk hw
    exact ⟨Nat.lt_of_lt_of_le hid hp.size, hp.parent hid⟩
  · refine ⟨fun f => ?_, Scopes.rootOf_eq hw.rooted hid, hw.rooted.delete_eq hid,
      fun name v hn => hw.rooted.update_eq hid hn v⟩
    -- the walk stops where something is found, or else in the root
    obtain ⟨owner, ho⟩ := Scopes.Founded.stops hf f id
    refine ⟨owner, ho, Scopes.Founded.nearest_eq hf hid ho, fun hn => ?_⟩
    rw [← Scopes.Founded.rootOf_eq hf hid ho hn, Scopes.rootOf_eq hw.rooted hid]

/-- A function that was made within the call of another, after the call has returned: the scope that
it was made in still reaches the root, and so does an assignment to an unbound name from there. -/
theorem captured_scope_reaches_root :
    let inner : Function := .mk (some "f") [] (.block []) false false
    let outer : Function := .mk none [] (.block [.returns (some (.function inner))]) false false
    let p : Program := ⟨[.expression (.call (.function outer) [])], .script⟩
    ∃ i s₀ s, Interpreter.build {} {} = .done i s₀ ∧
      (Machine.perform Host.none 9 (.program none p) s₀).Ends s ∧ (s.store.closure 1).scope = 2 ∧
      ReflTransGen s.scopes.Parent 2 rootScope ∧ ¬ TransGen s.scopes.Parent 2 2 ∧
      s.scopes.update 2 "b" .null
        = (.ok (), s.scopes.modify rootScope fun s => s.insert .var "b" .null) := by
  intro inner outer p
  -- the two functions run: the inner one is closure 1 and was made in scope 2
  obtain ⟨s₀, i, s, hbuild, hs, hscope, hb⟩ : ∃ s₀ i s, Interpreter.build {} {} = .done i s₀ ∧
      (Machine.perform Host.none 9 (.program none p) s₀).Ends s ∧ (s.store.closure 1).scope = 2 ∧
      s.scopes.kindOf 2 "b" = none := by
    dsimp only [p, outer, inner]
    exact ⟨_, _, _, rfl, .inl ⟨_, rfl⟩, rfl, rfl⟩
  have hk := Host.none_keepsFunctions
  have built : Reachable Host.none s₀ := .of_build hbuild
  have hr : Reachable Host.none s := built.performed (built.existing hk fun _ => id) hs
  obtain ⟨reaches, -, apart, made, -, -, walks⟩ := chains_lead_to_one_root hk hr
  have hlt : 2 < s.scopes.size := hscope ▸ made 1
  exact ⟨i, s₀, s, hbuild, hs, hscope, reaches 2 hlt, apart 2, (walks 2 hlt).2.2.2 "b" .null hb⟩

end Estree
