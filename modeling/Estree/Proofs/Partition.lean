/-
Estree/Proofs/Partition.lean

Each name is declared in at most one way.

A scope keeps its `var`s, `let`s and `const`s in tables of their own, and its operations search
them in different orders.  That they speak of the same binding rests on this: no name is in two of
the tables (`Scope.Partitioned`).  An operation writes to a name in two cases only, where no table
has it or where it stays in the table it is in (`Scope.Partitioned.insert`).  For an assignment that
creates a name in the root, the first case rests on the search along the chain, which has passed
through the root; so the parents have to stand in front (`Scopes.Partitioned`).
-/
import Estree.Proofs.WellScoped

namespace Estree

/-! ### One scope -/

/-- No name is declared in two ways. -/
def Scope.Partitioned (s : Scope) : Prop :=
  ∀ name kind kind', (s.table kind).contains name = true →
    (s.table kind').contains name = true → kind = kind'

namespace Scope

variable {s s' : Scope} {kind : VarKind} {name other : String} {value : Option Value} {v : Value}

theorem partitioned_empty (parent : Option ScopeId) : Scope.Partitioned { parent } := by
  intro name kind kind' h
  cases kind <;> cases h

/-- A name that is in a table is bound, though maybe by another table. -/
theorem bound_of_contains (h : (s.table kind).contains name = true) :
    ∃ b, s.bindings.get? name = some b ∧ (s.table b.kind).contains name = true := by
  obtain ⟨v, hv⟩ := Option.isSome_iff_exists.1 h
  rw [get?_bindings]
  cases h₁ : s.vars.get? name with
  | some w => exact ⟨⟨.var, w⟩, rfl, Option.isSome_iff_exists.2 ⟨w, h₁⟩⟩
  | none =>
    cases h₂ : s.lets.get? name with
    | some w => exact ⟨⟨.let, w⟩, rfl, Option.isSome_iff_exists.2 ⟨w, h₂⟩⟩
    | none =>
      -- only the last table is left
      cases kind with
      | var => exact nomatch h₁.symm.trans hv
      | «let» => exact nomatch h₂.symm.trans hv
      | const =>
        have hc : s.consts.get? name = some v := hv
        rw [hc]
        exact ⟨⟨.const, v⟩, rfl, h⟩

theorem contains_insert {kind' : VarKind}
    (h : ((s.insert kind name v).table kind').contains other = true) :
    (s.table kind').contains other = true ∨ other = name ∧ kind' = kind := by
  by_cases ho : other = name
  · cases kind <;> cases kind' <;> first | exact .inr ⟨ho, rfl⟩ | exact .inl h
  · refine .inl ?_
    cases kind <;> cases kind' <;>
      simpa only [insert, table, Table.contains, Table.get?_insert, if_neg ho] using h

/-- Binding a name that is unbound, or is bound in the same way. -/
theorem Partitioned.insert (h : s.Partitioned)
    (hb : ∀ b, s.bindings.get? name = some b → b.kind = kind) :
    (s.insert kind name v).Partitioned := by
  have same {kind' : VarKind} (hk : (s.table kind').contains name = true) : kind' = kind := by
    obtain ⟨b, hs, hc⟩ := bound_of_contains hk
    exact (h name _ _ hk hc).trans (hb b hs)
  intro other k k' hk hk'
  obtain h₁ | ⟨rfl, rfl⟩ := contains_insert hk
  · obtain h₂ | ⟨rfl, rfl⟩ := contains_insert hk'
    · exact h other k k' h₁ h₂
    · exact same h₁
  · obtain h₂ | ⟨-, rfl⟩ := contains_insert hk'
    · exact (same h₂).symm
    · rfl

/-- A declaration adds a name that stood in no table of the scope. -/
theorem Partitioned.create (h : s.Partitioned) (hs : s.create kind name value = .ok s') :
    s'.Partitioned := by
  obtain rfl | ⟨hn, rfl⟩ | ⟨old, v, ho, hk, rfl⟩ := create_cases hs
  · exact h
  · refine h.insert fun b hb => ?_
    rw [hn] at hb
    cases hb
  · refine h.insert fun b hb => ?_
    rw [ho] at hb
    cases hb
    exact hk

/-- An assignment adds no name. -/
theorem Partitioned.assignHere (h : s.Partitioned) (hs : s.assignHere name v = some (.ok s')) :
    s'.Partitioned := by
  obtain ⟨old, ho, -, rfl⟩ := assignHere_ok hs
  refine h.insert fun b hb => ?_
  rw [ho] at hb
  cases hb
  rfl

/-- A deletion takes a name away. -/
theorem Partitioned.eraseVar (h : s.Partitioned) :
    Scope.Partitioned { s with vars := s.vars.erase name } := by
  have before {other : String} {kind : VarKind}
      (hk : (table { s with vars := s.vars.erase name } kind).contains other = true) :
      (s.table kind).contains other = true := by
    cases kind with
    | var => exact Table.contains_of_contains_erase hk
    | «let» => exact hk
    | const => exact hk
  intro other k k' hk hk'
  exact h other k k' (before hk) (before hk')

end Scope

/-! ### All scopes -/

namespace Scopes

variable {ss : Scopes} {id i p : ScopeId} {name : String}

/-- Parents stand in front, and no name is declared in two ways in any scope. -/
structure Partitioned (ss : Scopes) : Prop where
  founded : ss.Founded
  apart : ∀ id, (ss.scope id).Partitioned

/-- Scopes that come about by the operations on scopes, in any order, on any of the scopes that
exist, whether they succeed or fail. -/
inductive Built : Scopes → Prop
  | none : Built #[]
  | root {ss : Scopes} (h : Built ss) : Built (ss.add {}).2
  | child {ss : Scopes} {parent : ScopeId} (h : Built ss) (hp : parent < ss.size) :
      Built (ss.child parent).2
  | fork {ss : Scopes} {id : ScopeId} (h : Built ss) (hid : id < ss.size) : Built (ss.fork id).2
  | create {ss : Scopes} {id : ScopeId} (kind : VarKind) (name : String) (value : Option Value)
      (h : Built ss) (hid : id < ss.size) : Built (ss.create id kind name value).2
  | update {ss : Scopes} {id : ScopeId} (name : String) (value : Value) (h : Built ss)
      (hid : id < ss.size) : Built (ss.update id name value).2
  | delete {ss : Scopes} {id : ScopeId} (name : String) (h : Built ss) (hid : id < ss.size) :
      Built (ss.delete id name).2

namespace Partitioned

theorem push (h : ss.Partitioned) {s : Scope} (hs : s.Partitioned)
    (hp : ∀ p, s.parent = some p → p < ss.size) : Scopes.Partitioned (ss.push s) where
  founded {id p} he := by
    rw [scope_push] at he
    split at he
    · subst id
      exact hp p he
    · exact h.founded he
  apart id := by
    rw [scope_push]
    split
    · exact hs
    · exact h.apart id

/-- A change of one scope that keeps its parent and its tables apart. -/
theorem modify (h : ss.Partitioned) {f : Scope → Scope}
    (hp : (f (ss.scope i)).parent = (ss.scope i).parent)
    (hf : (f (ss.scope i)).Partitioned) : Scopes.Partitioned (ss.modify i f) where
  founded {id p} he := by
    rw [(SameChains.modify hp).parent id] at he
    exact h.founded he
  apart id := by
    rw [scope_modify]
    split
    · obtain ⟨rfl, -⟩ := ‹_›
      exact hf
    · exact h.apart id

theorem child (h : ss.Partitioned) (hp : p < ss.size) : (ss.child p).2.Partitioned :=
  h.push (Scope.partitioned_empty _) fun q hq => by
    cases hq
    exact hp

theorem fork (h : ss.Partitioned) (hid : id < ss.size) : (ss.fork id).2.Partitioned :=
  h.push (h.apart id) fun _ hp => Nat.lt_trans (h.founded hp) hid

theorem create (h : ss.Partitioned) (id : ScopeId) (kind : VarKind) (name : String)
    (value : Option Value) : (ss.create id kind name value).2.Partitioned := by
  unfold Scopes.create
  split
  · rename_i s' hs
    dsimp only
    rw [set_eq_modify]
    exact h.modify (Scope.parent_of_create hs) ((h.apart id).create hs)
  · exact h

theorem update (h : ss.Partitioned) (hid : id < ss.size) (name : String) (value : Value) :
    (ss.update id name value).2.Partitioned := by
  unfold Scopes.update
  split
  · exact h
  · rename_i owner s' hf
    have hs := nearest_some hf
    dsimp only
    rw [set_eq_modify]
    exact h.modify (Scope.parent_of_assignHere hs) ((h.apart owner).assignHere hs)
  · -- the search has passed through the root, so that the name is in none of its tables
    rename_i hf
    have hn := Scope.assignHere_eq_none_iff.1 (nearest_none h.founded hid hf)
    dsimp only
    refine h.modify (Scope.parent_insert ..) ((h.apart _).insert fun b hb => ?_)
    rw [hn] at hb
    cases hb

theorem delete (h : ss.Partitioned) (id : ScopeId) (name : String) :
    (ss.delete id name).2.Partitioned := by
  unfold Scopes.delete
  dsimp only
  split
  · dsimp only
    exact h.modify rfl (h.apart _).eraseVar
  · exact h

end Partitioned

/-- Whatever is built by the operations on scopes is partitioned. -/
theorem Built.partitioned (h : ss.Built) : ss.Partitioned := by
  induction h with
  | none => exact ⟨fun hp => (nomatch hp), fun _ => Scope.partitioned_empty _⟩
  | root _ ih => exact ih.push (Scope.partitioned_empty _) nofun
  | child _ hp ih => exact ih.child hp
  | fork _ hid ih => exact ih.fork hid
  | create kind name value _ _ ih => exact ih.create _ kind name value
  | update name value _ hid ih => exact ih.update hid name value
  | delete name _ _ ih => exact ih.delete _ name

end Scopes

/-! ### Reachable states -/

/-- The law that the scopes are built by the operations on scopes. -/
def ScopeLaw.built : ScopeLaw fun _ => True where
  inv := Scopes.Built
  reach _ := True
  narrow _ _ := ⟨⟩
  learn _ _ := ⟨⟩
  create kind name value _ _ hid h := .create kind name value h hid
  update name value _ hid h := .update name value h hid
  delete _ _ hid h := .delete _ h hid
  child hp h := .child h hp
  fork hid h := .fork h hid
  opened _ _ := ⟨⟩

/-- **Scopes are partitioned.**  In every scope that comes about by the operations on scopes, each
name is in at most one of the tables for `var`s, `let`s and `const`s; and the scopes of every
reachable state come about in this way. -/
theorem each_name_is_declared_in_one_way :
    (∀ ss, Scopes.Built ss → ∀ id, (ss.scope id).Partitioned) ∧
      ∀ (host : Host), host.KeepsFunctions → ∀ s, Reachable host s →
        s.scopes.Built ∧ ∀ id, (s.scopes.scope id).Partitioned := by
  refine ⟨fun ss h => h.partitioned.apart, fun host hk s h => ?_⟩
  have hb := (ScopeLaw.built.reachable hk (fun _ => ⟨⟩) (.root .none) h).2
  exact ⟨hb, hb.partitioned.apart⟩

/-- A name that is assigned from below where nothing binds it, deleted, and declared again in
another way; the last declaration fails. -/
theorem redeclared_name_is_declared_once :
    let below : Scopes := (Scopes.child (Scopes.add #[] {}).2 0).2
    let assigned : Scopes := (below.update 1 "a" .null).2
    let declared : Scopes := (Scopes.create (assigned.delete 1 "a").2 0 .let "a" none).2
    let ss : Scopes := (declared.create 0 .var "a" none).2
    (∃ i s, Interpreter.build {} {} = .done i s ∧ (s.scopes.scope rootScope).Partitioned) ∧
      (assigned.scope 0).vars.contains "a" = true ∧
      (ss.scope 0).lets.contains "a" = true ∧ (ss.scope 0).Partitioned := by
  intro below assigned declared ss
  have hb : ss.Built := by
    refine .create .var "a" none (.create .let "a" none ?_ (by decide)) (by decide)
    exact .delete "a" (.update "a" .null (.child (.root .none) (by decide)) (by decide)) (by decide)
  obtain ⟨i, s, hi⟩ : ∃ i s, Interpreter.build {} {} = .done i s := ⟨_, _, rfl⟩
  have hr : Reachable Host.none s := .of_build hi
  refine ⟨⟨i, s, hi, ?_⟩, by decide, by decide, each_name_is_declared_in_one_way.1 ss hb 0⟩
  exact (each_name_is_declared_in_one_way.2 _ Host.none_keepsFunctions s hr).2 rootScope

end Estree
