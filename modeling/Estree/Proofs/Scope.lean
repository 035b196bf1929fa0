/-
Estree/Proofs/Scope.lean

The bindings of a scope, and chains of scopes.

A scope keeps its names in three tables.  Its `Scope.bindings` are one table from names to kind
and value: what a name is found to stand for.  What the operations on a scope do is said in these
terms (`Scope.get?_bindings_insert` and the lemmas after it).

Where every parent stands in front of its scopes (`Scopes.Founded`), a chain ends before the search
along it does, so that what is not found along a chain is not in its root (`Scopes.nearest_none`).
In the scopes of an interpreter every scope but the first has a parent (`Scopes.Rooted`), and all
chains lead to the first scope (`Scopes.rootOf_eq`).
-/
import Estree.Interpreter
import Estree.Proofs.Table

namespace Estree

/-- A change of one place of an array, seen at a place that need not be there. -/
theorem getD_modify {α : Type} (xs : Array α) (f : α → α) (i j : Nat) (a : α) :
    (xs.modify i f).getD j a = if i = j ∧ j < xs.size then f (xs.getD j a) else xs.getD j a := by
  rw [Array.getD_eq_getD_getElem?, Array.getElem?_modify, Array.getD_eq_getD_getElem?]
  by_cases hi : i = j
  · by_cases h : j < xs.size <;> simp [hi, h]
  · simp [hi]

/-! ### One scope -/

/-- What a name stands for in a scope. -/
structure Binding where
  kind : VarKind
  value : Value

namespace Scope

/-- The names that are declared in one way. -/
def table (s : Scope) : VarKind → Table Value
  | .var => s.vars
  | .let => s.lets
  | .const => s.consts

/-- The bindings of a scope: of a name that is in two tables, the one that is searched first
stays. -/
def bindings (s : Scope) : Table Binding :=
  ((s.consts.map (Binding.mk .const)).insertAll (s.lets.map (Binding.mk .let)).entries).insertAll
    (s.vars.map (Binding.mk .var)).entries

/-- What a name stands for: the first of its values among the three tables. -/
theorem get?_bindings (s : Scope) (name : String) :
    s.bindings.get? name
      = ((s.vars.get? name).map (Binding.mk .var)).or
          (((s.lets.get? name).map (Binding.mk .let)).or
            ((s.consts.get? name).map (Binding.mk .const))) := by
  rw [bindings, Table.get?_insertAll_table, Table.get?_insertAll_table, Table.get?_map,
    Table.get?_map, Table.get?_map]

variable {s s' : Scope} {kind : VarKind} {name other : String} {value : Option Value} {v : Value}

theorem kindHere_eq (s : Scope) (name : String) :
    s.kindHere name = (s.bindings.get? name).map Binding.kind := by
  rw [get?_bindings]
  unfold kindHere Table.contains
  cases s.vars.get? name <;> cases s.lets.get? name <;> cases s.consts.get? name <;> rfl

theorem valueHere_eq (s : Scope) (name : String) :
    s.valueHere name = (s.bindings.get? name).map Binding.value := by
  rw [get?_bindings]
  unfold valueHere
  cases s.vars.get? name <;> cases s.lets.get? name <;> cases s.consts.get? name <;> rfl

@[simp] theorem parent_insert (s : Scope) (kind : VarKind) (name : String) (v : Value) :
    (s.insert kind name v).parent = s.parent := by
  cases kind <;> rfl

/-- To bind a name does nothing to other names. -/
theorem get?_bindings_insert_of_ne (s : Scope) (kind : VarKind) (v : Value) (h : other ≠ name) :
    (s.insert kind name v).bindings.get? other = s.bindings.get? other := by
  rw [get?_bindings, get?_bindings]
  cases kind <;> simp only [insert, Table.get?_insert, if_neg h]

/-- To bind a name that is unbound, or is bound in the same way. -/
theorem get?_bindings_insert (h : ∀ b, s.bindings.get? name = some b → b.kind = kind) :
    (s.insert kind name v).bindings.get? other
      = if other = name then some ⟨kind, v⟩ else s.bindings.get? other := by
  by_cases ho : other = name
  · subst ho
    rw [if_pos rfl]
    rw [get?_bindings] at h ⊢
    -- no table in front of the one that is written to has the name
    cases kind <;> cases hv : s.vars.get? other <;> cases hl : s.lets.get? other <;>
      simp_all [insert, Table.get?_insert]
  · rw [if_neg ho, get?_bindings_insert_of_ne s kind v ho]

/-- A name among the `var`s stands for a `var`. -/
theorem kind_of_contains_vars {b : Binding} (hv : s.vars.contains name = true)
    (hb : s.bindings.get? name = some b) : b.kind = .var := by
  obtain ⟨v, hv⟩ := Option.isSome_iff_exists.1 hv
  rw [get?_bindings, hv] at hb
  cases hb
  rfl

/-- To take a name away from the `var`s does nothing to other names. -/
theorem get?_bindings_eraseVar (h : other ≠ name) :
    (Scope.bindings { s with vars := s.vars.erase name }).get? other = s.bindings.get? other := by
  rw [get?_bindings, get?_bindings]
  dsimp only
  rw [Table.get?_erase_of_ne _ h]

/-- A declaration fails, leaves the scope alone, or binds a name that is unbound or a `var`. -/
theorem create_cases (h : s.create kind name value = .ok s') :
    s' = s ∨ (s.bindings.get? name = none ∧ s' = s.insert kind name (value.getD .undefined)) ∨
      ∃ b v, s.bindings.get? name = some b ∧ b.kind = .var ∧ s' = s.insert .var name v := by
  unfold create at h
  rw [kindHere_eq] at h
  cases hb : s.bindings.get? name with
  | none =>
    rw [hb] at h
    exact .inr (.inl ⟨rfl, (Except.ok.inj h).symm⟩)
  | some b =>
    rw [hb] at h
    dsimp only [Option.map_some] at h
    split at h
    · cases value with
      | none => exact .inl (Except.ok.inj h).symm
      | some v =>
        exact .inr (.inr ⟨b, v, rfl, (‹kind = .var ∧ b.kind = .var›).2, (Except.ok.inj h).symm⟩)
    · cases h

/-- A `var` with a value can be declared unless its name is bound in another way. -/
theorem create_var_ok_iff :
    s.create .var name (some v) = .ok s' ↔
      (∀ b, s.bindings.get? name = some b → b.kind = .var) ∧ s' = s.insert .var name v := by
  unfold create
  rw [kindHere_eq]
  cases hb : s.bindings.get? name with
  | none => exact ⟨fun h => ⟨nofun, (Except.ok.inj h).symm⟩, fun h => congrArg _ h.2.symm⟩
  | some b =>
    obtain ⟨kind, w⟩ := b
    cases kind with
    | var =>
      refine ⟨fun h => ⟨?_, (Except.ok.inj h).symm⟩, fun h => congrArg _ h.2.symm⟩
      rintro _ ⟨⟩
      rfl
    | «let» | const => exact ⟨nofun, fun h => nomatch h.1 _ rfl⟩

/-- An assignment passes over a scope that does not bind the name. -/
theorem assignHere_eq_none_iff : s.assignHere name v = none ↔ s.bindings.get? name = none := by
  rw [get?_bindings]
  unfold assignHere Table.contains
  cases s.vars.get? name <;> cases s.lets.get? name <;> cases s.consts.get? name <;> simp

/-- In a scope that binds the name as something else than a constant, it replaces the value. -/
theorem assignHere_ok (h : s.assignHere name v = some (.ok s')) :
    ∃ b, s.bindings.get? name = some b ∧ b.kind ≠ .const ∧ s' = s.insert b.kind name v := by
  rw [get?_bindings]
  unfold assignHere Table.contains at h
  split at h
  · cases h
  · -- the order in which the other two tables are searched is that of the bindings
    cases hv : s.vars.get? name with
    | some w =>
      rw [hv] at h
      cases h
      exact ⟨⟨.var, w⟩, rfl, nofun, rfl⟩
    | none =>
      rw [hv] at h
      cases hl : s.lets.get? name with
      | some w =>
        rw [hl] at h
        cases h
        exact ⟨⟨.let, w⟩, rfl, nofun, rfl⟩
      | none =>
        rw [hl] at h
        cases h

theorem parent_of_create (h : s.create kind name value = .ok s') : s'.parent = s.parent := by
  obtain rfl | ⟨-, rfl⟩ | ⟨_, _, -, -, rfl⟩ := create_cases h
  · rfl
  · exact parent_insert ..
  · exact parent_insert ..

theorem parent_of_assignHere (h : s.assignHere name v = some (.ok s')) :
    s'.parent = s.parent := by
  obtain ⟨_, -, -, rfl⟩ := assignHere_ok h
  exact parent_insert ..

end Scope

/-! ### Scopes by place -/

namespace Scopes

variable {ss : Scopes} {id i : ScopeId} {name : String}

theorem scope_push (ss : Scopes) (s : Scope) (id : ScopeId) :
    scope (ss.push s) id = if id = ss.size then s else ss.scope id := by
  unfold scope
  rw [Array.getD_eq_getD_getElem?, Array.getElem?_push, Array.getD_eq_getD_getElem?]
  split <;> rfl

theorem scope_modify (ss : Scopes) (f : Scope → Scope) (i id : ScopeId) :
    scope (ss.modify i f) id
      = if i = id ∧ id < ss.size then f (ss.scope id) else ss.scope id :=
  getD_modify ss f i id {}

/-- Where there is no scope, there is nothing in it. -/
theorem scope_of_size_le (h : ss.size ≤ id) : ss.scope id = {} := by
  unfold scope
  rw [Array.getD_eq_getD_getElem?, Array.getElem?_eq_none h, Option.getD_none]

/-- To put a scope in the place of another is to change that one. -/
theorem set_eq_modify (ss : Scopes) (s : Scope) (i : ScopeId) :
    ss.setIfInBounds i s = ss.modify i fun _ => s := by
  refine Array.ext_getElem? fun id => ?_
  rw [Array.getElem?_setIfInBounds, Array.getElem?_modify]
  by_cases hi : i = id
  · by_cases h : id < ss.size <;> simp [hi, h]
  · simp [hi]

/-- A declaration in the scope that was made last. -/
theorem create_push (ss : Scopes) {s s' : Scope} {kind : VarKind} {value : Option Value}
    (h : s.create kind name value = .ok s') :
    create (ss.push s) ss.size kind name value = (.ok (), ss.push s') := by
  have hs : scope (ss.push s) ss.size = s := by
    rw [scope_push, if_pos rfl]
  have hset : Array.setIfInBounds (ss.push s) ss.size s' = ss.push s' := by
    rw [Array.setIfInBounds, dif_pos (by simp), Array.set_push, dif_neg (Nat.lt_irrefl _)]
  unfold create
  rw [hs, h]
  exact congrArg (Prod.mk _) hset

/-- A scope with a binding exists. -/
theorem lt_size_of_bound {b : Binding} (h : (ss.scope id).bindings.get? name = some b) :
    id < ss.size := by
  refine Classical.byContradiction fun hn => ?_
  rw [scope_of_size_le (Nat.le_of_not_lt hn)] at h
  cases h

/-- What is found along a chain is found in some scope. -/
theorem nearest_some {α : Type} {f : Scope → Option α} {owner : ScopeId} {a : α}
    (h : ss.nearest f id = some (owner, a)) : f (ss.scope owner) = some a := by
  unfold nearest at h
  generalize ss.size = n at h
  induction n generalizing id with
  | zero => cases h
  | succ n ih =>
    rw [nearestWithin] at h
    split at h
    · cases h
      assumption
    · split at h
      · exact ih h
      · cases h

/-! ### Chains -/

/-- Every parent stands in front of its scopes. -/
def Founded (ss : Scopes) : Prop := ∀ {id p}, (ss.scope id).parent = some p → p < id

/-- A walk that finds nothing has also looked into the root. -/
theorem nearestWithin_none {α : Type} {f : Scope → Option α} (h : ss.Founded) {n m : Nat}
    (hn : id < n) (hm : id ≤ m) (hf : ss.nearestWithin f n id = none) :
    f (ss.scope (ss.rootWithin m id)) = none := by
  induction n generalizing id m with
  | zero => exact absurd hn (Nat.not_lt_zero id)
  | succ n ih =>
    rw [nearestWithin] at hf
    split at hf
    · cases hf
    · rename_i hnone
      cases hp : (ss.scope id).parent with
      | none =>
        -- the chain ends here
        cases m with
        | zero => exact hnone
        | succ m => rwa [rootWithin, hp]
      | some p =>
        -- the parent stands in front, so that a step less is enough for it
        have hlt : p < id := h hp
        simp only [hp] at hf
        have hpm : p < m := Nat.lt_of_lt_of_le hlt hm
        obtain ⟨m, rfl⟩ := Nat.exists_eq_add_one.2 (Nat.zero_lt_of_lt hpm)
        rw [rootWithin, hp]
        exact ih (Nat.lt_of_lt_of_le hlt (Nat.le_of_lt_succ hn)) (Nat.le_of_lt_succ hpm) hf

/-- What is not found along a chain is not in its root. -/
theorem nearest_none {α : Type} {f : Scope → Option α} (h : ss.Founded) (hid : id < ss.size)
    (hf : ss.nearest f id = none) : f (ss.scope (ss.rootOf id)) = none :=
  nearestWithin_none h hid (Nat.le_of_lt hid) hf

/-- Every scope but the first has a parent in front of it. -/
structure Rooted (ss : Scopes) : Prop where
  nonempty : rootScope < ss.size
  root : (ss.scope rootScope).parent = none
  chain : ∀ id < ss.size, id ≠ rootScope → ∃ p < id, (ss.scope id).parent = some p

theorem Rooted.founded (h : ss.Rooted) : ss.Founded := by
  intro id p hp
  by_cases hid : id < ss.size
  · have h0 : id ≠ rootScope := by
      rintro rfl
      rw [h.root] at hp
      cases hp
    obtain ⟨q, hq, he⟩ := h.chain id hid h0
    rw [he] at hp
    cases hp
    exact hq
  · -- there is no such scope
    rw [scope_of_size_le (Nat.le_of_not_lt hid)] at hp
    cases hp

/-- With enough steps every walk ends in the root scope. -/
theorem rootWithin_eq (h : ss.Rooted) (n : Nat) (hid : id < ss.size) (hn : id ≤ n) :
    ss.rootWithin n id = rootScope := by
  induction n generalizing id with
  | zero => exact Nat.le_zero.1 hn
  | succ n ih =>
    rw [rootWithin]
    by_cases h0 : id = rootScope
    · rw [h0, h.root]
    · -- the parent stands in front, so that a step less is enough for it
      obtain ⟨p, hp, he⟩ := h.chain id hid h0
      rw [he]
      exact ih (Nat.lt_trans hp hid) (Nat.le_of_lt_succ (Nat.lt_of_lt_of_le hp hn))

/-- All chains lead to the first scope. -/
theorem rootOf_eq (h : ss.Rooted) (hid : id < ss.size) : ss.rootOf id = rootScope :=
  rootWithin_eq h _ hid (Nat.le_of_lt hid)

/-! ### Changes in place -/

/-- As many scopes as before, each with the parent that it had. -/
structure SameChains (ss ss' : Scopes) : Prop where
  size : ss'.size = ss.size
  parent : ∀ id, (ss'.scope id).parent = (ss.scope id).parent

theorem SameChains.refl (ss : Scopes) : SameChains ss ss := ⟨rfl, fun _ => rfl⟩

theorem SameChains.modify {f : Scope → Scope}
    (hf : (f (ss.scope i)).parent = (ss.scope i).parent) : SameChains ss (ss.modify i f) where
  size := Array.size_modify
  parent id := by
    rw [scope_modify]
    split
    · obtain ⟨rfl, -⟩ := ‹_›
      exact hf
    · rfl

/-- A declaration moves no scope. -/
theorem sameChains_create (ss : Scopes) (id : ScopeId) (kind : VarKind) (name : String)
    (value : Option Value) : SameChains ss (ss.create id kind name value).2 := by
  unfold create
  split
  · rename_i s' hs
    dsimp only
    rw [set_eq_modify]
    exact .modify (Scope.parent_of_create hs)
  · exact .refl ss

/-- An assignment moves no scope. -/
theorem sameChains_update (ss : Scopes) (id : ScopeId) (name : String) (value : Value) :
    SameChains ss (ss.update id name value).2 := by
  unfold update
  split
  · exact .refl ss
  · rename_i owner s' hf
    dsimp only
    rw [set_eq_modify]
    exact .modify (Scope.parent_of_assignHere (nearest_some hf))
  · dsimp only
    exact .modify (Scope.parent_insert ..)

/-- A deletion moves no scope. -/
theorem sameChains_delete (ss : Scopes) (id : ScopeId) (name : String) :
    SameChains ss (ss.delete id name).2 := by
  unfold delete
  dsimp only
  split
  · dsimp only
    exact .modify rfl
  · exact .refl ss

/-- The chains keep their shape if the parents stay. -/
theorem Rooted.rewrite (hr : ss.Rooted) {ss' : Scopes} (h : SameChains ss ss') : ss'.Rooted where
  nonempty := h.size ▸ hr.nonempty
  root := (h.parent rootScope).trans hr.root
  chain id hid h0 := by
    rw [h.size] at hid
    rw [h.parent id]
    exact hr.chain id hid h0

/-- A new scope below one that exists keeps the shape of the chains. -/
theorem Rooted.push {s : Scope} {p : ScopeId} (hr : ss.Rooted) (hs : s.parent = some p)
    (hp : p < ss.size) : Scopes.Rooted (ss.push s) where
  nonempty := by
    rw [Array.size_push]
    exact Nat.succ_pos _
  root := by
    rw [scope_push, if_neg (Nat.ne_of_lt hr.nonempty)]
    exact hr.root
  chain id hid h0 := by
    rw [Array.size_push] at hid
    rw [scope_push]
    split
    · subst id
      exact ⟨p, hp, hs⟩
    · exact hr.chain id (Nat.lt_of_le_of_ne (Nat.le_of_lt_succ hid) ‹_›) h0

end Scopes

end Estree
