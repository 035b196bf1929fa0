/-
Estree/Proofs/Hide.lean

Scopes without a name of the root.

`Scopes.without` takes one name out of the root, however it is declared there.  An operation on
scopes that does not use the name passes over it (`Scopes.PassesOver`): it does the same with and
without it, and it leaves alone what the name stands for.  A declaration also passes over it if it
declares in another scope.

So a run that never uses the name does the same in both, which is what the theorem about unmentioned
names rests on.  The three operations that write need an argument each, since they stop in a scope
that they have searched for.
-/
import Estree.Proofs.Scope

namespace Estree

/-! ### One scope -/

namespace Scope

variable {n m : String}

/-- A scope without a name. -/
def without (s : Scope) (n : String) : Scope :=
  { s with vars := s.vars.erase n, lets := s.lets.erase n, consts := s.consts.erase n }

theorem insert_without (s : Scope) (kind : VarKind) (h : m ≠ n) (v : Value) :
    (s.without n).insert kind m v = (s.insert kind m v).without n := by
  cases kind <;> simp only [without, insert, Table.erase_insert_of_ne _ h]

theorem get?_bindings_without (s : Scope) (h : m ≠ n) :
    (s.without n).bindings.get? m = s.bindings.get? m := by
  simp only [get?_bindings, without, Table.get?_erase_of_ne _ h]

theorem kindHere_without (s : Scope) (h : m ≠ n) : (s.without n).kindHere m = s.kindHere m := by
  rw [kindHere_eq, kindHere_eq, get?_bindings_without s h]

theorem valueHere_without (s : Scope) (h : m ≠ n) :
    (s.without n).valueHere m = s.valueHere m := by
  rw [valueHere_eq, valueHere_eq, get?_bindings_without s h]

/-- A declaration of another name has the same outcome in a scope that lacks `n`. -/
theorem create_without (s : Scope) (kind : VarKind) (h : m ≠ n) (value : Option Value) :
    (s.without n).create kind m value = (s.create kind m value).map (·.without n) := by
  unfold create
  rw [kindHere_without s h]
  cases s.kindHere m with
  | none => exact congrArg Except.ok (insert_without s kind h _)
  | some old =>
    dsimp only
    split
    · cases value with
      | none => rfl
      | some v => exact congrArg Except.ok (insert_without s .var h v)
    · rfl

/-- An assignment to another name has the same outcome in a scope that lacks `n`. -/
theorem assignHere_without (s : Scope) (h : m ≠ n) (v : Value) :
    (s.without n).assignHere m v = (s.assignHere m v).map (Except.map (·.without n)) := by
  unfold assignHere
  simp only [insert_without s _ h]
  simp only [without, Table.contains_erase_of_ne _ h]
  split
  · rfl
  · split
    · rfl
    · split <;> rfl

end Scope

/-! ### Scopes by place -/

namespace Scopes

variable {ss ss' : Scopes} {id i : ScopeId} {n m : String}

/-- The scopes without a name of the root. -/
def without (ss : Scopes) (n : String) : Scopes := ss.modify rootScope (·.without n)

/-- Hiding a name of the root frees no scope. -/
theorem size_without (ss : Scopes) (n : String) : (ss.without n).size = ss.size :=
  Array.size_modify

/-- The root is the one scope that changes. -/
theorem scope_without_root (ss : Scopes) (n : String) :
    (ss.without n).scope rootScope = (ss.scope rootScope).without n := by
  rw [without, scope_modify]
  split
  · rfl
  · -- without a root there is nothing to take out
    rename_i hn
    rw [scope_of_size_le (Nat.le_of_not_lt fun h => hn ⟨rfl, h⟩)]
    rfl

theorem scope_without_of_ne (ss : Scopes) (n : String) (h : id ≠ rootScope) :
    (ss.without n).scope id = ss.scope id := by
  rw [without, scope_modify, if_neg fun hi => h hi.1.symm]

/-- Parents stay, since hiding touches only the tables of the root. -/
theorem parent_without (ss : Scopes) (n : String) (id : ScopeId) :
    ((ss.without n).scope id).parent = (ss.scope id).parent := by
  by_cases h : id = rootScope
  · rw [h, scope_without_root]
    rfl
  · rw [scope_without_of_ne ss n h]

/-- What a search finds where scopes have been exchanged for others with the same parents. -/
theorem nearestWithin_map {α : Type} {f : Scope → Option α} {g : ScopeId → α → α}
    (hp : ∀ id, (ss'.scope id).parent = (ss.scope id).parent)
    (hf : ∀ id, f (ss'.scope id) = (f (ss.scope id)).map (g id)) (k : Nat) (id : ScopeId) :
    ss'.nearestWithin f k id
      = (ss.nearestWithin f k id).map fun found => (found.1, g found.1 found.2) := by
  induction k generalizing id with
  | zero => rfl
  | succ k ih =>
    rw [nearestWithin, nearestWithin, hf id, hp id]
    cases f (ss.scope id) with
    | some a => rfl
    | none =>
      cases (ss.scope id).parent with
      | some p => exact ih p
      | none => rfl

/-- Walks along equal parents end in the same scope. -/
theorem rootWithin_congr (hp : ∀ id, (ss'.scope id).parent = (ss.scope id).parent) (k : Nat)
    (id : ScopeId) : ss'.rootWithin k id = ss.rootWithin k id := by
  induction k generalizing id with
  | zero => rfl
  | succ k ih =>
    rw [rootWithin, rootWithin, hp id]
    cases (ss.scope id).parent with
    | some p => exact ih p
    | none => rfl

theorem rootOf_without (ss : Scopes) (n : String) (id : ScopeId) :
    (ss.without n).rootOf id = ss.rootOf id := by
  unfold rootOf
  rw [size_without]
  exact rootWithin_congr (parent_without ss n) _ id

/-- What is found without looking at the name is found without the name. -/
theorem nearest_without {α : Type} {f : Scope → Option α} (hf : ∀ s, f (s.without n) = f s) :
    (ss.without n).nearest f id = ss.nearest f id := by
  have h := nearestWithin_map (f := f) (g := fun _ a => a) (parent_without ss n) (fun id => ?_)
    ss.size id
  · rw [nearest, size_without, h]
    exact Option.map_id_apply'
  · by_cases h : id = rootScope
    · rw [h, scope_without_root, hf]
      exact (Option.map_id_apply').symm
    · rw [scope_without_of_ne ss n h]
      exact (Option.map_id_apply').symm

/-- Every other name is read as before, from every scope. -/
theorem lookup_without (ss : Scopes) (id : ScopeId) (h : m ≠ n) :
    (ss.without n).lookup id m = ss.lookup id m := by
  rw [lookup, lookup, nearest_without fun s => Scope.valueHere_without s h]

/-- Every other name is asked for as before, from every scope. -/
theorem query_without (ss : Scopes) (id : ScopeId) (h : m ≠ n) :
    (ss.without n).query id m = ss.query id m := by
  rw [query, query, lookup_without ss id h]

/-- A new scope is not the root, so hiding and pushing commute. -/
theorem push_without (hs : rootScope < ss.size) (s : Scope) (n : String) :
    Scopes.without (ss.push s) n = (ss.without n).push s := by
  refine Array.ext_getElem? fun id => ?_
  unfold without
  rw [Array.getElem?_modify, Array.getElem?_push, Array.getElem?_push, Array.size_modify,
    Array.getElem?_modify]
  by_cases hid : id = ss.size
  · rw [if_neg (Nat.ne_of_lt (hid ▸ hs)), if_pos hid, if_pos hid]
  · rw [if_neg hid, if_neg hid]

/-- To change a scope in a way that the name is no part of. -/
theorem modify_without (ss : Scopes) (i : ScopeId) {f : Scope → Scope}
    (hf : ∀ s, f (s.without n) = (f s).without n) :
    Scopes.without (ss.modify i f) n = (ss.without n).modify i f := by
  refine Array.ext_getElem? fun id => ?_
  unfold without
  rw [Array.getElem?_modify, Array.getElem?_modify, Array.getElem?_modify, Array.getElem?_modify]
  by_cases hr : rootScope = id
  · by_cases hi : i = id
    · rw [if_pos hr, if_pos hi, if_pos hi, if_pos hr, Option.map_map, Option.map_map]
      exact congrArg (Option.map · _) (funext fun s => (hf s).symm)
    · rw [if_pos hr, if_neg hi, if_neg hi, if_pos hr]
  · rw [if_neg hr, if_neg hr]

/-- To put another root in its place. -/
theorem set_root_without (ss : Scopes) (s : Scope) (n : String) :
    Scopes.without (ss.setIfInBounds rootScope s) n
      = (ss.without n).setIfInBounds rootScope (s.without n) := by
  refine Array.ext_getElem? fun id => ?_
  unfold without
  rw [Array.getElem?_modify, Array.getElem?_setIfInBounds, Array.getElem?_setIfInBounds,
    Array.getElem?_modify, Array.size_modify]
  by_cases hr : rootScope = id
  · simp only [if_pos hr]
    split <;> rfl
  · simp only [if_neg hr]

/-- To put another scope in the place of one that is not the root. -/
theorem set_without_of_ne (ss : Scopes) (s : Scope) (n : String) (hi : i ≠ rootScope) :
    Scopes.without (ss.setIfInBounds i s) n = (ss.without n).setIfInBounds i s := by
  refine Array.ext_getElem? fun id => ?_
  unfold without
  rw [Array.getElem?_modify, Array.getElem?_setIfInBounds, Array.getElem?_setIfInBounds,
    Array.getElem?_modify, Array.size_modify]
  by_cases hid : i = id
  · rw [if_neg fun hr => hi (hid.trans hr.symm), if_pos hid, if_pos hid]
  · rw [if_neg hid, if_neg hid]

/-- What a name stands for in the root. -/
def rootBinding (ss : Scopes) (n : String) : Option Binding :=
  (ss.scope rootScope).bindings.get? n

/-- A change that keeps `n` in the root keeps what the root says about `n`. -/
theorem rootBinding_modify {f : Scope → Scope}
    (hf : i = rootScope → (f (ss.scope i)).bindings.get? n = (ss.scope i).bindings.get? n) :
    rootBinding (ss.modify i f) n = ss.rootBinding n := by
  unfold rootBinding
  rw [scope_modify]
  split
  · rename_i h
    obtain ⟨rfl, -⟩ := h
    exact hf rfl
  · rfl

/-! ### Operations that pass over the name -/

/-- An operation does the same without the name, and leaves the name alone. -/
structure PassesOver {ρ : Type} (n : String) (op : Scopes → ρ × Scopes) : Prop where
  without : ∀ ss, op (ss.without n) = ((op ss).1, (op ss).2.without n)
  binding : ∀ ss, (op ss).2.rootBinding n = ss.rootBinding n
  size : ∀ ss, (op ss).2.size = ss.size

/-- Declarations outside the root, and those of other names, neither see nor change the binding. -/
theorem passesOver_create (kind : VarKind) (value : Option Value) (h : id ≠ rootScope ∨ m ≠ n) :
    PassesOver n fun ss => ss.create id kind m value where
  without ss := by
    unfold create
    by_cases hid : id = rootScope
    -- in the root the names differ, so the declaration commutes with the erasure
    · subst hid
      have hm := h.resolve_left (not_not_intro rfl)
      rw [scope_without_root, Scope.create_without _ kind hm]
      cases (ss.scope rootScope).create kind m value with
      | error e => rfl
      | ok s =>
        dsimp only [Except.map]
        rw [set_root_without]
    · rw [scope_without_of_ne ss n hid]
      cases (ss.scope id).create kind m value with
      | error e => rfl
      | ok s =>
        dsimp only
        rw [set_without_of_ne ss s n hid]
  binding ss := by
    unfold create
    split
    · rename_i s hs
      dsimp only
      rw [set_eq_modify]
      refine rootBinding_modify fun hid => ?_
      have hm := Ne.symm (h.resolve_left (not_not_intro hid))
      obtain rfl | ⟨-, rfl⟩ | ⟨_, _, -, -, rfl⟩ := Scope.create_cases hs
      · rfl
      · exact Scope.get?_bindings_insert_of_ne _ _ _ hm
      · exact Scope.get?_bindings_insert_of_ne _ _ _ hm
    · rfl
  size ss := (sameChains_create ss id kind m value).size

/-- An assignment finds the same scope without the name. -/
theorem nearest_assignHere_without (ss : Scopes) (id : ScopeId) (h : m ≠ n) (v : Value) :
    (ss.without n).nearest (fun s => s.assignHere m v) id
      = (ss.nearest (fun s => s.assignHere m v) id).map fun found =>
          (found.1, if found.1 = rootScope then found.2.map (·.without n) else found.2) := by
  rw [nearest, size_without]
  refine nearestWithin_map
    (g := fun i (r : Except ScopeError Scope) =>
      if i = rootScope then r.map (·.without n) else r)
    (parent_without ss n) (fun id => ?_) ss.size id
  by_cases hid : id = rootScope
  · simp only [if_pos hid]
    rw [hid, scope_without_root]
    exact Scope.assignHere_without _ h v
  · simp only [if_neg hid]
    rw [scope_without_of_ne ss n hid]
    exact Option.map_id_apply'.symm

/-- An assignment to another name neither sees nor changes the binding. -/
theorem passesOver_update (id : ScopeId) (h : m ≠ n) (v : Value) :
    PassesOver n fun ss => ss.update id m v where
  without ss := by
    unfold update
    rw [nearest_assignHere_without ss id h v, rootOf_without]
    rcases ss.nearest (fun s => s.assignHere m v) id with _ | ⟨owner, e | s⟩
    -- a name that is not found is made a variable of the root
    · dsimp only [Option.map]
      rw [modify_without ss _ fun s => Scope.insert_without s .var h v]
    · dsimp only [Option.map]
      by_cases ho : owner = rootScope
      · rw [if_pos ho]
        rfl
      · rw [if_neg ho]
    · dsimp only [Option.map]
      by_cases ho : owner = rootScope
      · subst ho
        rw [if_pos rfl]
        dsimp only [Except.map]
        rw [set_root_without]
      · rw [if_neg ho]
        dsimp only
        rw [set_without_of_ne ss s n ho]
  binding ss := by
    unfold update
    split
    · rfl
    · rename_i owner s hf
      obtain ⟨old, -, -, rfl⟩ := Scope.assignHere_ok (nearest_some hf)
      dsimp only
      rw [set_eq_modify]
      exact rootBinding_modify fun _ => Scope.get?_bindings_insert_of_ne _ _ _ (Ne.symm h)
    · exact rootBinding_modify fun _ => Scope.get?_bindings_insert_of_ne _ _ _ (Ne.symm h)
  size ss := (sameChains_update ss id m v).size

/-- A deletion of another name neither sees nor changes the binding. -/
theorem passesOver_delete (id : ScopeId) (h : m ≠ n) :
    PassesOver n fun ss => ss.delete id m where
  without ss := by
    -- whether another name is bound can be seen with `n` hidden
    have tables : ∀ i, ((ss.without n).scope i).vars.contains m = (ss.scope i).vars.contains m ∧
        ((ss.without n).scope i).lets.contains m = (ss.scope i).lets.contains m ∧
        ((ss.without n).scope i).consts.contains m = (ss.scope i).consts.contains m := by
      intro i
      by_cases hi : i = rootScope
      · rw [hi, scope_without_root]
        exact ⟨Table.contains_erase_of_ne _ h, Table.contains_erase_of_ne _ h,
          Table.contains_erase_of_ne _ h⟩
      · rw [scope_without_of_ne ss n hi]
        exact ⟨rfl, rfl, rfl⟩
    unfold delete
    dsimp only
    rw [rootOf_without, (tables _).1, (tables _).2.1, (tables _).2.2]
    split
    · rw [modify_without ss _ fun s => ?_]
      simp only [Scope.without, Table.erase_comm _ n m]
    · rfl
  binding ss := by
    unfold delete
    dsimp only
    split
    · exact rootBinding_modify fun _ => Scope.get?_bindings_eraseVar (Ne.symm h)
    · rfl
  size ss := (sameChains_delete ss id m).size

end Scopes

end Estree
