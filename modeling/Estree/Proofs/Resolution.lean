/-
Estree/Proofs/Resolution.lean

What a name stands for, and what an assignment to it changes.

A name is looked up, is asked for its kind and is assigned to by searches that test each scope in
ways of their own, and the assignment goes through the tables of a scope in another order than the
others.  They all stop at the same scope, which is the one that the name belongs to
(`Scopes.Belongs`): the nearest that binds it, or else the root.  What they make of it agrees
because no name is in two of the tables (`Scope.Partitioned.assignHere_eq`).

An assignment therefore writes to one cell (`Scopes.Writes`), and names belong to the same scopes
after it (`Scopes.Belongs.put`).  From these two facts follows what is found afterwards.
-/
import Estree.Proofs.Partition
import Estree.Proofs.Walk

namespace Estree

/-! ### One scope -/

namespace Scope

variable {s : Scope} {name : String} {v : Value} {b : Binding}

theorem get?_table_insert (s : Scope) (kind kind' : VarKind) (name other : String) (v : Value) :
    ((s.insert kind name v).table kind').get? other
      = if kind' = kind ∧ other = name then some v else (s.table kind').get? other := by
  cases kind <;> cases kind' <;> simp [insert, table, Table.get?_insert]

/-- What a name stands for is in the table of its kind. -/
theorem get?_table_of_binding (hb : s.bindings.get? name = some b) :
    (s.table b.kind).get? name = some b.value := by
  rw [get?_bindings] at hb
  simp only [Option.or_eq_some_iff, Option.map_eq_some_iff] at hb
  obtain ⟨w, hw, rfl⟩ | ⟨-, ⟨w, hw, rfl⟩ | ⟨-, w, hw, rfl⟩⟩ := hb
  · exact hw
  · exact hw
  · exact hw

/-- A name that is in one table only. -/
theorem get?_bindings_of_table {kind : VarKind} (hv : (s.table kind).get? name = some v)
    (hn : ∀ other ≠ kind, (s.table other).get? name = none) :
    s.bindings.get? name = some ⟨kind, v⟩ := by
  rw [get?_bindings]
  have hvar := hn .var
  have hlet := hn .let
  cases kind with
  | var => rw [show s.vars.get? name = _ from hv, Option.map_some, Option.some_or]
  | «let» =>
    rw [show s.vars.get? name = _ from hvar nofun, show s.lets.get? name = _ from hv,
      Option.map_none, Option.map_some, Option.none_or, Option.some_or]
  | const =>
    rw [show s.vars.get? name = _ from hvar nofun, show s.lets.get? name = _ from hlet nofun,
      show s.consts.get? name = _ from hv]
    rfl

/-- In a scope without double declarations, a name is in the table of its kind and in no other. -/
theorem Partitioned.get?_table (h : s.Partitioned) (hb : s.bindings.get? name = some b)
    (kind : VarKind) :
    (s.table kind).get? name = if kind = b.kind then some b.value else none := by
  have own := get?_table_of_binding hb
  by_cases hk : kind = b.kind
  · rw [if_pos hk, hk, own]
  · rw [if_neg hk]
    refine Option.eq_none_iff_forall_ne_some.2 fun w hw => hk ?_
    exact h name kind b.kind (Option.isSome_iff_exists.2 ⟨w, hw⟩)
      (Option.isSome_iff_exists.2 ⟨b.value, own⟩)

/-- A name that the scope does not bind is in none of its tables. -/
theorem get?_table_of_unbound (hn : s.bindings.get? name = none) (kind : VarKind) :
    (s.table kind).get? name = none := by
  refine Option.eq_none_iff_forall_ne_some.2 fun w hw => ?_
  obtain ⟨b, hb, -⟩ := bound_of_contains (Option.isSome_iff_exists.2 ⟨w, hw⟩)
  exact nomatch hn.symm.trans hb

/-- In a scope without double declarations it makes no difference that an assignment looks for
constants first. -/
theorem Partitioned.assignHere_eq (h : s.Partitioned) (name : String) (v : Value) :
    s.assignHere name v = (s.bindings.get? name).map fun b =>
      if b.kind = .const then .error (.constant name) else .ok (s.insert b.kind name v) := by
  unfold Scope.assignHere Table.contains
  cases hb : s.bindings.get? name with
  | none =>
    have hn := get?_table_of_unbound hb
    simp [show s.vars.get? name = none from hn .var, show s.lets.get? name = none from hn .let,
      show s.consts.get? name = none from hn .const]
  | some b =>
    obtain ⟨kind, w⟩ := b
    have hv : s.vars.get? name = _ := h.get?_table hb .var
    have hl : s.lets.get? name = _ := h.get?_table hb .let
    have hc : s.consts.get? name = _ := h.get?_table hb .const
    rw [hv, hl, hc]
    cases kind <;> rfl

end Scope

/-! ### Cells -/

/-- A place for a value: a name in one of the tables of a scope. -/
structure Cell where
  scope : ScopeId
  kind : VarKind
  name : String

namespace Scopes

/-- What a cell holds. -/
def content (ss : Scopes) (c : Cell) : Option Value := ((ss.scope c.scope).table c.kind).get? c.name

/-- The second scopes are the first with a value written to one cell. -/
structure Writes (ss ss' : Scopes) (c : Cell) (v : Value) : Prop where
  chains : SameChains ss ss'
  written : ss'.content c = some v
  others : ∀ c', c' ≠ c → ss'.content c' = ss.content c'

variable {ss ss' : Scopes} {id i owner : ScopeId} {kind : VarKind} {name other : String}
variable {c : Cell} {v : Value}

theorem writes_modify {f : Scope → Scope} (hi : i < ss.size)
    (hf : f (ss.scope i) = (ss.scope i).insert kind name v) :
    Writes ss (ss.modify i f) ⟨i, kind, name⟩ v where
  chains := .modify (by rw [hf, Scope.parent_insert])
  written := by
    unfold content
    rw [scope_modify, if_pos ⟨rfl, hi⟩, hf, Scope.get?_table_insert, if_pos ⟨rfl, rfl⟩]
  others := by
    rintro ⟨j, kind', other⟩ hc
    unfold content
    rw [scope_modify]
    split
    · obtain ⟨rfl, -⟩ := ‹_›
      rw [hf, Scope.get?_table_insert, if_neg]
      rintro ⟨rfl, rfl⟩
      exact hc rfl
    · rfl

namespace Writes

/-- Nothing is written to another scope, or for another name. -/
theorem get?_bindings_of_ne (h : ss.Writes ss' c v) (hc : i ≠ c.scope ∨ other ≠ c.name) :
    (ss'.scope i).bindings.get? other = (ss.scope i).bindings.get? other := by
  have same (kind : VarKind) :
      ((ss'.scope i).table kind).get? other = ((ss.scope i).table kind).get? other :=
    h.others ⟨i, kind, other⟩ fun he => hc.elim (fun hi => hi (congrArg Cell.scope he))
      fun hn => hn (congrArg Cell.name he)
  rw [Scope.get?_bindings, Scope.get?_bindings]
  exact congr (congrArg _ (congrArg _ (same .var)))
    (congr (congrArg _ (congrArg _ (same .let))) (congrArg _ (same .const)))

/-- The scope binds the name to what is written, if no other of its tables has the name. -/
theorem get?_bindings (h : ss.Writes ss' c v)
    (hc : ∀ kind ≠ c.kind, ss.content ⟨c.scope, kind, c.name⟩ = none) :
    (ss'.scope c.scope).bindings.get? c.name = some ⟨c.kind, v⟩ := by
  have rest (kind : VarKind) (hk : kind ≠ c.kind) :
      ((ss'.scope c.scope).table kind).get? c.name = none :=
    (h.others ⟨c.scope, kind, c.name⟩ fun he => hk (congrArg Cell.kind he)).trans (hc kind hk)
  exact Scope.get?_bindings_of_table h.written rest

/-- Other names are found where they were. -/
theorem lookup_of_ne (h : ss.Writes ss' c v) (hn : other ≠ c.name) (i : ScopeId) :
    ss'.lookup i other = ss.lookup i other := by
  have same (i : ScopeId) : (ss'.scope i).valueHere other = (ss.scope i).valueHere other := by
    rw [Scope.valueHere_eq, Scope.valueHere_eq, h.get?_bindings_of_ne (.inr hn)]
  exact congrArg (Option.map Prod.snd)
    (nearest_congr (f := fun s => s.valueHere other) h.chains same i)

end Writes

/-! ### What a name belongs to -/

/-- The scope that a name belongs to, seen from a scope: the nearest of the chain that binds it, or
the root if none does. -/
def Belongs (ss : Scopes) (name : String) (id owner : ScopeId) : Prop :=
  ss.Stops (fun s => s.bindings.get? name) id owner

namespace Belongs

theorem nearest_eq {α : Type} {f : Scope → Option α} (h : ss.Belongs name id owner)
    (hs : ss.Founded) (hid : id < ss.size)
    (hf : ∀ i, f (ss.scope i) = none ↔ (ss.scope i).bindings.get? name = none) :
    ss.nearest f id = (f (ss.scope owner)).map (owner, ·) :=
  hs.nearest_eq hid (h.transfer hf fun _ => rfl)

theorem lookup_eq (h : ss.Belongs name id owner) (hs : ss.Founded) (hid : id < ss.size) :
    ss.lookup id name = ((ss.scope owner).bindings.get? name).map Binding.value := by
  have hf (i : ScopeId) :
      (ss.scope i).valueHere name = none ↔ (ss.scope i).bindings.get? name = none := by
    rw [Scope.valueHere_eq, Option.map_eq_none_iff]
  rw [lookup, h.nearest_eq (f := fun s => s.valueHere name) hs hid hf, Scope.valueHere_eq,
    Option.map_map, Option.map_map]
  rfl

theorem kindOf_eq (h : ss.Belongs name id owner) (hs : ss.Founded) (hid : id < ss.size) :
    ss.kindOf id name = ((ss.scope owner).bindings.get? name).map Binding.kind := by
  have hf (i : ScopeId) :
      (ss.scope i).kindHere name = none ↔ (ss.scope i).bindings.get? name = none := by
    rw [Scope.kindHere_eq, Option.map_eq_none_iff]
  rw [kindOf, h.nearest_eq (f := fun s => s.kindHere name) hs hid hf, Scope.kindHere_eq,
    Option.map_map, Option.map_map]
  rfl

/-- A name that no scope of the chain binds belongs to the root. -/
theorem rootOf_eq (h : ss.Belongs name id owner) (hs : ss.Founded) (hid : id < ss.size)
    (hn : (ss.scope owner).bindings.get? name = none) : ss.rootOf id = owner :=
  hs.rootOf_eq hid h hn

theorem lt_size (h : ss.Belongs name id owner) (hs : ss.Founded) (hid : id < ss.size) :
    owner < ss.size := by
  obtain rfl | ⟨p, hp, hr⟩ := h.reaches.cases_head
  · exact hid
  · refine Nat.lt_trans (hs.lt_of_above ?_) hid
    exact .head' hp hr

/-- An assignment makes what it does of what the scope that the name belongs to binds it to. -/
theorem nearest_assignHere (h : ss.Belongs name id owner) (hs : ss.Partitioned) (hid : id < ss.size)
    (v : Value) :
    ss.nearest (fun s => s.assignHere name v) id
      = ((ss.scope owner).bindings.get? name).map fun b => (owner,
          if b.kind = .const then .error (.constant name)
          else .ok ((ss.scope owner).insert b.kind name v)) := by
  rw [h.nearest_eq (f := fun s => s.assignHere name v) hs.founded hid
    fun _ => Scope.assignHere_eq_none_iff, (hs.apart owner).assignHere_eq, Option.map_map]
  rfl

/-- A constant is not assigned to. -/
theorem update_constant (h : ss.Belongs name id owner) (hs : ss.Partitioned) (hid : id < ss.size)
    (v : Value) (hk : ss.kindOf id name = some .const) :
    ss.update id name v = (.error (.constant name), ss) := by
  rw [h.kindOf_eq hs.founded hid] at hk
  obtain ⟨b, hb, hk⟩ := Option.map_eq_some_iff.1 hk
  rw [update, h.nearest_assignHere hs hid, hb, Option.map_some, if_pos hk]

/-- Anything else is assigned to in the scope that the name belongs to, as what it is there or else
as a new `var`. -/
theorem update_writes (h : ss.Belongs name id owner) (hs : ss.Partitioned) (hid : id < ss.size)
    (v : Value) (hk : ss.kindOf id name ≠ some .const) :
    (ss.update id name v).1 = .ok () ∧
      ss.Writes (ss.update id name v).2 ⟨owner, (ss.kindOf id name).getD .var, name⟩ v := by
  have ho := h.lt_size hs.founded hid
  rw [h.kindOf_eq hs.founded hid] at hk ⊢
  rw [update, h.nearest_assignHere hs hid]
  cases hb : (ss.scope owner).bindings.get? name with
  | none =>
    rw [h.rootOf_eq hs.founded hid hb, Option.map_none]
    exact ⟨rfl, writes_modify (f := fun s => s.insert .var name v) ho rfl⟩
  | some b =>
    rw [hb] at hk
    rw [Option.map_some, if_neg fun he => hk (congrArg some he)]
    refine ⟨rfl, ?_⟩
    dsimp only
    rw [set_eq_modify]
    exact writes_modify ho rfl

/-- The scope that a name belongs to has it in no other table than that of its kind. -/
theorem content_of_ne (ho : ss.Belongs name id owner) (hs : ss.Partitioned) (hid : id < ss.size)
    (hk : kind ≠ (ss.kindOf id name).getD .var) : ss.content ⟨owner, kind, name⟩ = none := by
  rw [ho.kindOf_eq hs.founded hid] at hk
  cases hb : (ss.scope owner).bindings.get? name with
  | none => exact Scope.get?_table_of_unbound hb kind
  | some b =>
    rw [hb] at hk
    exact ((hs.apart owner).get?_table hb kind).trans (if_neg hk)

section assigned

variable (ho : ss.Belongs name id owner) (hs : ss.Partitioned) (hid : id < ss.size)
variable (hw : ss.Writes ss' ⟨owner, (ss.kindOf id name).getD .var, name⟩ v)
include ho hs hid hw

/-- After an assignment the scope binds the name to the value that was written. -/
theorem get?_bindings_assigned :
    (ss'.scope owner).bindings.get? name = some ⟨(ss.kindOf id name).getD .var, v⟩ :=
  hw.get?_bindings fun _ hk => ho.content_of_ne hs hid hk

/-- From everywhere, the name belongs to the scope that it has belonged to. -/
theorem assigned {j : ScopeId} (h : ss.Belongs name i j) : ss'.Belongs name i j := by
  refine Stops.put h hw.chains.parent (fun k hk => ?_) ?_ ho.parent_eq_none
  · exact hw.get?_bindings_of_ne (.inl hk)
  · rw [ho.get?_bindings_assigned hs hid hw]
    rfl

/-- It is now found to have the value that was written wherever it belongs to the same scope. -/
theorem lookup_assigned (hi : i < ss.size) (h : ss.Belongs name i owner) :
    ss'.lookup i name = some v ∧ ss'.kindOf i name = some ((ss.kindOf id name).getD .var) := by
  have hf : ss'.Founded := fun hp => hs.founded (hw.chains.parent _ ▸ hp)
  have hi' : i < ss'.size := hw.chains.size ▸ hi
  have hb := ho.get?_bindings_assigned hs hid hw
  have h' := ho.assigned hs hid hw h
  rw [h'.lookup_eq hf hi', h'.kindOf_eq hf hi', hb]
  exact ⟨rfl, rfl⟩

/-- Elsewhere nothing else is found than before. -/
theorem lookup_unassigned (hi : i < ss.size) (h : ¬ ss.Belongs name i owner) :
    ss'.lookup i name = ss.lookup i name := by
  have hf : ss'.Founded := fun hp => hs.founded (hw.chains.parent _ ▸ hp)
  have hi' : i < ss'.size := hw.chains.size ▸ hi
  obtain ⟨j, hj⟩ := Founded.stops hs.founded (fun s => s.bindings.get? name) i
  have hne : j ≠ owner := fun he => h (he ▸ hj)
  rw [(ho.assigned hs hid hw hj).lookup_eq hf hi', Belongs.lookup_eq hj hs.founded hi,
    hw.get?_bindings_of_ne (.inl hne)]

end assigned

end Belongs

end Scopes

/-! ### Assignments -/

open Scopes in
/-- **An assignment writes to the cell that a name stands for.**  The scopes of every reachable
state come about by the operations on scopes; and in scopes that do, seen from any of them, a name
belongs to one scope, the nearest that binds it or else the root.  Looking the name up and asking
for its kind give what that scope binds it to.  An assignment fails if and only if that is a
constant, and then changes nothing.  Else it writes to one cell, of the same kind as before or of
a new `var`; the name is found to have the value that was written from where it belongs to the
same scope, and all else is found to be what it was. -/
theorem assignment_writes_one_cell :
    (∀ {host : Host} {s : State}, host.KeepsFunctions → Reachable host s → s.scopes.Built) ∧
    ∀ {ss : Scopes} {id : ScopeId}, ss.Built → id < ss.size → ∀ (name : String) (v : Value),
      ∃ owner, ss.Belongs name id owner ∧
        ss.lookup id name = ((ss.scope owner).bindings.get? name).map Binding.value ∧
        ss.kindOf id name = ((ss.scope owner).bindings.get? name).map Binding.kind ∧
        (ss.kindOf id name = none → owner = ss.rootOf id) ∧
        ((ss.update id name v).1 = .error (.constant name) ↔ ss.kindOf id name = some .const) ∧
        (ss.kindOf id name = some .const → (ss.update id name v).2 = ss) ∧
        (ss.kindOf id name ≠ some .const → (ss.update id name v).1 = .ok () ∧
          let ss' := (ss.update id name v).2
          ss.Writes ss' ⟨owner, (ss.kindOf id name).getD .var, name⟩ v ∧
          ss'.lookup id name = some v ∧ ss'.kindOf id name = some ((ss.kindOf id name).getD .var) ∧
          (∀ i other, other ≠ name → ss'.lookup i other = ss.lookup i other) ∧
          ∀ i < ss.size, (ss.Belongs name i owner → ss'.lookup i name = some v) ∧
            (¬ ss.Belongs name i owner → ss'.lookup i name = ss.lookup i name)) := by
  refine ⟨fun hk h => (ScopeLaw.built.reachable hk (fun _ => ⟨⟩) (.root .none) h).2, ?_⟩
  intro ss id hss hid name v
  have hs := hss.partitioned
  -- the two searches look into the tables in different orders, but stop in the same scope
  obtain ⟨owner, ho⟩ : ∃ owner, ss.Belongs name id owner :=
    Founded.stops hs.founded _ id
  have hkind := ho.kindOf_eq hs.founded hid
  refine ⟨owner, ho, ho.lookup_eq hs.founded hid, hkind, fun hn => ?_, ?_, fun hc => ?_,
    fun hc => ?_⟩
  · rw [hkind, Option.map_eq_none_iff] at hn
    exact (ho.rootOf_eq hs.founded hid hn).symm
  · by_cases hc : ss.kindOf id name = some .const
    · rw [ho.update_constant hs hid v hc]
      exact iff_of_true rfl hc
    · rw [(ho.update_writes hs hid v hc).1]
      exact iff_of_false nofun hc
  · rw [ho.update_constant hs hid v hc]
  · obtain ⟨hok, hw⟩ := ho.update_writes hs hid v hc
    obtain ⟨hv, hkind'⟩ := ho.lookup_assigned hs hid hw hid ho
    exact ⟨hok, hw, hv, hkind', fun i other hn => hw.lookup_of_ne hn i, fun i hi =>
      ⟨fun h => (ho.lookup_assigned hs hid hw hi h).1, ho.lookup_unassigned hs hid hw hi⟩⟩

/-- A name of the root that a scope below binds anew: an assignment from further below writes to the
latter, and a scope beside it still finds what is in the root. -/
theorem assignment_reaches_the_nearest_binding :
    let a : Table Value := .ofList [("a", .undefined)]
    let ss : Scopes := #[{ lets := a }, { parent := some 0, vars := a }, { parent := some 1 },
      { parent := some 0 }]
    let ss' : Scopes := (ss.update 2 "a" .null).2
    (∃ i s, Interpreter.build {} {} = .done i s ∧ s.scopes.Built) ∧
      (ss.update 2 "a" .null).1 = .ok () ∧ ss'.lookup 1 "a" = some .null ∧
      ss'.lookup 0 "a" = some .undefined ∧ ss'.lookup 3 "a" = some .undefined := by
  intro a ss ss'
  have hb : ss.Built := by
    have outer : Scopes.Built #[{ lets := a }] :=
      .create .let "a" none (.root .none) (show 0 < 1 by decide)
    have inner : Scopes.Built #[{ lets := a }, { parent := some 0, vars := a }] :=
      .create .var "a" none (.child outer (show 0 < 1 by decide)) (show 1 < 2 by decide)
    exact .child (.child inner (show 1 < 2 by decide)) (show 0 < 3 by decide)
  obtain ⟨i, s, hi⟩ : ∃ i s, Interpreter.build {} {} = .done i s := ⟨_, _, rfl⟩
  have hr : Reachable Host.none s := .of_build hi
  refine ⟨⟨i, s, hi, assignment_writes_one_cell.1 Host.none_keepsFunctions hr⟩, ?_⟩
  -- scope 2 finds the name in scope 1, the other two in the root
  have below : ss.Belongs "a" 2 1 := .up rfl rfl (.found rfl)
  have root : ss.Belongs "a" 0 0 := .found rfl
  have beside : ss.Belongs "a" 3 0 := .up rfl rfl root
  obtain ⟨owner, ho, -, -, -, -, -, h⟩ :=
    assignment_writes_one_cell.2 hb (by decide : 2 < _) "a" .null
  obtain rfl := ho.unique below
  obtain ⟨hok, -, -, -, -, hv⟩ := h (by decide)
  refine ⟨hok, (hv 1 (by decide)).1 (.found rfl), ?_, ?_⟩
  · exact (hv 0 (by decide)).2 fun h => nomatch h.unique root
  · exact (hv 3 (by decide)).2 fun h => nomatch h.unique beside

end Estree
