/-
Estree/Proofs/Fork.lean

A scope and its copy go apart.

An operation that is performed through a scope changes at most a scope on the chain of that scope
(`Scopes.scope_create_of_ne`, `Scopes.scope_update_of_avoids`, `Scopes.scope_delete_of_avoids`), and
a chain never changes.  A copy is a new scope with the parent of its source, so that the chain of
neither passes through the other.  What is done through the one, and through scopes that were made
on the way, therefore leaves the other alone, however much is done (`Scopes.Worked.spared`).

What the two have in common are the scopes above them.  A name that neither binds belongs to the
same scope from both (`Scopes.Belongs.beside`).
-/
import Estree.Proofs.Resolution

namespace Estree

open Relation

namespace Scopes

variable {ss ss' : Scopes} {id r i p owner : ScopeId} {name : String} {v : Value}

/-! ### Chains that stay -/

/-- No scope has been taken away or given another parent. -/
structure KeepsChains (ss ss' : Scopes) : Prop where
  size : ss.size ≤ ss'.size
  parent : ∀ {id}, id < ss.size → (ss'.scope id).parent = (ss.scope id).parent

/-- The chain of a scope does not pass through another. -/
def Avoids (ss : Scopes) (id r : ScopeId) : Prop := ¬ ReflTransGen ss.Parent id r

namespace KeepsChains

theorem refl (ss : Scopes) : KeepsChains ss ss := ⟨Nat.le_refl _, fun _ => rfl⟩

theorem trans {ss'' : Scopes} (h : KeepsChains ss ss') (h' : KeepsChains ss' ss'') :
    KeepsChains ss ss'' where
  size := Nat.le_trans h.size h'.size
  parent hid := (h'.parent (Nat.lt_of_lt_of_le hid h.size)).trans (h.parent hid)

theorem push (ss : Scopes) (s : Scope) : KeepsChains ss (ss.push s) where
  size := by
    rw [Array.size_push]
    exact Nat.le_succ _
  parent hid := by rw [scope_push, if_neg (Nat.ne_of_lt hid)]

/-- What is reached from a scope that was there is what was reached from it. -/
theorem reaches_iff (h : KeepsChains ss ss') (hs : ss.Founded) (hid : id < ss.size) :
    ReflTransGen ss'.Parent id r ↔ ReflTransGen ss.Parent id r := by
  have up {i p : ScopeId} (hi : i < ss.size) : ss'.Parent i p ↔ ss.Parent i p := by
    rw [Parent, Parent, h.parent hi]
  constructor
  · intro hr
    induction hr using ReflTransGen.head_induction_on with
    | refl => exact .refl
    | head hp _ ih =>
      have hp := (up hid).1 hp
      exact .head hp (ih (Nat.lt_trans (hs hp) hid))
  · intro hr
    induction hr using ReflTransGen.head_induction_on with
    | refl => exact .refl
    | head hp _ ih => exact .head ((up hid).2 hp) (ih (Nat.lt_trans (hs hp) hid))

theorem avoids (h : KeepsChains ss ss') (hs : ss.Founded) (hid : id < ss.size)
    (ha : ss.Avoids id r) : ss'.Avoids id r :=
  fun hr => ha ((h.reaches_iff hs hid).1 hr)

end KeepsChains

theorem SameChains.keeps (h : SameChains ss ss') : KeepsChains ss ss' :=
  ⟨Nat.le_of_eq h.size.symm, fun _ => h.parent _⟩

namespace Avoids

theorem ne (h : ss.Avoids id r) : id ≠ r := by
  rintro rfl
  exact h .refl

/-- A chain is as long as one leads down it. -/
theorem parent (h : ss.Avoids id r) (hp : ss.Parent id p) : ss.Avoids p r :=
  fun hr => h (.head hp hr)

/-- A chain avoids a scope if it begins elsewhere and goes on to scopes that avoid it. -/
theorem of_parent (hne : id ≠ r) (h : ∀ p, ss.Parent id p → ss.Avoids p r) : ss.Avoids id r := by
  intro hr
  obtain rfl | ⟨p, hp, hr⟩ := hr.cases_head
  · exact hne rfl
  · exact h p hp hr

/-- The chains of scopes do not lead to later ones. -/
theorem of_lt (hs : ss.Founded) (h : id < r) : ss.Avoids id r := by
  intro hr
  obtain rfl | hr := reflTransGen_iff_eq_or_transGen.1 hr
  · exact Nat.lt_irrefl _ h
  · exact Nat.lt_asymm h (hs.lt_of_above hr)

/-- A new scope avoids what the scopes above it avoid. -/
theorem push (hs : ss.Founded) {s : Scope} (hr : r < ss.size)
    (h : ∀ p, s.parent = some p → p < ss.size ∧ ss.Avoids p r) :
    Scopes.Avoids (ss.push s) ss.size r := by
  refine of_parent (Nat.ne_of_gt hr) fun p hp => ?_
  have hp : s.parent = some p := by rwa [Parent, scope_push, if_pos rfl] at hp
  exact (KeepsChains.push ss s).avoids hs (h p hp).1 (h p hp).2

end Avoids

/-! ### What an operation leaves alone -/

theorem scope_create_of_ne (hid : id ≠ r) (kind : VarKind) (name : String)
    (value : Option Value) : (ss.create id kind name value).2.scope r = ss.scope r := by
  unfold create
  split
  · dsimp only
    rw [set_eq_modify, scope_modify, if_neg fun h => hid h.1]
  · rfl

theorem scope_update_of_avoids (hs : ss.Founded) (hid : id < ss.size) (h : ss.Avoids id r)
    (name : String) (v : Value) : (ss.update id name v).2.scope r = ss.scope r := by
  obtain ⟨i, hi⟩ := hs.stops (fun s => s.assignHere name v) id
  unfold update
  split
  · rfl
  · rename_i owner s' hn
    -- the search has stopped on the chain
    rw [hs.nearest_eq hid hi, Option.map_eq_some_iff] at hn
    obtain ⟨_, -, he⟩ := hn
    obtain rfl : i = owner := congrArg Prod.fst he
    dsimp only
    rw [set_eq_modify, scope_modify, if_neg]
    rintro ⟨rfl, -⟩
    exact h hi.reaches
  · dsimp only
    rw [scope_modify, if_neg]
    rintro ⟨rfl, -⟩
    exact h (hs.stops_rootOf hid).reaches

theorem scope_delete_of_avoids (hs : ss.Founded) (hid : id < ss.size) (h : ss.Avoids id r)
    (name : String) : (ss.delete id name).2.scope r = ss.scope r := by
  unfold delete
  dsimp only
  split
  · dsimp only
    rw [scope_modify, if_neg]
    rintro ⟨rfl, -⟩
    exact h (hs.stops_rootOf hid).reaches
  · rfl

/-! ### Operations through some of the scopes -/

/-- Scopes that come about from others by operations through the given scopes and through those that
have been made since, in any order, whether they succeed or fail. -/
inductive Worked (x : ScopeId → Prop) (ss₀ : Scopes) : Scopes → Prop
  | start : Worked x ss₀ ss₀
  | create {ss : Scopes} {id : ScopeId} (kind : VarKind) (name : String) (value : Option Value)
      (h : Worked x ss₀ ss) (hx : x id ∨ ss₀.size ≤ id) (hid : id < ss.size) :
      Worked x ss₀ (ss.create id kind name value).2
  | update {ss : Scopes} {id : ScopeId} (name : String) (value : Value) (h : Worked x ss₀ ss)
      (hx : x id ∨ ss₀.size ≤ id) (hid : id < ss.size) : Worked x ss₀ (ss.update id name value).2
  | delete {ss : Scopes} {id : ScopeId} (name : String) (h : Worked x ss₀ ss)
      (hx : x id ∨ ss₀.size ≤ id) (hid : id < ss.size) : Worked x ss₀ (ss.delete id name).2
  | child {ss : Scopes} {id : ScopeId} (h : Worked x ss₀ ss) (hx : x id ∨ ss₀.size ≤ id)
      (hid : id < ss.size) : Worked x ss₀ (ss.child id).2
  | fork {ss : Scopes} {id : ScopeId} (h : Worked x ss₀ ss) (hx : x id ∨ ss₀.size ≤ id)
      (hid : id < ss.size) : Worked x ss₀ (ss.fork id).2

section worked

variable {x : ScopeId → Prop} {ss₀ : Scopes}

theorem Worked.keeps (h : Worked x ss₀ ss) : KeepsChains ss₀ ss := by
  induction h with
  | start => exact .refl ss₀
  | create kind name value _ _ _ ih => exact ih.trans (sameChains_create ..).keeps
  | update name value _ _ _ ih => exact ih.trans (sameChains_update ..).keeps
  | delete name _ _ _ ih => exact ih.trans (sameChains_delete ..).keeps
  | child _ _ _ ih => exact ih.trans (.push ..)
  | fork _ _ _ ih => exact ih.trans (.push ..)

theorem Worked.built (h : Worked x ss₀ ss) (h₀ : ss₀.Built) : ss.Built := by
  induction h with
  | start => exact h₀
  | create kind name value _ _ hid ih => exact .create kind name value ih hid
  | update name value _ _ hid ih => exact .update name value ih hid
  | delete name _ _ hid ih => exact .delete name ih hid
  | child _ _ hid ih => exact .child ih hid
  | fork _ _ hid ih => exact .fork ih hid

/-- Scopes that come after others, with a scope that is as it was and that the chains of certain
scopes avoid: the given ones and those that have been made since. -/
structure Spared (x : ScopeId → Prop) (r : ScopeId) (ss₀ ss : Scopes) : Prop where
  founded : ss.Founded
  lt : r < ss.size
  avoids : ∀ {id}, id < ss.size → x id ∨ ss₀.size ≤ id → ss.Avoids id r
  same : ss.scope r = ss₀.scope r

namespace Spared

/-- Other scopes are changed in place. -/
theorem rewrite (h : Spared x r ss₀ ss) (hs : SameChains ss ss') (hr : ss'.scope r = ss.scope r) :
    Spared x r ss₀ ss' where
  founded {id p} hp := h.founded (hs.parent id ▸ hp)
  lt := hs.size ▸ h.lt
  avoids hid hx := by
    rw [hs.size] at hid
    exact hs.keeps.avoids h.founded hid (h.avoids hid hx)
  same := hr.trans h.same

/-- A scope is made below scopes whose chains avoid the spared one. -/
theorem push (h : Spared x r ss₀ ss) {s : Scope}
    (hp : ∀ p, s.parent = some p → p < ss.size ∧ ss.Avoids p r) :
    Spared x r ss₀ (ss.push s) where
  founded := Founded.push h.founded fun p he => (hp p he).1
  lt := Nat.lt_of_lt_of_le h.lt (KeepsChains.push ss s).size
  avoids {id} hid hx := by
    rw [Array.size_push] at hid
    obtain hid | rfl := Nat.lt_succ_iff_lt_or_eq.1 hid
    · exact (KeepsChains.push ss s).avoids h.founded hid (h.avoids hid hx)
    · exact .push h.founded h.lt hp
  same := by
    rw [scope_push, if_neg (Nat.ne_of_lt h.lt)]
    exact h.same

end Spared

/-- Whatever is done through scopes whose chains avoid another leaves that one as it was. -/
theorem Worked.spared (h : Worked x ss₀ ss) (hs : ss₀.Founded) (hr : r < ss₀.size)
    (hx : ∀ id < ss₀.size, x id → ss₀.Avoids id r) : Spared x r ss₀ ss := by
  induction h with
  | start =>
    exact ⟨hs, hr, fun hid h => h.elim (hx _ hid) fun hle => absurd hid (Nat.not_lt.2 hle), rfl⟩
  | create kind name value _ hx hid ih =>
    exact ih.rewrite (sameChains_create ..) (scope_create_of_ne (ih.avoids hid hx).ne ..)
  | update name value _ hx hid ih =>
    exact ih.rewrite (sameChains_update ..)
      (scope_update_of_avoids ih.founded hid (ih.avoids hid hx) ..)
  | delete name _ hx hid ih =>
    exact ih.rewrite (sameChains_delete ..)
      (scope_delete_of_avoids ih.founded hid (ih.avoids hid hx) ..)
  | @child ss id _ hx hid ih =>
    refine ih.push fun p hp => ?_
    obtain rfl := Option.some.inj hp
    exact ⟨hid, ih.avoids hid hx⟩
  | @fork ss id _ hx hid ih =>
    -- the copy goes on where its source does
    exact ih.push fun p hp => ⟨Nat.lt_trans (ih.founded hp) hid, (ih.avoids hid hx).parent hp⟩

end worked

/-! ### What two scopes have in common -/

/-- A name that is bound above two scopes with the same parent, and in neither of them, belongs to
the same scope from both. -/
theorem Belongs.beside {a b : ScopeId} (h : ss.Belongs name a owner)
    (hp : (ss.scope b).parent = (ss.scope a).parent)
    (ha : (ss.scope a).bindings.get? name = none) (hb : (ss.scope b).bindings.get? name = none)
    (ho : ((ss.scope owner).bindings.get? name).isSome) : ss.Belongs name b owner := by
  cases h with
  | found hf =>
    rw [ha] at hf
    cases hf
  | root _ =>
    rw [ha] at ho
    cases ho
  | up _ hq hs => exact .up hb (hp.trans hq) hs

/-- Two scopes from which a name that is bound in the given way is found to be the same: its value,
and after an assignment the new one.  A constant is not assigned to from either. -/
structure Sees (ss : Scopes) (a b : ScopeId) (name : String) (kind : VarKind) : Prop where
  kindOf : ss.kindOf b name = some kind
  lookup : ss.lookup b name = ss.lookup a name
  constant : kind = .const → ∀ v, ss.update a name v = (.error (.constant name), ss)
  assigned : kind ≠ .const → ∀ v, (ss.update a name v).1 = .ok () ∧
    (ss.update a name v).2.lookup a name = some v ∧
    (ss.update a name v).2.lookup b name = some v

/-- What is bound above two scopes with the same parent is common to both. -/
theorem sees_above (hs : ss.Partitioned) {a b : ScopeId} (ha : a < ss.size) (hb : b < ss.size)
    (hp : (ss.scope b).parent = (ss.scope a).parent)
    (hna : (ss.scope a).bindings.get? name = none) (hnb : (ss.scope b).bindings.get? name = none)
    {kind : VarKind} (hk : ss.kindOf a name = some kind) : Sees ss a b name kind := by
  obtain ⟨owner, ho⟩ : ∃ owner, ss.Belongs name a owner := Founded.stops hs.founded _ a
  have hbound : ((ss.scope owner).bindings.get? name).isSome := by
    rw [ho.kindOf_eq hs.founded ha] at hk
    obtain ⟨b, hb, -⟩ := Option.map_eq_some_iff.1 hk
    exact Option.isSome_iff_exists.2 ⟨b, hb⟩
  have ho' := ho.beside hp hna hnb hbound
  refine ⟨?_, ?_, fun hc v => ?_, fun hc v => ?_⟩
  · rw [← hk, ho.kindOf_eq hs.founded ha, ho'.kindOf_eq hs.founded hb]
  · rw [ho.lookup_eq hs.founded ha, ho'.lookup_eq hs.founded hb]
  · exact ho.update_constant hs ha v (hk.trans (congrArg some hc))
  · have hne : ss.kindOf a name ≠ some .const := by
      rw [hk]
      exact fun he => hc (Option.some.inj he)
    obtain ⟨hok, hw⟩ := ho.update_writes hs ha v hne
    exact ⟨hok, (ho.lookup_assigned hs ha hw ha ho).1, (ho.lookup_assigned hs ha hw hb ho').1⟩

/-! ### A scope and its copy -/

/-- A scope and its copy in scopes where the copy has just been made: nothing that is done through
the one, or through scopes that are made on the way, changes the other, and they have in common what
is bound above them. -/
structure GoApart (ss : Scopes) (source copy : ScopeId) : Prop where
  /-- The copy has the parent and the bindings of its source. -/
  copied : ss.scope copy = ss.scope source
  keepsSource : ∀ {ss'}, Worked (fun id => id = copy) ss ss' → ss'.scope source = ss.scope source
  keepsCopy : ∀ {ss'}, Worked (fun id => id ≠ copy) ss ss' → ss'.scope copy = ss.scope copy
  shared : ∀ {ss' name kind}, Worked (fun _ => True) ss ss' → ss'.kindOf source name = some kind →
    (ss'.scope source).bindings.get? name = none → (ss'.scope copy).bindings.get? name = none →
    Sees ss' source copy name kind ∧ Sees ss' copy source name kind

/-- A copy goes apart from its source. -/
theorem Built.goApart (h : ss.Built) (hid : id < ss.size) :
    GoApart (ss.fork id).2 id (ss.fork id).1 := by
  have h₁ : Built (ss.fork id).2 := .fork h hid
  show GoApart (ss.push (ss.scope id)) id ss.size
  have hf : ss.Founded := h.partitioned.founded
  have hf₁ : Founded (ss.push (ss.scope id)) := h₁.partitioned.founded
  have hcopy : ss.size < Array.size (ss.push (ss.scope id)) := by
    rw [Array.size_push]
    exact Nat.lt_succ_self _
  have hsource : id < Array.size (ss.push (ss.scope id)) := Nat.lt_trans hid hcopy
  have hsame : scope (ss.push (ss.scope id)) id = ss.scope id := by
    rw [scope_push, if_neg (Nat.ne_of_lt hid)]
  have hcopied : scope (ss.push (ss.scope id)) ss.size = scope (ss.push (ss.scope id)) id := by
    rw [hsame, scope_push, if_pos rfl]
  refine ⟨hcopied, fun hw => ?_, fun hw => ?_, fun {ss' name kind} hw hk hn hn' => ?_⟩
  · refine (hw.spared hf₁ hsource fun i _ hi => ?_).same
    -- the chain of the copy goes on above the source
    subst hi
    refine .of_parent (Nat.ne_of_gt hid) fun p hp =>
      .of_lt hf₁ (hf (show ss.Parent id p from ?_))
    rwa [Parent, hcopied, hsame] at hp
  · refine (hw.spared hf₁ hcopy fun i hi hne => ?_).same
    rw [Array.size_push] at hi
    exact .of_lt hf₁ (Nat.lt_of_le_of_ne (Nat.le_of_lt_succ hi) hne)
  · have hs := (hw.built h₁).partitioned
    have hlt : id < ss'.size := Nat.lt_of_lt_of_le hsource hw.keeps.size
    have hlt' : ss.size < ss'.size := Nat.lt_of_lt_of_le hcopy hw.keeps.size
    have hp : (ss'.scope ss.size).parent = (ss'.scope id).parent := by
      rw [hw.keeps.parent hcopy, hw.keeps.parent hsource, hcopied]
    have sees := sees_above hs hlt hlt' hp hn hn' hk
    exact ⟨sees, sees_above hs hlt' hlt hp.symm hn' hn sees.kindOf⟩

end Scopes

end Estree
