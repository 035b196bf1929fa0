/-
Estree/Proofs/Confinement.lean

Declarations do not leak.

A name is only ever added to a scope that a computation owns, or to the root
(`Scopes.AddsOnly`): a declaration goes to a scope of its own, an assignment changes a binding
that is there or makes one in the root, and nothing else adds names.  What an evaluation owns of
the scopes that were there before it is at most the scope that it is performed in
(`ScopeLaw.addsOnly`); an expression, and a statement that keeps its declarations to itself, owns
none of them (`Abides.confinedRule`).
-/
import Estree.Proofs.WellScoped

namespace Estree

/-! ### The relation -/

/-- Whether a scope itself binds a name. -/
def Scope.Binds (s : Scope) (name : String) : Prop := ∃ b, s.bindings.get? name = some b

namespace Scopes

/-- Scopes that come after others.  Of these, none binds more names than before, except for the
root and the given ones. -/
structure AddsOnly (x : ScopeId → Prop) (ss ss' : Scopes) : Prop where
  size : ss.size ≤ ss'.size
  binds : ∀ {id name}, id < ss.size → id ≠ rootScope → ¬ x id → (ss'.scope id).Binds name →
    (ss.scope id).Binds name

namespace AddsOnly

variable {x : ScopeId → Prop} {earlier ss : Scopes} {id i : ScopeId} {name : String}

theorem refl (x : ScopeId → Prop) (ss : Scopes) : AddsOnly x ss ss :=
  ⟨Nat.le_refl _, fun _ _ _ h => h⟩

theorem push (h : AddsOnly x earlier ss) (s : Scope) : AddsOnly x earlier (ss.push s) where
  size := by
    rw [Array.size_push]
    exact Nat.le_succ_of_le h.size
  binds hid h0 hx hb := by
    rw [scope_push, if_neg (Nat.ne_of_lt (Nat.lt_of_lt_of_le hid h.size))] at hb
    exact h.binds hid h0 hx hb

/-- A scope is changed in place, without new names unless they may be added to it. -/
theorem modify (h : AddsOnly x earlier ss) {f : Scope → Scope}
    (hf : i < earlier.size → i ≠ rootScope → ¬ x i → ∀ {name},
      (f (ss.scope i)).Binds name → (ss.scope i).Binds name) :
    AddsOnly x earlier (ss.modify i f) where
  size := Nat.le_trans h.size (Nat.le_of_eq Array.size_modify.symm)
  binds hid h0 hx hb := by
    rw [scope_modify] at hb
    split at hb
    · rename_i hi
      obtain ⟨rfl, -⟩ := hi
      exact h.binds hid h0 hx (hf hid h0 hx hb)
    · exact h.binds hid h0 hx hb

/-- A declaration adds a name to its scope. -/
theorem create (h : AddsOnly x earlier ss) (hid : id < earlier.size → x id) (kind : VarKind)
    (name : String) (value : Option Value) :
    AddsOnly x earlier (ss.create id kind name value).2 := by
  unfold Scopes.create
  split
  · dsimp only
    rw [set_eq_modify]
    exact h.modify fun hlt _ hx => absurd (hid hlt) hx
  · exact h

/-- An assignment adds a name to no scope but the root. -/
theorem update (h : AddsOnly x earlier ss) (hr : ss.Rooted) (hid : id < ss.size) (name : String)
    (value : Value) : AddsOnly x earlier (ss.update id name value).2 := by
  unfold Scopes.update
  split
  · exact h
  · -- the name is bound in the scope that it is found in
    rename_i owner s' hf
    obtain ⟨old, ho, -, rfl⟩ := Scope.assignHere_ok (nearest_some hf)
    dsimp only
    rw [set_eq_modify]
    refine h.modify fun _ _ _ other hb => ?_
    obtain ⟨b, hb⟩ := hb
    rw [Scope.get?_bindings_insert fun b hb => ?_] at hb
    · split at hb
      · subst other
        exact ⟨old, ho⟩
      · exact ⟨b, hb⟩
    · rw [ho] at hb
      cases hb
      rfl
  · dsimp only
    rw [rootOf_eq hr hid]
    exact h.modify fun _ h0 => absurd rfl h0

/-- A `delete` works on the root. -/
theorem delete (h : AddsOnly x earlier ss) (hr : ss.Rooted) (hid : id < ss.size)
    (name : String) : AddsOnly x earlier (ss.delete id name).2 := by
  unfold Scopes.delete
  dsimp only
  rw [rootOf_eq hr hid]
  split
  · dsimp only
    exact h.modify fun _ h0 => absurd rfl h0
  · exact h

end AddsOnly

end Scopes

/-! ### The law -/

/-- The law that of the scopes that were there at some earlier moment only the root and the given
ones have more names, where only these may be declared in. -/
def ScopeLaw.addsOnly (x : ScopeId → Prop) (earlier : Scopes) : ScopeLaw fun _ => True where
  inv := earlier.AddsOnly x
  reach Γ := ∀ {id}, Γ.own id → id < earlier.size → x id
  narrow hΓ h _ hid := h (hΓ.own hid)
  learn _ h := h
  create kind name value hΓ hid _ h := h.create (hΓ hid) kind name value
  update name value hr hid h := h.update hr hid name value
  delete _ hr hid h := h.delete hr hid _
  child _ h := h.push _
  fork _ h := h.push _
  opened hΓ h := by
    rintro id (rfl | hid)
    · exact fun hlt => absurd h.size (Nat.not_le_of_lt hlt)
    · exact hΓ hid

section leaks

variable {host : Host} {n : Nat} {s : State} {scope : ScopeId}

/-- An evaluation adds names to no scope but the root and those that it comes with. -/
theorem adds_only_to_own (hk : host.KeepsFunctions) {t : Task} (hw : WellScoped (Reach.of t) s) :
    (Machine.perform host n t s).Leaves fun s' =>
      s.scopes.AddsOnly (Reach.of t).own s'.scopes := by
  let L := (ScopeLaw.addsOnly (Reach.of t).own s.scopes).law hk
  have h := L.perform n t s (fun _ _ => Discipline.admits_all _) (Discipline.asks_all t)
    ⟨hw, fun h _ => h, .refl _ _⟩
  exact h.leaves.mono fun _ hs => hs.1.2.2

/-- A statement that keeps its declarations to itself adds names to no scope but the root. -/
theorem confined_adds_only_to_root (hk : host.KeepsFunctions) {st : Stmt} (hc : st.Confined)
    {labels : List String} (hw : WellScoped (.seeing scope) s) :
    (Machine.perform host n (.stmt st scope labels) s).Leaves fun s' =>
      s.scopes.AddsOnly (fun _ => False) s'.scopes := by
  let L := (ScopeLaw.addsOnly (fun _ => False) s.scopes).law hk
  cases n with
  | zero => trivial
  | succ n =>
    -- one level does not own the scope, and all that it asks for keeps the law
    have level : Abides host {} (.seeing scope) (fun _ => True)
        fun p => rule host n p (.stmt st scope labels) :=
      .weaken (.confinedRule hc (Discipline.deleting_stmt st labels) rfl) fun _ _ => trivial
    have h := (level.sound (L.keeps n) ⟨hw, False.elim, .refl _ _⟩).1
    rw [show Machine.perform host (n + 1) (.stmt st scope labels) = _ from
      Machine.perform_eq_rule host n (.stmt st scope labels)]
    exact h.leaves.mono fun _ hs => hs.1.2.2

/-- **Declarations do not leak.**  Consider a scope of a reachable state and what is performed in
it, whatever comes out and whichever functions are called.  Of the scopes that were there before,
the root apart, an expression adds names to none, a statement only to the scope that it is executed
in, and a statement that keeps its declarations to itself not even to that. -/
theorem declarations_do_not_leak (hk : host.KeepsFunctions) (hr : Reachable host s)
    (hs : scope < s.scopes.size) (n : Nat) :
    (∀ e, (Machine.perform host n (.expr e scope) s).Leaves fun s' =>
      ∀ l < s.scopes.size, l ≠ rootScope → ∀ name,
        (s'.scopes.scope l).Binds name → (s.scopes.scope l).Binds name) ∧
    (∀ st labels, (Machine.perform host n (.stmt st scope labels) s).Leaves fun s' =>
      ∀ l < s.scopes.size, l ≠ rootScope → l ≠ scope → ∀ name,
        (s'.scopes.scope l).Binds name → (s.scopes.scope l).Binds name) ∧
    ∀ st labels, st.Confined → (Machine.perform host n (.stmt st scope labels) s).Leaves fun s' =>
      ∀ l < s.scopes.size, l ≠ rootScope → ∀ name,
        (s'.scopes.scope l).Binds name → (s.scopes.scope l).Binds name := by
  have hw := hr.wellScoped hk
  -- an expression sees its scope, a statement owns it
  have seeing : WellScoped (.seeing scope) s :=
    hw.task (t := .expr .this scope) fun id hid => hid ▸ hs
  have owning : WellScoped (.owning scope) s :=
    hw.task (t := .stmt .empty scope []) fun id hid => hid ▸ hs
  refine ⟨fun e => ?_, fun st labels => ?_, fun st labels hc => ?_⟩
  · exact (adds_only_to_own (t := .expr e scope) hk seeing).mono fun s' h l hl h0 name hb =>
      h.binds hl h0 id hb
  · exact (adds_only_to_own (t := .stmt st scope labels) hk owning).mono
      fun s' h l hl h0 hne name hb => h.binds hl h0 hne hb
  · exact (confined_adds_only_to_root hk hc seeing).mono fun s' h l hl h0 name hb =>
      h.binds hl h0 id hb

end leaks

/-- In a scope below the root, a declaration adds its name, and a block with that declaration
does not. -/
theorem block_keeps_its_declaration :
    let declaring : Stmt := .variables .let [.mk (.ident "a") none]
    let opening : Program := ⟨[.block []], .script⟩
    ∃ i s₀ s s₁ s₂, Interpreter.build {} {} = .done i s₀ ∧
      (Machine.perform Host.none 9 (.program none opening) s₀).Ends s ∧ s.scopes.size = 2 ∧
      (Machine.perform Host.none 9 (.stmt declaring 1 []) s).Ends s₁ ∧
      (s₁.scopes.scope 1).Binds "a" ∧
      (Machine.perform Host.none 9 (.stmt (.block [declaring]) 1 []) s).Ends s₂ ∧
      ¬ (s₂.scopes.scope 1).Binds "a" := by
  intro declaring opening
  obtain ⟨i, s₀, s, s₁, s₂, hbuild, hs, hsize, hs₁, hb, hs₂, hn⟩ : ∃ i s₀ s s₁ s₂,
      Interpreter.build {} {} = .done i s₀ ∧
      (Machine.perform Host.none 9 (.program none opening) s₀).Ends s ∧ s.scopes.size = 2 ∧
      (Machine.perform Host.none 9 (.stmt declaring 1 []) s).Ends s₁ ∧
      (s₁.scopes.scope 1).Binds "a" ∧
      (Machine.perform Host.none 9 (.stmt (.block [declaring]) 1 []) s).Ends s₂ ∧
      (s.scopes.scope 1).bindings.get? "a" = none :=
    ⟨_, _, _, _, _, rfl, .inl ⟨_, rfl⟩, rfl, .inl ⟨_, rfl⟩, ⟨_, rfl⟩, .inl ⟨_, rfl⟩, rfl⟩
  have hk := Host.none_keepsFunctions
  have built : Reachable Host.none s₀ := .of_build hbuild
  have hr : Reachable Host.none s := built.performed (built.existing hk fun _ => id) hs
  -- scope 1 is left over from the block that ran first
  have hlt : 1 < s.scopes.size := by
    rw [hsize]
    decide
  refine ⟨i, s₀, s, s₁, s₂, hbuild, hs, hsize, hs₁, hb, hs₂, fun h => ?_⟩
  have leaves := (declarations_do_not_leak hk hr hlt 9).2.2 (.block [declaring]) [] trivial
  obtain ⟨b, hb⟩ := leaves.ends hs₂ 1 hlt nofun "a" h
  rw [hn] at hb
  cases hb

end Estree
