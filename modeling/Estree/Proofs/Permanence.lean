/-
Estree/Proofs/Permanence.lean

Bindings are permanent.

Once a name is bound in a scope it stays bound there in the same way, and a constant keeps its
value (`Permanent`).  The one exception is a `var` of the root scope, which a `delete` of that
name takes away.  Every writer of scopes respects this: it either puts a new scope behind the
others (`Permanent.push`) or changes one scope in place (`Permanent.modify`).  That an assignment
finds its target in the right scope, and that a `delete` only reaches the root, rests on the
shape of the chains (`WellScoped`).
-/
import Estree.Proofs.WellScoped

namespace Estree

/-! ### The relation -/

/-- A binding that a `delete` of one of the given names can take away. -/
def Erasable (d : String → Prop) (id : ScopeId) (name : String) (b : Binding) : Prop :=
  id = rootScope ∧ b.kind = .var ∧ d name

/-- A name that is bound in the same way as before, and to the same value if it is a constant. -/
def Binding.Stays (b : Binding) (now : Option Binding) : Prop :=
  ∃ v, now = some ⟨b.kind, v⟩ ∧ (b.kind = .const → v = b.value)

theorem Binding.stays_self (b : Binding) : b.Stays (some b) := ⟨b.value, rfl, fun _ => rfl⟩

/-- Scopes that come after others without undoing anything: bindings stay, unless a `delete` of one
of the given names can take them away. -/
structure Permanent (d : String → Prop) (ss ss' : Scopes) : Prop where
  size : ss.size ≤ ss'.size
  parent : ∀ {id}, id < ss.size → (ss'.scope id).parent = (ss.scope id).parent
  stays : ∀ {id name b}, (ss.scope id).bindings.get? name = some b → ¬ Erasable d id name b →
    b.Stays ((ss'.scope id).bindings.get? name)

namespace Permanent

variable {d : String → Prop} {ss ss' ss'' : Scopes} {id : ScopeId}

theorem refl (d : String → Prop) (ss : Scopes) : Permanent d ss ss where
  size := Nat.le_refl _
  parent _ := rfl
  stays {_ _ b} h _ := h ▸ b.stays_self

theorem trans (h : Permanent d ss ss') (h' : Permanent d ss' ss'') : Permanent d ss ss'' where
  size := Nat.le_trans h.size h'.size
  parent hid := (h'.parent (Nat.lt_of_lt_of_le hid h.size)).trans (h.parent hid)
  stays {id name b} hb hd := by
    obtain ⟨v, hv, hc⟩ := h.stays hb hd
    obtain ⟨w, hw, hc'⟩ := h'.stays hv fun he => hd ⟨he.1, he.2.1, he.2.2⟩
    exact ⟨w, hw, fun hk => (hc' hk).trans (hc hk)⟩

/-- A new scope comes after all others. -/
theorem push (d : String → Prop) (ss : Scopes) (s : Scope) : Permanent d ss (ss.push s) where
  size := by
    rw [Array.size_push]
    exact Nat.le_succ _
  parent hid := by
    rw [Scopes.scope_push, if_neg (Nat.ne_of_lt hid)]
  stays {id name b} hb _ := by
    rw [Scopes.scope_push, if_neg (Nat.ne_of_lt (Scopes.lt_size_of_bound hb)), hb]
    exact b.stays_self

/-- One scope is changed in place. -/
theorem modify {f : Scope → Scope} (hp : (f (ss.scope id)).parent = (ss.scope id).parent)
    (hf : ∀ {name b}, (ss.scope id).bindings.get? name = some b → ¬ Erasable d id name b →
      b.Stays ((f (ss.scope id)).bindings.get? name)) : Permanent d ss (ss.modify id f) where
  size := Nat.le_of_eq Array.size_modify.symm
  parent {i} _ := by
    rw [Scopes.scope_modify]
    split
    · obtain ⟨rfl, -⟩ := ‹_›
      exact hp
    · rfl
  stays {i name b} hb hd := by
    rw [Scopes.scope_modify]
    split
    · obtain ⟨rfl, -⟩ := ‹_›
      exact hf hb hd
    · rw [hb]
      exact b.stays_self

end Permanent

/-! ### Writers -/

namespace Scope

variable {s s' : Scope} {kind : VarKind} {name other : String} {value : Option Value} {b : Binding}
variable {v : Value}

/-- Binding a name in the way in which it is bound, unless it is a constant. -/
theorem stays_insert (hk : ∀ b, s.bindings.get? name = some b → b.kind = kind ∧ kind ≠ .const)
    (hb : s.bindings.get? other = some b) :
    b.Stays ((s.insert kind name v).bindings.get? other) := by
  rw [get?_bindings_insert fun b h => (hk b h).1]
  split
  · subst other
    obtain ⟨rfl, hc⟩ := hk b hb
    exact ⟨v, rfl, fun h => absurd h hc⟩
  · rw [hb]
    exact b.stays_self

/-- Binding a name that is not bound yet. -/
theorem stays_insert_of_unbound (hn : s.bindings.get? name = none)
    (hb : s.bindings.get? other = some b) :
    b.Stays ((s.insert kind name v).bindings.get? other) := by
  refine stays_insert (fun b h => ?_) hb
  rw [hn] at h
  cases h

/-- A declaration keeps what the scope binds. -/
theorem create_stays (h : s.create kind name value = .ok s') :
    s'.parent = s.parent ∧
      ∀ {other b}, s.bindings.get? other = some b → b.Stays (s'.bindings.get? other) := by
  obtain rfl | ⟨hn, rfl⟩ | ⟨old, v, ho, hk, rfl⟩ := create_cases h
  · exact ⟨rfl, fun {_ b} hb => hb ▸ b.stays_self⟩
  · exact ⟨parent_insert .., stays_insert_of_unbound hn⟩
  · refine ⟨parent_insert .., stays_insert fun b hb => ?_⟩
    rw [ho] at hb
    cases hb
    exact ⟨hk, nofun⟩

/-- So does an assignment in the scope that binds the name. -/
theorem assignHere_stays (h : s.assignHere name v = some (.ok s')) :
    s'.parent = s.parent ∧
      ∀ {other b}, s.bindings.get? other = some b → b.Stays (s'.bindings.get? other) := by
  obtain ⟨old, ho, hc, rfl⟩ := assignHere_ok h
  refine ⟨parent_insert .., stays_insert fun b hb => ?_⟩
  rw [ho] at hb
  cases hb
  exact ⟨rfl, hc⟩

end Scope

namespace Permanent

variable {d : String → Prop} {ss : Scopes} {id : ScopeId} {name : String}

/-- A declaration keeps all bindings, whether it succeeds or not. -/
theorem create (d : String → Prop) (ss : Scopes) (id : ScopeId) (kind : VarKind) (name : String)
    (value : Option Value) : Permanent d ss (ss.create id kind name value).2 := by
  unfold Scopes.create
  split
  · rename_i s' hs
    obtain ⟨hp, hb⟩ := Scope.create_stays hs
    dsimp only
    rw [Scopes.set_eq_modify]
    exact modify hp fun h _ => hb h
  · exact refl d ss

/-- So does an assignment. -/
theorem update (d : String → Prop) (hr : ss.Rooted) (hid : id < ss.size) (name : String)
    (value : Value) : Permanent d ss (ss.update id name value).2 := by
  unfold Scopes.update
  split
  · exact refl d ss
  · -- the scope that owns the name, where it is not a constant
    rename_i owner s' hf
    obtain ⟨hp, hs⟩ := Scope.assignHere_stays (Scopes.nearest_some hf)
    dsimp only
    rw [Scopes.set_eq_modify]
    exact modify hp fun h _ => hs h
  · -- no scope owns the name, in particular not the root, which gets it
    rename_i hf
    have hn := Scope.assignHere_eq_none_iff.1 (Scopes.nearest_none hr.founded hid hf)
    dsimp only
    exact modify (Scope.parent_insert ..) fun h _ => Scope.stays_insert_of_unbound hn h

/-- A `delete` takes away at most a `var` of that name in the root scope. -/
theorem delete (hr : ss.Rooted) (hid : id < ss.size) (hd : d name) :
    Permanent d ss (ss.delete id name).2 := by
  unfold Scopes.delete
  dsimp only
  rw [Scopes.rootOf_eq hr hid]
  split
  · -- bindings of other names stay, and the one of this name is erasable
    rename_i hv
    dsimp only
    refine modify rfl fun {other b} hb he => ?_
    rw [Scope.get?_bindings_eraseVar, hb]
    · exact b.stays_self
    · rintro rfl
      exact he ⟨rfl, Scope.kind_of_contains_vars hv hb, hd⟩
  · exact refl d ss

end Permanent

/-! ### The law -/

variable {host : Host} {d : String → Prop}

/-- The law that the scopes have undone nothing since some earlier moment, except for what was
deleted. -/
def ScopeLaw.permanent (d : String → Prop) (earlier : Scopes) : ScopeLaw d where
  inv := Permanent d earlier
  reach _ := True
  narrow _ _ := ⟨⟩
  learn _ _ := ⟨⟩
  create kind name value _ _ _ h := h.trans (.create d _ _ kind name value)
  update name value hr hid h := h.trans (.update d hr hid name value)
  delete hd hr hid h := h.trans (.delete hr hid hd)
  child _ h := h.trans (.push d _ _)
  fork _ h := h.trans (.push d _ _)
  opened _ _ := ⟨⟩

/-- A session undoes nothing except for what it deletes. -/
theorem Session.permanent (hk : host.KeepsFunctions) {s s' : State} (hw : WellScoped .none s)
    (hs : Session host (fun n t r => Existing t r ∧ DeletesOnly host d n t r) s s') :
    Permanent d s.scopes s'.scopes :=
  ((ScopeLaw.permanent d s.scopes).session hk (fun _ => ⟨⟩) hw (.refl d _) hs).2

/-- **Bindings are permanent.**  Let a name be bound in a scope of a reachable state, and let
anything happen after that in which only the given names are deleted.  If it is a constant, it is
bound as a constant to the same value ever after; if it is a `let` it remains one; if it is a `var`
it remains one, unless it is in the root scope and its name is among those deleted. -/
theorem bindings_are_permanent (hk : host.KeepsFunctions) {s s' : State} (hr : Reachable host s)
    (hs : Session host (fun n t r => Existing t r ∧ DeletesOnly host d n t r) s s')
    {id : ScopeId} {name : String} {b : Binding}
    (hb : (s.scopes.scope id).bindings.get? name = some b) :
    (b.kind = .const → (s'.scopes.scope id).bindings.get? name = some b) ∧
    (b.kind = .let → ∃ v, (s'.scopes.scope id).bindings.get? name = some ⟨.let, v⟩) ∧
    (b.kind = .var → id ≠ rootScope ∨ ¬ d name →
      ∃ v, (s'.scopes.scope id).bindings.get? name = some ⟨.var, v⟩) := by
  have hp := hs.permanent hk (hr.wellScoped hk)
  obtain ⟨kind, value⟩ := b
  refine ⟨fun hkind => ?_, fun hkind => ?_, fun hkind hn => ?_⟩
  · obtain rfl : kind = .const := hkind
    obtain ⟨v, hv, hc⟩ := hp.stays hb fun he => nomatch he.2.1
    rw [hv, hc rfl]
  · obtain rfl : kind = .let := hkind
    obtain ⟨v, hv, -⟩ := hp.stays hb fun he => nomatch he.2.1
    exact ⟨v, hv⟩
  · obtain rfl : kind = .var := hkind
    obtain ⟨v, hv, -⟩ := hp.stays hb fun he => hn.elim (fun h => h he.1) fun h => h he.2.2
    exact ⟨v, hv⟩

/-- A constant after an assignment to it has failed and the error was caught. -/
theorem constant_survives_assignment :
    let declaring : Program := ⟨[.variables .const [.mk (.ident "a") (some .this)]], .script⟩
    let assigning : Stmt := .expression (.assign .replace (.ident "a") (.object []))
    let trying : Program := ⟨[.tries [assigning] (some (.mk none [])) none], .script⟩
    ∃ s₀ s s' i, Interpreter.build {} {} = .done i s₀ ∧
      (Machine.perform Host.none 9 (.program none declaring) s₀).Ends s ∧
      (Machine.perform Host.none 9 (.program none trying) s).Ends s' ∧ s'.scopes.size = 3 ∧
      (s'.scopes.scope rootScope).bindings.get? "a" = some ⟨.const, .undefined⟩ := by
  intro declaring assigning trying
  obtain ⟨s₀, i, s, s', hbuild, hs, hs', hsize, hb⟩ : ∃ s₀ i s s',
      Interpreter.build {} {} = .done i s₀ ∧
      (Machine.perform Host.none 9 (.program none declaring) s₀).Ends s ∧
      (Machine.perform Host.none 9 (.program none trying) s).Ends s' ∧ s'.scopes.size = 3 ∧
      (s.scopes.scope rootScope).bindings.get? "a" = some ⟨.const, .undefined⟩ :=
    ⟨_, _, _, _, rfl, .inl ⟨_, rfl⟩, .inl ⟨_, rfl⟩, rfl, rfl⟩
  have hk : Host.none.KeepsFunctions := by
    rintro id this args s s' (⟨v, h⟩ | ⟨e, h⟩) <;> cases h
    rfl
  -- a program runs in the root, which exists in every reachable state
  have built : Reachable Host.none s₀ := .of_build hbuild
  have declared : Reachable Host.none s := built.performed (built.existing hk fun _ => id) hs
  refine ⟨s₀, s, s', i, hbuild, hs, hs', hsize, ?_⟩
  exact (bindings_are_permanent (d := fun _ => True) hk declared
    (.perform .start ⟨declared.existing hk fun _ => id, fun _ => trivial⟩ hs') hb).1 rfl

end Estree
