/-
Estree/Proofs/Session.lean

What happens to an interpreter over time.

A `Session` leads from a state to a later one: tasks are performed one after the other, and in
between the embedder may work on the store.  It may also stop in the midst of a task, where
another begins within it.  `Reachable` states are those that a session leads to from an
interpreter that has just been built.

A law that is kept by one evaluation is kept by every session (`Law.session`), and building an
interpreter keeps it too (`Law.build`).
-/
import Estree.Proofs.Enclosed

namespace Estree

/-! ### Building -/

namespace Scopeless

variable {host : Host}

theorem newPlain (props : List (String × Value)) : Scopeless host (Store.newPlain props) :=
  .newObject _

theorem entry (name : String) (arity : Nat) (code : Code) :
    Scopeless host (Catalog.entry name arity code) :=
  .bind (.newNative _) fun _ => .pure _

theorem constructor (name : String) (code : Code) (props : List (String × Value)) :
    Scopeless host (Catalog.constructor name code props) :=
  .bind (.newNative _) fun _ => .pure _

theorem group (name : String) (members : List (String × Value)) :
    Scopeless host (Catalog.group name members) :=
  .bind (newPlain _) fun _ => .pure _

theorem math : Scopeless host Catalog.math := by
  refine .bind (mapM (fun f => entry f.name 1 (.math f)) _) fun functions => ?_
  refine .bind (entry _ _ _) fun pow => .bind (entry _ _ _) fun max => ?_
  exact .bind (entry _ _ _) fun min => group _ _

theorem functions : Scopeless host Catalog.functions := by
  refine .bind (entry _ _ _) fun _ => .bind (entry _ _ _) fun _ => .bind (entry _ _ _) fun _ => ?_
  refine .bind (entry _ _ _) fun _ => .bind (entry _ _ _) fun _ => .bind (entry _ _ _) fun _ => ?_
  exact .bind (entry _ _ _) fun _ => .pure _

/-- The standard table of names is made by a routine. -/
theorem standard : Scopeless host Catalog.standard := by
  have console : Scopeless host Catalog.console :=
    .bind (mapM (fun level => entry level.name 0 (.console level)) _) fun _ => group _ _
  have json : Scopeless host Catalog.json :=
    .bind (entry _ _ _) fun _ => .bind (entry _ _ _) fun _ => group _ _
  have object : Scopeless host Catalog.object :=
    .bind (entry _ _ _) fun _ => .bind (entry _ _ _) fun _ => .bind (entry _ _ _) fun _ =>
      constructor _ _ _
  have array : Scopeless host Catalog.array := .bind (entry _ _ _) fun _ => constructor _ _ _
  have errors : Scopeless host Catalog.errors :=
    mapM (fun cls => constructor cls.name (.newError cls) []) _
  refine .bind console fun _ => .bind json fun _ => .bind math fun _ => .bind object fun _ => ?_
  exact .bind array fun _ => .bind functions fun _ => .bind errors fun _ => .pure _

end Scopeless

/-- The last part of preparing a root scope: the names, those of the embedder replacing standard
ones, and then the module. -/
def Interpreter.enterNames (config : Config) (standard : Table Value) : Eval (Option Value) := do
  install rootScope (standard.insertAll config.bindings.entries).entries
  if config.isModule then return some (← installModule rootScope) else return none

theorem Interpreter.prepare_eq (config : Config) :
    prepare config = Eval.onStore
      (if config.standardGlobals then Catalog.standard else pure Table.empty)
        >>= enterNames config := by
  unfold prepare
  cases config.standardGlobals <;> rfl

namespace Abides

variable {host : Host} {D : Discipline} {Γ : Reach} {scope : ScopeId}

theorem install (hn : ∀ name, D.names name) (hs : Γ.own scope) (entries : List (String × Value)) :
    Abides host D Γ (fun _ => True) fun _ => Interpreter.install scope entries := by
  induction entries with
  | nil => exact .pure trivial
  | cons entry rest ih => exact .bind (declare hs (.inr (hn _))) fun _ _ => ih

theorem installModule (hm : D.names "module") (he : D.names "exports") (hs : Γ.own scope) :
    Abides host D Γ (fun _ => True) fun _ => Interpreter.installModule scope := by
  refine .bind (store (.newPlain _)) fun exports _ => ?_
  refine .bind (store (.newPlain _)) fun module _ => ?_
  refine .bind (declare hs (.inr hm)) fun _ _ => ?_
  exact .bind (declare hs (.inr he)) fun _ _ => .pure trivial

theorem enterNames (hn : ∀ name, D.names name) (hs : Γ.own rootScope) (config : Config)
    (standard : Table Value) :
    Abides host D Γ (fun _ => True) fun _ => Interpreter.enterNames config standard := by
  refine .bind (install hn hs _) fun _ _ => ?_
  split
  · exact .bind (installModule (hn _) (hn _) hs) fun _ _ => .pure trivial
  · exact .pure trivial

/-- Preparing the root scope is composed like any evaluation. -/
theorem prepare (hn : ∀ name, D.names name) (hs : Γ.own rootScope) (config : Config) :
    Abides host D Γ (fun _ => True) fun _ => Interpreter.prepare config := by
  rw [Interpreter.prepare_eq]
  refine .bind (store ?_) fun standard _ => enterNames hn hs config standard
  split
  · exact .standard
  · exact .pure _

end Abides

/-! ### Sessions -/

/-- Build an interpreter over a store and run one program on it. -/
def Interpreter.runOnce (host : Host) (budget : Nat) (config : Config) (store : Store)
    (p : Program) : Outcome State Value :=
  match build config store with
  | .done i s => runProgram host budget i.module p s
  | .failed e s => .failed e s
  | .endless => .endless

/-- What may happen to an interpreter: tasks that are allowed with their budget in the state at
hand are performed, or begun; and the embedder works on the store. -/
inductive Session (host : Host) (allow : Nat → Task → State → Prop) : State → State → Prop
  | start {s : State} : Session host allow s s
  | perform {s s₁ s₂ : State} {n : Nat} {t : Task} (h : Session host allow s s₁)
      (ht : allow n t s₁) (ho : (Machine.perform host n t s₁).Ends s₂) : Session host allow s s₂
  | midst {s s₁ s₂ : State} {n m : Nat} {t t' : Task} (h : Session host allow s s₁)
      (ht : allow n t s₁) (he : Encloses host n t s₁ m t' s₂) : Session host allow s s₂
  | embed {s s₁ s₂ : State} {α : Type} {m : Run Store α} (h : Session host allow s s₁)
      (hm : Routine host m) (ho : (Eval.onStore m s₁).Ends s₂) : Session host allow s s₂

/-- A session in which all that is allowed is allowed in another sense too. -/
theorem Session.mono {host : Host} {allow allow' : Nat → Task → State → Prop} {s s' : State}
    (ha : ∀ {n t s}, allow n t s → allow' n t s) (h : Session host allow s s') :
    Session host allow' s s' := by
  induction h with
  | start => exact .start
  | perform _ ht ho ih => exact .perform ih (ha ht) ho
  | midst _ ht he ih => exact .midst ih (ha ht) he
  | embed _ hm ho ih => exact .embed ih hm ho

/-- The scopes that a task comes with exist. -/
def Existing (t : Task) (s : State) : Prop :=
  ∀ id, (Reach.of t).known id → id < s.scopes.size

/-- The states of an interpreter that was built over a store without functions of the program, and
on which anything has been performed. -/
def Reachable (host : Host) (s : State) : Prop :=
  ∃ config store i s₀, store.closures = #[] ∧ Interpreter.build config store = .done i s₀ ∧
    Session host (fun _ t s => Existing t s) s₀ s

/-- An interpreter that was just built over an empty store is in a reachable state. -/
theorem Reachable.of_build {host : Host} {config : Config} {i : Interpreter} {s : State}
    (h : Interpreter.build config {} = .done i s) : Reachable host s :=
  ⟨config, {}, i, s, rfl, h, .start⟩

/-- What is performed in a reachable state leaves a reachable state behind. -/
theorem Reachable.performed {host : Host} {n : Nat} {t : Task} {s s' : State}
    (hr : Reachable host s) (ht : Existing t s) (ho : (Machine.perform host n t s).Ends s') :
    Reachable host s' := by
  obtain ⟨config, store, i, s₀, hc, hb, hs⟩ := hr
  exact ⟨config, store, i, s₀, hc, hb, .perform hs ht ho⟩

/-! ### Laws -/

section laws

variable {host : Host} {D : Discipline} (L : Law host D) {s s' : State}

theorem Contract.Ensures.ends {C : Contract} {Γ : Reach} {α : Type} {Q : α → Prop}
    {o : Outcome State α} (h : C.Ensures Γ Q s o) (ho : o.Ends s') : C.inv Γ s' :=
  (h.leaves.ends ho).1

/-- A law that lets the allowed tasks be performed is kept by every session. -/
theorem Law.session {allow : Nat → Task → State → Prop}
    (hallow : ∀ {n t s}, allow n t s → L.inv .none s → D.asks t ∧ L.inv (Reach.of t) s ∧
      ∀ {m t' s'}, Encloses host n t s m t' s' → D.asks t' → D.Admits t')
    (h : Session host allow s s') (hi : L.inv .none s) : L.inv .none s' := by
  induction h with
  | start => exact hi
  | @perform s₁ _ n t _ ht ho ih =>
    obtain ⟨ha, hi₁, hD⟩ := hallow ht ih
    exact L.narrow (Reach.none_le _) ((L.perform n t s₁ hD ha hi₁).ends ho)
  | midst _ ht he ih =>
    obtain ⟨ha, hi₁, hD⟩ := hallow ht ih
    exact L.narrow (Reach.none_le _) (L.enclosed he hD ha hi₁).2
  | embed _ hm ho ih => exact (L.step (.store _ hm) trivial ih).ends ho

/-- A law that holds of an empty root scope holds once an interpreter has been built. -/
theorem Law.build (hn : ∀ name, D.names name) {config : Config} {store : Store} {i : Interpreter}
    (hb : Interpreter.build config store = .done i s)
    (hi : L.inv (.owning rootScope)
      { store, scopes := #[{}], calls := { limit := config.maxCallDepth } }) :
    L.inv .none s := by
  -- preparing asks for nothing, so any performer will do
  have hp : L.Keeps fun _ _ => .endless := fun _ _ _ _ => trivial
  have h := ((Abides.prepare hn rfl config).sound hp hi).1
  refine L.narrow (Reach.none_le _) (h.ends ?_)
  unfold Interpreter.build at hb
  split at hb
  · cases hb
    exact .inl ⟨_, ‹_›⟩
  · cases hb
  · cases hb

end laws

end Estree
