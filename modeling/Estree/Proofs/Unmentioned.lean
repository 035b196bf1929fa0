/-
Estree/Proofs/Unmentioned.lean

A program cannot reach what it does not mention.

Names reach the root only as they stand in the program: nothing enumerates a scope, and no name is
computed.  So a run in which a name of the root is bound can be followed step by step by one in
which it is not (`Simulation.hiding`), as long as neither the program nor any function that was ever
made has the name in it.  Two runs that differ in what the name stands for are both followed by the
same third one.

The relation between the two runs is that one state is the other without the name
(`Scopes.without`); the store and the list of running functions are the same.  Every operation on
scopes that uses another name keeps the relation, and the discipline guarantees that no other
operation is reached.
-/
import Estree.Proofs.Admitted
import Estree.Proofs.Hide
import Estree.Proofs.Simulation
import Estree.Proofs.Tree.Admits

namespace Estree

/-! ### Programs that do not mention a name -/

/-- Whether a node by itself neither uses nor declares a name. -/
def Node.avoids (n : String) : Node → Bool
  | .expr (.ident name) | .pattern (.ident name) => name != n
  | .function f => f.id != some n
  | _ => true

/-- A program that has a name nowhere in it. -/
def Program.Avoids (p : Program) (n : String) : Prop :=
  Every.stmtList (Node.avoids n) p.body = true

instance (p : Program) (n : String) : Decidable (p.Avoids n) :=
  inferInstanceAs (Decidable (_ = true))

/-- Evaluating trees without a name does not use the name, except for the receiver. -/
theorem Grants.avoiding {n : String} (h : n ≠ "this") :
    Grants (Node.avoids n) (· ≠ n) fun _ => True where
  receiver := Ne.symm h
  expr _ := bne_iff_ne.1
  pattern _ := bne_iff_ne.1
  function f name hf hid hn := bne_iff_ne.1 hf (by rw [hid, hn])
  stray _ := trivial
  unsupported _ _ _ _ := trivial

/-! ### Runs with and without a name -/

/-- No function of the program has a name in it. -/
def State.Avoids (s : State) (n : String) : Prop :=
  s.FunctionsIn fun f => Every.function (Node.avoids n) f = true

/-- A state without a name of the root. -/
def State.without (s : State) (n : String) : State := { s with scopes := s.scopes.without n }

/-- Two states of which the second is the first without a name of the root.  In the first, the name
stands for `b`, and no function has it in it. -/
structure Hides (n : String) (b : Option Binding) (s s' : State) : Prop where
  eq : s' = s.without n
  root : rootScope < s.scopes.size
  functions : s.Avoids n
  binding : s.scopes.rootBinding n = b

namespace Hides

variable {n : String} {b : Option Binding} {s s' : State}

theorem onStore {α : Type} {m : Run Store α} (h : Hides n b s s')
    (hm : (m s.store).Leaves (SameFunctions s.store)) :
    (Eval.onStore m s).Alike (Hides n b) (fun _ => True) (Eval.onStore m s') := by
  obtain ⟨rfl, hr, hf, hb⟩ := h
  unfold Eval.onStore
  dsimp only [State.without]
  generalize m s.store = o at hm
  rcases o with ⟨a, store⟩ | ⟨e, store⟩ | -
  · exact .done trivial ⟨rfl, hr, hf.sameFunctions hm, hb⟩
  · exact .failed ⟨rfl, hr, hf.sameFunctions hm, hb⟩
  · exact .endless

theorem newClosure {c : Closure} (h : Hides n b s s')
    (hc : Every.function (Node.avoids n) c.node = true) :
    (Eval.onStore (Store.newClosure c) s).Alike (Hides n b) (fun _ => True)
      (Eval.onStore (Store.newClosure c) s') := by
  obtain ⟨rfl, hr, hf, hb⟩ := h
  exact .done trivial ⟨rfl, hr, hf.newClosure hc, hb⟩

/-- What an operation that passes over the name leaves behind. -/
theorem scopes {ρ : Type} {op : Scopes → ρ × Scopes} (h : Hides n b s s')
    (hop : Scopes.PassesOver n op) :
    (op s'.scopes).1 = (op s.scopes).1 ∧
      Hides n b { s with scopes := (op s.scopes).2 } { s' with scopes := (op s'.scopes).2 } := by
  obtain ⟨rfl, hr, hf, hb⟩ := h
  have hw : op (s.without n).scopes = _ := hop.without s.scopes
  rw [hw]
  refine ⟨rfl, rfl, ?_, hf, ?_⟩
  · exact (hop.size s.scopes).symm ▸ hr
  · exact (hop.binding s.scopes).trans hb

theorem onScopes {α : Type} {op : Scopes → Except ScopeError α × Scopes} (h : Hides n b s s')
    (hop : Scopes.PassesOver n op) :
    (Eval.onScopes op s).Alike (Hides n b) (fun _ => True) (Eval.onScopes op s') := by
  obtain ⟨he, hs⟩ := h.scopes hop
  unfold Eval.onScopes
  dsimp only
  rcases ho : op s.scopes with ⟨r, ss⟩
  rcases ho' : op s'.scopes with ⟨r', ss'⟩
  rw [ho, ho'] at he hs
  dsimp only at he hs
  subst he
  cases r' with
  | ok a => exact .done trivial hs
  | error e => exact .failed hs

theorem delete (h : Hides n b s s') {name : String} (hn : name ≠ n) (scope : ScopeId) :
    (Eval.deleteName scope name s).Alike (Hides n b) (fun _ => True)
      (Eval.deleteName scope name s') := by
  obtain ⟨he, hs⟩ := h.scopes (Scopes.passesOver_delete scope hn)
  unfold Eval.deleteName
  dsimp only at he hs ⊢
  rw [he]
  exact .done trivial hs

theorem query (h : Hides n b s s') {name : String} (hn : name ≠ n) (scope : ScopeId) :
    (Eval.query scope name s).Alike (Hides n b) (fun _ => True) (Eval.query scope name s') := by
  have hq : s'.scopes.query scope name = s.scopes.query scope name := by
    rw [h.eq]
    exact Scopes.query_without s.scopes scope hn
  unfold Eval.query
  rw [hq]
  cases s.scopes.query scope name with
  | ok v => exact .done trivial h
  | error e => exact .failed h

theorem lookup (h : Hides n b s s') {name : String} (hn : name ≠ n) (scope : ScopeId) :
    (Eval.lookup scope name s).Alike (Hides n b) (fun _ => True) (Eval.lookup scope name s') := by
  have hl : s'.scopes.lookup scope name = s.scopes.lookup scope name := by
    rw [h.eq]
    exact Scopes.lookup_without s.scopes scope hn
  unfold Eval.lookup Run.read
  dsimp only
  rw [hl]
  exact .done trivial h

/-- A new scope that is the same in both runs. -/
theorem opened (h : Hides n b s s') (scope : Scope) :
    Hides n b (s.opened scope) (s'.opened scope) := by
  obtain ⟨rfl, hr, hf, hb⟩ := h
  refine ⟨?_, ?_, hf, ?_⟩
  · exact congrArg (fun scopes => ({ s with scopes } : State))
      (Scopes.push_without hr scope n).symm
  · rw [State.opened, Array.size_push]
    exact Nat.lt_succ_of_lt hr
  · rw [State.opened, Scopes.rootBinding, Scopes.scope_push, if_neg (Nat.ne_of_lt hr)]
    exact hb

/-- A new scope is not the root. -/
theorem fresh_add {Γ : Reach} (h : Hides n b s s') (hΓ : ∀ id, Γ.fresh id → id ≠ rootScope) :
    ∀ id, (Γ.add s.scopes.size).fresh id → id ≠ rootScope := by
  rintro id (rfl | hid)
  · exact Nat.ne_of_gt h.root
  · exact hΓ id hid

end Hides

variable {host : Host} {n : String}

/-- Each step that does not use a name can be followed without the name. -/
def Simulation.hiding (hk : host.KeepsFunctions) (hn : n ≠ "this") (b : Option Binding) :
    Simulation host (Grants.avoiding hn).discipline where
  rel := Hides n b
  reach Γ := ∀ id, Γ.fresh id → id ≠ rootScope
  reach_of t _ h := absurd h (Reach.not_fresh_of t)
  learn _ h := h
  step st hst hΓ h := by
    cases st with
    | store m hm => exact h.onStore (hm.sameFunctions hk _)
    | closure c => exact h.newClosure hst.1
    | query scope name => exact h.query hst.2 scope
    | lookup scope name => exact h.lookup hst.2 scope
    | declare scope kind name value =>
      exact h.onScopes (Scopes.passesOver_create kind value (hst.2.imp_left (hΓ scope)))
    | assign scope name value => exact h.onScopes (Scopes.passesOver_update scope hst.2 value)
    | delete scope name => exact h.delete hst.2.1 scope
  size h := by
    rw [h.eq]
    exact Scopes.size_without ..
  child _ hΓ h := ⟨h.fresh_add hΓ, h.opened _⟩
  fork {_ s s' source} hs hΓ h := by
    have hsource : s'.scopes.scope source = s.scopes.scope source := by
      rw [h.eq]
      exact Scopes.scope_without_of_ne s.scopes n (hΓ source hs)
    rw [hsource]
    exact ⟨h.fresh_add hΓ, h.opened _⟩
  load id h := by
    refine ⟨h.functions id, ?_⟩
    rw [h.eq]
    rfl
  calls _ h := by
    rw [h.eq]
    rfl
  withCalls calls _ h := by
    obtain ⟨rfl, hr, hf, hb⟩ := h
    exact ⟨rfl, hr, hf, hb⟩

/-! ### Two runs -/

/-- Two states that are the same without a name of the root, which no function has in it. -/
def DifferIn (n : String) (s₁ s₂ : State) : Prop :=
  ∃ s, (∃ b, Hides n b s₁ s) ∧ ∃ b, Hides n b s₂ s

namespace DifferIn

variable {s₁ s₂ : State}

theorem of_without (h : s₁.without n = s₂.without n) (hr : rootScope < s₁.scopes.size)
    (hf : s₁.Avoids n) : DifferIn n s₁ s₂ := by
  have hr₂ : rootScope < s₂.scopes.size := by
    have hs : (s₁.without n).scopes.size = (s₂.without n).scopes.size := by rw [h]
    rw [State.without, State.without, Scopes.size_without, Scopes.size_without] at hs
    exact hs ▸ hr
  have hf₂ : s₂.Avoids n := by
    have hs : (s₁.without n).store = (s₂.without n).store := congrArg State.store h
    intro id
    exact (show s₁.store = s₂.store from hs) ▸ hf id
  exact ⟨s₁.without n, ⟨_, rfl, hr, hf, rfl⟩, _, h, hr₂, hf₂, rfl⟩

/-- What does the same with and without a name does the same whatever the name stands for. -/
theorem alike {α : Type} {Q : α → Prop} {m : Eval α} (h : DifferIn n s₁ s₂)
    (hm : ∀ b s s', Hides n b s s' → (m s).Alike (Hides n b) Q (m s')) :
    (m s₁).Alike (DifferIn n) Q (m s₂) := by
  obtain ⟨s, ⟨b₁, h₁⟩, b₂, h₂⟩ := h
  refine ((hm b₁ _ _ h₁).join (hm b₂ _ _ h₂)).mono (fun _ _ hs => ?_) fun _ => id
  obtain ⟨s', h₁', h₂'⟩ := hs
  exact ⟨s', ⟨b₁, h₁'⟩, b₂, h₂'⟩

end DifferIn

/-! ### Building -/

/-- To declare a name as `var` in a root that has no others is to enter it in its table. -/
theorem Eval.declare_var_root (name : String) (v : Value) (t : Table Value) (store : Store)
    (calls : CallStack) :
    declare rootScope .var name (some v) { store, scopes := #[{ vars := t }], calls }
      = .done () { store, scopes := #[{ vars := t.insert name v }], calls } := by
  have hc : Scope.create { vars := t } .var name (some v) = .ok { vars := t.insert name v } := by
    unfold Scope.create Scope.kindHere
    cases t.contains name <;> rfl
  unfold declare onScopes Scopes.create
  dsimp only
  rw [show Scopes.scope #[{ vars := t }] rootScope = { vars := t } from rfl, hc]
  rfl

theorem Interpreter.install_root (entries : List (String × Value)) (t : Table Value)
    (store : Store) (calls : CallStack) :
    install rootScope entries { store, scopes := #[{ vars := t }], calls }
      = .done () { store, scopes := #[{ vars := t.insertAll entries }], calls } := by
  induction entries generalizing t with
  | nil => rfl
  | cons entry rest ih =>
    obtain ⟨name, v⟩ := entry
    rw [install, Run.bind_done (Eval.declare_var_root name v t store calls)]
    exact ih (t.insert name v)

/-- The module object does not depend on what the name stands for. -/
theorem Interpreter.installModule_differIn (hk : host.KeepsFunctions) (hn : n ≠ "this")
    (hm : n ≠ "module") (he : n ≠ "exports") {s₁ s₂ : State} (h : DifferIn n s₁ s₂) :
    (installModule rootScope s₁).Alike (DifferIn n) (fun _ => True)
      (installModule rootScope s₂) := by
  refine h.alike fun b s s' hs => ?_
  have ha : Abides host (Grants.avoiding hn).discipline (.owning rootScope) (fun _ => True)
      fun _ => installModule rootScope :=
    .installModule (Ne.symm hm) (Ne.symm he) rfl
  -- nothing is asked for, so any performer will do
  have hp : (Simulation.hiding hk hn b).Matches (fun _ _ => .endless) fun _ _ => .endless :=
    fun _ _ _ _ _ => .endless
  exact ha.simulated hp (fun _ => False.elim) hs

/-- Nor do the names that are entered, apart from that one. -/
theorem Interpreter.install_differIn {standard t₁ t₂ : Table Value} (ht : t₁.erase n = t₂.erase n)
    {store : Store} {calls : CallStack} (hf : State.Avoids { store } n) :
    (install rootScope (standard.insertAll t₁.entries).entries
      { store, scopes := #[{}], calls }).Alike (DifferIn n) (fun _ => True)
      (install rootScope (standard.insertAll t₂.entries).entries
        { store, scopes := #[{}], calls }) := by
  have table : (Table.empty.insertAll (standard.insertAll t₁.entries).entries).erase n
      = (Table.empty.insertAll (standard.insertAll t₂.entries).entries).erase n := by
    rw [Table.erase_insertAll, Table.erase_insertAll standard, ht,
      ← Table.erase_insertAll standard, ← Table.erase_insertAll]
  have root (t : Table Value) : Scopes.without #[{ vars := t }] n = #[{ vars := t.erase n }] := rfl
  rw [show (#[{}] : Scopes) = #[{ vars := Table.empty }] from rfl, install_root, install_root]
  refine .done trivial (.of_without ?_ Nat.zero_lt_one hf)
  rw [State.without, State.without, root, root, table]

section tables

variable {config : Config} {store : Store} {t₁ t₂ : Table Value} {calls : CallStack}

theorem Interpreter.enterNames_differIn (hk : host.KeepsFunctions) (hn : n ≠ "this")
    (hm : config.isModule = true → n ≠ "module" ∧ n ≠ "exports") (ht : t₁.erase n = t₂.erase n)
    (hf : State.Avoids { store } n) (standard : Table Value) :
    (enterNames { config with bindings := t₁ } standard
      { store, scopes := #[{}], calls }).Alike (DifferIn n) (fun _ => True)
      (enterNames { config with bindings := t₂ } standard
        { store, scopes := #[{}], calls }) := by
  refine .bind (install_differIn ht hf) (fun _ _ => id) fun _ s₁ s₂ _ h => ?_
  dsimp only
  split
  · obtain ⟨hm, he⟩ := hm ‹_›
    exact .bind (installModule_differIn hk hn hm he h) (fun _ _ => id)
      fun _ _ _ _ h => .done trivial h
  · exact .done trivial h

/-- Two tables of the embedder that differ in one name lead to root scopes that differ in it. -/
theorem Interpreter.prepare_differIn (hk : host.KeepsFunctions) (hn : n ≠ "this")
    (hm : config.isModule = true → n ≠ "module" ∧ n ≠ "exports") (hc : store.closures = #[])
    (ht : t₁.erase n = t₂.erase n) (calls : CallStack) :
    (prepare { config with bindings := t₁ } { store, scopes := #[{}], calls }).Alike (DifferIn n)
      (fun _ => True)
      (prepare { config with bindings := t₂ } { store, scopes := #[{}], calls }) := by
  have hf : State.Avoids { store } n := State.FunctionsIn.of_empty hc rfl
  -- standard names are made in the same store in both cases
  have entered (m : Run Store (Table Value)) (hr : Routine host m) :
      ((Eval.onStore m >>= enterNames { config with bindings := t₁ })
        { store, scopes := #[{}], calls }).Alike (DifferIn n) (fun _ => True)
        ((Eval.onStore m >>= enterNames { config with bindings := t₂ })
          { store, scopes := #[{}], calls }) := by
    have hs := Eval.onStore_leaves (s := { store, scopes := #[{}], calls })
      (hr.sameFunctions hk store)
    refine .bind hs.alike ?_ ?_
    · rintro s _ ⟨rfl, store', hsame, rfl⟩
      exact .of_without rfl Nat.zero_lt_one (hf.sameFunctions hsame)
    · rintro standard s _ - ⟨rfl, store', hsame, rfl⟩
      exact enterNames_differIn hk hn hm ht (hf.sameFunctions hsame) standard
  rw [prepare_eq, prepare_eq]
  refine entered _ ?_
  split
  · exact Scopeless.standard.routine
  · exact .pure _

end tables

/-! ### The theorem -/

/-- Two states of which the second has the same store, console included, the same running functions,
the same scopes below the root, and in the root the same bindings apart from those of a name. -/
structure SameBut (n : String) (s s' : State) : Prop where
  store : s'.store = s.store
  calls : s'.calls = s.calls
  size : s'.scopes.size = s.scopes.size
  inner : ∀ id, id ≠ rootScope → s'.scopes.scope id = s.scopes.scope id
  root : ∀ m, m ≠ n → s'.scopes.rootBinding m = s.scopes.rootBinding m

theorem Hides.sameBut {b : Option Binding} {s s' : State} (h : Hides n b s s') :
    SameBut n s s' := by
  obtain ⟨rfl, -, -, -⟩ := h
  refine ⟨rfl, rfl, Scopes.size_without .., fun id => Scopes.scope_without_of_ne s.scopes n, ?_⟩
  intro m hm
  show ((s.scopes.without n).scope rootScope).bindings.get? m = _
  rw [Scopes.scope_without_root, Scope.get?_bindings_without _ hm]
  rfl

theorem DifferIn.sameBut {s₁ s₂ : State} (h : DifferIn n s₁ s₂) : SameBut n s₁ s₂ := by
  obtain ⟨s, ⟨b₁, h₁⟩, b₂, h₂⟩ := h
  have e₁ := h₁.sameBut
  have e₂ := h₂.sameBut
  exact ⟨e₂.store.symm.trans e₁.store, e₂.calls.symm.trans e₁.calls, e₂.size.symm.trans e₁.size,
    fun id hid => (e₂.inner id hid).symm.trans (e₁.inner id hid),
    fun m hm => (e₂.root m hm).symm.trans (e₁.root m hm)⟩

/-- **What a program does not mention is out of its reach.**  Take a name that stands nowhere in a
program, is not `this`, and in module mode is neither `module` nor `exports`; and two tables of an
embedder without functions of the program that agree on all other names, so that the name may stand
for two values or for nothing in one of them.  Both values lie in the store that the interpreters
are built over, so that places need not be renamed: building an interpreter and running the program
gives the same value or error or does not end, with the same lines on the console, the same store
and the same other bindings of the root.  Whatever the name stands for after building, it still
stands for it after the run. -/
theorem unmentioned_bindings_are_unreachable (hk : host.KeepsFunctions) (hn : n ≠ "this")
    {p : Program} (hp : p.Avoids n) {config : Config}
    (hm : config.isModule = true → n ≠ "module" ∧ n ≠ "exports") {store : Store}
    (hc : store.closures = #[]) {t₁ t₂ : Table Value} (ht : t₁.erase n = t₂.erase n)
    (budget : Nat) :
    (Interpreter.runOnce host budget { config with bindings := t₁ } store p).Alike (SameBut n)
      (fun _ => True) (Interpreter.runOnce host budget { config with bindings := t₂ } store p) ∧
    ∀ t i s, Interpreter.build { config with bindings := t } store = .done i s →
      (Interpreter.runProgram host budget i.module p s).Leaves fun s' =>
        s'.scopes.rootBinding n = s.scopes.rootBinding n := by
  -- with the name and without it, the program does the same
  have run (module : Option Value) (b : Option Binding) {s s' : State} (hs : Hides n b s s') :
      (Interpreter.runProgram host budget module p s).Alike (Hides n b) (fun _ => True)
        (Interpreter.runProgram host budget module p s') :=
    (Simulation.hiding hk hn b).perform (fun _ => (Grants.avoiding hn).admits) budget
      (.program module p) s s' ((Grants.avoiding hn).asksProgram hp module) hs
  constructor
  · have h := Interpreter.prepare_differIn hk hn hm hc ht { limit := config.maxCallDepth }
    unfold Interpreter.runOnce Interpreter.build
    generalize Interpreter.prepare { config with bindings := t₁ } _ = o₁ at h
    generalize Interpreter.prepare { config with bindings := t₂ } _ = o₂ at h
    cases h with
    | @done module s₁ s₂ _ hs =>
      exact (hs.alike fun b _ _ => run module b).mono (fun _ _ => DifferIn.sameBut) fun _ => id
    | failed hs => exact .failed hs.sameBut
    | endless => exact .endless
  · intro t i s hb
    have h := Interpreter.prepare_differIn hk hn hm hc (rfl : t.erase n = t.erase n)
      { limit := config.maxCallDepth }
    unfold Interpreter.build at hb
    generalize Interpreter.prepare { config with bindings := t } _ = o at h hb
    cases h with
    | @done module s₁ s₂ _ hs =>
      cases hb
      obtain ⟨s', ⟨b, hs⟩, -⟩ := hs
      refine (run module b hs).leaves.mono fun _ ⟨_, h⟩ => ?_
      rw [h.binding, hs.binding]
    | failed hs => cases hb
    | endless => cases hb

/-- A program with a property of the name of a binding gets its own value, whether the binding is
there or not. -/
theorem property_name_does_not_reach_binding :
    let members : List Member :=
      [.property (.ident "secret") (.literal { value := .bool true }) .init false false false]
    let p : Program := ⟨[.expression (.assign .replace (.ident "found")
      (.member (.object members) (.ident "secret") false))], .script⟩
    let bound : Config := { bindings := .ofList [("secret", .bool false)] }
    p.Avoids "secret" ∧
      (∃ s, Interpreter.runOnce Host.none 9 {} {} p = .done (.bool true) s) ∧
      (Interpreter.runOnce Host.none 9 bound {} p).Alike (SameBut "secret") (fun _ => True)
        (Interpreter.runOnce Host.none 9 {} {} p) ∧
      ∃ i s, Interpreter.build bound {} = .done i s ∧
        (Interpreter.runProgram Host.none 9 i.module p s).Leaves fun s' =>
          s'.scopes.rootBinding "secret" = some ⟨.var, .bool false⟩ := by
  intro members p bound
  have hp : p.Avoids "secret" := by decide
  have h := @unmentioned_bindings_are_unreachable Host.none "secret" Host.none_keepsFunctions
    (by decide) p hp {} nofun {} rfl bound.bindings .empty rfl 9
  obtain ⟨i, s, hb, hs⟩ : ∃ i s, Interpreter.build bound {} = .done i s ∧
      s.scopes.rootBinding "secret" = some ⟨.var, .bool false⟩ := ⟨_, _, rfl, rfl⟩
  refine ⟨hp, ⟨_, rfl⟩, h.1, i, s, hb, ?_⟩
  exact (h.2 bound.bindings i s hb).mono fun s' h => h.trans hs

end Estree
