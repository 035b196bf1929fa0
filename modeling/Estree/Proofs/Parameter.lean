/-
Estree/Proofs/Parameter.lean

How the parameters of a function are bound.

`BindsFrom` tells the binding of parameters step by step: in which states it comes to the next
parameter, what that one is given, and when a default is evaluated for it.  At each of its steps the
names of the call's scope are the ones bound so far and no others.

That the evaluator binds parameters in this way (`binds_from`) is an induction on the parameters
that are left.  What carries it is that a default, whatever it does, leaves the call in order
(`Ready`): it may assign to the names of the scope, but it neither adds one nor takes one away
(`keeps_kinds`), and it takes no array out of the store (`keeps_arrays`), so that the array of a
rest parameter is not that of `arguments`.
-/
import Estree.Proofs.Confinement
import Estree.Proofs.Permanence

namespace Estree

/-! ### Signatures -/

/-- A parameter that is a name, with or without a default. -/
structure Param where
  name : String
  default : Option Expr := none

namespace Param

/-- The pattern of a parameter. -/
def pattern (p : Param) : Pattern :=
  match p.default with
  | none => .ident p.name
  | some init => .default (.ident p.name) init

/-- Whether a parameter takes a value without a default: that of its argument, or undefined if
it has neither an argument nor a default. -/
inductive Takes (p : Param) : Option Value → Value → Prop
  | argument {v : Value} (h : p.default = none ∨ v.isUndefined = false) : Takes p (some v) v
  | missing (h : p.default = none) : Takes p none .undefined

/-- Whether a parameter needs its default: there is no argument, or it is undefined. -/
inductive Needs (p : Param) (init : Expr) : Option Value → Prop
  | missing (h : p.default = some init) : Needs p init none
  | undefined (h : p.default = some init) : Needs p init (some .undefined)

end Param

/-- The parameters of a function: names, some of them with defaults, and perhaps one for all
arguments that are left. -/
structure Signature where
  params : List Param
  rest : Option String := none

namespace Signature

/-- The patterns of the parameters. -/
def patterns (sig : Signature) : List Pattern :=
  sig.params.map Param.pattern ++ (sig.rest.toList.map fun name => .rest (.ident name))

/-- The names of the parameters. -/
def names (sig : Signature) : List String :=
  sig.params.map Param.name ++ sig.rest.toList

/-- The variables of a call once so many parameters are bound. -/
def bound (sig : Signature) (i : Nat) : List String :=
  "arguments" :: (sig.params.take i).map Param.name

/-- Whether the names of a call are different from each other. -/
def Distinct (sig : Signature) : Prop :=
  ("this" :: "arguments" :: sig.names).Nodup

variable {sig : Signature} {i : Nat} {p : Param} {name : String}

theorem bound_succ (hp : sig.params[i]? = some p) :
    sig.bound (i + 1) = sig.bound i ++ [p.name] := by
  simp [bound, List.take_add_one, hp]

theorem names_of_rest (hr : sig.rest = some name) :
    "arguments" :: sig.names = sig.bound sig.params.length ++ [name] := by
  simp [bound, names, hr]

theorem names_of_no_rest (hr : sig.rest = none) :
    "arguments" :: sig.names = sig.bound sig.params.length := by
  simp [bound, names, hr]

/-- A name that comes after others is neither one of them nor `this`. -/
theorem Distinct.fresh {vars : List String} (h : sig.Distinct)
    (hvars : vars ++ [name] <+: "arguments" :: sig.names) : name ≠ "this" ∧ name ∉ vars := by
  have hmem : name ∈ vars ++ [name] := List.mem_append_right _ (List.mem_singleton_self _)
  obtain ⟨hthis, hn⟩ := List.nodup_cons.1 h
  refine ⟨fun he => hthis (he ▸ hvars.subset hmem), fun hv => ?_⟩
  obtain ⟨-, -, apart⟩ := List.nodup_append.1 (hn.sublist hvars.sublist)
  exact apart name hv name (List.mem_singleton_self _) rfl

theorem Distinct.fresh_param (h : sig.Distinct) (hp : sig.params[i]? = some p) :
    p.name ≠ "this" ∧ p.name ∉ sig.bound i := by
  refine h.fresh ?_
  rw [← bound_succ hp, bound, names]
  refine List.prefix_cons_inj _ |>.2 ?_
  exact (List.IsPrefix.map _ (List.take_prefix _ _)).trans (List.prefix_append _ _)

theorem Distinct.fresh_rest (h : sig.Distinct) (hr : sig.rest = some name) :
    name ≠ "this" ∧ name ∉ sig.bound sig.params.length :=
  h.fresh (names_of_rest hr ▸ List.prefix_rfl)

end Signature

/-! ### States of a call -/

namespace State

/-- The state in which one more variable is bound. -/
def bound (s : State) (scope : ScopeId) (name : String) (v : Value) : State :=
  { s with scopes := s.scopes.setIfInBounds scope ((s.scopes.scope scope).insert .var name v) }

/-- The state with one more array. -/
def withArray (s : State) (items : List Value) : State :=
  { s with store := { s.store with arrays := s.store.arrays.push items.toArray } }

/-- The state in which a function begins to bind its parameters: the scope of the call has the
constant `this` and, as the value of `arguments`, a new array of all arguments. -/
def calling (s : State) (parent : ScopeId) (this : Value) (args : List Value) : State :=
  (s.withArray args).opened
    { parent := some parent
      vars := Table.ofList [("arguments", .array s.store.arrays.size)]
      consts := Table.ofList [("this", this)] }

/-- Whether the own names of a scope are the constant `this` and the given variables. -/
def Declares (s : State) (scope : ScopeId) (vars : List String) : Prop :=
  ∀ name, (s.scopes.scope scope).kindHere name
    = if name = "this" then some .const else if name ∈ vars then some .var else none

variable {s : State} {scope : ScopeId} {name : String} {vars : List String}

theorem create_bound (h : (s.scopes.scope scope).kindHere name = none) (v : Value) :
    s.scopes.create scope .var name (some v) = (.ok (), (s.bound scope name v).scopes) := by
  rw [Scopes.create, Scope.create, h]
  rfl

/-- One more variable is bound, and no other binding of its scope is changed. -/
theorem get?_bindings_bound (hscope : scope < s.scopes.size)
    (h : (s.scopes.scope scope).kindHere name = none) (v : Value) (other : String) :
    ((s.bound scope name v).scopes.scope scope).bindings.get? other
      = if other = name then some ⟨.var, v⟩ else (s.scopes.scope scope).bindings.get? other := by
  have here : (s.bound scope name v).scopes.scope scope
      = (s.scopes.scope scope).insert .var name v := by
    rw [State.bound, Scopes.set_eq_modify, Scopes.scope_modify, if_pos ⟨rfl, hscope⟩]
  have hnone : (s.scopes.scope scope).bindings.get? name = none := by
    rwa [Scope.kindHere_eq, Option.map_eq_none_iff] at h
  rw [here, Scope.get?_bindings_insert fun b hb => by rw [hnone] at hb; cases hb]

/-- A scope declares one more variable when that is bound. -/
theorem Declares.bound (h : s.Declares scope vars) (hscope : scope < s.scopes.size)
    (hthis : name ≠ "this") (hvars : name ∉ vars) (v : Value) :
    (s.bound scope name v).Declares scope (vars ++ [name]) := by
  intro other
  have hnone : (s.scopes.scope scope).kindHere name = none := by
    rw [h name, if_neg hthis, if_neg hvars]
  rw [Scope.kindHere_eq, get?_bindings_bound hscope hnone]
  by_cases ho : other = name
  · subst ho
    rw [if_pos rfl, if_neg hthis, if_pos (by simp)]
    rfl
  · rw [if_neg ho, ← Scope.kindHere_eq, h other]
    simp [ho]

end State

/-! ### Binding, step by step -/

/-- How parameters are bound in the scope of a call, with these arguments, which are also the items
of the array at the place `all`.  `BindsFrom … i s o` says that the first `i` of them have been
bound in the state `s`, and that `o` is what comes of binding the others. -/
inductive BindsFrom (ev : Evaluator) (scope : ScopeId) (all : ArrayId) (sig : Signature)
    (args : List Value) : Nat → State → Outcome State Unit → Prop
  | taken {i : Nat} {p : Param} {v : Value} {s : State} {o : Outcome State Unit}
      (hs : s.Declares scope (sig.bound i)) (hp : sig.params[i]? = some p)
      (hv : p.Takes args[i]? v)
      (given : ((s.bound scope p.name v).scopes.scope scope).valueHere p.name = some v)
      (h : BindsFrom ev scope all sig args (i + 1) (s.bound scope p.name v) o) :
      BindsFrom ev scope all sig args i s o
  | default {i : Nat} {p : Param} {init : Expr} {v : Value} {s s₁ : State}
      {o : Outcome State Unit}
      (hs : s.Declares scope (sig.bound i)) (hp : sig.params[i]? = some p)
      (hn : p.Needs init args[i]?) (hv : Eval.named ev init p.name scope s = .done v s₁)
      (hs₁ : s₁.Declares scope (sig.bound i))
      (given : ((s₁.bound scope p.name v).scopes.scope scope).valueHere p.name = some v)
      (h : BindsFrom ev scope all sig args (i + 1) (s₁.bound scope p.name v) o) :
      BindsFrom ev scope all sig args i s o
  | failed {i : Nat} {p : Param} {init : Expr} {e : EvalError} {s s₁ : State}
      (hs : s.Declares scope (sig.bound i)) (hp : sig.params[i]? = some p)
      (hn : p.Needs init args[i]?) (hv : Eval.named ev init p.name scope s = .failed e s₁) :
      BindsFrom ev scope all sig args i s (.failed e s₁)
  | endless {i : Nat} {p : Param} {init : Expr} {s : State}
      (hs : s.Declares scope (sig.bound i)) (hp : sig.params[i]? = some p)
      (hn : p.Needs init args[i]?) (hv : Eval.named ev init p.name scope s = .endless) :
      BindsFrom ev scope all sig args i s .endless
  | rest {name : String} {s s₁ : State} (hs : s.Declares scope (sig.bound sig.params.length))
      (hr : sig.rest = some name) (distinct : s.store.arrays.size ≠ all)
      (hs₁ : s₁ = (s.withArray (args.drop sig.params.length)).bound scope name
        (.array s.store.arrays.size))
      (declared : s₁.Declares scope (sig.bound sig.params.length ++ [name]))
      (given : (s₁.scopes.scope scope).valueHere name = some (.array s.store.arrays.size)) :
      BindsFrom ev scope all sig args sig.params.length s (.done () s₁)
  | done {s : State} (hs : s.Declares scope (sig.bound sig.params.length)) (hr : sig.rest = none) :
      BindsFrom ev scope all sig args sig.params.length s (.done () s)

/-! ### What a default leaves alone -/

/-- The embedder's functions take no arrays out of the store. -/
def Host.KeepsArrays (host : Host) : Prop :=
  ∀ id this args s s', (host.call id this args s).Ends s' → s.arrays.size ≤ s'.arrays.size

theorem Host.none_keepsArrays : Host.none.KeepsArrays := by
  rintro id this args s s' (⟨v, h⟩ | ⟨e, h⟩)
  · cases h
    exact Nat.le_refl _
  · cases h

/-- The law that no array is taken out of the store. -/
def StoreLaw.arrays {host : Host} (ha : host.KeepsArrays) : StoreLaw host where
  rel s s' := s.arrays.size ≤ s'.arrays.size
  err _ := True
  refl _ := Nat.le_refl _
  trans := Nat.le_trans
  ordinary _ := trivial
  newArray _ _ := Nat.le_of_lt (Array.size_push _ ▸ Nat.lt_succ_self _)
  modifyItems _ _ _ := Nat.le_of_eq Array.size_modify.symm
  newObject _ _ := Nat.le_refl _
  newNative _ _ := Nat.le_refl _
  modifyObject _ _ _ := Nat.le_refl _
  modifyClosure _ _ _ := Nat.le_refl _
  modifyNative _ _ _ := Nat.le_refl _
  console _ _ := Nat.le_refl _
  hostDone h := ha _ _ _ _ _ (.inl ⟨_, h⟩)
  hostFailed h := ⟨ha _ _ _ _ _ (.inr ⟨_, h⟩), trivial⟩

section kept

variable {host : Host} {n : Nat} {s : State} {scope : ScopeId} {α : Type} {Q : α → Prop}
variable {Γ : Reach} {F : Performer → Eval α}

/-- The law that no array of some earlier moment has been taken out of the store. -/
def Law.arrays (ha : host.KeepsArrays) (earlier : Store) : Law host {} :=
  .ofStore (fun s s' => s.arrays.size ≤ s'.arrays.size) (fun _ => Nat.le_refl _) Nat.le_trans
    (fun hm s => hm.leaves (StoreLaw.arrays ha) s) (fun _ _ => Nat.le_refl _) earlier

/-- A computation takes no array out of the store. -/
theorem keeps_arrays (ha : host.KeepsArrays) (h : Abides host {} Γ Q F) (s : State) :
    (F (Machine.perform host n) s).Leaves fun s' =>
      s.store.arrays.size ≤ s'.store.arrays.size := by
  let L := Law.arrays ha s.store
  have hi : L.inv Γ s := Nat.le_refl _
  exact (h.sound (L.keeps n) hi).1.leaves.mono fun _ hs => hs.1

/-- A computation that keeps a law of scopes. -/
theorem ScopeLaw.leaves (L : ScopeLaw fun _ => True) (hk : host.KeepsFunctions)
    (h : Abides host {} Γ Q F) (hw : WellScoped Γ s) (hΓ : L.reach Γ) (hi : L.inv s.scopes) :
    (F (Machine.perform host n) s).Leaves fun s' => WellScoped Γ s' ∧ L.inv s'.scopes :=
  (h.sound (L := L.law hk) ((L.law hk).keeps n) ⟨hw, hΓ, hi⟩).1.leaves.mono
    fun _ hs => ⟨hs.1.1, hs.1.2.2⟩

/-- A computation that does not own a scope below the root leaves its names declared as they are,
no more and no fewer. -/
theorem keeps_kinds (hk : host.KeepsFunctions) (h : Abides host {} (.seeing scope) Q F)
    (hw : WellScoped (.seeing scope) s) (h0 : scope ≠ rootScope) :
    (F (Machine.perform host n) s).Leaves fun s' => WellScoped (.seeing scope) s' ∧
      ∀ name, (s'.scopes.scope scope).kindHere name = (s.scopes.scope scope).kindHere name := by
  -- no name is added to the scope, and none is lost from it
  have added := ScopeLaw.leaves (n := n) (.addsOnly (fun _ => False) s.scopes) hk h hw
    (fun h _ => h) (.refl _ _)
  have undone := ScopeLaw.leaves (n := n) (.permanent (fun _ => True) s.scopes) hk h hw trivial
    (.refl _ _)
  refine (added.and undone).mono fun s' hs => ⟨hs.1.1, fun name => ?_⟩
  obtain ⟨⟨-, added⟩, -, undone⟩ := hs
  rw [Scope.kindHere_eq, Scope.kindHere_eq]
  cases hb : (s.scopes.scope scope).bindings.get? name with
  | some b =>
    obtain ⟨v, hv, -⟩ := undone.stays hb fun he => h0 he.1
    rw [hv]
    rfl
  | none =>
    cases hb' : (s'.scopes.scope scope).bindings.get? name with
    | none => rfl
    | some b' =>
      obtain ⟨b, hb₁⟩ := added.binds (hw.known rfl) h0 id ⟨b', hb'⟩
      rw [hb] at hb₁
      cases hb₁

end kept

/-! ### A call in order -/

/-- A state in which a call has bound its first parameters: its scope is below the root and declares
just these, and the array of all arguments is there. -/
structure Ready (scope : ScopeId) (all : ArrayId) (vars : List String) (s : State) : Prop where
  inOrder : WellScoped (.seeing scope) s
  below : scope ≠ rootScope
  declares : s.Declares scope vars
  array : all < s.store.arrays.size

section ready

variable {host : Host} {n : Nat} {s : State} {scope : ScopeId} {all : ArrayId}
variable {vars : List String} {name : String} {v : Value}

namespace Ready

/-- A default leaves the call in order, whatever comes of it. -/
theorem named (hk : host.KeepsFunctions) (ha : host.KeepsArrays) (h : Ready scope all vars s)
    (init : Expr) (name : String) :
    (Eval.named (Machine.evaluator host n) init name scope s).Leaves (Ready scope all vars) := by
  have evaluated : Abides host {} (.seeing scope) (fun _ => True)
      fun p => Eval.named (p.evaluator n) init name scope :=
    .named (Discipline.deleting_operand init) rfl
  have same : Eval.named ((Machine.perform host n).evaluator n) init name scope
      = Eval.named (Machine.evaluator host n) init name scope := by
    cases init <;> rfl
  rw [← same]
  have kinds := keeps_kinds (n := n) hk evaluated h.inOrder h.below
  have arrays := keeps_arrays (n := n) ha evaluated s
  refine (kinds.and arrays).mono fun s' hs => ?_
  exact ⟨hs.1.1, h.below, fun other => (hs.1.2 other).trans (h.declares other),
    Nat.lt_of_lt_of_le h.array hs.2⟩

theorem withArray (h : Ready scope all vars s) (items : List Value) :
    Ready scope all vars (s.withArray items) :=
  ⟨h.inOrder.sameFunctions rfl, h.below, h.declares,
    Nat.lt_trans h.array (by simp [State.withArray])⟩

/-- A name that is not declared yet becomes a variable with the value that it is given. -/
theorem declare (h : Ready scope all vars s) (hthis : name ≠ "this") (hvars : name ∉ vars)
    (v : Value) :
    Eval.declare scope .var name (some v) s = .done () (s.bound scope name v) ∧
      Ready scope all (vars ++ [name]) (s.bound scope name v) ∧
      ((s.bound scope name v).scopes.scope scope).valueHere name = some v := by
  have hsize : scope < s.scopes.size := h.inOrder.known rfl
  have hnone : (s.scopes.scope scope).kindHere name = none := by
    rw [h.declares name, if_neg hthis, if_neg hvars]
  have created := State.create_bound hnone v
  refine ⟨?_, ⟨?_, h.below, h.declares.bound hsize hthis hvars v, h.array⟩, ?_⟩
  · unfold Eval.declare Eval.onScopes
    dsimp only
    rw [created]
    rfl
  · have rewritten := h.inOrder.rewrite (Scopes.sameChains_create s.scopes scope .var name (some v))
    rwa [created] at rewritten
  · rw [Scope.valueHere_eq, State.get?_bindings_bound hsize hnone, if_pos rfl]
    rfl

end Ready

end ready

/-! ### Parameters in order -/

namespace Eval

variable (ev : Evaluator) (scope : ScopeId)

theorem bindParameters_cons (p : Param) (params : List Pattern) (args : List Value) :
    bindParameters ev scope (p.pattern :: params) args
      = bindParameter ev scope p.pattern (.orUndefined args.head?) >>= fun _ =>
          bindParameters ev scope params args.tail := by
  obtain ⟨name, - | init⟩ := p <;> rfl

/-- A parameter takes a value, or needs its default and takes the value of that. -/
theorem bindParameter_cases (p : Param) (arg : Option Value) :
    (∃ v, p.Takes arg v ∧ bindParameter ev scope p.pattern (.orUndefined arg)
      = declare scope .var p.name (some v)) ∨
    ∃ init, p.Needs init arg ∧ bindParameter ev scope p.pattern (.orUndefined arg)
      = named ev init p.name scope >>= fun v => declare scope .var p.name (some v) := by
  obtain ⟨name, - | init⟩ := p
  · cases arg with
    | none => exact .inl ⟨.undefined, .missing rfl, rfl⟩
    | some v => exact .inl ⟨v, .argument (.inl rfl), rfl⟩
  · cases arg with
    | none => exact .inr ⟨init, .missing rfl, rfl⟩
    | some v =>
      cases v with
      | undefined => exact .inr ⟨init, .undefined rfl, rfl⟩
      | _ => exact .inl ⟨_, .argument (.inr rfl), rfl⟩

end Eval

section binding

variable {host : Host} {n : Nat} {s : State} {scope : ScopeId} {all : ArrayId} {sig : Signature}
variable {args : List Value} {i : Nat}

/-- The evaluator binds the parameters that are left step by step. -/
theorem binds_from (hk : host.KeepsFunctions) (ha : host.KeepsArrays) (hd : sig.Distinct)
    {params : List Param} (hi : i ≤ sig.params.length) (hparams : sig.params.drop i = params)
    (h : Ready scope all (sig.bound i) s) :
    BindsFrom (Machine.evaluator host n) scope all sig args i s
      (Eval.bindParameters (Machine.evaluator host n) scope
        (params.map Param.pattern ++ sig.rest.toList.map fun name => .rest (.ident name))
        (args.drop i) s) := by
  induction params generalizing i s with
  | nil =>
    obtain rfl : i = sig.params.length := Nat.le_antisymm hi (List.drop_eq_nil_iff.1 hparams)
    cases hr : sig.rest with
    | none => exact .done h.declares hr
    | some name =>
      obtain ⟨hthis, hvars⟩ := hd.fresh_rest hr
      let items := args.drop sig.params.length
      obtain ⟨hdeclare, hready, given⟩ :=
        (h.withArray items).declare hthis hvars (.array s.store.arrays.size)
      have hbind : Eval.bindParameters (Machine.evaluator host n) scope [.rest (.ident name)] items
            s = .done () ((s.withArray items).bound scope name (.array s.store.arrays.size)) :=
        Run.bind_done hdeclare
      exact hbind ▸ .rest h.declares hr (Nat.ne_of_gt h.array) rfl hready.declares given
  | cons p params ih =>
    have hlt : i < sig.params.length := by
      refine Nat.lt_of_not_le fun hle => ?_
      rw [List.drop_eq_nil_of_le hle] at hparams
      cases hparams
    rw [List.drop_eq_getElem_cons hlt] at hparams
    obtain ⟨rfl, hrest⟩ := List.cons.inj hparams
    have hp : sig.params[i]? = some sig.params[i] := List.getElem?_eq_getElem hlt
    obtain ⟨hthis, hvars⟩ := hd.fresh_param hp
    generalize sig.params[i] = p at hp hthis hvars ⊢
    let ev := Machine.evaluator host n
    let rest := params.map Param.pattern ++ sig.rest.toList.map fun name => .rest (.ident name)
    -- with a value at hand, the parameter is declared and the others are bound
    have next {s : State} (h : Ready scope all (sig.bound i) s) (v : Value) :
        ((s.bound scope p.name v).scopes.scope scope).valueHere p.name = some v ∧
          BindsFrom ev scope all sig args (i + 1) (s.bound scope p.name v)
            ((Eval.declare scope .var p.name (some v) >>= fun _ =>
              Eval.bindParameters ev scope rest (args.drop (i + 1))) s) := by
      obtain ⟨hdeclare, hready, given⟩ := h.declare hthis hvars v
      rw [Run.bind_done hdeclare]
      rw [← Signature.bound_succ hp] at hready
      exact ⟨given, ih hlt hrest hready⟩
    rw [List.map_cons, List.cons_append, Eval.bindParameters_cons, List.head?_drop, List.tail_drop]
    obtain ⟨v, hv, heq⟩ | ⟨init, hneeds, heq⟩ := Eval.bindParameter_cases ev scope p args[i]?
    · rw [heq]
      obtain ⟨given, hbinds⟩ := next h v
      exact .taken h.declares hp hv given hbinds
    · rw [heq, bind_assoc]
      cases ho : Eval.named ev init p.name scope s with
      | done v s₁ =>
        have h₁ : Ready scope all (sig.bound i) s₁ :=
          (h.named hk ha init p.name).ends (.inl ⟨v, ho⟩)
        obtain ⟨given, hbinds⟩ := next h₁ v
        rw [Run.bind_done ho]
        exact .default h.declares hp hneeds ho h₁.declares given hbinds
      | failed e s₁ =>
        rw [Run.bind_failed ho]
        exact .failed h.declares hp hneeds ho
      | endless =>
        rw [Run.bind_endless ho]
        exact .endless h.declares hp hneeds ho

variable {ev : Evaluator} {o : Outcome State Unit} {s' : State}

/-- When all parameters are bound, their names are the own names of the scope. -/
theorem BindsFrom.declares (h : BindsFrom ev scope all sig args i s o) (ho : o = .done () s') :
    s'.Declares scope ("arguments" :: sig.names) := by
  induction h with
  | taken _ _ _ _ _ ih => exact ih ho
  | default _ _ _ _ _ _ _ ih => exact ih ho
  | failed => cases ho
  | endless => cases ho
  | rest _ hr _ _ declared =>
    cases ho
    rwa [Signature.names_of_rest hr]
  | done hs hr =>
    cases ho
    rwa [Signature.names_of_no_rest hr]

/-- The binding of parameters fails where a default does, and with its error. -/
theorem BindsFrom.of_failed (h : BindsFrom ev scope all sig args i s o) {e : EvalError}
    (ho : o = .failed e s') :
    ∃ j p init s₁, sig.params[j]? = some p ∧ p.Needs init args[j]? ∧
      s₁.Declares scope (sig.bound j) ∧ Eval.named ev init p.name scope s₁ = .failed e s' := by
  induction h with
  | taken _ _ _ _ _ ih => exact ih ho
  | default _ _ _ _ _ _ _ ih => exact ih ho
  | failed hs hp hn hv =>
    cases ho
    exact ⟨_, _, _, _, hp, hn, hs, hv⟩
  | endless => cases ho
  | rest => cases ho
  | done => cases ho

end binding

/-! ### Calls -/

/-- The body of a function is run in the scope of the call. -/
def Eval.runFunction (ev : Evaluator) (body : Body) (scope : ScopeId) : Eval Value :=
  match body with
  | .concise value => ev.expr value scope
  | .block stmts => do
    let completion ← runBody ev stmts scope
    resultOf completion

/-- A function that is no arrow begins with `this` and `arguments` in a new scope. -/
theorem Eval.invoke_calling (ev : Evaluator) {c : Closure} (hc : c.kind = .normal) (this : Value)
    (args : List Value) (s : State) :
    invoke ev c this args s
      = (bindParameters ev s.scopes.size c.node.params args >>= fun _ =>
          runFunction ev c.node.body s.scopes.size) (s.calling c.scope this args) := by
  let scope : Scope := { parent := some c.scope }
  let withThis : Scope := { scope with consts := Table.ofList [("this", this)] }
  -- the two declarations write into a scope that was just made
  have hthis : declare s.scopes.size .const "this" (some this) (s.opened scope)
      = .done () (s.opened withThis) := declare_opened s rfl
  have hargs : declare s.scopes.size .var "arguments" (some (.array s.store.arrays.size))
      ((s.withArray args).opened withThis) = .done () (s.calling c.scope this args) :=
    declare_opened (s.withArray args) rfl
  let inside := bindParameters ev s.scopes.size c.node.params args >>= fun _ =>
    runFunction ev c.node.body s.scopes.size
  let withArguments := fun all =>
    declare s.scopes.size .var "arguments" (some all) >>= fun _ => inside
  simp only [invoke, if_pos hc]
  calc _ = (declare s.scopes.size .const "this" (some this) >>= fun _ =>
          onStore (Store.newArray args.toArray) >>= withArguments) (s.opened scope) := rfl
    _ = (onStore (Store.newArray args.toArray) >>= withArguments) (s.opened withThis) :=
      Run.bind_done hthis
    _ = withArguments (.array s.store.arrays.size) ((s.withArray args).opened withThis) := rfl
    _ = inside (s.calling c.scope this args) := Run.bind_done hargs

/-- The scope of a call, when it begins to bind its parameters. -/
theorem State.scope_calling (s : State) (parent : ScopeId) (this : Value) (args : List Value) :
    (s.calling parent this args).scopes.scope s.scopes.size
      = { parent := some parent
          vars := Table.ofList [("arguments", .array s.store.arrays.size)]
          consts := Table.ofList [("this", this)] } := by
  rw [calling, opened, Scopes.scope_push]
  exact if_pos rfl

/-- A call that begins to bind its parameters is in order. -/
theorem WellScoped.ready {Γ : Reach} {s : State} (hw : WellScoped Γ s) {parent : ScopeId}
    (hp : parent < s.scopes.size) (this : Value) (args : List Value) :
    Ready s.scopes.size s.store.arrays.size ["arguments"] (s.calling parent this args) where
  inOrder := by
    have stored : WellScoped Γ (s.withArray args) := hw.sameFunctions rfl
    exact (stored.opened rfl hp).narrow (Reach.seeing_le Reach.known_add)
  below := Nat.ne_of_gt hw.rooted.nonempty
  declares name := by
    rw [State.scope_calling]
    by_cases hthis : name = "this"
    · subst hthis
      rfl
    · by_cases hargs : name = "arguments"
      · subst hargs
        rfl
      · simp [Scope.kindHere, Table.contains, Table.get?, Table.ofList, Table.insertAll,
          Table.insert, Table.insertEntry, Table.empty, hthis, hargs]
  array := by simp [State.calling, State.opened, State.withArray]

/-- **Parameters are bound in order.**  Take a function of a reachable state that is no arrow, and
whose parameters have names that are different from each other and from `this` and `arguments`.
When it is called, a new scope is made in which `this` is a constant with the given value and
`arguments` is a new array of all arguments, then its parameters are bound, and then its body is
run.  The parameters are bound from left to right (`BindsFrom`).  Each takes its argument, or
undefined if there is none; if it has a default and no argument, or an undefined one, then the
default is evaluated in the scope of the call, where just the earlier parameters are bound, and it
takes the value of that.  The rest parameter takes a new array, which is not that of `arguments`, of
the arguments that are left.  At the end the names of the scope are `this`, `arguments` and the
parameters.  The binding fails only where a default does. -/
theorem parameters_are_bound_in_order {host : Host} (hk : host.KeepsFunctions)
    (ha : host.KeepsArrays) {s : State} (hr : Reachable host s) (id : ClosureId)
    (hnormal : (s.store.closure id).kind = .normal) {sig : Signature}
    (hsig : (s.store.closure id).node.params = sig.patterns) (hd : sig.Distinct) (n : Nat)
    (this : Value) (args : List Value) :
    let c := s.store.closure id
    let ev := Machine.evaluator host n
    let scope := s.scopes.size
    let all := s.store.arrays.size
    let s₀ := s.calling c.scope this args
    let binding := Eval.bindParameters ev scope c.node.params args
    Machine.perform host n (.invoke c this args) s
      = (binding >>= fun _ => Eval.runFunction ev c.node.body scope) s₀ ∧
    (s₀.scopes.scope scope).valueHere "this" = some this ∧
    (s₀.scopes.scope scope).valueHere "arguments" = some (.array all) ∧
    s₀.store.items all = args.toArray ∧
    BindsFrom ev scope all sig args 0 s₀ (binding s₀) ∧
    (∀ s', binding s₀ = .done () s' → s'.Declares scope ("arguments" :: sig.names)) ∧
    ∀ e s', binding s₀ = .failed e s' → ∃ i p init s₁, sig.params[i]? = some p ∧
      p.Needs init args[i]? ∧ s₁.Declares scope (sig.bound i) ∧
      Eval.named ev init p.name scope s₁ = .failed e s' := by
  intro c ev scope all s₀ binding
  have hw := hr.wellScoped hk
  -- binding starts where the call has declared `this` and `arguments`
  have hbinds : BindsFrom ev scope all sig args 0 s₀ (binding s₀) := by
    have hparams : c.node.params = sig.patterns := hsig
    dsimp only [binding]
    rw [hparams]
    exact binds_from hk ha hd (Nat.zero_le _) rfl (hw.ready (hw.made id) this args)
  have here := s.scope_calling c.scope this args
  refine ⟨Eval.invoke_calling ev hnormal this args s, ?_, ?_, ?_, hbinds,
    fun s' => hbinds.declares, fun e s' => hbinds.of_failed⟩
  · rw [here]
    rfl
  · rw [here]
    rfl
  · simp [s₀, all, State.calling, State.opened, State.withArray, Store.items]

/-- A function of `a`, `b = a` and `...rest` is given four arguments, of which the second is
undefined. -/
theorem default_stands_in_and_rest_is_apart :
    let sig : Signature := ⟨[⟨"a", none⟩, ⟨"b", some (.ident "a")⟩], some "rest"⟩
    let args : List Value := [.str "x", .undefined, .str "y", .str "z"]
    let ev := Machine.evaluator Host.none 4
    ∃ s s' rest, Reachable Host.none s ∧ (s.store.closure 0).kind = .normal ∧
      (s.store.closure 0).node.params = sig.patterns ∧ sig.Distinct ∧
      Eval.bindParameters ev s.scopes.size (s.store.closure 0).node.params args
        (s.calling rootScope .null args) = .done () s' ∧
      s'.scopes.lookup s.scopes.size "b" = some (.str "x") ∧
      s'.scopes.lookup s.scopes.size "rest" = some (.array rest) ∧
      s'.store.items rest = #[.str "y", .str "z"] ∧ rest ≠ s.store.arrays.size ∧
      BindsFrom ev s.scopes.size s.store.arrays.size sig args 0 (s.calling rootScope .null args)
        (.done () s') ∧
      s'.Declares s.scopes.size ["arguments", "a", "b", "rest"] := by
  intro sig args ev
  let f : Function := .mk (some "f") sig.patterns (.block []) false false
  obtain ⟨i, s₀, s, s', rest, hbuild, hs, hkind, hparams, hscope, hbind, hb, hrest, hitems, hne⟩ :
      ∃ i s₀ s s' rest, Interpreter.build {} {} = .done i s₀ ∧
        (Machine.perform Host.none 9 (.program none ⟨[.function f], .script⟩) s₀).Ends s ∧
        (s.store.closure 0).kind = .normal ∧ (s.store.closure 0).node.params = sig.patterns ∧
        (s.store.closure 0).scope = rootScope ∧
        Eval.bindParameters ev s.scopes.size (s.store.closure 0).node.params args
          (s.calling rootScope .null args) = .done () s' ∧
        s'.scopes.lookup s.scopes.size "b" = some (.str "x") ∧
        s'.scopes.lookup s.scopes.size "rest" = some (.array rest) ∧
        s'.store.items rest = #[.str "y", .str "z"] ∧ rest ≠ s.store.arrays.size :=
    ⟨_, _, _, _, _, rfl, .inl ⟨_, rfl⟩, rfl, rfl, rfl, rfl, rfl, rfl, rfl, nofun⟩
  have hk := Host.none_keepsFunctions
  have built : Reachable Host.none s₀ := .of_build hbuild
  have hr : Reachable Host.none s := built.performed (built.existing hk fun _ => id) hs
  have hd : sig.Distinct := by
    unfold Signature.Distinct
    decide
  obtain ⟨-, -, -, -, hbinds, hdeclares, -⟩ := parameters_are_bound_in_order hk
    Host.none_keepsArrays hr 0 hkind hparams hd 4 .null args
  rw [hscope] at hbinds hdeclares
  rw [hbind] at hbinds
  exact ⟨s, s', rest, hr, hkind, hparams, hd, hbind, hb, hrest, hitems, hne, hbinds,
    hdeclares s' hbind⟩

end Estree
