/-
Estree/Proofs/Building.lean

What is in the root scope of a new interpreter.

Names come from three sides: the standard table, the settings of the embedder, and in module mode
`module` and `exports`.  Settings come one after the other, and the last value of a name stays
(`Config.get?_bindings_ofSettings`).  A table that is entered into another one replaces what this
has (`Table.get?_insertAll_table`), so that the embedder's names stand in front of the standard ones
(`Interpreter.get?_rootVars`).  What the standard names stand for is said by `Catalog.meanings`, and
the table that is made answers to it entry by entry (`Interpreter.StandardTable`).

All these are declared as `var` in an empty scope, which cannot fail and leaves a scope with just
that table (`Interpreter.prepare_eq_of_standard`).  The two constants come last, and a name that is
a `var` already cannot become a constant (`Eval.declare_const_root`).  So building fails if the
embedder has added one of the two, for the one that is declared first.  The standard names do not
stand in the way of them, since neither is one of these (`StandardTable.get?_reserved`).
-/
import Mathlib.Data.List.Induction
import Estree.Proofs.Standard
import Estree.Proofs.Unmentioned

namespace Estree

/-! ### Tables -/

namespace Table

variable {α : Type} {name : String} {v : α} {pairs : List (String × α)}

/-- The value that comes last for a name among pairs. -/
def IsLast (pairs : List (String × α)) (name : String) (v : α) : Prop :=
  ∃ before after, pairs = before ++ (name, v) :: after ∧ name ∉ after.map Prod.fst

/-- The last pair under a name is the one that is found from the end. -/
theorem lookup_reverse_eq_some_iff : pairs.reverse.lookup name = some v ↔ IsLast pairs name v := by
  rw [List.lookup_eq_some_iff]
  constructor
  · rintro ⟨after, before, h, hafter⟩
    refine ⟨before.reverse, after.reverse, ?_, ?_⟩
    · rw [List.reverse_eq_iff.1 h]
      simp
    · intro hmem
      obtain ⟨p, hp, rfl⟩ := List.mem_map.1 hmem
      exact bne_iff_ne.1 (hafter p (List.mem_reverse.1 hp)) rfl
  · rintro ⟨before, after, rfl, hafter⟩
    refine ⟨after.reverse, before.reverse, by simp, fun p hp => bne_iff_ne.2 ?_⟩
    rintro rfl
    exact hafter (List.mem_map_of_mem (List.mem_reverse.1 hp))

theorem isSome_lookup_reverse (pairs : List (String × α)) (name : String) :
    (pairs.reverse.lookup name).isSome = true ↔ name ∈ pairs.map Prod.fst := by
  rw [isSome_lookup_iff, List.map_reverse, List.mem_reverse]

end Table

/-! ### Settings -/

namespace Setting

/-- The names that are added, with their values, in order. -/
def pairs : Setting → List (String × Value)
  | .binding name value => [(name, value)]
  | .bindings pairs => pairs
  | .standardGlobals | .maxCallDepth _ | .isModule _ => []

/-- All names that are added, with their values, in order. -/
def added (settings : List Setting) : List (String × Value) :=
  settings.flatMap pairs

/-- All names that are added, as often as they are. -/
def names (settings : List Setting) : List String :=
  (added settings).map Prod.fst

/-- Whether the standard names are asked for. -/
def isStandard : Setting → Bool
  | .standardGlobals => true
  | .binding _ _ | .bindings _ | .maxCallDepth _ | .isModule _ => false

/-- The standard names with what they stand for, if they are asked for. -/
def standards (settings : List Setting) : List (String × Catalog.Meaning) :=
  if settings.any isStandard then Catalog.meanings else []

/-- What is said about module mode. -/
def mode? : Setting → Option Bool
  | .isModule on => some on
  | .binding _ _ | .bindings _ | .standardGlobals | .maxCallDepth _ => none

/-- Whether module mode is on in the end; it is off if nothing is said. -/
def moduleMode (settings : List Setting) : Bool :=
  (settings.filterMap mode?).getLast?.getD false

end Setting

namespace Config

variable {c : Config}

/-- One more setting: what it adds hides what was added before it. -/
theorem get?_bindings_add (c : Config) (setting : Setting) (name : String) :
    (c.add setting).bindings.get? name
      = (setting.pairs.reverse.lookup name).or (c.bindings.get? name) := by
  cases setting with
  | binding other value =>
    show (c.bindings.insert other value).get? name = ([(other, value)].lookup name).or _
    rw [Table.get?_insert, Table.lookup_cons]
    split <;> rfl
  | bindings pairs =>
    show (c.bindings.insertAll (Table.ofList pairs).entries).get? name
      = (pairs.reverse.lookup name).or _
    rw [Table.get?_insertAll_table, Table.get?_ofList]
  | standardGlobals | maxCallDepth | isModule => rfl

/-- Settings are applied one after the other. -/
theorem ofSettings_concat (settings : List Setting) (setting : Setting) :
    ofSettings (settings ++ [setting]) = (ofSettings settings).add setting := by
  rw [ofSettings, List.foldl_append]
  rfl

/-- The last value that is added for a name stays. -/
theorem get?_bindings_ofSettings (settings : List Setting) (name : String) :
    (ofSettings settings).bindings.get? name = (Setting.added settings).reverse.lookup name := by
  -- from the end, since the last setting that has the name decides
  induction settings using List.reverseRecOn with
  | nil => rfl
  | append_singleton settings setting ih =>
    have hadded : Setting.added (settings ++ [setting])
        = Setting.added settings ++ setting.pairs := by simp [Setting.added]
    rw [ofSettings_concat, get?_bindings_add, ih, hadded, List.reverse_append, List.lookup_append]

/-- The standard names are installed if any of the settings asks for them. -/
theorem standardGlobals_ofSettings (settings : List Setting) :
    (ofSettings settings).standardGlobals = settings.any Setting.isStandard := by
  induction settings using List.reverseRecOn with
  | nil => rfl
  | append_singleton settings setting ih =>
    rw [ofSettings_concat, List.any_append, ← ih]
    cases setting <;> simp [add, Setting.isStandard]

/-- Of the settings that say whether it is a module the last one decides. -/
theorem isModule_ofSettings (settings : List Setting) :
    (ofSettings settings).isModule = Setting.moduleMode settings := by
  induction settings using List.reverseRecOn with
  | nil => rfl
  | append_singleton settings setting ih =>
    rw [ofSettings_concat, Setting.moduleMode, List.filterMap_append]
    cases setting <;> simp [add, Setting.mode?, ih, Setting.moduleMode]

end Config

/-! ### One scope -/

section

variable {t c : Table Value} {name : String} {v : Value} {b : Binding} {s : Scope}

/-- A scope itself binds a name, in one way. -/
structure Scope.BindsTo (s : Scope) (kind : VarKind) (name : String) (v : Value) : Prop where
  kind : s.kindHere name = some kind
  value : s.valueHere name = some v

/-- A binding of a scope is what the lookup and the kind of a name show. -/
theorem Scope.bindsTo_of_get? (h : s.bindings.get? name = some b) :
    s.BindsTo b.kind name b.value where
  kind := by
    rw [kindHere_eq, h]
    rfl
  value := by
    rw [valueHere_eq, h]
    rfl

theorem Scope.isSome_kindHere (s : Scope) (name : String) :
    (s.kindHere name).isSome = (s.bindings.get? name).isSome := by
  rw [kindHere_eq, Option.isSome_map]

/-- A state with nothing but a root scope, in which there are no `let`s. -/
abbrev State.ofRoot (store : Store) (vars consts : Table Value) (calls : CallStack) : State :=
  { store, scopes := #[{ vars, consts }], calls }

/-- A constant cannot have a name that is declared already. -/
theorem Eval.declare_const_root (t c : Table Value) (name : String) (v : Value) (store : Store)
    (calls : CallStack) :
    declare rootScope .const name (some v) (.ofRoot store t c calls)
      = if t.contains name || c.contains name then
          .failed { cause := .declaredTwice name } (.ofRoot store t c calls)
        else .done () (.ofRoot store t (c.insert name v) calls) := by
  have hc : Scope.create { vars := t, consts := c } .const name (some v)
      = if t.contains name || c.contains name then .error (.declaredTwice name)
        else .ok { vars := t, consts := c.insert name v } := by
    unfold Scope.create Scope.kindHere
    cases t.contains name <;> cases c.contains name <;> rfl
  have hroot : Scopes.scope #[{ vars := t, consts := c }] rootScope
      = { vars := t, consts := c } := rfl
  unfold declare onScopes Scopes.create
  dsimp only
  rw [hroot, hc]
  cases t.contains name || c.contains name <;> rfl

end

/-! ### The module -/

/-- The store with the two objects of a module: what it exports, and the module itself, which has
this object as its only property. -/
def Store.withModule (s : Store) : Store :=
  { s with
    objects := (s.objects.push {}).push { props := .ofList [("exports", .object s.objects.size)] } }

theorem Store.addedTo_withModule (s : Store) : s.AddedTo s.withModule :=
  (AddedTo.newObject s {}).trans (.newObject _ _)

/-- The two objects that a module is given are new, and the one is a property of the other. -/
theorem Store.objects_withModule (s : Store) :
    s.withModule.objects[s.objects.size]? = some {} ∧
      s.withModule.objects[s.objects.size + 1]?
        = some { props := .ofList [("exports", .object s.objects.size)] } := by
  have hsize : (s.objects.push {}).size = s.objects.size + 1 := Array.size_push ..
  rw [withModule]
  constructor
  · rw [Array.getElem?_push_lt (by simp), Array.getElem_push_eq]
  · rw [← hsize, Array.getElem?_push_size]

namespace Interpreter

section

variable {t : Table Value} {store : Store} {calls : CallStack}

/-- The module object of a store. -/
def moduleValue (store : Store) : Value :=
  .object (store.objects.size + 1)

/-- What the module of a store exports. -/
def exportsValue (store : Store) : Value :=
  .object store.objects.size

/-- Both objects are made before anything is declared. -/
theorem installModule_eq (t : Table Value) (store : Store) (calls : CallStack) :
    installModule rootScope (.ofRoot store t .empty calls)
      = (do
          Eval.declare rootScope .const "module" (some (moduleValue store))
          Eval.declare rootScope .const "exports" (some (exportsValue store))
          return moduleValue store : Eval Value) (.ofRoot store.withModule t .empty calls) := by
  have hsize : (store.objects.push {}).size = store.objects.size + 1 := Array.size_push ..
  rw [moduleValue, ← hsize]
  rfl

/-- A name that the embedder has taken cannot be declared for the module. -/
theorem installModule_failed_module (hm : t.contains "module" = true) :
    ∃ s, installModule rootScope (.ofRoot store t .empty calls)
      = .failed { cause := .declaredTwice "module" } s := by
  have hmodule :=
    Eval.declare_const_root t .empty "module" (moduleValue store) store.withModule calls
  rw [hm, Bool.true_or, if_pos rfl] at hmodule
  rw [installModule_eq]
  exact ⟨_, Run.bind_failed hmodule⟩

variable (hm : t.contains "module" = false)

include hm

/-- The first of the two declarations of a module goes through. -/
theorem declare_module :
    Eval.declare rootScope .const "module" (some (moduleValue store))
        (.ofRoot store.withModule t .empty calls)
      = .done () (.ofRoot store.withModule t (.ofList [("module", moduleValue store)]) calls) := by
  rw [Eval.declare_const_root, hm]
  rfl

/-- So it is with the second name. -/
theorem installModule_failed_exports (he : t.contains "exports" = true) :
    ∃ s, installModule rootScope (.ofRoot store t .empty calls)
      = .failed { cause := .declaredTwice "exports" } s := by
  have hexports := Eval.declare_const_root t (.ofList [("module", moduleValue store)]) "exports"
    (exportsValue store) store.withModule calls
  rw [he, Bool.true_or, if_pos rfl] at hexports
  rw [installModule_eq, Run.bind_done (declare_module hm)]
  exact ⟨_, Run.bind_failed hexports⟩

/-- If neither name is taken, both are declared, and nothing else is changed. -/
theorem installModule_done (he : t.contains "exports" = false) :
    installModule rootScope (.ofRoot store t .empty calls)
      = .done (moduleValue store) (.ofRoot store.withModule t
          (.ofList [("module", moduleValue store), ("exports", exportsValue store)]) calls) := by
  have hexports : Eval.declare rootScope .const "exports" (some (exportsValue store))
      (.ofRoot store.withModule t (.ofList [("module", moduleValue store)]) calls) = .done ()
        (.ofRoot store.withModule t
          (.ofList [("module", moduleValue store), ("exports", exportsValue store)]) calls) := by
    rw [Eval.declare_const_root, he]
    rfl
  rw [installModule_eq, Run.bind_done (declare_module hm), Run.bind_done hexports]
  rfl

end

/-! ### The root scope -/

/-- The standard table with the store after it has been made: its entries are what the standard
names stand for, in every store that has been added to.  Both are empty-handed if it is not asked
for. -/
structure StandardTable (settings : List Setting) (store : Store) (standard : Table Value)
    (made : Store) : Prop where
  run : (if settings.any Setting.isStandard then Catalog.standard else pure .empty) store
    = .done standard made
  added : store.AddedTo made
  answers : ∀ t, made.AddedTo t →
    List.Forall₂ (Catalog.Meaning.Answers store t) (Setting.standards settings) standard.entries

/-- The names that are declared as `var`: those of the embedder in front of the standard ones. -/
def rootVars (settings : List Setting) (standard : Table Value) : Table Value :=
  standard.insertAll (Config.ofSettings settings).bindings.entries

section

variable {settings : List Setting} {standard : Table Value} {store made : Store} {name : String}
variable {v : Value}

/-- The standard table can be made in every store, and each of its values answers its meaning. -/
theorem exists_standardTable (settings : List Setting) (store : Store) :
    ∃ standard made, StandardTable settings store standard made := by
  cases hasked : settings.any Setting.isStandard with
  | false =>
    refine ⟨.empty, store, by rw [hasked]; rfl, .refl store, fun t _ => ?_⟩
    rw [Setting.standards, hasked]
    exact .nil
  | true =>
    obtain ⟨standard, made, hmade, hadded, hanswers⟩ :=
      Catalog.makes_standard store store (.refl store)
    refine ⟨standard, made, by rw [hasked]; exact hmade, hadded, fun t ht => ?_⟩
    rw [Setting.standards, hasked]
    exact hanswers t ht

/-- It has the standard names, in the order of the catalog, or none. -/
theorem StandardTable.keys (h : StandardTable settings store standard made) :
    standard.keys = (Setting.standards settings).map Prod.fst :=
  Catalog.map_fst_of_answers (h.answers made (.refl made))

/-- The names of a module are no standard names. -/
theorem StandardTable.get?_reserved (h : StandardTable settings store standard made)
    (hname : name ∉ Catalog.meanings.map Prod.fst) : standard.get? name = none := by
  have hkeys : name ∉ standard.keys := by
    rw [h.keys, Setting.standards]
    split
    · exact hname
    · exact List.not_mem_nil
  rw [← Table.contains_iff] at hkeys
  simpa [Table.contains] using hkeys

/-- The value of a `var` is the last one that the embedder has added, or else the standard one. -/
theorem get?_rootVars (settings : List Setting) (standard : Table Value) (name : String) :
    (rootVars settings standard).get? name
      = ((Setting.added settings).reverse.lookup name).or (standard.get? name) := by
  rw [rootVars, Table.get?_insertAll_table, Config.get?_bindings_ofSettings]

/-- What is a `var` of the root has been added or is a standard name. -/
theorem contains_rootVars_iff : (rootVars settings standard).contains name = true ↔
    name ∈ Setting.names settings ∨ name ∈ standard.keys := by
  rw [Table.contains, get?_rootVars, Option.isSome_or, Bool.or_eq_true, Table.isSome_lookup_reverse,
    ← Setting.names, ← Table.contains_iff, Table.contains]

/-- A name that is no standard one is a `var` only if it has been added. -/
theorem contains_rootVars_reserved_iff (h : StandardTable settings store standard made)
    (hname : name ∉ Catalog.meanings.map Prod.fst) :
    (rootVars settings standard).contains name = true ↔ name ∈ Setting.names settings := by
  rw [Table.contains, get?_rootVars, h.get?_reserved hname, Option.or_none,
    Table.isSome_lookup_reverse, Setting.names]

/-- Entering names cannot fail, and leaves a scope of `var`s. -/
theorem prepare_eq_of_standard (h : StandardTable settings store standard made)
    (calls : CallStack) :
    prepare (.ofSettings settings) { store, scopes := #[{}], calls }
      = (if Setting.moduleMode settings then some <$> installModule rootScope else pure none)
        (.ofRoot made (rootVars settings standard) .empty calls) := by
  have hmade : Eval.onStore (if (Config.ofSettings settings).standardGlobals then Catalog.standard
      else pure Table.empty) { store, scopes := #[{}], calls }
      = .done standard { store := made, scopes := #[{}], calls } := by
    rw [Config.standardGlobals_ofSettings]
    simp only [Eval.onStore, h.run]
  have hinstall := install_root (rootVars settings standard).entries .empty made calls
  rw [← Table.ofList, Table.ofList_entries] at hinstall
  have hempty : (#[{}] : Scopes) = #[{ vars := Table.empty }] := rfl
  rw [prepare_eq, Run.bind_done hmade, enterNames, Config.isModule_ofSettings, ← rootVars, hempty,
    Run.bind_done hinstall]
  cases Setting.moduleMode settings <;> rfl

/-! ### What is built -/

/-- The root scope of an interpreter. -/
def root (i : Interpreter) : Scope :=
  i.state.scopes.scope rootScope

/-- A new interpreter whose root scope has the names of all three sides, and no others: those of the
embedder with the values that come last, the standard ones that these do not replace with what they
stand for, and in module mode the two constants, for two new objects: the first has the other one as
its only property.  The store it is built over has only been added to. -/
structure Furnished (settings : List Setting) (store : Store) (i : Interpreter) : Prop where
  alone : i.state.scopes.size = 1
  kept : store.AddedTo i.state.store
  names : ∀ name, (i.root.kindHere name).isSome = true ↔
    name ∈ Setting.names settings ∨ name ∈ (Setting.standards settings).map Prod.fst ∨
      Setting.moduleMode settings = true ∧ (name = "module" ∨ name = "exports")
  added : ∀ name v, Table.IsLast (Setting.added settings) name v → i.root.BindsTo .var name v
  standard : ∀ name meaning, (name, meaning) ∈ Setting.standards settings →
    name ∉ Setting.names settings →
      ∃ v, meaning.Stands store i.state.store name v ∧ i.root.BindsTo .var name v
  module : Setting.moduleMode settings = true → ∃ m e, store.objects.size ≤ e ∧ e < m ∧
    i.module = some (.object m) ∧
    i.root.BindsTo .const "module" (.object m) ∧ i.root.BindsTo .const "exports" (.object e) ∧
    i.state.store.objects[m]? = some { props := .ofList [("exports", .object e)] } ∧
    i.state.store.objects[e]? = some {}
  script : Setting.moduleMode settings = false → i.module = none

section

variable {i : Interpreter} {consts : Table Value} {calls : CallStack} {last : Store}
variable (hi : i.state = .ofRoot last (rootVars settings standard) consts calls)

include hi

/-- A binding of the root is a `var` of the table, or else a constant of the module. -/
theorem get?_bindings_of_root (name : String) : i.root.bindings.get? name
    = (((rootVars settings standard).get? name).map (Binding.mk .var)).or
        ((consts.get? name).map (Binding.mk .const)) := by
  rw [root, hi]
  exact Scope.get?_bindings ..

theorem names_of_root (name : String) : (i.root.kindHere name).isSome = true ↔
    name ∈ Setting.names settings ∨ name ∈ standard.keys ∨ name ∈ consts.keys := by
  rw [Scope.isSome_kindHere, get?_bindings_of_root hi, Option.isSome_or, Option.isSome_map,
    Option.isSome_map, Bool.or_eq_true, ← Table.contains, ← Table.contains, contains_rootVars_iff,
    Table.contains_iff, or_assoc]

theorem binds_var (h : (rootVars settings standard).get? name = some v) :
    i.root.BindsTo .var name v := by
  refine Scope.bindsTo_of_get? (b := ⟨.var, v⟩) ?_
  rw [get?_bindings_of_root hi, h]
  rfl

theorem binds_const (h : (rootVars settings standard).contains name = false)
    (hc : consts.get? name = some v) : i.root.BindsTo .const name v := by
  refine Scope.bindsTo_of_get? (b := ⟨.const, v⟩) ?_
  have hnone : (rootVars settings standard).get? name = none := by simpa [Table.contains] using h
  rw [get?_bindings_of_root hi, hnone, hc]
  rfl

/-- What the settings add last under a name is what the root binds it to. -/
theorem binds_added (h : Table.IsLast (Setting.added settings) name v) :
    i.root.BindsTo .var name v := by
  refine binds_var hi ?_
  rw [get?_rootVars, Table.lookup_reverse_eq_some_iff.2 h]
  rfl

/-- A standard name that the embedder does not add has a value that is what it stands for, also
after more has been made. -/
theorem binds_standard (h : StandardTable settings store standard made) (hlast : made.AddedTo last)
    {meaning : Catalog.Meaning} (hm : (name, meaning) ∈ Setting.standards settings)
    (hn : name ∉ Setting.names settings) :
    ∃ v, meaning.Stands store last name v ∧ i.root.BindsTo .var name v := by
  obtain ⟨v, hv, hstands⟩ := Catalog.exists_of_answers (h.answers last hlast) hm
  refine ⟨v, hstands, binds_var hi ?_⟩
  rw [Setting.names, ← Table.isSome_lookup_reverse, Option.not_isSome_iff_eq_none] at hn
  rw [get?_rootVars, hn, Table.get?_of_mem hv]
  rfl

end

section

variable (h : StandardTable settings store standard made)

include h

/-- Without module mode, there are the `var`s alone. -/
theorem furnished_script (hmode : Setting.moduleMode settings = false) (calls : CallStack) :
    Furnished settings store
      { state := .ofRoot made (rootVars settings standard) .empty calls, module := none } where
  alone := rfl
  kept := h.added
  names name := by
    rw [names_of_root rfl, h.keys, hmode]
    simp [Table.keys]
  added _ _ := binds_added rfl
  standard _ _ := binds_standard rfl h (.refl made)
  module hon := absurd (hmode.symm.trans hon) Bool.false_ne_true
  script _ := rfl

/-- A root with the two constants of a module is furnished, if the settings leave their names alone.
-/
theorem furnished_module (hmode : Setting.moduleMode settings = true)
    (hm : (rootVars settings standard).contains "module" = false)
    (he : (rootVars settings standard).contains "exports" = false) (calls : CallStack) :
    Furnished settings store
      { state := .ofRoot made.withModule (rootVars settings standard)
          (.ofList [("module", moduleValue made), ("exports", exportsValue made)]) calls
        module := some (moduleValue made) } where
  alone := rfl
  kept := h.added.trans made.addedTo_withModule
  -- the two names of the module stand behind the variables of the root
  names name := by
    have hconsts :
        (Table.ofList [("module", moduleValue made), ("exports", exportsValue made)]).keys
          = ["module", "exports"] := rfl
    rw [names_of_root rfl, h.keys, hmode, hconsts]
    simp
  added _ _ := binds_added rfl
  standard _ _ := binds_standard rfl h made.addedTo_withModule
  module _ := by
    obtain ⟨he', hm'⟩ := made.objects_withModule
    exact ⟨made.objects.size + 1, made.objects.size, h.added.objects_size_le, Nat.lt_succ_self _,
      rfl, binds_const rfl hm rfl, binds_const rfl he rfl, hm', he'⟩
  script hoff := absurd (hoff.symm.trans hmode) Bool.false_ne_true

/-- Without a module building always goes through. -/
theorem build_script (hmode : Setting.moduleMode settings = false) :
    ∃ i, build (.ofSettings settings) store = .done i i.state ∧ Furnished settings store i := by
  refine ⟨_, ?_, furnished_script h hmode { limit := (Config.ofSettings settings).maxCallDepth }⟩
  rw [build, prepare_eq_of_standard h, hmode]
  rfl

variable (hmode : Setting.moduleMode settings = true)

include hmode

/-- With one it does if neither name has been added. -/
theorem build_module (hm : "module" ∉ Setting.names settings)
    (he : "exports" ∉ Setting.names settings) :
    ∃ i, build (.ofSettings settings) store = .done i i.state ∧ Furnished settings store i := by
  rw [← contains_rootVars_reserved_iff h (by decide), Bool.not_eq_true] at hm he
  refine ⟨_, ?_, furnished_module h hmode hm he
    { limit := (Config.ofSettings settings).maxCallDepth }⟩
  rw [build, prepare_eq_of_standard h, hmode, if_pos rfl, map_eq_pure_bind,
    Run.bind_done (installModule_done hm he)]
  rfl

/-- If one of them has been, building fails with the first that is taken. -/
theorem build_failed
    (hname : "module" ∈ Setting.names settings ∨ "exports" ∈ Setting.names settings) :
    ∃ s, build (.ofSettings settings) store = .failed ⟨.declaredTwice
      (if "module" ∈ Setting.names settings then "module" else "exports"), none⟩ s := by
  have hfails {e : EvalError} {s : State} (hinstall : installModule rootScope (.ofRoot made
      (rootVars settings standard) .empty { limit := (Config.ofSettings settings).maxCallDepth })
      = .failed e s) : build (.ofSettings settings) store = .failed e s := by
    rw [build, prepare_eq_of_standard h, hmode, if_pos rfl, map_eq_pure_bind,
      Run.bind_failed hinstall]
  by_cases hm : "module" ∈ Setting.names settings
  · rw [if_pos hm]
    obtain ⟨s, hs⟩ := installModule_failed_module
      ((contains_rootVars_reserved_iff h (by decide)).2 hm)
    exact ⟨s, hfails hs⟩
  · rw [if_neg hm]
    have he := hname.resolve_left hm
    rw [← contains_rootVars_reserved_iff h (by decide), Bool.not_eq_true] at hm
    obtain ⟨s, hs⟩ := installModule_failed_exports hm
      ((contains_rootVars_reserved_iff h (by decide)).2 he)
    exact ⟨s, hfails hs⟩

end

/-- **Interpreters are built as they are set.**  For all settings, one after the other, and all
stores:

Building fails exactly in module mode if a name is added that the module is to have, and the error
names `module` if this is added, or else `exports`.  In all other cases an interpreter is built, and
its root scope is furnished with the embedder's names, the standard ones and the module. -/
theorem interpreters_are_built_as_set (settings : List Setting) (store : Store) :
    (∀ e, (∃ s, build (.ofSettings settings) store = .failed e s) ↔
      (Setting.moduleMode settings = true ∧
        ("module" ∈ Setting.names settings ∨ "exports" ∈ Setting.names settings)) ∧
      e = ⟨.declaredTwice
        (if "module" ∈ Setting.names settings then "module" else "exports"), none⟩) ∧
    (¬ (Setting.moduleMode settings = true ∧
        ("module" ∈ Setting.names settings ∨ "exports" ∈ Setting.names settings)) →
      ∃ i, build (.ofSettings settings) store = .done i i.state ∧ Furnished settings store i) := by
  obtain ⟨standard, made, h⟩ := exists_standardTable settings store
  -- a build has one outcome, so that it is enough to find it, with or without the conflict
  by_cases hconflict : Setting.moduleMode settings = true ∧
      ("module" ∈ Setting.names settings ∨ "exports" ∈ Setting.names settings)
  · refine ⟨fun e => ⟨?_, ?_⟩, fun hno => absurd hconflict hno⟩
    · rintro ⟨s, hs⟩
      obtain ⟨s', hs'⟩ := build_failed h hconflict.1 hconflict.2
      cases hs.symm.trans hs'
      exact ⟨hconflict, rfl⟩
    · rintro ⟨-, rfl⟩
      exact build_failed h hconflict.1 hconflict.2
  · have hbuilt : ∃ i, build (.ofSettings settings) store = .done i i.state ∧
        Furnished settings store i := by
      cases hmode : Setting.moduleMode settings with
      | false => exact build_script h hmode
      | true =>
        obtain ⟨hm, he⟩ := not_or.1 fun hname => hconflict ⟨hmode, hname⟩
        exact build_module h hmode hm he
    obtain ⟨i, hi, hfurnished⟩ := hbuilt
    constructor
    · intro e
      refine iff_of_false ?_ fun hno => hconflict hno.1
      rintro ⟨s, hs⟩
      cases hi.symm.trans hs
    · intro _
      exact ⟨i, hi, hfurnished⟩

/-- A name that is added three times, and one that takes the place of a standard name. -/
def replacing : List Setting :=
  [.binding "x" .null, .standardGlobals,
    .bindings [("x", .bool true), ("NaN", .null), ("x", .bool false)], .isModule true]

/-- The value `false` stays for a name, `null` takes the place of a standard constant, a standard
function is found under its own name, and with `exports` in front of it `module` is still the name
that building fails for. -/
theorem last_value_stays_and_module_is_refused :
    (∃ i, build (.ofSettings replacing) {} = .done i i.state ∧ Furnished replacing {} i ∧
      i.root.BindsTo .var "x" (.bool false) ∧ i.root.BindsTo .var "NaN" .null ∧
      ∃ id, i.root.BindsTo .var "isFinite" (.native id) ∧ i.state.store.natives[id]?
        = some { name := "isFinite", arity := 1, code := .isFinite }) ∧
    ∃ s, build (.ofSettings [.isModule true, .binding "exports" .null, .binding "module" .null]) {}
      = .failed ⟨.declaredTwice "module", none⟩ s := by
  constructor
  · obtain ⟨i, hi, h⟩ := (interpreters_are_built_as_set replacing {}).2 (by decide)
    obtain ⟨_, ⟨id, rfl, -, hid⟩, hbinds⟩ :=
      h.standard "isFinite" (.member (.function 1 .isFinite)) (by simp [Setting.standards,
        Setting.isStandard, replacing, Catalog.meanings]) (by decide)
    refine ⟨i, hi, h, h.added _ _ ?_, h.added _ _ ?_, id, hbinds, hid⟩
    · exact ⟨[("x", .null), ("x", .bool true), ("NaN", .null)], [], rfl, by decide⟩
    · exact ⟨[("x", .null), ("x", .bool true)], [("x", .bool false)], rfl, by decide⟩
  · exact ((interpreters_are_built_as_set _ {}).1 _).2 ⟨⟨rfl, .inl (by decide)⟩, rfl⟩

end

end Interpreter

end Estree
