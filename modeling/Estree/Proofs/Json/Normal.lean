/-
Estree/Proofs/Json/Normal.lean

What is left of a value in a JSON text.

A `Tree` is a value without places.  `Normal` says which tree is left of a value: undefined and
functions are left out of objects and are null in arrays, a number that is not finite is null, zero
has no sign, and what made an object is forgotten.  The document that is made of a value is the
document of its normal form (`exists_normal`), and there is one if no container lies inside itself
(`isSome_jsonWithin`).

A normal form is unique (`Normal.unique`), so one may speak of the normal form of a value; two
values with the same normal form cannot be told apart by their JSON texts.
-/
import Estree.Proofs.Inside
import Estree.Proofs.Json.Integer

namespace Estree

open Relation

/-- A value without places and without functions. -/
inductive Tree where
  | null
  | bool (b : Bool)
  | num (x : Float)
  | str (s : String)
  | arr (items : List Tree)
  | obj (members : List (String × Tree))

namespace Tree

/-- What is left of a number. -/
def ofNumber (x : Float) : Tree :=
  match Double.normal? x with
  | some y => .num y
  | none => .null

mutual

/-- The number of containers in one another. -/
def nesting : Tree → Nat
  | .arr items => nestingItems items + 1
  | .obj members => nestingMembers members + 1
  | _ => 0

/-- The greatest nesting of items. -/
def nestingItems : List Tree → Nat
  | [] => 0
  | t :: rest => max t.nesting (nestingItems rest)

/-- The greatest nesting of the values of members. -/
def nestingMembers : List (String × Tree) → Nat
  | [] => 0
  | (_, t) :: rest => max t.nesting (nestingMembers rest)

end

mutual

/-- The document of a tree. -/
def json : Tree → Json
  | .null => .null
  | .bool b => .bool b
  | .num x => Builtin.numberJson x
  | .str s => .str s
  | .arr items => .arr (jsonItems items)
  | .obj members => .obj (jsonMembers members)

/-- The documents of items. -/
def jsonItems : List Tree → List Json
  | [] => []
  | t :: rest => t.json :: jsonItems rest

/-- The documents of members. -/
def jsonMembers : List (String × Tree) → List (String × Json)
  | [] => []
  | (name, t) :: rest => (name, t.json) :: jsonMembers rest

end

end Tree

/-! ### Normal forms -/

mutual

/-- The tree that is left of a value; none is left of undefined and functions. -/
inductive Normal (s : Store) : Value → Option Tree → Prop where
  | undefined : Normal s .undefined none
  | closure (id : ClosureId) : Normal s (.closure id) none
  | native (id : NativeId) : Normal s (.native id) none
  | null : Normal s .null (some .null)
  | bool (b : Bool) : Normal s (.bool b) (some (.bool b))
  | num (x : Float) : Normal s (.num x) (some (.ofNumber x))
  | str (text : String) : Normal s (.str text) (some (.str text))
  | array {id : ArrayId} {items : List Tree} : NormalItems s (s.items id).toList items →
      Normal s (.array id) (some (.arr items))
  | object {id : ObjectId} {members : List (String × Tree)} :
      NormalEntries s (s.object id).props.entries members →
      Normal s (.object id) (some (.obj members))

/-- The trees that are left of items: null where there is none. -/
inductive NormalItems (s : Store) : List Value → List Tree → Prop where
  | nil : NormalItems s [] []
  | cons {v : Value} {t : Option Tree} {vs : List Value} {ts : List Tree} :
      Normal s v t → NormalItems s vs ts → NormalItems s (v :: vs) (t.getD .null :: ts)

/-- The trees that are left of properties: those without one are left out. -/
inductive NormalEntries (s : Store) : List (String × Value) → List (String × Tree) → Prop where
  | nil : NormalEntries s [] []
  | keep {name : String} {v : Value} {t : Tree} {es : List (String × Value)}
      {ts : List (String × Tree)} :
      Normal s v (some t) → NormalEntries s es ts →
      NormalEntries s ((name, v) :: es) ((name, t) :: ts)
  | drop {name : String} {v : Value} {es : List (String × Value)} {ts : List (String × Tree)} :
      Normal s v none → NormalEntries s es ts → NormalEntries s ((name, v) :: es) ts

end

variable {s : Store}

mutual

/-- A value has one normal form. -/
theorem Normal.unique {v : Value} {t t' : Option Tree} : Normal s v t → Normal s v t' → t = t'
  | .undefined, .undefined => rfl
  | .closure _, .closure _ => rfl
  | .native _, .native _ => rfl
  | .null, .null => rfl
  | .bool _, .bool _ => rfl
  | .num _, .num _ => rfl
  | .str _, .str _ => rfl
  | .array h, .array h' => by rw [h.unique h']
  | .object h, .object h' => by rw [h.unique h']

theorem NormalItems.unique {vs : List Value} {ts ts' : List Tree} :
    NormalItems s vs ts → NormalItems s vs ts' → ts = ts'
  | .nil, .nil => rfl
  | .cons h hs, .cons h' hs' => by rw [h.unique h', hs.unique hs']

theorem NormalEntries.unique {es : List (String × Value)} {ts ts' : List (String × Tree)} :
    NormalEntries s es ts → NormalEntries s es ts' → ts = ts'
  | .nil, .nil => rfl
  | .keep h hs, .keep h' hs' => by rw [Option.some.inj (h.unique h'), hs.unique hs']
  | .keep h _, .drop h' _ => nomatch h.unique h'
  | .drop h _, .keep h' _ => nomatch h.unique h'
  | .drop _ hs, .drop _ hs' => hs.unique hs'

end

/-! ### The document of a value -/

/-- No container in the value lies inside itself. -/
def Store.CycleFree (s : Store) (v : Value) : Prop :=
  ∀ w, ReflTransGen s.Inside v w → ¬ TransGen s.Inside w w

theorem Store.CycleFree.inside {v w : Value} (h : s.CycleFree v) (hi : s.Inside v w) :
    s.CycleFree w :=
  fun u hu => h u (.head hi hu)

namespace Builtin

/-- The value that a container is. -/
def Container.value : Container → Value
  | .array id => .array id
  | .object id => .object id

/-- The container exists. -/
def Container.IsIn (s : Store) : Container → Prop
  | .array id => id < s.arrays.size
  | .object id => id < s.objects.size

/-- The number of a container among all. -/
def Container.index (s : Store) : Container → Nat
  | .array id => id
  | .object id => s.arrays.size + id

theorem Container.index_lt {c : Container} (h : c.IsIn s) :
    c.index s < s.arrays.size + s.objects.size := by
  cases c with
  | array id => exact Nat.lt_of_lt_of_le h (Nat.le_add_right _ _)
  | object id => exact Nat.add_lt_add_left h _

theorem Container.eq_of_index {c c' : Container} (h : c.IsIn s) (h' : c'.IsIn s)
    (he : c.index s = c'.index s) : c = c' := by
  -- the arrays are numbered below all objects
  have below {id id' : Nat} (hid : id < s.arrays.size) : id ≠ s.arrays.size + id' :=
    Nat.ne_of_lt (Nat.lt_of_lt_of_le hid (Nat.le_add_right _ _))
  rcases c with id | id <;> rcases c' with id' | id'
  · exact congrArg _ he
  · exact absurd he (below h)
  · exact absurd he.symm (below h')
  · exact congrArg _ (Nat.add_left_cancel he)

theorem Container.isIn_of_inside {c : Container} {w : Value} (h : s.Inside c.value w) :
    c.IsIn s := by
  cases c with
  | array id =>
    cases h with
    | item hm => exact Store.lt_size_of_mem_items hm
  | object id =>
    cases h with
    | entry he => exact Store.lt_size_of_mem_entries he

/-- The containers around a value on a way inward: each is there once, exists, and leads to the
value. -/
structure PathTo (s : Store) (path : List Container) (v : Value) : Prop where
  nodup : path.Nodup
  isIn : ∀ c ∈ path, c.IsIn s
  leads : ∀ c ∈ path, TransGen s.Inside c.value v

variable {path : List Container} {v w : Value}

theorem PathTo.length_le (h : PathTo s path v) : path.length ≤ s.arrays.size + s.objects.size := by
  have hinj (c : Container) (hc : c ∈ path) (c' : Container) (hc' : c' ∈ path) :
      c.index s = c'.index s → c = c' := Container.eq_of_index (h.isIn c hc) (h.isIn c' hc')
  have hn : (path.map (Container.index s)).Nodup := List.Nodup.map_on hinj h.nodup
  have hl := length_le_of_forall_lt hn
    (List.forall_mem_map.mpr fun c hc => Container.index_lt (h.isIn c hc))
  rwa [List.length_map] at hl

/-- A container on the way to itself would lie inside itself. -/
theorem PathTo.not_mem {c : Container} (h : PathTo s path c.value) (hv : s.CycleFree c.value) :
    c ∉ path :=
  fun hc => hv _ .refl (h.leads c hc)

theorem PathTo.inside {c : Container} (h : PathTo s path c.value) (hc : c ∉ path)
    (hi : s.Inside c.value w) : PathTo s (c :: path) w where
  nodup := List.nodup_cons.mpr ⟨hc, h.nodup⟩
  isIn := List.forall_mem_cons.mpr ⟨Container.isIn_of_inside hi, h.isIn⟩
  leads := List.forall_mem_cons.mpr ⟨.single hi, fun c hc => (h.leads c hc).tail hi⟩

/-- Every cycle-free value is searched to its end. -/
theorem isSome_jsonWithin {n : Nat} (hv : s.CycleFree v) (h : PathTo s path v)
    (hn : s.arrays.size + s.objects.size < n + path.length) :
    (jsonWithin s n path v).isSome = true := by
  induction n generalizing path v with
  | zero =>
    -- the steps are spent only when every container is on the path
    have := h.length_le
    omega
  | succ n ih =>
    rcases v with - | - | b | x | t | id | id | id | id
    case array =>
      have h' : PathTo s path (Container.array id).value := h
      have hid : Container.array id ∉ path := h'.not_mem hv
      have items (w : Value) (hw : w ∈ (s.items id).toList) :
          (jsonWithin s n (.array id :: path) w).isSome = true := by
        have hi : s.Inside (.array id) w := .item (by simpa using hw)
        exact ih (hv.inside hi) (h'.inside hid hi) (by simp only [List.length_cons]; omega)
      have hm : ((s.items id).toList.mapM fun item =>
          (jsonWithin s n (.array id :: path) item).map fun j => j.getD .null).isSome = true := by
        rw [isSome_mapM_iff]
        exact fun w hw => by simpa using items w hw
      simpa [jsonWithin, hid, Option.isSome_bind] using hm
    case object =>
      have h' : PathTo s path (Container.object id).value := h
      have hid : Container.object id ∉ path := h'.not_mem hv
      have entries (e : String × Value) (he : e ∈ (s.object id).props.entries) :
          (jsonWithin s n (.object id :: path) e.2).isSome = true := by
        have hi : s.Inside (.object id) e.2 := .entry he
        exact ih (hv.inside hi) (h'.inside hid hi) (by simp only [List.length_cons]; omega)
      have hm : ((s.object id).props.entries.mapM fun e =>
          (jsonWithin s n (.object id :: path) e.2).map fun j => (e.1, j)).isSome = true := by
        rw [isSome_mapM_iff]
        exact fun e he => by simpa using entries e he
      simpa [jsonWithin, hid, Option.isSome_bind] using hm
    all_goals rfl

/-- Each result of a list of searches is the document of a normal form. -/
def Documents (s : Store) (f : Value → Option (Option Json)) : Prop :=
  ∀ v j, f v = some j → ∃ t, Normal s v t ∧ j = t.map Tree.json

theorem exists_normalItems {f : Value → Option (Option Json)} (hf : Documents s f) {vs : List Value}
    {js : List Json} (h : (vs.mapM fun v => (f v).map fun j => j.getD .null) = some js) :
    ∃ ts, NormalItems s vs ts ∧ js = Tree.jsonItems ts := by
  induction vs generalizing js with
  | nil =>
    cases h
    exact ⟨[], .nil, rfl⟩
  | cons v vs ih =>
    rw [List.mapM_cons] at h
    obtain ⟨_, hj, h⟩ := Option.bind_eq_some_iff.mp h
    obtain ⟨js, hjs, h⟩ := Option.bind_eq_some_iff.mp h
    cases h
    obtain ⟨j, hfv, rfl⟩ := Option.map_eq_some_iff.mp hj
    obtain ⟨t, ht, rfl⟩ := hf v j hfv
    obtain ⟨ts, hts, rfl⟩ := ih hjs
    refine ⟨t.getD .null :: ts, .cons ht hts, ?_⟩
    cases t <;> rfl

theorem exists_normalEntries {f : Value → Option (Option Json)} (hf : Documents s f)
    {es : List (String × Value)} {ms : List (String × Option Json)}
    (h : (es.mapM fun e => (f e.2).map fun j => (e.1, j)) = some ms) :
    ∃ ts, NormalEntries s es ts ∧
      ms.filterMap (fun m => m.2.map fun j => (m.1, j)) = Tree.jsonMembers ts := by
  induction es generalizing ms with
  | nil =>
    cases h
    exact ⟨[], .nil, rfl⟩
  | cons e es ih =>
    rw [List.mapM_cons] at h
    obtain ⟨m, hm, h⟩ := Option.bind_eq_some_iff.mp h
    obtain ⟨ms, hms, h⟩ := Option.bind_eq_some_iff.mp h
    cases h
    obtain ⟨j, hfe, rfl⟩ := Option.map_eq_some_iff.mp hm
    obtain ⟨t, ht, rfl⟩ := hf e.2 j hfe
    obtain ⟨ts, hts, hms'⟩ := ih hms
    cases t with
    | none => exact ⟨ts, .drop ht hts, by simpa using hms'⟩
    | some t => exact ⟨(e.1, t) :: ts, .keep ht hts, by simpa [Tree.jsonMembers] using hms'⟩

theorem numberJson_eq (x : Float) : numberJson x = (Tree.ofNumber x).json := by
  rcases h : Double.normal? x with - | y
  · rw [Tree.ofNumber, h]
    exact Double.numberJson_of_not_finite h
  · rw [Tree.ofNumber, h]
    exact (Double.numberJson_normal h).symm

/-- The document that is found is that of the normal form. -/
theorem documents_jsonWithin (n : Nat) (path : List Container) :
    Documents s (jsonWithin s n path) := by
  induction n generalizing path with
  -- with no bound left nothing is found, so there is nothing to show
  | zero => nofun
  | succ n ih =>
    intro v j h
    rcases v with - | - | b | x | text | id | id | id | id
    case undefined => cases h; exact ⟨none, .undefined, rfl⟩
    case null => cases h; exact ⟨some .null, .null, rfl⟩
    case bool => cases h; exact ⟨_, .bool b, rfl⟩
    case num =>
      cases h
      exact ⟨_, .num x, by rw [numberJson_eq]; rfl⟩
    case str => cases h; exact ⟨_, .str text, rfl⟩
    case closure => cases h; exact ⟨none, .closure id, rfl⟩
    case native => cases h; exact ⟨none, .native id, rfl⟩
    case array =>
      by_cases hid : .array id ∈ path
      · simp [jsonWithin, hid] at h
      · have hc : path.contains (.array id) = false := by simpa using hid
        simp only [jsonWithin, hc, Bool.false_eq_true, if_false] at h
        obtain ⟨js, hjs, h⟩ := Option.bind_eq_some_iff.mp h
        cases h
        obtain ⟨ts, hts, rfl⟩ := exists_normalItems (ih _) hjs
        exact ⟨_, .array hts, rfl⟩
    case object =>
      by_cases hid : .object id ∈ path
      · simp [jsonWithin, hid] at h
      · have hc : path.contains (.object id) = false := by simpa using hid
        simp only [jsonWithin, hc, Bool.false_eq_true, if_false] at h
        obtain ⟨ms, hms, h⟩ := Option.bind_eq_some_iff.mp h
        cases h
        obtain ⟨ts, hts, hms'⟩ := exists_normalEntries (ih _) hms
        exact ⟨_, .object hts, by simp [hms', Tree.json]⟩

/-- A cycle-free value has a normal form, and its document is the document of that. -/
theorem exists_normal {v : Value} (hv : s.CycleFree v) :
    ∃ t, Normal s v t ∧ toJson s v = some (t.map Tree.json) := by
  have hp : PathTo s [] v := ⟨by simp, by simp, by simp⟩
  have hs : (toJson s v).isSome = true := isSome_jsonWithin hv hp (by simp)
  obtain ⟨j, hj⟩ := Option.isSome_iff_exists.mp hs
  obtain ⟨t, ht, rfl⟩ := documents_jsonWithin _ _ v j hj
  exact ⟨t, ht, hj⟩

end Builtin

end Estree
