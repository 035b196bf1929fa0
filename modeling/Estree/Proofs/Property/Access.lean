/-
Estree/Proofs/Property/Access.lean

How reading, writing, deleting, asking for and listing properties go together.

Objects and functions have their properties in a table (`Store.table?`), arrays have items.  A
write or a deletion changes one table or the items of one array.  So the store is what it was once
the value in question is emptied (`Store.emptied`), which is all that is needed for other values to
be as before (`changedOnly`).  The value itself answers out of its table (`get_own`,
`alike_mapTable`) or its items (`get_item`).

Built-in members are functions made when they are read.  Two readings of one are compared by what
comes out (`Outcome.result`): it is the next free place among functions, which no write moves.
-/
import Estree.Proofs.Growth
import Estree.Proofs.Scope
import Estree.Proofs.Property.Key

namespace Estree

/-- What comes out, whatever becomes of the state. -/
def Outcome.result {σ α : Type} : Outcome σ α → Option (Except EvalError α)
  | .done a _ => some (.ok a)
  | .failed e _ => some (.error e)
  | .endless => none

/-- What the value refers to is there. -/
def Value.IsIn (s : Store) : Value → Prop
  | .array id => id < s.arrays.size
  | .object id => id < s.objects.size
  | .closure id => id < s.closures.size
  | .native id => id < s.natives.size
  | .undefined | .null | .bool _ | .num _ | .str _ => True

/-! ### One thing of a store -/

namespace Store

/-- The table of properties that an object or a function has. -/
def table? (s : Store) : Value → Option (Table Value)
  | .object id => some (s.object id).props
  | .closure id => some (s.closure id).props
  | .native id => some (s.native id).props
  | _ => none

/-- The store with another table of properties for an object or a function. -/
def mapTable (s : Store) (f : Table Value → Table Value) : Value → Store
  | .object id =>
    { s with objects := s.objects.modify id fun o => { o with props := f o.props } }
  | .closure id =>
    { s with closures := s.closures.modify id fun c => { c with props := f c.props } }
  | .native id =>
    { s with natives := s.natives.modify id fun n => { n with props := f n.props } }
  | _ => s

/-- The store with nothing in an array, an object or a function: without items or properties, but
with what made it, its name and its code. -/
def emptied (s : Store) : Value → Store
  | .array id => { s with arrays := s.arrays.modify id fun _ => #[] }
  | base => s.mapTable (fun _ => .empty) base

variable {s : Store} {base : Value} {t : Table Value} {id : Nat}

/-- Two changes of one item are one change. -/
theorem modify_modify {α : Type} (xs : Array α) (i : Nat) (f g : α → α) :
    (xs.modify i f).modify i g = xs.modify i fun a => g (f a) := by
  refine Array.ext_getElem? fun j => ?_
  rw [Array.getElem?_modify, Array.getElem?_modify, Array.getElem?_modify]
  split
  · rw [Option.map_map]
    rfl
  · rfl

section mapTable

variable {f : Table Value → Table Value}

/-- A change of the properties of an object that is there. -/
theorem object_mapTable (h : id < s.objects.size) :
    (s.mapTable f (.object id)).object id
      = { s.object id with props := f (s.object id).props } :=
  (getD_modify ..).trans (if_pos ⟨rfl, h⟩)

theorem closure_mapTable (h : id < s.closures.size) :
    (s.mapTable f (.closure id)).closure id
      = { s.closure id with props := f (s.closure id).props } :=
  (getD_modify ..).trans (if_pos ⟨rfl, h⟩)

theorem native_mapTable (h : id < s.natives.size) :
    (s.mapTable f (.native id)).native id
      = { s.native id with props := f (s.native id).props } :=
  (getD_modify ..).trans (if_pos ⟨rfl, h⟩)

/-- After a change of its properties a value has the changed ones. -/
theorem table?_mapTable (hin : base.IsIn s) (ht : s.table? base = some t) :
    (s.mapTable f base).table? base = some (f t) := by
  cases base
  case object =>
    cases ht
    rw [table?, object_mapTable hin]
  case closure =>
    cases ht
    rw [table?, closure_mapTable hin]
  case native =>
    cases ht
    rw [table?, native_mapTable hin]
  all_goals cases ht

end mapTable

/-- A change of properties is not seen without them. -/
theorem emptied_mapTable (f : Table Value → Table Value) (base : Value) :
    (s.mapTable f base).emptied base = s.emptied base := by
  cases base
  all_goals simp only [emptied, mapTable, modify_modify]

/-- A change of items is not seen without them. -/
theorem emptied_mapItems (f : Array Value → Array Value) (id : ArrayId) :
    { s with arrays := s.arrays.modify id f }.emptied (.array id) = s.emptied (.array id) := by
  simp only [emptied, modify_modify]

/-- A change of one item is not seen at the others. -/
theorem getD_modify_of_ne {α : Type} (xs : Array α) (f : α → α) {i j : Nat} (a : α) (h : i ≠ j) :
    (xs.modify i f).getD j a = xs.getD j a := by
  rw [getD_modify, if_neg fun hij => h hij.1]

/-- Without the contents of one value, all others have theirs. -/
theorem items_emptied (h : base ≠ .array id) : (s.emptied base).items id = s.items id := by
  cases base
  case array => exact getD_modify_of_ne _ _ _ fun hid => h (congrArg _ hid)
  all_goals rfl

theorem object_emptied (h : base ≠ .object id) : (s.emptied base).object id = s.object id := by
  cases base
  case object => exact getD_modify_of_ne _ _ _ fun hid => h (congrArg _ hid)
  all_goals rfl

theorem closure_emptied (h : base ≠ .closure id) : (s.emptied base).closure id = s.closure id := by
  cases base
  case closure => exact getD_modify_of_ne _ _ _ fun hid => h (congrArg _ hid)
  all_goals rfl

theorem native_emptied (h : base ≠ .native id) : (s.emptied base).native id = s.native id := by
  cases base
  case native => exact getD_modify_of_ne _ _ _ fun hid => h (congrArg _ hid)
  all_goals rfl

/-- No function of the host comes or goes with the contents of a value. -/
theorem natives_size_emptied (s : Store) (base : Value) :
    (s.emptied base).natives.size = s.natives.size := by
  cases base
  case native => exact Array.size_modify
  all_goals rfl

end Store

namespace Property

variable {s s' : Store} {base other : Value} {key k : String} {value v : Value}
variable {t : Table Value} {f : Table Value → Table Value} {id i : Nat}

/-! ### Built-in members -/

/-- A built-in member, or nothing, is what is read. -/
def ReadsMember (m : Run Store Value) : Prop :=
  m = pure .undefined ∨ ∃ name arity code, m = newMember name arity code

theorem readsMember_array (key : String) : ReadsMember (arrayMember key) := by
  unfold arrayMember
  split
  · exact .inr ⟨_, _, _, rfl⟩
  · exact .inl rfl

theorem readsMember_string (key : String) : ReadsMember (stringMember key) := by
  unfold stringMember
  split
  · exact .inr ⟨_, _, _, rfl⟩
  · exact .inl rfl

theorem readsMember_number (key : String) : ReadsMember (numberMember key) := by
  unfold numberMember
  split
  · exact .inr ⟨_, _, _, rfl⟩
  · exact .inl rfl

theorem readsMember_object (key : String) : ReadsMember (objectMember key) := by
  unfold objectMember
  split
  · exact .inr ⟨_, _, _, rfl⟩
  · exact .inl rfl

/-- A member is a function of its own, at the next free place. -/
theorem ReadsMember.result {m : Run Store Value} (h : ReadsMember m)
    (hs : s'.natives.size = s.natives.size) : (m s').result = (m s).result := by
  obtain rfl | ⟨name, arity, code, rfl⟩ := h
  · rfl
  · exact congrArg (fun n => some (Except.ok (Value.native n))) hs

/-! ### What is read -/

/-- An index of an array is read from its items, and what is not there is undefined. -/
theorem get_item (hk : arrayIndex? key = some i) (id : ArrayId) (s : Store) :
    get (.array id) key s = .done (.orUndefined (s.items id)[i]?) s := by
  simp only [get, hk]
  rfl

/-- The length of an array is the number of its items. -/
theorem get_length (id : ArrayId) (s : Store) :
    get (.array id) "length" s = .done (.nat (s.items id).size) s :=
  rfl

/-- Apart from its items and its length, an array has built-in members. -/
theorem get_array_member (hk : arrayIndex? key = none) (hl : key ≠ "length") (id : ArrayId) :
    get (.array id) key = arrayMember key := by
  simp only [get, hk, if_neg hl]

/-- A property of an object is read from its own ones, or is a member of all objects. -/
theorem get_object (id : ObjectId) (key : String) (s : Store) :
    get (.object id) key s = match (s.object id).props.get? key with
      | some v => .done v s
      | none => objectMember key s := by
  cases h : (s.object id).props.get? key <;> simp only [get, bind, Run.bind, Run.read, h]
  rfl

/-- What an object or a function has in its table is read. -/
theorem get_own (ht : s.table? base = some t) (hk : t.get? key = some v) :
    get base key s = .done v s := by
  cases base
  case object id =>
    cases ht
    rw [get_object, hk]
  case closure id =>
    cases ht
    simp only [get, Run.read, hk, Option.getD_some]
  case native id =>
    cases ht
    simp only [get, Run.read, hk, Option.getD_some]
  all_goals cases ht

/-- What has named properties lists their names in order. -/
theorem keys_of_table (ht : s.table? base = some t) : keys s base = t.keys := by
  cases base
  case object | closure | native =>
    cases ht
    rfl
  all_goals cases ht

/-- What has named properties has those that it lists. -/
theorem has_of_table (ht : s.table? base = some t) (hk : key ∈ t.keys) :
    has s base key = true := by
  rw [← Table.contains_iff] at hk
  cases base
  case object =>
    cases ht
    exact hk
  case closure | native =>
    cases ht
    simp only [has, hk, Bool.or_true]
  all_goals cases ht

/-- Whatever is listed is there, and it is read. -/
theorem listed (hb : base.isReference = true)
    (hsize : ∀ id, base = .array id → (s.items id).size < Nat.pow 2 32 - 1)
    (hk : k ∈ keys s base) : has s base k = true ∧ ∃ v, get base k s = .done v s := by
  cases ht : s.table? base with
  | some t =>
    rw [keys_of_table ht] at hk
    obtain ⟨v, hv⟩ := Option.isSome_iff_exists.1 ((Table.contains_iff t k).2 hk)
    exact ⟨has_of_table ht hk, v, get_own ht hv⟩
  | none =>
    -- of the values that refer to something only arrays have no table
    cases base
    case array id =>
      obtain ⟨i, hi, rfl⟩ := List.mem_map.1 hk
      rw [List.mem_range] at hi
      have hindex := arrayIndex?_indexKey (hi.trans (hsize id rfl))
      refine ⟨?_, _, get_item hindex id s⟩
      simp only [has, hindex, hi, decide_true, Bool.or_true]
    case object | closure | native => cases ht
    all_goals cases hb

/-! ### Stores in which a value has the same property -/

/-- A property is the same in two stores. -/
structure Alike (s s' : Store) (base : Value) (key : String) : Prop where
  read : (get base key s').result = (get base key s).result
  has : has s' base key = has s base key

/-- A write or a deletion has changed nothing but what is in one value. -/
structure ChangedOnly (s s' : Store) (base : Value) : Prop where
  rest : s'.emptied base = s.emptied base
  elsewhere : ∀ other, other ≠ base →
    keys s' other = keys s other ∧ ∀ key, Alike s s' other key

section elsewhere

variable (h : s'.emptied base = s.emptied base)

include h

/-- What does not depend on the contents of the value is the same. -/
theorem eq_of_emptied {β : Type} (f : Store → β) (hf : ∀ s, f (s.emptied base) = f s) :
    f s' = f s := by
  rw [← hf s', h, hf s]

/-- Frame: another array has the same items. -/
theorem items_eq (hne : base ≠ .array id) : s'.items id = s.items id :=
  eq_of_emptied h (fun s => s.items id) fun _ => Store.items_emptied hne

theorem object_eq (hne : base ≠ .object id) : s'.object id = s.object id :=
  eq_of_emptied h (fun s => s.object id) fun _ => Store.object_emptied hne

theorem closure_eq (hne : base ≠ .closure id) : s'.closure id = s.closure id :=
  eq_of_emptied h (fun s => s.closure id) fun _ => Store.closure_emptied hne

theorem native_eq (hne : base ≠ .native id) : s'.native id = s.native id :=
  eq_of_emptied h (fun s => s.native id) fun _ => Store.native_emptied hne

theorem natives_size_eq : s'.natives.size = s.natives.size :=
  eq_of_emptied h (fun s => s.natives.size) fun s => s.natives_size_emptied base

/-- Every property of every other value reads as it did: case by case of what is read. -/
theorem result_get_elsewhere (hne : base ≠ other) (key : String) :
    (get other key s').result = (get other key s).result := by
  cases other with
  | undefined | null | bool b => rfl
  | num x => exact (readsMember_number key).result (natives_size_eq h)
  -- a text or a number reads no table but that of its methods, which are as they were
  | str text =>
    unfold get
    dsimp only
    cases arrayIndex? key with
    | some i =>
      dsimp only
      cases Text.unitAt? text i <;> rfl
    | none =>
      by_cases hl : key = "length"
      · simp only [if_pos hl]
        rfl
      · simp only [if_neg hl]
        exact (readsMember_string key).result (natives_size_eq h)
  | array id =>
    cases hi : arrayIndex? key with
    | some i =>
      rw [get_item hi, get_item hi, items_eq h hne]
      rfl
    | none =>
      by_cases hl : key = "length"
      · rw [hl, get_length, get_length, items_eq h hne]
        rfl
      · rw [get_array_member hi hl]
        exact (readsMember_array key).result (natives_size_eq h)
  | object id =>
    rw [get_object, get_object, object_eq h hne]
    cases (s.object id).props.get? key with
    | some v => rfl
    | none => exact (readsMember_object key).result (natives_size_eq h)
  | closure id =>
    simp only [get, Run.read, Outcome.result, closure_eq h hne]
  | native id =>
    simp only [get, Run.read, Outcome.result, native_eq h hne]

/-- Every other value has the properties that it had. -/
theorem has_elsewhere (hne : base ≠ other) (key : String) : has s' other key = has s other key := by
  cases other
  case array => simp only [has, items_eq h hne]
  case object => simp only [has, object_eq h hne]
  case closure => simp only [has, closure_eq h hne]
  case native => simp only [has, native_eq h hne]
  all_goals rfl

/-- Every other value lists the keys that it listed. -/
theorem keys_elsewhere (hne : base ≠ other) : keys s' other = keys s other := by
  cases other
  case array => simp only [keys, items_eq h hne]
  case object => simp only [keys, object_eq h hne]
  case closure => simp only [keys, closure_eq h hne]
  case native => simp only [keys, native_eq h hne]
  all_goals rfl

theorem changedOnly : ChangedOnly s s' base where
  rest := h
  elsewhere _ hne := ⟨keys_elsewhere h hne.symm, fun key =>
    ⟨result_get_elsewhere h hne.symm key, has_elsewhere h hne.symm key⟩⟩

end elsewhere

/-! ### Tables -/

/-- Another table answers for the same as before under the keys for which it has the same. -/
theorem alike_mapTable (hin : base.IsIn s) (ht : s.table? base = some t)
    (hk : (f t).get? k = t.get? k) : Alike s (s.mapTable f base) base k := by
  -- methods found in no table are read as before
  have hsize := natives_size_eq (s.emptied_mapTable f base)
  have hc : (f t).contains k = t.contains k := congrArg Option.isSome hk
  cases base
  case object id =>
    cases ht
    constructor
    · rw [get_object, get_object, Store.object_mapTable hin]
      dsimp only
      rw [hk]
      cases (s.object id).props.get? k with
      | some v => rfl
      | none => exact (readsMember_object k).result hsize
    · simp only [has, Store.object_mapTable hin, hc]
  case closure id =>
    cases ht
    constructor
    · simp only [get, Run.read, Outcome.result, Store.closure_mapTable hin, hk]
      rfl
    · simp only [has, Store.closure_mapTable hin, hc]
  case native id =>
    cases ht
    constructor
    · simp only [get, Run.read, Outcome.result, Store.native_mapTable hin, hk]
    · simp only [has, Store.native_mapTable hin, hc]
  all_goals cases ht

/-- A property of an object or a function has been written. -/
structure TableWritten (s s' : Store) (base : Value) (key : String) (value : Value) : Prop where
  read : get base key s' = .done value s'
  others : ∀ k, k ≠ key → Alike s s' base k
  keys : keys s' base = if key ∈ keys s base then keys s base else keys s base ++ [key]

/-- A property of an object or a function has been deleted. -/
structure TableDeleted (s s' : Store) (base : Value) (key : String) : Prop where
  others : ∀ k, k ≠ key → Alike s s' base k
  keys : keys s' base = (keys s base).filter fun k => k != key

/-- A write to named properties enters the one. -/
theorem set_table (ht : s.table? base = some t) (key : String) (value : Value) :
    set base key value s = .done () (s.mapTable (fun props => props.insert key value) base) := by
  cases base
  case object | closure | native => rfl
  all_goals cases ht

/-- A deletion of a named property takes the one out, and always goes through. -/
theorem delete_table (ht : s.table? base = some t) (key : String) :
    delete base key s = .done true (s.mapTable (fun props => props.erase key) base) := by
  cases base
  case object | closure | native => rfl
  all_goals cases ht

/-- So a write is read back, alone changes what is read, and puts a new key last. -/
theorem tableWritten (hin : base.IsIn s) (ht : s.table? base = some t) (key : String)
    (value : Value) :
    TableWritten s (s.mapTable (fun props => props.insert key value) base) base key value where
  read := get_own (Store.table?_mapTable hin ht) (by rw [Table.get?_insert, if_pos rfl])
  others k hk := alike_mapTable hin ht (by rw [Table.get?_insert, if_neg hk])
  keys := by
    rw [keys_of_table (Store.table?_mapTable hin ht), keys_of_table ht, Table.keys_insert]

/-- So a deleted property reads as if it had never been there. -/
theorem tableDeleted (hin : base.IsIn s) (ht : s.table? base = some t) (key : String) :
    TableDeleted s (s.mapTable (fun props => props.erase key) base) base key where
  others k hk := alike_mapTable hin ht (Table.get?_erase_of_ne t hk)
  keys := by
    rw [keys_of_table (Store.table?_mapTable hin ht), keys_of_table ht, Table.keys_erase]

/-! ### Items -/

/-- Items among which one has been written. -/
structure OneWritten (items items' : Array Value) (i : Nat) (value : Value) : Prop where
  size : items'.size = max items.size (i + 1)
  item : ∀ j, Value.orUndefined items'[j]? = if j = i then value else .orUndefined items[j]?

/-- An item that is there is replaced in its place. -/
theorem oneWritten_set {items : Array Value} (hi : i < items.size) (value : Value) :
    OneWritten items (items.setIfInBounds i value) i value where
  size := by
    rw [Array.size_setIfInBounds]
    omega
  item j := by
    rw [Array.getElem?_setIfInBounds]
    by_cases hj : i = j
    · rw [if_pos hj, if_pos hi, if_pos hj.symm]
      rfl
    · rw [if_neg hj, if_neg (Ne.symm hj)]

/-- Filling up with what is undefined changes nothing that is read. -/
theorem orUndefined_resize {items : Array Value} (hi : items.size ≤ i) (j : Nat) :
    Value.orUndefined (resize items i)[j]? = .orUndefined items[j]? := by
  unfold resize
  split
  · rw [Nat.le_antisymm ‹i ≤ items.size› hi, Array.extract_size]
  · rw [Array.getElem?_append]
    split
    · rfl
    · -- behind the old items everything is undefined
      rw [Array.getElem?_eq_none (Nat.not_lt.1 ‹¬j < items.size›), Array.getElem?_replicate]
      split <;> rfl

/-- An item behind the end is written after filling up. -/
theorem oneWritten_push {items : Array Value} (hi : items.size ≤ i) (value : Value) :
    OneWritten items ((resize items i).push value) i value where
  size := by
    rw [Array.size_push, size_resize]
    omega
  item j := by
    rw [Array.getElem?_push, size_resize]
    by_cases hj : j = i
    · rw [if_pos hj, if_pos hj]
      rfl
    · rw [if_neg hj, if_neg hj, orUndefined_resize hi]

/-- What becomes of a write to an array: it fails, it does not find the number that a length is to
be, or it changes the items of the one array. -/
theorem set_array_cases (id : ArrayId) (key : String) (value : Value) (s : Store) :
    (∃ e, set (.array id) key value s = .failed e s) ∨ set (.array id) key value s = .endless ∨
      ∃ f, set (.array id) key value s = .done () { s with arrays := s.arrays.modify id f } ∧
        ∀ i, arrayIndex? key = some i → OneWritten (s.items id) (f (s.items id)) i value := by
  cases hk : arrayIndex? key with
  | some i =>
    rw [Growth.set_item hk, Growth.setItem_apply]
    by_cases hi : i < (s.items id).size
    · rw [if_pos hi]
      refine .inr (.inr ⟨_, rfl, fun i' hi' => ?_⟩)
      cases hi'
      exact oneWritten_set hi value
    · rw [if_neg hi]
      -- past the end the array is filled up, as far as it may grow
      by_cases hmax : maxDenseLength ≤ i
      · rw [if_pos hmax]
        exact .inl ⟨_, rfl⟩
      · rw [if_neg hmax]
        refine .inr (.inr ⟨fun items => (resize items i).push value, rfl, fun i' hi' => ?_⟩)
        cases hi'
        exact oneWritten_push (Nat.not_lt.1 hi) value
  | none =>
    by_cases hl : key = "length"
    · subst hl
      cases hx : s.number? value with
      | none =>
        refine .inr (.inl (Run.bind_endless (m := Convert.number value) ?_))
        rw [Convert.number, Run.ofOption, hx]
      | some x =>
        rw [Growth.set_length hx, denseLength_eq]
        cases wholeNumber? x with
        | none => exact .inl ⟨_, rfl⟩
        | some n =>
          dsimp only
          by_cases hn : n ≤ maxDenseLength
          · rw [if_pos hn]
            refine .inr (.inr ⟨fun items => resize items n, rfl, fun i hi => ?_⟩)
            cases hk.symm.trans hi
          · rw [if_neg hn]
            exact .inl ⟨_, rfl⟩
    · simp only [set, hk, if_neg hl]
      exact .inl ⟨_, rfl⟩

/-- A write that fails has changed nothing. -/
theorem set_failed {e : EvalError} (h : set base key value s = .failed e s') : s' = s := by
  cases base
  case array id =>
    obtain ⟨_, hset⟩ | hset | ⟨_, hset, -⟩ := set_array_cases id key value s <;>
      cases hset.symm.trans h
    rfl
  case undefined | null =>
    cases h
    rfl
  all_goals cases h

/-- A write changes nothing but what is in the one value. -/
theorem emptied_of_set (h : set base key value s = .done () s') :
    s'.emptied base = s.emptied base := by
  cases base
  case array id =>
    obtain ⟨_, hset⟩ | hset | ⟨f, hset, -⟩ := set_array_cases id key value s <;>
      cases hset.symm.trans h
    exact Store.emptied_mapItems f id
  case object | closure | native =>
    cases (set_table rfl key value).symm.trans h
    exact Store.emptied_mapTable ..
  case bool | num | str =>
    cases h
    rfl
  all_goals cases h

/-- A longer array lists the keys of a shorter one first. -/
theorem indexKeys_prefix {n m : Nat} (h : n ≤ m) : indexKeys n <+: indexKeys m := by
  obtain ⟨d, rfl⟩ := Nat.exists_eq_add_of_le h
  rw [indexKeys, indexKeys, List.range_add, List.map_append]
  exact List.prefix_append ..

/-- An item of an array has been written. -/
structure ItemWritten (s s' : Store) (id : ArrayId) (key : String) (i : Nat) (value : Value) :
    Prop where
  read : get (.array id) key s' = .done value s'
  others : ∀ k, k ≠ key → k ≠ "length" →
    (get (.array id) k s').result = (get (.array id) k s).result
  size : (s'.items id).size = max (s.items id).size (i + 1)
  length : get (.array id) "length" s' = .done (.nat (max (s.items id).size (i + 1))) s'
  keys : keys s (.array id) <+: keys s' (.array id)

/-- A write to an index that goes through: in place, or behind the end of an array that may grow so
far. -/
theorem itemWritten (hid : id < s.arrays.size) (hk : arrayIndex? key = some i)
    (h : set (.array id) key value s = .done () s') : ItemWritten s s' id key i value := by
  obtain ⟨_, hset⟩ | hset | ⟨f, hset, hf⟩ := set_array_cases id key value s <;>
    cases hset.symm.trans h
  -- both failing outcomes are ruled out, so the write has taken place
  have hitems : Store.items { s with arrays := s.arrays.modify id f } id = f (s.items id) :=
    (getD_modify ..).trans (if_pos ⟨rfl, hid⟩)
  have hone := hf i hk
  constructor
  case read => rw [get_item hk, hitems, hone.item, if_pos rfl]
  case others =>
    intro k hne hl
    cases hi : arrayIndex? k with
    | some j =>
      have hj : j ≠ i := fun hj => hne (arrayIndex?_inj (hj ▸ hi) hk)
      rw [get_item hi, get_item hi, hitems, hone.item, if_neg hj]
      rfl
    | none =>
      rw [get_array_member hi hl]
      exact (readsMember_array k).result rfl
  case size => rw [hitems, hone.size]
  case length => rw [get_length, hitems, hone.size]
  case keys =>
    rw [Property.keys, Property.keys, hitems, hone.size]
    exact indexKeys_prefix (Nat.le_max_left ..)

/-! ### The accesses together -/

/-- **Accesses agree.**  For a value whose contents are in the store:

A write that fails has changed nothing; any other has changed nothing outside of the value, and
one to an index of an array has written that item.  Objects and functions can be written to and
deleted from under every key, with the other properties as they were.  Every key that is listed is
there and can be read. -/
theorem accesses_agree (s : Store) (base : Value) (key : String) (value : Value)
    (hin : base.IsIn s) :
    (∀ e s', set base key value s = .failed e s' → s' = s) ∧
    (∀ s', set base key value s = .done () s' → ChangedOnly s s' base ∧
      ∀ id i, base = .array id → arrayIndex? key = some i → ItemWritten s s' id key i value) ∧
    (∀ t, s.table? base = some t →
      (∃ s', set base key value s = .done () s' ∧ TableWritten s s' base key value) ∧
      ∃ s', delete base key s = .done true s' ∧ ChangedOnly s s' base ∧
        TableDeleted s s' base key) ∧
    (base.isReference = true →
      (∀ id, base = .array id → (s.items id).size < Nat.pow 2 32 - 1) →
      ∀ k ∈ keys s base, has s base k = true ∧ ∃ v, get base k s = .done v s) := by
  refine ⟨fun _ _ => set_failed, fun s' h => ⟨changedOnly (emptied_of_set h), ?_⟩,
    fun t ht => ⟨?_, ?_⟩, fun hb hsize _ => listed hb hsize⟩
  · rintro id i rfl hk
    exact itemWritten hin hk h
  · exact ⟨_, set_table ht key value, tableWritten hin ht key value⟩
  · exact ⟨_, delete_table ht key, changedOnly (Store.emptied_mapTable _ base),
      tableDeleted hin ht key⟩

/-- An array with one item and an object with one property. -/
def oneOfEach : Store where
  arrays := #[#[.nat 7]]
  objects := #[{ props := .ofList [("a", .null)] }]

/-- An item is written behind the end of an array, a property is entered into an object and another
one is taken out of it, and the item that an array has is there. -/
theorem one_of_each_is_written :
    (Value.array 0).IsIn oneOfEach ∧ (Value.object 0).IsIn oneOfEach ∧
    (∃ s', set (.array 0) "2" .null oneOfEach = .done () s' ∧
      ItemWritten oneOfEach s' 0 "2" 2 .null) ∧
    (∃ s', set (.object 0) "b" .null oneOfEach = .done () s' ∧
      TableWritten oneOfEach s' (.object 0) "b" .null) ∧
    (∃ s', delete (.object 0) "a" oneOfEach = .done true s' ∧
      TableDeleted oneOfEach s' (.object 0) "a") ∧
    has oneOfEach (.array 0) "0" = true := by
  have harray : (Value.array 0).IsIn oneOfEach := Nat.lt_succ_self 0
  have hobject : (Value.object 0).IsIn oneOfEach := Nat.lt_succ_self 0
  obtain ⟨-, hdone, -, hkeys⟩ := accesses_agree oneOfEach (.array 0) "2" .null harray
  obtain ⟨-, -, htable, -⟩ := accesses_agree oneOfEach (.object 0) "b" .null hobject
  obtain ⟨-, -, htable', -⟩ := accesses_agree oneOfEach (.object 0) "a" .null hobject
  obtain ⟨s', hdelete, -, hdeleted⟩ := (htable' _ rfl).2
  refine ⟨harray, hobject, ⟨_, rfl, (hdone _ rfl).2 0 2 rfl rfl⟩, (htable _ rfl).1,
    ⟨s', hdelete, hdeleted⟩, (hkeys rfl ?_ "0" (by decide)).1⟩
  rintro id h
  cases h
  decide

end Property

end Estree
