/-
Estree/Proofs/Property/Copy.lean

Copying the properties of values.

Every value lists keys, and under each of these something is read without anything being made
(`get_listed`): what is in a table, an item, or a unit of a text as a character.  An index that is
too great for an item is undefined, since no built-in member has a name of digits.  What a value
lists depends on its own table or items alone (`listing_congr`).

To copy is to enter what is listed into a table (`Table.insertAll`), one source after the other.
The store is then the same apart from this one table (`Store.withTable`), so that what other sources
list does not change on the way.  What the target itself lists is there already.
-/
import Estree.Proofs.Extension
import Estree.Proofs.Json.RoundTrip
import Estree.Proofs.Text.Search

namespace Estree

namespace Property

variable {s s' : Store} {base target source : Value} {key : String} {v : Value} {t : Table Value}
variable {i : Nat} {keys : List String}

/-! ### What is listed -/

/-- What is read under a key, whatever becomes of the store; undefined if the reading fails. -/
def valueAt (s : Store) (base : Value) (key : String) : Value :=
  match (get base key s).result with
  | some (.ok v) => v
  | _ => .undefined

/-- The keys that a value lists, each with what is read under it. -/
def listing (s : Store) (base : Value) : List (String × Value) :=
  (Property.keys s base).map fun key => (key, valueAt s base key)

/-- The value at a key is whatever reading it gives. -/
theorem valueAt_of_get (h : get base key s = .done v s') : valueAt s base key = v := by
  rw [valueAt, h]
  rfl

theorem isDigit_of_mem_indexKey {c : Char} (hc : c ∈ (indexKey i).toList) : c.isDigit = true := by
  rw [indexKey, Decimal.digitsText, String.toList_ofList] at hc
  exact Nat.isDigit_of_mem_toDigits (by decide) (by decide) hc

/-- No word has only digits. -/
theorem indexKey_ne {name : String} (h : name.toList.all Char.isDigit = false) :
    indexKey i ≠ name := by
  rintro rfl
  rw [List.all_eq_true.2 fun c => isDigit_of_mem_indexKey] at h
  cases h

theorem arrayMember_indexKey (i : Nat) : arrayMember (indexKey i) = pure .undefined := by
  have hnot : ∀ m ∈ ArrayMethod.all, m.name.toList.all Char.isDigit = false := by decide
  have hnone : ArrayMethod.all.find? (fun m => m.name == indexKey i) = none :=
    List.find?_eq_none.2 fun m hm h => indexKey_ne (hnot m hm) (beq_iff_eq.1 h).symm
  rw [arrayMember, hnone]

theorem stringMember_indexKey (i : Nat) : stringMember (indexKey i) = pure .undefined := by
  have hnot : ∀ m ∈ StringMethod.all, m.name.toList.all Char.isDigit = false := by decide
  have hnone : StringMethod.all.find? (fun m => m.name == indexKey i) = none :=
    List.find?_eq_none.2 fun m hm h => indexKey_ne (hnot m hm) (beq_iff_eq.1 h).symm
  rw [stringMember, hnone]

/-- A value has the same table or the same items in two stores. -/
structure SameContents (s s' : Store) (base : Value) : Prop where
  table : s'.table? base = s.table? base
  items : ∀ id, base = .array id → s'.items id = s.items id

theorem SameContents.refl (s : Store) (base : Value) : SameContents s s base :=
  ⟨rfl, fun _ _ => rfl⟩

/-- What is listed is read without anything being made, and the same in all stores with the same
contents. -/
theorem get_listed_same (hk : key ∈ Property.keys s base) :
    ∃ v, ∀ s', SameContents s s' base → get base key s' = .done v s' := by
  cases ht : s.table? base with
  | some t =>
    rw [keys_of_table ht] at hk
    obtain ⟨v, hv⟩ := Option.isSome_iff_exists.1 ((Table.contains_iff t key).2 hk)
    exact ⟨v, fun s' h => get_own (h.table.trans ht) hv⟩
  | none =>
    cases base
    case array id =>
      obtain ⟨i, -, rfl⟩ := List.mem_map.1 hk
      cases hindex : arrayIndex? (indexKey i) with
      | some j =>
        exact ⟨_, fun s' h => by rw [get_item hindex, h.items id rfl]⟩
      | none =>
        -- the index is too great, and the key is looked up among the members
        refine ⟨.undefined, fun s' _ => ?_⟩
        rw [get_array_member hindex (indexKey_ne rfl), arrayMember_indexKey]
        rfl
    case str text =>
      obtain ⟨i, -, rfl⟩ := List.mem_map.1 hk
      cases hindex : arrayIndex? (indexKey i) with
      | some j =>
        cases hunit : Text.unitAt? text j with
        | some unit => exact ⟨_, fun s' _ => by simp only [get, hindex, hunit]; rfl⟩
        | none => exact ⟨_, fun s' _ => by simp only [get, hindex, hunit]; rfl⟩
      | none =>
        have hlength : indexKey i ≠ "length" := indexKey_ne rfl
        refine ⟨.undefined, fun s' _ => ?_⟩
        simp only [get, hindex, if_neg hlength, stringMember_indexKey]
        rfl
    case object | closure | native => cases ht
    all_goals cases hk

/-- A listed key is read without failure and without a change. -/
theorem get_listed (hk : key ∈ Property.keys s base) :
    get base key s = .done (valueAt s base key) s := by
  obtain ⟨v, hv⟩ := get_listed_same hk
  have hget := hv s (.refl s base)
  rw [valueAt_of_get hget, hget]

/-- Equal contents are listed alike. -/
theorem keys_congr (h : SameContents s s' base) : Property.keys s' base = Property.keys s base := by
  cases ht : s.table? base with
  | some t => rw [keys_of_table ht, keys_of_table (h.table.trans ht)]
  | none =>
    cases base
    case array id => rw [Property.keys, Property.keys, h.items id rfl]
    case object | closure | native => cases ht
    all_goals rfl

/-- What a value lists depends on its contents. -/
theorem listing_congr (h : SameContents s s' base) : listing s' base = listing s base := by
  rw [listing, listing, keys_congr h]
  refine List.map_congr_left fun key hk => ?_
  obtain ⟨v, hv⟩ := get_listed_same hk
  rw [valueAt_of_get (hv s' h), valueAt_of_get (hv s (.refl s base))]

end Property

/-! ### Stores with another table -/

namespace Store

variable {s : Store} {base other : Value} {t u : Table Value} {f : Table Value → Table Value}

/-- The store with another table for an object or a function. -/
def withTable (s : Store) (base : Value) (t : Table Value) : Store :=
  s.mapTable (fun _ => t) base

theorem modify_eq_self {α : Type} {xs : Array α} {i : Nat} {f : α → α} {d : α}
    (h : f (xs.getD i d) = xs.getD i d) : xs.modify i f = xs := by
  refine Array.ext_getElem? fun j => ?_
  rw [Array.getElem?_modify]
  split
  · rename_i hij
    subst hij
    rw [Array.getD_eq_getD_getElem?] at h
    cases hx : xs[i]? with
    | none => rfl
    | some a =>
      rw [hx] at h
      exact congrArg some h
  · rfl

/-- Writing back the own table changes nothing. -/
theorem withTable_self (ht : s.table? base = some t) : s.withTable base t = s := by
  cases base
  case object id =>
    cases ht
    have hsame : s.objects.modify id (fun o => { o with props := (s.object id).props })
        = s.objects := modify_eq_self (d := {}) rfl
    rw [withTable, mapTable, hsame]
  case closure id =>
    cases ht
    have hsame : s.closures.modify id (fun c => { c with props := (s.closure id).props })
        = s.closures := modify_eq_self (d := default) rfl
    rw [withTable, mapTable, hsame]
  case native id =>
    cases ht
    have hsame : s.natives.modify id (fun n => { n with props := (s.native id).props })
        = s.natives := modify_eq_self (d := default) rfl
    rw [withTable, mapTable, hsame]
  all_goals cases ht

theorem mapTable_withTable : (s.withTable base t).mapTable f base = s.withTable base (f t) := by
  cases base
  case object | closure | native => simp only [withTable, mapTable, modify_modify]
  all_goals rfl

end Store

namespace Property

variable {s s' : Store} {base target source : Value} {key : String} {v : Value} {t u : Table Value}

/-- A copy into one reference leaves the contents of every other as they are. -/
theorem sameContents_of_emptied (h : s'.emptied target = s.emptied target) (hne : target ≠ base) :
    SameContents s s' base where
  table := by
    cases base
    case object id => exact congrArg some (congrArg Object.props (object_eq h hne))
    case closure id => exact congrArg some (congrArg Closure.props (closure_eq h hne))
    case native id => exact congrArg some (congrArg Native.props (native_eq h hne))
    all_goals rfl
  items := by
    rintro id rfl
    exact items_eq h hne

/-- New arrays and objects leave the contents of what was there as they are. -/
theorem sameContents_of_extendedBy (h : s.ExtendedBy s') (hin : base.IsIn s) :
    SameContents s s' base where
  table := by
    cases base
    case object id => exact congrArg some (congrArg Object.props (h.object hin))
    case closure id => exact congrArg some (congrArg Closure.props (h.closure hin))
    case native id => exact congrArg some (congrArg Native.props (h.native hin))
    all_goals rfl
  items := by
    rintro id rfl
    exact h.items hin

/-- What other values list does not depend on the table of the target. -/
theorem listing_withTable (hne : target ≠ source) :
    listing (s.withTable target t) source = listing s source :=
  listing_congr (sameContents_of_emptied (Store.emptied_mapTable _ target) hne)

/-- What the target lists is in its table. -/
theorem get?_of_listing_withTable (hin : target.IsIn s) (hu : s.table? target = some u) :
    ∀ pair ∈ listing (s.withTable target t) target, t.get? pair.1 = some pair.2 := by
  have ht : (s.withTable target t).table? target = some t := Store.table?_mapTable hin hu
  rw [listing, keys_of_table ht]
  refine List.forall_mem_map.2 fun key hk => ?_
  obtain ⟨v, hv⟩ := Option.isSome_iff_exists.1 ((Table.contains_iff t key).2 hk)
  rw [valueAt_of_get (get_own ht hv), hv]

end Property

/-! ### Copying -/

namespace Builtin

open Property

variable {s : Store} {target source : Value} {t u : Table Value} {keys : List String}

/-- The table of a target after all that the sources list has been entered into it, one source after
the other. -/
def assigned (s : Store) (target : Value) (t : Table Value) (sources : List Value) : Table Value :=
  sources.foldl (fun t source => t.insertAll (listing (s.withTable target t) source)) t

section

variable (hin : target.IsIn s) (hu : s.table? target = some u)

include hin hu

/-- Copying enters the keys with their values as long as these are read from the tables that come
about on the way. -/
theorem copyProperties_apply {P : Table Value → Prop} {f : String → Value}
    (hstep : ∀ t, P t → ∀ key ∈ keys, get source key (s.withTable target t)
      = .done (f key) (s.withTable target t) ∧ P (t.insert key (f key))) (ht : P t) :
    copyProperties target source keys (s.withTable target t)
      = .done () (s.withTable target (t.insertAll (keys.map fun key => (key, f key)))) := by
  induction keys generalizing t with
  | nil => rfl
  | cons key keys ih =>
    obtain ⟨hget, hnext⟩ := hstep t ht key (List.mem_cons_self ..)
    have hset := set_table (Store.table?_mapTable hin hu (f := fun _ => t)) key (f key)
    rw [← Store.withTable, Store.mapTable_withTable] at hset
    rw [copyProperties, Run.bind_done hget, Run.bind_done hset,
      ih (fun t ht k hk => hstep t ht k (List.mem_cons_of_mem _ hk)) hnext]
    rfl

/-- All that a source lists is entered. -/
theorem copyProperties_listing (source : Value) (t : Table Value) :
    copyProperties target source (Property.keys (s.withTable target t) source)
        (s.withTable target t)
      = .done () (s.withTable target (t.insertAll (listing (s.withTable target t) source))) := by
  by_cases hsource : source = target
  · -- of the target itself the table stays what it is
    subst hsource
    refine copyProperties_apply hin hu (P := fun u => u = t) ?_ rfl
    rintro _ rfl key hk
    exact ⟨get_listed hk, Table.insert_of_get? (get?_of_listing_withTable hin hu _
      (List.mem_map_of_mem hk))⟩
  · -- what another source lists is the same whatever the table has become
    refine copyProperties_apply hin hu (P := fun _ => True) (fun u _ key hk => ⟨?_, trivial⟩)
      trivial
    obtain ⟨v, hv⟩ := get_listed_same hk
    have hsame : SameContents (s.withTable target t) (s.withTable target u) source :=
      sameContents_of_emptied ((Store.emptied_mapTable _ target).trans
        (Store.emptied_mapTable _ target).symm) (Ne.symm hsource)
    rw [valueAt_of_get (hv _ (.refl _ _)), hv _ hsame]

/-- The loop over the sources changes the table of the target and nothing else. -/
theorem assignAll_apply (sources : List Value) (t : Table Value) :
    assignAll target sources (s.withTable target t)
      = .done () (s.withTable target (assigned s target t sources)) := by
  induction sources generalizing t with
  | nil => rfl
  | cons source sources ih =>
    show (copyProperties target source (Property.keys (s.withTable target t) source) >>= _)
      (s.withTable target t) = _
    rw [Run.bind_done (copyProperties_listing hin hu source t), ih]
    rfl

end

/-- A value with a table is given back by `assign`, with all entered into its table. -/
theorem call_objectAssign (host : Host) (this : Value) (hin : target.IsIn s)
    (ht : s.table? target = some t) (sources : List Value) :
    call host .objectAssign this (target :: sources) s
      = .done target (s.withTable target (assigned s target t sources)) := by
  have hnull : ¬ target.isNullish = true := by
    cases target
    case object | closure | native => exact Bool.false_ne_true
    all_goals cases ht
  have hassign := assignAll_apply hin ht sources t
  rw [Store.withTable_self ht] at hassign
  show (if target.isNullish then _ else assignAll target sources >>= _ : Run Store Value) s = _
  rw [if_neg hnull, Run.bind_done hassign]
  rfl

/-! ### Copies of an object -/

theorem modify_push_size {α : Type} (xs : Array α) (a : α) (f : α → α) :
    (xs.push a).modify xs.size f = xs.push (f a) := by
  refine Array.ext_getElem? fun j => ?_
  rw [Array.getElem?_modify, Array.getElem?_push, Array.getElem?_push]
  by_cases hj : j = xs.size
  · rw [if_pos hj.symm, if_pos hj, if_pos hj]
    rfl
  · rw [if_neg (Ne.symm hj), if_neg hj, if_neg hj]

/-- A table lists its entries. -/
theorem listing_of_table (ht : s.table? source = some t) :
    listing s source = t.entries := by
  have hentry : ∀ entry ∈ t.entries, (entry.1, valueAt s source entry.1) = entry :=
    fun entry he => by rw [valueAt_of_get (get_own ht (Table.get?_of_mem he))]
  rw [listing, keys_of_table ht, Table.keys, List.map_map]
  exact (List.map_congr_left hentry).trans (List.map_id _)

/-- A new object into which another one is copied has the same table. -/
theorem assign_to_new (host : Host) (this : Value) (hin : source.IsIn s)
    (ht : s.table? source = some t) :
    (do
      let target ← Store.newPlain []
      call host .objectAssign this [target, source]) s
      = .done (.object s.objects.size) { s with objects := s.objects.push { props := t } } := by
  let s₁ : Store := { s with objects := s.objects.push {} }
  have htarget : (Value.object s.objects.size).IsIn s₁ := by
    show s.objects.size < (s.objects.push _).size
    rw [Array.size_push]
    exact Nat.lt_succ_self _
  have htable : s₁.table? (.object s.objects.size) = some .empty :=
    congrArg some (congrArg Object.props (Store.getD_push_size ..))
  have hne : Value.object s.objects.size ≠ source := by
    rintro rfl
    exact Nat.lt_irrefl _ hin
  -- the new object is not the source, so the source is listed as it was
  have hlisting : listing (s₁.withTable (.object s.objects.size) .empty) source = t.entries := by
    rw [listing_withTable hne, ← listing_of_table ht]
    exact listing_congr (sameContents_of_extendedBy (s.extendedBy_newObject _) hin)
  have hassigned : assigned s₁ (.object s.objects.size) .empty [source] = t := by
    show Table.insertAll .empty (listing (s₁.withTable (.object s.objects.size) .empty) source) = t
    rw [hlisting]
    exact Table.ofList_entries t
  have hnew : Store.newPlain [] s = .done (.object s.objects.size) s₁ := rfl
  rw [Run.bind_done hnew, call_objectAssign host this htarget htable, hassigned, Store.withTable,
    Store.mapTable]
  dsimp only [s₁]
  rw [modify_push_size]

/-! ### Keys and values -/

/-- The keys come as texts in a new array. -/
theorem call_objectKeys (host : Host) (this v : Value) (s : Store) :
    call host .objectKeys this [v] s = .done (.array s.arrays.size)
      (s.withArray ((Property.keys s v).map Value.str).toArray) :=
  rfl

/-- The values come in a new array, in the order of the keys. -/
theorem call_objectValues (host : Host) (this v : Value) (s : Store) :
    call host .objectValues this [v] s = .done (.array s.arrays.size)
      (s.withArray ((Property.keys s v).map (valueAt s v)).toArray) := by
  have hvalues := Run.mapM_done (fun key (hk : key ∈ Property.keys s v) => get_listed hk)
  show ((Property.keys s v).mapM (fun key => get v key) >>= _) s = _
  rw [Run.bind_done hvalues]
  rfl

/-- What `values` gives for a key is found under it, where `keys` gives the key. -/
theorem values_follow_keys (host : Host) (this : Value) {v : Value} (hin : v.IsIn s) :
    ∃ ks vs s₁ s₂, call host .objectKeys this [v] s = .done (.array ks) s₁ ∧
      call host .objectValues this [v] s₁ = .done (.array vs) s₂ ∧
      s₂.items ks = ((Property.keys s v).map Value.str).toArray ∧
      (s₂.items vs).size = (s₂.items ks).size ∧
      ∀ (i : Nat) key, (s₂.items ks)[i]? = some key → ∃ value, (s₂.items vs)[i]? = some value ∧
        (do get v (← Convert.key key)) s₂ = .done value s₂ := by
  let s₁ := s.withArray ((Property.keys s v).map Value.str).toArray
  let s₂ := s₁.withArray ((Property.keys s₁ v).map (valueAt s₁ v)).toArray
  have h₁ : s.ExtendedBy s₁ := s.extendedBy_withArray _
  have h₂ : s₁.ExtendedBy s₂ := s₁.extendedBy_withArray _
  have hkeys : Property.keys s₁ v = Property.keys s v :=
    keys_congr (sameContents_of_extendedBy h₁ hin)
  -- the two new arrays are not what is listed, even if the value is an array
  have hsame : SameContents s₁ s₂ v := sameContents_of_extendedBy h₂ (Store.isIn_withArray hin _)
  have hks : s₂.items s.arrays.size = ((Property.keys s v).map Value.str).toArray := by
    rw [h₂.items ((s.size_withArray _).symm ▸ Nat.lt_succ_self _), s.items_withArray]
  have hvs : s₂.items s₁.arrays.size = ((Property.keys s v).map (valueAt s₁ v)).toArray := by
    rw [s₁.items_withArray, hkeys]
  refine ⟨_, _, s₁, s₂, call_objectKeys host this v s, call_objectValues host this v s₁, hks, ?_,
    fun i key hkey => ?_⟩
  · rw [hks, hvs, List.size_toArray, List.size_toArray, List.length_map, List.length_map]
  · rw [hks, List.getElem?_toArray, List.getElem?_map] at hkey
    obtain ⟨k, hk, rfl⟩ := Option.map_eq_some_iff.1 hkey
    have hmem : k ∈ Property.keys s₁ v := hkeys ▸ List.mem_of_getElem? hk
    obtain ⟨w, hw⟩ := get_listed_same hmem
    refine ⟨valueAt s₁ v k, ?_, ?_⟩
    · rw [hvs, List.getElem?_toArray, List.getElem?_map, hk]
      rfl
    · rw [valueAt_of_get (hw s₁ (.refl s₁ v))]
      exact (Run.bind_done (convertText_str s₂ k)).trans (hw s₂ hsame)

/-! ### The three functions together -/

/-- **`assign`, `keys` and `values` agree.**  For all values that are in the store:

`assign` gives back its target, if this has a table, and has changed nothing but the table: all that
the sources list has been entered into it, one source after the other, where other sources list what
they did before, and the target itself lists what is in the table.  To enter keeps the keys in their
places, and the last value stays.  What is listed are the keys, each with what is read under it.  A
new object to which another one is assigned has the same table.  What `values` gives is, one by one,
what is read under the keys that `keys` gives. -/
theorem assign_keys_and_values_agree (host : Host) (this : Value) (s : Store) :
    (∀ target t sources, target.IsIn s → s.table? target = some t → ∃ s',
      s' = s.withTable target (assigned s target t sources) ∧
      call host .objectAssign this (target :: sources) s = .done target s' ∧
      s'.table? target = some (assigned s target t sources) ∧ ChangedOnly s s' target ∧
      ∀ u source, (source ≠ target → listing (s.withTable target u) source = listing s source) ∧
        (source = target → u.insertAll (listing (s.withTable target u) source) = u)) ∧
    (∀ source key, key ∈ Property.keys s source →
      get source key s = .done (valueAt s source key) s) ∧
    (∀ (t : Table Value) pairs, t.keys <+: (t.insertAll pairs).keys ∧
      ∀ key, (t.insertAll pairs).get? key = (pairs.reverse.lookup key).or (t.get? key)) ∧
    (∀ source t, source.IsIn s → s.table? source = some t →
      (do
        let target ← Store.newPlain []
        call host .objectAssign this [target, source]) s
        = .done (.object s.objects.size) { s with objects := s.objects.push { props := t } }) ∧
    ∀ v, v.IsIn s → ∃ ks vs s₁ s₂, call host .objectKeys this [v] s = .done (.array ks) s₁ ∧
      call host .objectValues this [v] s₁ = .done (.array vs) s₂ ∧
      s₂.items ks = ((Property.keys s v).map Value.str).toArray ∧
      (s₂.items vs).size = (s₂.items ks).size ∧
      ∀ (i : Nat) key, (s₂.items ks)[i]? = some key → ∃ value, (s₂.items vs)[i]? = some value ∧
        (do get v (← Convert.key key)) s₂ = .done value s₂ := by
  refine ⟨fun target t sources hin ht => ?_, fun source key => get_listed, fun t pairs =>
    ⟨Table.keys_prefix_insertAll t pairs, Table.get?_insertAll t pairs⟩,
    fun source t hin ht => assign_to_new host this hin ht,
    fun v hin => values_follow_keys host this hin⟩
  -- between two sources only the table of the target has changed
  refine ⟨_, rfl, call_objectAssign host this hin ht sources, Store.table?_mapTable hin ht,
    changedOnly (Store.emptied_mapTable _ target), fun u source => ⟨fun hne => ?_, ?_⟩⟩
  · exact listing_withTable hne.symm
  · rintro rfl
    exact Table.insertAll_of_get? (get?_of_listing_withTable hin ht)

/-- Two objects that have a key in common. -/
def twoObjects : Store where
  objects := #[{ props := .ofList [("a", .num 1), ("b", .num 2)] },
    { props := .ofList [("b", .num 3), ("c", .num 4)] }]

/-- A second object is copied into one that has a key of it, and then this one into itself. -/
theorem two_objects_are_copied :
    (∃ s', call .none .objectAssign .undefined [.object 0, .object 1, .object 0] twoObjects
        = .done (.object 0) s' ∧
      s'.table? (.object 0) = some (.ofList [("a", .num 1), ("b", .num 3), ("c", .num 4)]) ∧
      ChangedOnly twoObjects s' (.object 0)) ∧
    (do
      let target ← Store.newPlain []
      call .none .objectAssign .undefined [target, .object 1]) twoObjects
      = .done (.object 2) { twoObjects with
        objects := twoObjects.objects.push { props := .ofList [("b", .num 3), ("c", .num 4)] } } ∧
    ∃ ks vs s₁ s₂, call .none .objectKeys .undefined [.object 1] twoObjects = .done (.array ks) s₁ ∧
      call .none .objectValues .undefined [.object 1] s₁ = .done (.array vs) s₂ ∧
      s₂.items ks = #[.str "b", .str "c"] := by
  obtain ⟨hassign, -, -, hcopy, hvalues⟩ :=
    assign_keys_and_values_agree .none .undefined twoObjects
  have hin : (Value.object 0).IsIn twoObjects := Nat.zero_lt_two
  have hin' : (Value.object 1).IsIn twoObjects := Nat.one_lt_two
  obtain ⟨s', -, hcall, htable, hchanged, -⟩ := hassign _ _ [.object 1, .object 0] hin rfl
  obtain ⟨ks, vs, s₁, s₂, hks, hvs, hitems, -⟩ := hvalues _ hin'
  exact ⟨⟨s', hcall, htable, hchanged⟩, hcopy _ _ hin' rfl,
    ks, vs, s₁, s₂, hks, hvs, hitems⟩

end Builtin

end Estree
