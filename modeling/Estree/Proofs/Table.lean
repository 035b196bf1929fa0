/-
Estree/Proofs/Table.lean

Tables as finite maps, and their entries in order.

What an operation does is said twice: what is found under a name after it (`get?_insert`,
`get?_erase_self`, `get?_insertAll`), and what the names are, in order (`keys_insert`, `keys_erase`,
`keys_prefix_insertAll`).  Proofs about the map go by induction on the raw entries, on which
`insertEntry` and the filter of `erase` work; that no name is there twice is not needed for them.

It is needed where a table is taken apart and put together again: every entry is what is found under
its name (`get?_of_mem`), and pairs with different names that are entered one after the other are
the entries of the table (`entries_ofList`).
-/
import Mathlib.Data.List.Nodup
import Estree.Table

namespace Estree

namespace Table

variable {α : Type} {t u : Table α} {name other n m : String} {value : α}
variable {pairs : List (String × α)}

/-! ### Entries -/

theorem lookup_cons (name other : String) (value : α) (rest : List (String × α)) :
    ((name, value) :: rest).lookup other
      = if other = name then some value else rest.lookup other := by
  rw [List.lookup_cons]
  by_cases h : other = name
  · rw [if_pos h, beq_iff_eq.2 h]
  · rw [if_neg h, beq_false_of_ne h]

/-- After an insertion the inserted name is found with its value, every other name as before. -/
theorem lookup_insertEntry (name other : String) (value : α) (entries : List (String × α)) :
    (insertEntry name value entries).lookup other
      = if other = name then some value else entries.lookup other := by
  induction entries with
  | nil => exact lookup_cons name other value []
  | cons entry rest ih =>
    obtain ⟨k, v⟩ := entry
    rw [insertEntry]
    by_cases hk : k = name
    · -- the entry is replaced in its place
      subst hk
      rw [if_pos rfl, lookup_cons, lookup_cons]
      by_cases h : other = k
      · rw [if_pos h, if_pos h]
      · rw [if_neg h, if_neg h, if_neg h]
    · -- the entry stays in front of the new one
      rw [if_neg hk, lookup_cons, ih, lookup_cons]
      by_cases h : other = k
      · rw [if_pos h, if_neg fun hn => hk (h.symm.trans hn), if_pos h]
      · rw [if_neg h, if_neg h]

theorem lookup_map {β : Type} (f : α → β) (entries : List (String × α)) (name : String) :
    (entries.map fun entry => (entry.1, f entry.2)).lookup name
      = (entries.lookup name).map f := by
  induction entries with
  | nil => rfl
  | cons entry rest ih =>
    rw [List.map_cons, lookup_cons, ih, lookup_cons]
    split <;> rfl

/-- A name is found exactly if it stands in one of the entries. -/
theorem isSome_lookup_iff (entries : List (String × α)) (name : String) :
    (entries.lookup name).isSome = true ↔ name ∈ entries.map Prod.fst := by
  induction entries with
  | nil => simp
  | cons entry rest ih =>
    obtain ⟨k, v⟩ := entry
    rw [List.map_cons, List.mem_cons, ← ih, lookup_cons]
    by_cases h : name = k
    · simp [h]
    · rw [if_neg h]
      exact (or_iff_right h).symm

/-- A name that is not there comes last. -/
theorem insertEntry_of_not_mem {entries : List (String × α)}
    (h : name ∉ entries.map Prod.fst) :
    insertEntry name value entries = entries ++ [(name, value)] := by
  induction entries with
  | nil => rfl
  | cons e entries ih =>
    rw [List.map_cons, List.mem_cons, not_or] at h
    rw [insertEntry, if_neg (Ne.symm h.1), ih h.2, List.cons_append]

/-- To enter what is there changes nothing. -/
theorem insertEntry_of_lookup {entries : List (String × α)}
    (h : entries.lookup name = some value) : insertEntry name value entries = entries := by
  induction entries with
  | nil => cases h
  | cons e entries ih =>
    obtain ⟨k, v⟩ := e
    rw [lookup_cons] at h
    rw [insertEntry]
    by_cases hk : name = k
    · rw [if_pos hk] at h
      cases h
      rw [if_pos hk.symm]
    · rw [if_neg hk] at h
      rw [if_neg (Ne.symm hk), ih h]

/-- Where names are there once each, an entry is what is found under its name. -/
theorem lookup_of_mem {entries : List (String × α)} (h : (entries.map Prod.fst).Nodup)
    (hmem : (name, value) ∈ entries) : entries.lookup name = some value := by
  induction entries with
  | nil => cases hmem
  | cons e entries ih =>
    rw [List.map_cons, List.nodup_cons] at h
    rw [lookup_cons]
    rcases List.mem_cons.1 hmem with rfl | hmem
    · exact if_pos rfl
    · have hne : name ≠ e.1 := fun he => h.1 (he ▸ List.mem_map_of_mem hmem)
      rw [if_neg hne, ih h.2 hmem]

/-! ### One entry -/

/-- What is read after an insertion: the new value at its own name, the old one elsewhere. -/
theorem get?_insert (t : Table α) (name other : String) (value : α) :
    (t.insert name value).get? other = if other = name then some value else t.get? other :=
  lookup_insertEntry name other value t.entries

/-- Erasing one name hides no other. -/
theorem get?_erase_of_ne (t : Table α) (h : other ≠ name) :
    (t.erase name).get? other = t.get? other := by
  unfold get? erase
  dsimp only
  induction t.entries with
  | nil => rfl
  | cons entry rest ih =>
    obtain ⟨k, v⟩ := entry
    rw [List.filter_cons, lookup_cons]
    by_cases hk : k = name
    · subst hk
      rw [if_neg h, if_neg (by simp), ih]
    · rw [if_pos (by simpa using hk), lookup_cons, ih]

/-- An erased name is gone; this is where the distinctness of the names is used. -/
theorem get?_erase_self (t : Table α) (name : String) : (t.erase name).get? name = none := by
  unfold get? erase
  dsimp only
  induction t.entries with
  | nil => rfl
  | cons entry rest ih =>
    obtain ⟨k, v⟩ := entry
    rw [List.filter_cons]
    by_cases hk : k = name
    · rw [if_neg (by simpa using hk), ih]
    · rw [if_pos (by simpa using hk), lookup_cons, if_neg (Ne.symm hk), ih]

theorem contains_of_contains_erase (h : (t.erase name).contains other = true) :
    t.contains other = true := by
  by_cases ho : other = name
  · subst ho
    rw [contains, get?_erase_self] at h
    cases h
  · rwa [contains, get?_erase_of_ne t ho] at h

theorem contains_erase_of_ne (t : Table α) (h : m ≠ n) :
    (t.erase n).contains m = t.contains m := by
  rw [contains, contains, get?_erase_of_ne t h]

theorem contains_iff (t : Table α) (name : String) : t.contains name = true ↔ name ∈ t.keys :=
  isSome_lookup_iff t.entries name

/-- A new name comes last; a name that is there keeps its place. -/
theorem keys_insert (t : Table α) (name : String) (value : α) :
    (t.insert name value).keys = if name ∈ t.keys then t.keys else t.keys ++ [name] :=
  map_fst_insertEntry name value t.entries

/-- Erasing takes one name out and leaves the order of the others. -/
theorem keys_erase (t : Table α) (name : String) :
    (t.erase name).keys = t.keys.filter fun key => key != name := by
  rw [keys, keys, List.filter_map]
  rfl

/-- What is found under a name is one of the entries. -/
theorem mem_of_get? (h : t.get? name = some value) : (name, value) ∈ t.entries := by
  obtain ⟨before, after, he, -⟩ := List.lookup_eq_some_iff.1 h
  rw [he]
  simp

/-- Every entry is what is found under its name. -/
theorem get?_of_mem (h : (name, value) ∈ t.entries) : t.get? name = some value :=
  lookup_of_mem t.nodup h

/-- Writing back the value a name has changes nothing. -/
theorem insert_of_get? (h : t.get? name = some value) : t.insert name value = t :=
  Table.ext (insertEntry_of_lookup h)

/-- The table with other values under the same names. -/
def map {β : Type} (f : α → β) (t : Table α) : Table β where
  entries := t.entries.map fun entry => (entry.1, f entry.2)
  nodup := by
    rw [List.map_map]
    exact t.nodup

theorem get?_map {β : Type} (f : α → β) (t : Table α) (name : String) :
    (t.map f).get? name = (t.get? name).map f :=
  lookup_map f t.entries name

/-! ### Erasing and entering -/

/-- An insertion in front of the erasure of the same name is lost. -/
theorem erase_insert_self (t : Table α) (n : String) (v : α) :
    (t.insert n v).erase n = t.erase n := by
  refine Table.ext ?_
  show (insertEntry n v t.entries).filter (·.1 != n) = t.entries.filter (·.1 != n)
  induction t.entries with
  | nil => simp [insertEntry]
  | cons entry rest ih =>
    rw [insertEntry]
    by_cases hk : entry.1 = n
    · rw [if_pos hk, List.filter_cons_of_neg (by simpa using hk),
        List.filter_cons_of_neg (by simpa using hk)]
    · rw [if_neg hk, List.filter_cons_of_pos (by simpa using hk),
        List.filter_cons_of_pos (by simpa using hk), ih]

/-- An insertion commutes with the erasure of another name, the order of the entries included. -/
theorem erase_insert_of_ne (t : Table α) (h : m ≠ n) (v : α) :
    (t.insert m v).erase n = (t.erase n).insert m v := by
  refine Table.ext ?_
  show (insertEntry m v t.entries).filter (·.1 != n) = insertEntry m v (t.entries.filter (·.1 != n))
  induction t.entries with
  | nil => simp [insertEntry, h]
  | cons entry rest ih =>
    rw [insertEntry]
    by_cases hk : entry.1 = m
    · -- the entry is replaced, and it is not the one that is taken out
      have hn : entry.1 ≠ n := hk ▸ h
      rw [if_pos hk, List.filter_cons_of_pos (by simpa using hn),
        List.filter_cons_of_pos (by simpa using hn), insertEntry, if_pos hk]
    · rw [if_neg hk]
      by_cases hn : entry.1 = n
      · rw [List.filter_cons_of_neg (by simpa using hn),
          List.filter_cons_of_neg (by simpa using hn), ih]
      · rw [List.filter_cons_of_pos (by simpa using hn),
          List.filter_cons_of_pos (by simpa using hn), insertEntry, if_neg hk, ih]

/-- Two erasures may change places. -/
theorem erase_comm (t : Table α) (n m : String) : (t.erase m).erase n = (t.erase n).erase m := by
  refine Table.ext ?_
  show (t.entries.filter _).filter _ = (t.entries.filter _).filter _
  rw [List.filter_filter, List.filter_filter]
  simp only [Bool.and_comm]

/-! ### Many entries -/

theorem insertAll_cons (t : Table α) (pair : String × α) (pairs : List (String × α)) :
    t.insertAll (pair :: pairs) = (t.insert pair.1 pair.2).insertAll pairs :=
  rfl

/-- Inserting pairs that are there already changes nothing. -/
theorem insertAll_of_get? (h : ∀ pair ∈ pairs, t.get? pair.1 = some pair.2) :
    t.insertAll pairs = t := by
  induction pairs with
  | nil => rfl
  | cons pair pairs ih =>
    obtain ⟨hpair, hpairs⟩ := List.forall_mem_cons.1 h
    rw [insertAll_cons, insert_of_get? hpair, ih hpairs]

/-- A key that is there keeps its place. -/
theorem keys_prefix_insertAll (t : Table α) (pairs : List (String × α)) :
    t.keys <+: (t.insertAll pairs).keys := by
  induction pairs generalizing t with
  | nil => exact List.prefix_refl _
  | cons pair pairs ih =>
    refine List.IsPrefix.trans ?_ (ih (t.insert pair.1 pair.2))
    rw [keys_insert]
    split
    · exact List.prefix_refl _
    · exact List.prefix_append ..

/-- The last value that is entered under a key is the one that stays. -/
theorem get?_insertAll (t : Table α) (pairs : List (String × α)) (key : String) :
    (t.insertAll pairs).get? key = (pairs.reverse.lookup key).or (t.get? key) := by
  induction pairs generalizing t with
  | nil => rfl
  | cons pair pairs ih =>
    rw [insertAll_cons, ih, get?_insert, List.reverse_cons, List.lookup_append, Option.or_assoc,
      lookup_cons]
    split <;> rfl

/-- In a table made from a list the last pair with a name counts. -/
theorem get?_ofList (pairs : List (String × α)) (name : String) :
    (ofList pairs).get? name = pairs.reverse.lookup name := by
  rw [ofList, get?_insertAll]
  exact Option.or_none

/-- A table of pairs with different names is these pairs. -/
theorem entries_ofList (h : (pairs.map Prod.fst).Nodup) : (ofList pairs).entries = pairs := by
  -- no name that is still to come is one of the table so far
  have from_here (t : Table α) (h : ((t.entries ++ pairs).map Prod.fst).Nodup) :
      (t.insertAll pairs).entries = t.entries ++ pairs := by
    clear * - h
    induction pairs generalizing t with
    | nil => simp [insertAll]
    | cons p pairs ih =>
      have hp : p.1 ∉ t.entries.map Prod.fst := by
        simp only [List.map_append, List.map_cons] at h
        exact fun hm => (List.disjoint_of_nodup_append h) hm (by simp)
      have ht : (t.insert p.1 p.2).entries = t.entries ++ [p] := insertEntry_of_not_mem hp
      have hi := ih (t.insert p.1 p.2) (by rw [ht]; simpa using h)
      rw [ht] at hi
      simpa [insertAll] using hi
  simpa [ofList, empty] using from_here empty (by simpa [empty] using h)

/-- The entries of a table make this table. -/
theorem ofList_entries (t : Table α) : ofList t.entries = t :=
  Table.ext (entries_ofList t.nodup)

/-- The last entry under a name is the only one. -/
theorem lookup_reverse_entries (t : Table α) (name : String) :
    t.entries.reverse.lookup name = t.get? name := by
  rw [← get?_ofList, ofList_entries]

/-- What is entered in the table of a list is one of its pairs. -/
theorem mem_of_mem_ofList (h : (name, value) ∈ (ofList pairs).entries) : (name, value) ∈ pairs := by
  have hfound := (get?_ofList pairs name).symm.trans (get?_of_mem h)
  obtain ⟨before, after, he, -⟩ := List.lookup_eq_some_iff.1 hfound
  exact List.mem_reverse.1 (he ▸ by simp)

/-- A table that is entered into another one replaces what this has. -/
theorem get?_insertAll_table (t u : Table α) (name : String) :
    (t.insertAll u.entries).get? name = (u.get? name).or (t.get? name) := by
  rw [get?_insertAll, ← get?_ofList, ofList_entries]

/-- To enter all pairs of a table and then take a name out. -/
theorem erase_insertAll (t u : Table α) (n : String) :
    (t.insertAll u.entries).erase n = (t.erase n).insertAll (u.erase n).entries := by
  show _ = (t.erase n).insertAll (u.entries.filter (·.1 != n))
  induction u.entries generalizing t with
  | nil => rfl
  | cons entry rest ih =>
    rw [insertAll_cons, ih]
    by_cases hk : entry.1 = n
    · rw [List.filter_cons_of_neg (by simpa using hk), hk, erase_insert_self]
    · rw [List.filter_cons_of_pos (by simpa using hk), insertAll_cons, erase_insert_of_ne t hk]

end Table

end Estree
