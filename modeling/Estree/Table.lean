/-
Estree/Table.lean

Ordered tables: finite maps from names to values that remember the order in
which the names were first entered.  Own properties of objects, bindings of a
scope and the table of names an embedder provides are all of this kind.

`insert` replaces the value of a known name where it stands and enters a new
name last; `erase` takes a name out and keeps the order of the others.  No table
has a name twice: that it has not is a part of it, which every operation has to
provide again.
-/

namespace Estree

/-- Entries in the order in which their names were first entered, each name once. -/
@[ext]
structure Table (α : Type) where
  entries : List (String × α)
  nodup : (entries.map Prod.fst).Nodup

namespace Table

variable {α : Type}

/-- A table without entries. -/
def empty : Table α where
  entries := []
  nodup := List.nodup_nil

@[simp] theorem entries_empty : (empty : Table α).entries = [] := rfl

instance : Inhabited (Table α) := ⟨empty⟩

/-- The value entered for a name. -/
def get? (t : Table α) (name : String) : Option α :=
  t.entries.lookup name

/-- Whether a name has been entered. -/
def contains (t : Table α) (name : String) : Bool :=
  (t.get? name).isSome

/-- Replace the first entry of a name, or enter the name last. -/
def insertEntry (name : String) (value : α) : List (String × α) → List (String × α)
  | [] => [(name, value)]
  | (k, v) :: rest =>
    if k = name then (k, value) :: rest else (k, v) :: insertEntry name value rest

/-- A known name stays where it is, and a new one comes last. -/
theorem map_fst_insertEntry (name : String) (value : α) (entries : List (String × α)) :
    (insertEntry name value entries).map Prod.fst
      = if name ∈ entries.map Prod.fst then entries.map Prod.fst
        else entries.map Prod.fst ++ [name] := by
  induction entries with
  | nil => rfl
  | cons e entries ih =>
    rw [insertEntry]
    by_cases hn : e.1 = name
    · simp [hn]
    · rw [if_neg hn, List.map_cons, List.map_cons, ih]
      by_cases hm : name ∈ entries.map Prod.fst
      · rw [if_pos hm, if_pos (List.mem_cons_of_mem _ hm)]
      · rw [if_neg hm, if_neg (by simpa [Ne.symm hn] using hm), List.cons_append]

theorem nodup_insertEntry (name : String) (value : α) {entries : List (String × α)}
    (h : (entries.map Prod.fst).Nodup) : ((insertEntry name value entries).map Prod.fst).Nodup := by
  rw [map_fst_insertEntry]
  split
  · exact h
  · rename_i hname
    refine List.nodup_append.2 ⟨h, List.pairwise_singleton .., ?_⟩
    rintro other hother _ hlast rfl
    exact hname (List.mem_singleton.1 hlast ▸ hother)

/-- Give a name a value: in place if it is known, else last. -/
def insert (t : Table α) (name : String) (value : α) : Table α where
  entries := insertEntry name value t.entries
  nodup := nodup_insertEntry name value t.nodup

/-- Take a name out; the others keep their order. -/
def erase (t : Table α) (name : String) : Table α where
  entries := t.entries.filter fun entry => entry.1 != name
  nodup := t.nodup.sublist (List.filter_sublist.map Prod.fst)

/-- The names, in order of first entry. -/
def keys (t : Table α) : List String :=
  t.entries.map Prod.fst

/-- The values, in the order of their names. -/
def values (t : Table α) : List α :=
  t.entries.map Prod.snd

/-- Enter the pairs of a list one after the other. -/
def insertAll (t : Table α) (pairs : List (String × α)) : Table α :=
  pairs.foldl (fun acc pair => acc.insert pair.1 pair.2) t

/-- The table of a list of pairs; of two pairs with one name the later value stays, at the
place of the earlier. -/
def ofList (pairs : List (String × α)) : Table α :=
  empty.insertAll pairs

/-- Whether there are no entries. -/
def isEmpty (t : Table α) : Bool :=
  t.entries.isEmpty

end Table

end Estree
