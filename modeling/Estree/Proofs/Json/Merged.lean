/-
Estree/Proofs/Json/Merged.lean

Documents in which no object names two members alike.

A text may name a member of an object twice, and a document keeps both.  Whoever asks for a member
by its name is given the last one (`Json.member?`); `Json.merged` keeps this one alone, at every
depth, at the place of the first.  To merge a document

* leaves each name once in every object (`merged_namesOnce`), and changes nothing where this is so
  already (`merged_of_namesOnce`): the documents that it leaves as they are are just these
  (`merged_eq_self_iff`), so it need not be done twice (`merged_merged`);
* loses nothing that could be asked for (`member?_merged`).

The values of an object after merging are found in the table of its merged members, so all of this
rests on what the table of a list of pairs holds (`Table.get?_ofList`, `Table.entries_ofList`).
-/
import Estree.Json.Basic
import Estree.Proofs.Table

namespace Estree

namespace Json

mutual

/-- No object of the document, at any depth, names two members alike. -/
def NamesOnce : Json → Prop
  | .arr items => NamesOnceItems items
  | .obj members => (members.map Prod.fst).Nodup ∧ NamesOnceMembers members
  | _ => True

/-- No object inside of items does. -/
def NamesOnceItems : List Json → Prop
  | [] => True
  | j :: rest => j.NamesOnce ∧ NamesOnceItems rest

/-- No object inside of the values of members does. -/
def NamesOnceMembers : List (String × Json) → Prop
  | [] => True
  | (_, j) :: rest => j.NamesOnce ∧ NamesOnceMembers rest

end

theorem namesOnceMembers_iff {members : List (String × Json)} :
    NamesOnceMembers members ↔ ∀ m ∈ members, m.2.NamesOnce := by
  induction members with
  | nil => simp [NamesOnceMembers]
  | cons m members ih => rw [NamesOnceMembers, ih, List.forall_mem_cons]

theorem mergedMembers_eq (members : List (String × Json)) :
    mergedMembers members = members.map fun m => (m.1, m.2.merged) := by
  induction members with
  | nil => rfl
  | cons m members ih => rw [mergedMembers, ih, List.map_cons]

mutual

/-- A merged document names the members of each object once. -/
theorem merged_namesOnce : ∀ j : Json, j.merged.NamesOnce
  | .null | .bool _ | .num _ | .str _ => trivial
  | .arr items => mergedItems_namesOnce items
  | .obj members => by
    refine ⟨(Table.ofList (mergedMembers members)).nodup, namesOnceMembers_iff.2 fun m hm => ?_⟩
    -- the values in the table are among those that were entered
    exact namesOnceMembers_iff.1 (mergedMembers_namesOnce members) m (Table.mem_of_mem_ofList hm)

theorem mergedItems_namesOnce : ∀ items : List Json, NamesOnceItems (mergedItems items)
  | [] => trivial
  | j :: rest => ⟨merged_namesOnce j, mergedItems_namesOnce rest⟩

theorem mergedMembers_namesOnce :
    ∀ members : List (String × Json), NamesOnceMembers (mergedMembers members)
  | [] => trivial
  | (_, j) :: rest => ⟨merged_namesOnce j, mergedMembers_namesOnce rest⟩

end

mutual

/-- Where each name is there once, there is nothing to merge. -/
theorem merged_of_namesOnce : ∀ {j : Json}, j.NamesOnce → j.merged = j
  | .null, _ | .bool _, _ | .num _, _ | .str _, _ => rfl
  | .arr _, h => congrArg Json.arr (mergedItems_of_namesOnce h)
  | .obj members, h => by
    rw [merged, mergedMembers_of_namesOnce h.2, Table.entries_ofList h.1]

theorem mergedItems_of_namesOnce :
    ∀ {items : List Json}, NamesOnceItems items → mergedItems items = items
  | [], _ => rfl
  | _ :: _, h =>
    congrArg₂ List.cons (merged_of_namesOnce h.1) (mergedItems_of_namesOnce h.2)

theorem mergedMembers_of_namesOnce :
    ∀ {members : List (String × Json)}, NamesOnceMembers members → mergedMembers members = members
  | [], _ => rfl
  | (name, _) :: _, h =>
    congrArg₂ List.cons (congrArg (Prod.mk name) (merged_of_namesOnce h.1))
      (mergedMembers_of_namesOnce h.2)

end

variable {j : Json}

/-- **Merged documents.**  A document is as merging leaves it if and only if no object of it names
two members alike. -/
theorem merged_eq_self_iff : j.merged = j ↔ j.NamesOnce :=
  ⟨fun h => h ▸ merged_namesOnce j, merged_of_namesOnce⟩

/-- To merge a second time changes nothing. -/
theorem merged_merged (j : Json) : j.merged.merged = j.merged :=
  merged_of_namesOnce (merged_namesOnce j)

/-- Of the members with one name the last one is asked for, and this one is kept. -/
theorem member?_merged (j : Json) (name : String) :
    j.merged.member? name = (j.member? name).map merged := by
  cases j with
  | obj members =>
    show (Table.ofList (mergedMembers members)).entries.reverse.lookup name
      = (members.reverse.lookup name).map merged
    rw [Table.lookup_reverse_entries, Table.get?_ofList, mergedMembers_eq, ← List.map_reverse,
      Table.lookup_map]
  | _ => rfl

end Json

end Estree
