/-
Estree/Proofs/Inside.lean

What lies inside of what: the items of arrays and the property values of objects.

A search through the store that remembers the arrays or objects around it comes to an end, since
there are only so many of them (`length_le_of_forall_lt`).  Where such a search gives its
results by `mapM` in `Option`, it has one exactly if all its parts have one
(`isSome_mapM_iff`).

That is the whole argument for conversions and for serialization: their definitions carry a bound
for the recursion, and the bound that they use is never too small.
-/
import Mathlib.Data.List.Perm.Basic
import Mathlib.Data.List.Nodup
import Mathlib.Logic.Relation
import Estree.Store

namespace Estree

/-! ### Lists of results -/

section lists

variable {α β : Type}

/-- All results are there if each of them is. -/
theorem isSome_mapM_iff {f : α → Option β} {l : List α} :
    (l.mapM f).isSome = true ↔ ∀ a ∈ l, (f a).isSome = true := by
  induction l with
  | nil => simp
  | cons a l ih =>
    rw [List.mapM_cons, List.forall_mem_cons, ← ih]
    rcases f a with - | b
    · simp
    · rcases l.mapM f with - | bs
      · simp
      · simp

/-- A list has the same results where each of its members has. -/
theorem mapM_mono {f g : α → Option β} {l : List α} (h : ∀ a ∈ l, ∀ b, f a = some b → g a = some b)
    {bs : List β} (hf : l.mapM f = some bs) : l.mapM g = some bs := by
  induction l generalizing bs with
  | nil => exact hf
  | cons a l ih =>
    rw [List.forall_mem_cons] at h
    rw [List.mapM_cons] at hf ⊢
    rcases ea : f a with - | b
    · simp [ea] at hf
    · rcases el : l.mapM f with - | bs'
      · simp [ea, el] at hf
      · simpa [ea, el, h.1 b ea, ih h.2 el] using hf

/-- Distinct numbers below a bound are no more than the bound. -/
theorem length_le_of_forall_lt {l : List Nat} (hl : l.Nodup) {n : Nat}
    (h : ∀ i ∈ l, i < n) : l.length ≤ n := by
  have hs : l ⊆ List.range n := fun i hi => List.mem_range.mpr (h i hi)
  have hle : l.length ≤ (List.range n).length := (List.subperm_of_subset hl hs).length_le
  simpa using hle

end lists

/-! ### Inside -/

namespace Store

variable {s : Store} {id : Nat} {v : Value}

/-- What stands immediately inside of a value. -/
inductive Inside (s : Store) : Value → Value → Prop where
  | item {id : ArrayId} {v : Value} : v ∈ s.items id → Inside s (.array id) v
  | entry {id : ObjectId} {key : String} {v : Value} :
      (key, v) ∈ (s.object id).props.entries → Inside s (.object id) v

theorem lt_size_of_mem_items (h : v ∈ s.items id) : id < s.arrays.size := by
  by_contra hid
  simp [items, Array.getD_eq_getD_getElem?, hid] at h

theorem lt_size_of_mem_entries {e : String × Value} (h : e ∈ (s.object id).props.entries) :
    id < s.objects.size := by
  by_contra hid
  simp [object, Array.getD_eq_getD_getElem?, hid] at h

end Store

end Estree
