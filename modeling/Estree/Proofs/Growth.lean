/-
Estree/Proofs/Growth.lean

How long arrays get.

A `Growth` is one of the operations that make an array grow or put a new one together out of
existing ones.  Each has an array that it changes or makes (`Growth.place`) and a length that this
array is to have (`Growth.length?`), which may be too much or, in a store on its own, no length at
all.  If the operation goes through, that array has that length and every other array is as it was
(`Growth.grows`); so the bound on lengths is kept if and only if the length is within it
(`Store.Grown.dense_iff`).

Writes and the constructor look at the length and refuse a greater one before anything changes
(`Growth.refuses`).  The members `push`, `unshift` and `concat` do not look.
-/
import Mathlib.Logic.Relation
import Estree.Builtin.Call
import Estree.Proofs.Law

namespace Estree

/-! ### Arrays of a store -/

/-- No array is longer than arrays may get. -/
def Store.Dense (s : Store) : Prop :=
  ∀ id, (s.items id).size ≤ maxDenseLength

/-- One array has a given length, and all others are what they were. -/
structure Store.Grown (s s' : Store) (id : ArrayId) (n : Nat) : Prop where
  size : (s'.items id).size = n
  rest : ∀ i, i ≠ id → s'.items i = s.items i

namespace Store.Grown

variable {s s' : Store} {id : ArrayId} {n : Nat}

/-- The bound is kept if and only if the one array is within it. -/
theorem dense_iff (h : Grown s s' id n) (hs : s.Dense) : s'.Dense ↔ n ≤ maxDenseLength := by
  refine ⟨fun hs' => h.size ▸ hs' id, fun hn i => ?_⟩
  by_cases hi : i = id
  · rw [hi, h.size]
    exact hn
  · rw [h.rest i hi]
    exact hs i

theorem modify {f : Array Value → Array Value} (hid : id < s.arrays.size)
    (hf : (f (s.items id)).size = n) :
    Grown s { s with arrays := s.arrays.modify id f } id n where
  size := by
    rw [← hf]
    simp [items, Array.getElem_modify, hid]
  rest i hi := by
    simp only [items, Array.getD_eq_getD_getElem?, Array.getElem?_modify, if_neg (Ne.symm hi)]

theorem push {items : Array Value} (hn : items.size = n) :
    Grown s { s with arrays := s.arrays.push items } s.arrays.size n where
  size := by
    rw [← hn]
    simp [Store.items]
  rest i hi := by
    simp [Store.items, Array.getD_eq_getD_getElem?, Array.getElem?_push, hi]

end Store.Grown

/-! ### Lengths -/

@[simp]
theorem size_resize (items : Array Value) (n : Nat) : (resize items n).size = n := by
  unfold resize
  split
  · simp only [Array.size_extract]
    omega
  · simp only [Array.size_append, Array.size_replicate]
    omega

/-- The natural number that a double is, if it is one. -/
def wholeNumber? (x : Float) : Option Nat :=
  match Binary.ofFloat? x with
  | some b => if b.isIntegral && !(x < 0) then some b.floorAbs else none
  | none => none

section denseLength

variable {x : Float} {n : Nat}

/-- A natural number is a length if it is within the bound; nothing else is. -/
theorem denseLength_eq (x : Float) :
    denseLength x = match wholeNumber? x with
      | some n => if n ≤ maxDenseLength then pure n else invalidLength
      | none => invalidLength := by
  unfold denseLength wholeNumber?
  cases Binary.ofFloat? x with
  | none => rfl
  | some b =>
    dsimp only
    cases b.isIntegral && !(x < 0)
    · rfl
    · simp

theorem denseLength_of_le (hx : wholeNumber? x = some n) (hn : n ≤ maxDenseLength) :
    denseLength x = pure n := by
  rw [denseLength_eq, hx]
  exact if_pos hn

theorem denseLength_of_lt (hx : wholeNumber? x = some n) (hn : maxDenseLength < n) :
    denseLength x = invalidLength := by
  rw [denseLength_eq, hx]
  exact if_neg (Nat.not_le.2 hn)

theorem denseLength_of_none (hx : wholeNumber? x = none) : denseLength x = invalidLength := by
  rw [denseLength_eq, hx]

end denseLength

/-- The number of items that arguments add when arrays are put together. -/
def addedSize (s : Store) : List Value → Nat
  | [] => 0
  | arg :: args => (Builtin.itemsToAdd s arg).size + addedSize s args

theorem size_foldl_itemsToAdd (s : Store) (args : List Value) (items : Array Value) :
    (args.foldl (fun acc arg => acc ++ Builtin.itemsToAdd s arg) items).size
      = items.size + addedSize s args := by
  induction args generalizing items with
  | nil => rfl
  | cons arg args ih => rw [List.foldl_cons, ih, Array.size_append, addedSize, Nat.add_assoc]

/-! ### Operations -/

/-- The operations that make an array grow or put a new one together. -/
inductive Growth where
  /-- To write a property of an array: an item, or the length. -/
  | write (id : ArrayId) (key : String) (value : Value)
  /-- A new array of a given length. -/
  | make (length : Float)
  | push (id : ArrayId) (args : List Value)
  | unshift (id : ArrayId) (args : List Value)
  | concat (id : ArrayId) (args : List Value)

namespace Growth

/-- What the operation does. -/
def run : Growth → Run Store Value
  | write id key value => do
    Property.set (.array id) key value
    return value
  | make length => Builtin.makeArray [.num length]
  | push id args => Builtin.callArrayMethod .push (.array id) args
  | unshift id args => Builtin.callArrayMethod .unshift (.array id) args
  | concat id args => Builtin.callArrayMethod .concat (.array id) args

/-- Whether the operation looks at the length. -/
def isChecked : Growth → Bool
  | write _ _ _ | make _ => true
  | push _ _ | unshift _ _ | concat _ _ => false

/-- The array that it works on exists. -/
def On (s : Store) : Growth → Prop
  | write id _ _ | push id _ | unshift id _ | concat id _ => id < s.arrays.size
  | make _ => True

/-- The array that it changes or makes. -/
def place (s : Store) : Growth → ArrayId
  | write id _ _ | push id _ | unshift id _ => id
  | make _ | concat _ _ => s.arrays.size

/-- The length that an array is to have after a write: an item is to be in it, a length is to be
its own, and no other key says anything about it. -/
def writtenLength? (s : Store) (id : ArrayId) (key : String) (value : Value) : Option Nat :=
  match arrayIndex? key with
  | some i => some (max (s.items id).size (i + 1))
  | none => if key = "length" then (s.number? value).bind wholeNumber? else none

/-- The length that the array is to have. -/
def length? (s : Store) : Growth → Option Nat
  | write id key value => writtenLength? s id key value
  | make length => wholeNumber? length
  | push id args | unshift id args => some ((s.items id).size + args.length)
  | concat id args => some ((s.items id).size + addedSize s args)

/-! ### Writes -/

section writes

variable {s : Store} {id : ArrayId} {key : String} {value : Value} {i n : Nat}

theorem set_item (hk : arrayIndex? key = some i) (id : ArrayId) (value : Value) :
    Property.set (.array id) key value = Property.setItem id i value := by
  simp only [Property.set, hk]

theorem setItem_apply (id : ArrayId) (i : Nat) (value : Value) (s : Store) :
    Property.setItem id i value s =
      (if i < (s.items id).size then
        Store.modifyItems id fun items => items.setIfInBounds i value
      else if maxDenseLength ≤ i then invalidLength
      else Store.modifyItems id fun items => (resize items i).push value) s :=
  rfl

/-- A length is written with the number that a value stands for. -/
theorem set_length {x : Float} (hx : s.number? value = some x) (id : ArrayId) :
    Property.set (.array id) "length" value s
      = (denseLength x >>= fun n => Store.modifyItems id fun items => resize items n) s := by
  refine Run.bind_done (m := Convert.number value) ?_
  rw [Convert.number, Run.ofOption, hx]

theorem setItem_grows (hid : id < s.arrays.size) (hi : i < maxDenseLength) :
    ∃ s', Property.setItem id i value s = .done () s' ∧
      s.Grown s' id (max (s.items id).size (i + 1)) := by
  rw [setItem_apply]
  by_cases hlt : i < (s.items id).size
  · rw [if_pos hlt]
    refine ⟨_, rfl, .modify hid ?_⟩
    rw [Array.size_setIfInBounds]
    omega
  · rw [if_neg hlt, if_neg (Nat.not_le.2 hi)]
    refine ⟨_, rfl, .modify hid ?_⟩
    rw [Array.size_push, size_resize]
    omega

/-- A write goes through if the length it asks for is within the bound. -/
theorem set_grows (hid : id < s.arrays.size) (hn : writtenLength? s id key value = some n)
    (hle : n ≤ maxDenseLength) :
    ∃ s', Property.set (.array id) key value s = .done () s' ∧ s.Grown s' id n := by
  unfold writtenLength? at hn
  split at hn
  · rename_i i hk
    cases hn
    rw [set_item hk]
    exact setItem_grows hid (by omega)
  · split at hn
    · rename_i hlength
      obtain ⟨x, hx, hn⟩ := Option.bind_eq_some_iff.1 hn
      rw [hlength, set_length hx, denseLength_of_le hn hle]
      exact ⟨_, rfl, .modify (f := fun items => resize items n) hid (size_resize _ n)⟩
    · cases hn

/-- A write is refused if the length it asks for is too great. -/
theorem set_refuses (hs : s.Dense) (hn : writtenLength? s id key value = some n)
    (hlt : maxDenseLength < n) : Property.set (.array id) key value s = invalidLength s := by
  unfold writtenLength? at hn
  split at hn
  · rename_i i hk
    have hsize := hs id
    cases hn
    rw [set_item hk, setItem_apply, if_neg (by omega), if_pos (by omega)]
  · split at hn
    · rename_i hlength
      obtain ⟨x, hx, hn⟩ := Option.bind_eq_some_iff.1 hn
      rw [hlength, set_length hx, denseLength_of_lt hn hlt]
      rfl
    · cases hn

/-- A write that asks for no length fails, or the text of the value is not found. -/
theorem set_of_no_length (hn : writtenLength? s id key value = none) :
    Property.set (.array id) key value s = .endless ∨
      ∃ e, Property.set (.array id) key value s = .failed e s := by
  unfold writtenLength? at hn
  split at hn
  · cases hn
  · rename_i hk
    split at hn
    · rename_i hlength
      rw [hlength]
      cases hx : s.number? value with
      | none =>
        refine .inl (Run.bind_endless (m := Convert.number value) ?_)
        rw [Convert.number, Run.ofOption, hx]
      | some x =>
        rw [hx] at hn
        rw [set_length hx, denseLength_of_none hn]
        exact .inr ⟨_, rfl⟩
    · rename_i hlength
      simp only [Property.set, hk, if_neg hlength]
      exact .inr ⟨_, rfl⟩

end writes

/-! ### What goes through and what does not -/

variable {s s' : Store} {g : Growth} {n : Nat}

/-- An operation goes through if the length it asks for is within the bound or nobody looks at
it; and then it has made an array of just that length. -/
theorem grows (hon : g.On s) (hn : g.length? s = some n)
    (hc : g.isChecked = true → n ≤ maxDenseLength) :
    ∃ v s', g.run s = .done v s' ∧ s.Grown s' (g.place s) n := by
  cases g with
  | write id key value =>
    obtain ⟨s', hset, hgrown⟩ := set_grows hon hn (hc rfl)
    exact ⟨value, s', Run.bind_done hset, hgrown⟩
  | make length =>
    have hlength : denseLength length s = .done n s := by
      rw [denseLength_of_le hn (hc rfl)]
      rfl
    exact ⟨_, _, Run.bind_done hlength, .push Array.size_replicate⟩
  -- from here on no length is checked
  | push id args =>
    cases hn
    refine ⟨_, _, rfl, .modify hon ?_⟩
    rw [← Array.length_toList, Array.toList_appendList, List.length_append, Array.length_toList]
  | unshift id args =>
    cases hn
    refine ⟨_, _, rfl, .modify hon ?_⟩
    rw [Array.size_append, List.size_toArray, Nat.add_comm]
  | concat id args =>
    cases hn
    exact ⟨_, _, rfl, .push (size_foldl_itemsToAdd s args _)⟩

/-- An operation that looks at the length refuses one that is too great. -/
theorem refuses (hs : s.Dense) (hg : g.isChecked = true) (hn : g.length? s = some n)
    (hlt : maxDenseLength < n) :
    g.run s = .failed { cause := .rangeError "Invalid array length" } s := by
  cases g with
  | write id key value => exact Run.bind_failed (set_refuses hs hn hlt)
  | make length =>
    have hlength : denseLength length s = invalidLength s := by rw [denseLength_of_lt hn hlt]
    exact Run.bind_failed hlength
  | push | unshift | concat => cases hg

/-- What asks for no length changes nothing. -/
theorem run_of_no_length (hn : g.length? s = none) :
    g.run s = .endless ∨ ∃ e, g.run s = .failed e s := by
  cases g with
  | write id key value =>
    obtain h | ⟨e, h⟩ := set_of_no_length hn
    · exact .inl (Run.bind_endless h)
    · exact .inr ⟨e, Run.bind_failed h⟩
  | make length =>
    have hlength : denseLength length s = invalidLength s := by rw [denseLength_of_none hn]
    exact .inr ⟨_, Run.bind_failed hlength⟩
  | push | unshift | concat => cases hn

/-! ### The bound -/

/-- The operation stays within the bound if nobody looks at the length it asks for. -/
def Fits (s : Store) (g : Growth) : Prop :=
  g.isChecked = true ∨ ∃ n, g.length? s = some n ∧ n ≤ maxDenseLength

/-- One operation that fits is performed, whether it goes through or not. -/
def Step (s s' : Store) : Prop :=
  ∃ g : Growth, g.On s ∧ g.Fits s ∧ (g.run s).Ends s'

/-- An operation that looks at the length keeps the bound. -/
theorem dense_of_checked (hs : s.Dense) (hon : g.On s) (hg : g.isChecked = true) :
    (∃ v s', g.run s = .done v s' ∧ s'.Dense) ∨ (∃ e, g.run s = .failed e s) ∨
      g.run s = .endless := by
  cases hn : g.length? s with
  | none =>
    obtain h | h := run_of_no_length hn
    · exact .inr (.inr h)
    · exact .inr (.inl h)
  | some n =>
    by_cases hle : n ≤ maxDenseLength
    · obtain ⟨v, s', hrun, hgrown⟩ := grows hon hn fun _ => hle
      exact .inl ⟨v, s', hrun, (hgrown.dense_iff hs).2 hle⟩
    · exact .inr (.inl ⟨_, refuses hs hg hn (Nat.lt_of_not_le hle)⟩)

/-- Any other operation goes through, and keeps the bound only by chance. -/
theorem dense_of_unchecked (hs : s.Dense) (hon : g.On s) (hg : g.isChecked = false) :
    ∃ v s' n, g.run s = .done v s' ∧ g.length? s = some n ∧ s.Grown s' (g.place s) n ∧
      (s'.Dense ↔ n ≤ maxDenseLength) := by
  obtain ⟨n, hn⟩ : ∃ n, g.length? s = some n := by
    cases g with
    | write | make => cases hg
    | push | unshift | concat => exact ⟨_, rfl⟩
  obtain ⟨v, s', hrun, hgrown⟩ := grows hon hn fun hc => nomatch hc.symm.trans hg
  exact ⟨v, s', n, hrun, hn, hgrown, hgrown.dense_iff hs⟩

/-- One operation that fits keeps the bound. -/
theorem Step.dense (hs : s.Dense) (h : Step s s') : s'.Dense := by
  obtain ⟨g, hon, hfits, hends⟩ := h
  cases hg : g.isChecked with
  | true =>
    obtain ⟨v, s₁, hrun, hs₁⟩ | ⟨e, hrun⟩ | hrun := dense_of_checked hs hon hg
    all_goals
      rw [hrun] at hends
      obtain ⟨_, h⟩ | ⟨_, h⟩ := hends <;> cases h
    · exact hs₁
    · exact hs
  | false =>
    obtain hc | ⟨n, hn, hle⟩ := hfits
    · exact nomatch hc.symm.trans hg
    · obtain ⟨v, s₁, m, hrun, hm, -, hiff⟩ := dense_of_unchecked hs hon hg
      rw [hrun] at hends
      obtain ⟨_, h⟩ | ⟨_, h⟩ := hends <;> cases h
      cases hn.symm.trans hm
      exact hiff.2 hle

/-- Any number of operations that fit keep the bound. -/
theorem dense_of_steps (hs : s.Dense) (h : Relation.ReflTransGen Step s s') : s'.Dense := by
  induction h with
  | refl => exact hs
  | tail _ hstep ih => exact hstep.dense ih

end Growth

/-- **Lengths are bounded where they are checked.**  Let no array be longer than arrays may get.
Writes of an item or the length and the constructor with a length: if the array would become longer
than that, they fail with a `RangeError` and nothing changes; if it would not, they go through, and
the array gets the length it is to have; in any case the bound is kept, and nothing changes on a
failure.  The members `push`, `unshift` and `concat` always go through, and the bound is kept if and
only if the lengths add up to no more than it.  So it is kept by every sequence of these operations
in which they do so each time. -/
theorem lengths_are_bounded_where_checked {s : Store} (hs : s.Dense) :
    (∀ g : Growth, g.On s → g.isChecked = true →
      (∀ n, g.length? s = some n → n ≤ maxDenseLength →
        ∃ v s', g.run s = .done v s' ∧ s.Grown s' (g.place s) n) ∧
      (∀ n, g.length? s = some n → maxDenseLength < n →
        g.run s = .failed { cause := .rangeError "Invalid array length" } s) ∧
      (∀ v s', g.run s = .done v s' → s'.Dense) ∧
      (∀ e s', g.run s = .failed e s' → s' = s)) ∧
    (∀ g : Growth, g.On s → g.isChecked = false →
      ∃ v s' n, g.run s = .done v s' ∧ g.length? s = some n ∧ s.Grown s' (g.place s) n ∧
        (s'.Dense ↔ n ≤ maxDenseLength)) ∧
    (∀ s', Relation.ReflTransGen Growth.Step s s' → s'.Dense) := by
  refine ⟨fun g hon hg => ⟨fun n hn hle => Growth.grows hon hn fun _ => hle,
    fun n => Growth.refuses hs hg, fun v s' h => ?_, fun e s' h => ?_⟩,
    fun g => Growth.dense_of_unchecked hs, fun s' => Growth.dense_of_steps hs⟩
  · obtain ⟨_, _, hrun, hs'⟩ | ⟨_, hrun⟩ | hrun := Growth.dense_of_checked hs hon hg
    all_goals cases hrun.symm.trans h
    exact hs'
  · obtain ⟨_, _, hrun, -⟩ | ⟨_, hrun⟩ | hrun := Growth.dense_of_checked hs hon hg
    all_goals cases hrun.symm.trans h
    rfl

/-- An array of one item: a write far behind its end, and two more items. -/
theorem short_array_grows_within_the_bound :
    let s : Store := { arrays := #[#[.null]] }
    (Growth.write 0 "16777216" .null).run s
      = .failed { cause := .rangeError "Invalid array length" } s ∧
    ∃ v s', (Growth.push 0 [.null, .null]).run s = .done v s' ∧ (s'.items 0).size = 3 ∧
      s'.Dense := by
  intro s
  have hs : s.Dense
    | 0 => by decide
    | _ + 1 => Nat.zero_le _
  obtain ⟨hchecked, hunchecked, -⟩ := lengths_are_bounded_where_checked hs
  refine ⟨?_, ?_⟩
  · exact (hchecked (.write 0 "16777216" .null) Nat.zero_lt_one rfl).2.1 16777217 rfl (by decide)
  · obtain ⟨v, s', n, hrun, hn, hgrown, hiff⟩ :=
      hunchecked (.push 0 [.null, .null]) Nat.zero_lt_one rfl
    cases hn
    exact ⟨v, s', hrun, hgrown.size, hiff.2 (by decide)⟩

/-- An array as long as arrays may get is made longer by each of the members that do not look at its
length. -/
theorem members_outgrow_the_bound :
    let s : Store := { arrays := #[Array.replicate maxDenseLength .undefined] }
    s.Dense ∧
    ∀ g ∈ [Growth.push 0 [.null], .unshift 0 [.null], .concat 0 [.null]],
      ∃ v s', g.run s = .done v s' ∧ ¬ s'.Dense := by
  intro s
  have hsize : (s.items 0).size = maxDenseLength := Array.size_replicate
  have hs : s.Dense
    | 0 => Nat.le_of_eq hsize
    | _ + 1 => Nat.zero_le _
  refine ⟨hs, fun g hg => ?_⟩
  have hlength : g.length? s = some (maxDenseLength + 1) ∧ g.On s ∧ g.isChecked = false := by
    obtain rfl | rfl | rfl : g = .push 0 [.null] ∨ g = .unshift 0 [.null] ∨ g = .concat 0 [.null] :=
      by simpa using hg
    all_goals
      exact ⟨by simp [Growth.length?, addedSize, Builtin.itemsToAdd, hsize], Nat.zero_lt_one, rfl⟩
  obtain ⟨hn, hon, hc⟩ := hlength
  obtain ⟨v, s', m, hrun, hm, -, hiff⟩ := Growth.dense_of_unchecked hs hon hc
  cases hn.symm.trans hm
  exact ⟨v, s', hrun, fun h => Nat.not_succ_le_self _ (hiff.1 h)⟩

end Estree
