/-
Estree/Proofs/Extension.lean

Stores with more in them.

Nothing is ever taken out of a store, and a new array, object or function does not change what is
there (`Store.ExtendedBy`).  So a text that has been found is found again, if only all that it is
made of was in the store (`Store.Holds`): a place without an array has the text of an empty array,
until an array is made that gets this place.

What is shown here is used wherever an operation makes something new before it looks at its
arguments: the new thing does not change what the arguments are converted to.
-/
import Estree.Proofs.Conversion
import Estree.Proofs.Property.Access

namespace Estree

open Relation

namespace Store

variable {s s' : Store} {v w : Value} {n : Nat} {seen : List ArrayId} {id : Nat}

/-! ### More in a store -/

/-- The store with a new array, as `newArray` leaves it. -/
def withArray (s : Store) (items : Array Value) : Store :=
  { s with arrays := s.arrays.push items }

/-- All that is in a store is the same in another one. -/
structure ExtendedBy (s s' : Store) : Prop where
  items : ∀ {id : ArrayId}, id < s.arrays.size → s'.items id = s.items id
  object : ∀ {id : ObjectId}, id < s.objects.size → s'.object id = s.object id
  closure : ∀ {id : ClosureId}, id < s.closures.size → s'.closure id = s.closure id
  native : ∀ {id : NativeId}, id < s.natives.size → s'.native id = s.native id

theorem getD_push_of_lt {α : Type} {xs : Array α} {i : Nat} {x d : α} (h : i < xs.size) :
    (xs.push x).getD i d = xs.getD i d := by
  rw [Array.getD_eq_getD_getElem?, Array.getD_eq_getD_getElem?, Array.getElem?_push_lt h,
    Array.getElem?_eq_getElem h]

theorem getD_push_size {α : Type} (xs : Array α) (x d : α) : (xs.push x).getD xs.size d = x := by
  rw [Array.getD_eq_getD_getElem?, Array.getElem?_push_size, Option.getD_some]

theorem extendedBy_withArray (s : Store) (items : Array Value) :
    s.ExtendedBy (s.withArray items) where
  items := getD_push_of_lt
  object _ := rfl
  closure _ := rfl
  native _ := rfl

theorem size_withArray (s : Store) (items : Array Value) :
    (s.withArray items).arrays.size = s.arrays.size + 1 :=
  Array.size_push _

/-- What was in the store is still in it beside a new array. -/
theorem isIn_withArray (hv : v.IsIn s) (items : Array Value) : v.IsIn (s.withArray items) := by
  cases v
  case array id =>
    show id < (s.withArray items).arrays.size
    rw [size_withArray]
    exact Nat.lt_succ_of_lt hv
  all_goals exact hv

theorem items_withArray (s : Store) (items : Array Value) :
    (s.withArray items).items s.arrays.size = items :=
  getD_push_size ..

theorem extendedBy_newObject (s : Store) (o : Object) :
    s.ExtendedBy { s with objects := s.objects.push o } where
  items _ := rfl
  object := getD_push_of_lt
  closure _ := rfl
  native _ := rfl

/-! ### Texts -/

/-- All that the text of a value is made of is in the store. -/
def Holds (s : Store) (v : Value) : Prop :=
  ∀ w, ReflTransGen (Part s) v w → w.IsIn s

theorem Holds.part (h : s.Holds v) (hp : Part s v w) : s.Holds w :=
  fun u hu => h u (.head hp hu)

theorem holds_of_no_part (hv : v.IsIn s) (h : ∀ w, ¬ Part s v w) : s.Holds v := by
  intro w hw
  rcases hw.cases_head with rfl | ⟨u, hu, -⟩
  · exact hv
  · exact absurd hu (h u)

/-- A value that refers to nothing is held by every store. -/
theorem holds_of_not_reference (h : v.isReference = false) : s.Holds v := by
  refine holds_of_no_part ?_ fun w hw => ?_
  · cases v
    case array | object | closure | native => cases h
    all_goals trivial
  · cases hw <;> cases h

/-- A text that has been found is found in a store with more in it. -/
theorem ExtendedBy.textWithin (he : s.ExtendedBy s') (hv : s.Holds v) {t : String}
    (h : textWithin s n seen v = some t) : Store.textWithin s' n seen v = some t := by
  -- by induction on the depth; only the parts are at a smaller one
  induction n generalizing seen v t with
  | zero => cases h
  | succ n ih =>
    rcases v with - | - | b | x | u | id | id | id | id
    case array =>
      by_cases hseen : id ∈ seen
      · simpa [Store.textWithin, hseen] using h
      · have item (v : Value) (hi : v ∈ (s.items id).toList) (t : String)
            (ht : (if v.isNullish then some "" else Store.textWithin s n (id :: seen) v) = some t) :
            (if v.isNullish then some "" else Store.textWithin s' n (id :: seen) v) = some t := by
          rcases e : v.isNullish with - | -
          · rw [e] at ht
            exact ih (hv.part (.item (Array.mem_toList_iff.1 hi))) ht
          · rw [e] at ht
            exact ht
        have hc : seen.contains id = false := by simpa using hseen
        rw [Store.textWithin, hc] at h ⊢
        rw [he.items (hv _ .refl)]
        obtain ⟨texts, ht, rfl⟩ := Option.map_eq_some_iff.mp h
        exact Option.map_eq_some_iff.mpr ⟨texts, mapM_mono item ht, rfl⟩
    case object =>
      have ho : s'.object id = s.object id := he.object (hv _ .refl)
      rcases eb : (s.object id).brand with - | cls | made
      case error =>
        have field {key missing t : String} (hp : ∀ v, (s.object id).props.get? key = some v →
            Part s (.object id) v) (ht : fieldText s n id key missing = some t) :
            fieldText s' n id key missing = some t := by
          unfold fieldText at ht ⊢
          rw [ho]
          rcases e : (s.object id).props.get? key with - | v
          · rwa [e] at ht
          · rw [e] at ht
            exact ih (hv.part (hp v e)) ht
        have eb' : (s'.object id).brand = .error cls := ho ▸ eb
        rw [textWithin_error eb] at h
        rw [textWithin_error eb']
        obtain ⟨name, hn, h⟩ := Option.bind_eq_some_iff.mp h
        obtain ⟨message, hm, ht⟩ := Option.bind_eq_some_iff.mp h
        rw [field (fun _ => .name eb) hn, Option.bind_some, field (fun _ => .message eb) hm]
        exact ht
      all_goals
        rw [Store.textWithin, eb] at h
        rwa [Store.textWithin, ho, eb]
    case closure =>
      rw [← h, Store.textWithin, Store.textWithin, he.closure (hv _ .refl)]
    case native =>
      rw [← h, Store.textWithin, Store.textWithin, he.native (hv _ .refl)]
    all_goals exact h

/-- A text that was found is found again in every larger store. -/
theorem ExtendedBy.text? (he : s.ExtendedBy s') (hv : s.Holds v) {t : String}
    (h : s.text? v = some t) : s'.text? v = some t := by
  obtain ⟨n, hn⟩ := text_eq_some_iff.1 h
  exact text_eq_some_iff.2 ⟨n, he.textWithin hv hn⟩

/-- A number that was found is found again in every larger store. -/
theorem ExtendedBy.number? (he : s.ExtendedBy s') (hv : s.Holds v) {x : Float}
    (h : s.number? v = some x) : s'.number? v = some x := by
  cases v
  case array =>
    obtain ⟨t, ht, rfl⟩ := Option.map_eq_some_iff.1 h
    exact Option.map_eq_some_iff.2 ⟨t, he.text? hv ht, rfl⟩
  all_goals exact h

end Store

end Estree
