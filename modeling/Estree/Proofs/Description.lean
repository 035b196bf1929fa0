/-
Estree/Proofs/Description.lean

What a description depends on.

A description of a value (`Store.describe`) looks into no other value.  Of an array it asks for the
length, of an object for what has made it and for its keys, of a function for its name.  Two stores
that agree on these (`Store.LooksLike`) give every value the same description
(`LooksLike.describe`), whatever lies in their arrays and under their keys; so

* to replace an item of an array, or to give a key of an object a new value, changes no description
  at all (`looksLike_modifyItems`, `looksLike_insert`);
* a function of the program has the same description for ever (`Session.describe_closure`), as it
  keeps its name.
-/
import Estree.Describe
import Estree.Proofs.Function
import Estree.Proofs.Table

namespace Estree

namespace Store

variable {s s' : Store}

/-- The second store looks like the first to whoever asks neither for items nor for the values of
properties. -/
structure LooksLike (s s' : Store) : Prop where
  size : ∀ id, (s'.items id).size = (s.items id).size
  brand : ∀ id, (s'.object id).brand = (s.object id).brand
  keys : ∀ id, (s'.object id).props.keys = (s.object id).props.keys
  core : ∀ id, (s'.closure id).core = (s.closure id).core
  name : ∀ id, (s'.native id).name = (s.native id).name

/-- **Descriptions.**  Stores that look alike give a value the same description. -/
theorem LooksLike.describe (h : s.LooksLike s') (v : Value) : s'.describe v = s.describe v := by
  have brand (b : Brand) : Describe.brand s' b = Describe.brand s b := by
    cases b with
    | «instance» made =>
      show "Instance(" ++ Describe.maker (s'.closure made).core ++ ")"
        = "Instance(" ++ Describe.maker (s.closure made).core ++ ")"
      rw [h.core]
    | _ => rfl
  cases v with
  | array id => rw [Store.describe, Store.describe, h.size]
  | object id =>
    rw [Store.describe, Store.describe, Describe.object, Describe.object, h.brand, h.keys, brand]
  | closure id =>
    show "Function(" ++ (s'.closure id).core.displayName ++ ")"
      = "Function(" ++ (s.closure id).core.displayName ++ ")"
    rw [h.core]
  | native id => rw [Store.describe, Store.describe, h.name]
  | _ => rfl

/-- Items may be replaced as long as there are as many. -/
theorem looksLike_modifyItems {id : ArrayId} {f : Array Value → Array Value}
    (hf : (f (s.items id)).size = (s.items id).size) :
    s.LooksLike { s with arrays := s.arrays.modify id f } where
  size other := by
    unfold items at hf ⊢
    rw [Array.getD_eq_getD_getElem?, Array.getElem?_modify, Array.getD_eq_getD_getElem?]
    rw [Array.getD_eq_getD_getElem?] at hf
    split
    · subst other
      cases hitems : s.arrays[id]? with
      | none => rfl
      | some items =>
        rw [hitems] at hf
        exact hf
    · rfl
  brand _ := rfl
  keys _ := rfl
  core _ := rfl
  name _ := rfl

/-- A key that is there may be given another value. -/
theorem looksLike_insert {id : ObjectId} {key : String} {value : Value}
    (hkey : key ∈ (s.object id).props.keys) :
    s.LooksLike { s with
      objects := s.objects.modify id fun o => { o with props := o.props.insert key value } } where
  size _ := rfl
  brand other := by
    unfold object
    rw [Array.getD_eq_getD_getElem?, Array.getElem?_modify, Array.getD_eq_getD_getElem?]
    split
    · subst other
      cases s.objects[id]? <;> rfl
    · rfl
  -- the key is there already, so it is not listed a second time
  keys other := by
    unfold object at hkey ⊢
    rw [Array.getD_eq_getD_getElem?] at hkey
    rw [Array.getD_eq_getD_getElem?, Array.getElem?_modify, Array.getD_eq_getD_getElem?]
    split
    · subst other
      cases hobject : s.objects[id]? with
      | none => rfl
      | some o =>
        rw [hobject] at hkey
        exact (Table.keys_insert o.props key value).trans (if_pos hkey)
    · rfl
  core _ := rfl
  name _ := rfl

end Store

/-- A function of the program has the same description at all later times. -/
theorem Session.describe_closure {host : Host} (hk : host.KeepsFunctions) {s s' : State}
    (h : Session host (fun _ _ _ => True) s s') {id : ClosureId}
    (hid : id < s.store.closures.size) :
    s'.store.describe (.closure id) = s.store.describe (.closure id) := by
  have hkept := (Law.functionsKept hk s.store).session (fun {_ t _} _ hi =>
    ⟨Discipline.asks_all t, hi, fun _ _ => Discipline.admits_all _⟩) h (FunctionsKept.refl s.store)
  show "Function(" ++ (s'.store.closure id).core.displayName ++ ")"
    = "Function(" ++ (s.store.closure id).core.displayName ++ ")"
  rw [hkept.core hid]

end Estree
