/-
Estree/Proofs/Function.lean

The functions of the program stay what they are.

No routine makes a function of the program, and of those that exist only the properties change
(`Routine.sameFunctions`).  For functions of the embedder this is an assumption,
`Host.KeepsFunctions`: they are given values to work on, but neither nodes nor scopes.  An
evaluation makes new functions, but it keeps those that there were (`functions_kept`).

Much of what is said about sessions needs no more than this: a closure that a value refers to keeps
its code and its scope, whatever is run in between.
-/
import Estree.Proofs.Session

namespace Estree

/-- A function of the program without its own properties. -/
def Closure.core (c : Closure) : Closure := { c with props := .empty }

/-- Two stores with the same functions of the program, apart from their own properties. -/
def SameFunctions (s s' : Store) : Prop :=
  s'.closures.map Closure.core = s.closures.map Closure.core

theorem SameFunctions.core {s s' : Store} (h : SameFunctions s s') (id : ClosureId) :
    (s'.closure id).core = (s.closure id).core := by
  have hid : s'.closures[id]?.map Closure.core = s.closures[id]?.map Closure.core := by
    rw [← Array.getElem?_map, ← Array.getElem?_map, h]
  unfold Store.closure
  rw [Array.getD_eq_getD_getElem?, Array.getD_eq_getD_getElem?]
  cases h' : s'.closures[id]? with
  | none =>
    rw [h', Option.map_none, eq_comm, Option.map_eq_none_iff] at hid
    rw [hid]
  | some c' =>
    rw [h', Option.map_some, eq_comm, Option.map_eq_some_iff] at hid
    obtain ⟨c, hc, he⟩ := hid
    rw [hc]
    exact he.symm

/-- The embedder's functions make no functions of the program and do not replace any. -/
def Host.KeepsFunctions (host : Host) : Prop :=
  ∀ id this args s s', (host.call id this args s).Ends s' → SameFunctions s s'

theorem Host.none_keepsFunctions : Host.none.KeepsFunctions := by
  rintro id this args s s' (⟨v, h⟩ | ⟨e, h⟩)
  · cases h
    rfl
  · cases h

/-- The law that the functions of the program are kept, with what is known of causes. -/
def StoreLaw.functions {host : Host} (hk : host.KeepsFunctions) (err : Cause → Prop)
    (ordinary : ∀ cause, Cause.isOrdinary cause = true → err cause)
    (failed : ∀ id this args s e s', host.call id this args s = .failed e s' → err e.cause) :
    StoreLaw host where
  rel := SameFunctions
  err := err
  refl _ := rfl
  trans h h' := Eq.trans h' h
  ordinary h := ordinary _ h
  newArray _ _ := rfl
  modifyItems _ _ _ := rfl
  newObject _ _ := rfl
  newNative _ _ := rfl
  modifyObject _ _ _ := rfl
  modifyClosure s id f := by
    refine Array.ext_getElem? fun i => ?_
    rw [Array.getElem?_map, Array.getElem?_map, Array.getElem?_modify]
    split
    · rw [Option.map_map]
      rfl
    · rfl
  modifyNative _ _ _ := rfl
  console _ _ := rfl
  hostDone h := hk _ _ _ _ _ (.inl ⟨_, h⟩)
  hostFailed h := ⟨hk _ _ _ _ _ (.inr ⟨_, h⟩), failed _ _ _ _ _ _ h⟩

/-- Routines keep the functions of the program. -/
theorem Routine.sameFunctions {host : Host} (hk : host.KeepsFunctions) {α : Type}
    {m : Run Store α} (hm : Routine host m) (s : Store) : (m s).Leaves (SameFunctions s) :=
  hm.leaves
    (StoreLaw.functions hk (fun _ => True) (fun _ _ => trivial) fun _ _ _ _ _ _ _ => trivial) s

/-- A function that is made comes after all others. -/
theorem Store.closure_push (s : Store) (c : Closure) (id : ClosureId) :
    Store.closure { s with closures := s.closures.push c } id
      = if id = s.closures.size then c else s.closure id := by
  unfold Store.closure
  rw [Array.getD_eq_getD_getElem?, Array.getElem?_push, Array.getD_eq_getD_getElem?]
  split
  · rfl
  · rfl

/-! ### Functions that are kept -/

/-- The functions of the program that there were are still there, the same apart from their own
properties. -/
structure FunctionsKept (s s' : Store) : Prop where
  size : s.closures.size ≤ s'.closures.size
  core : ∀ {id}, id < s.closures.size → (s'.closure id).core = (s.closure id).core

namespace FunctionsKept

variable {s s' s'' : Store}

theorem refl (s : Store) : FunctionsKept s s := ⟨Nat.le_refl _, fun _ => rfl⟩

theorem trans (h : FunctionsKept s s') (h' : FunctionsKept s' s'') : FunctionsKept s s'' where
  size := Nat.le_trans h.size h'.size
  core hid := (h'.core (Nat.lt_of_lt_of_le hid h.size)).trans (h.core hid)

theorem of_same (h : SameFunctions s s') : FunctionsKept s s' where
  size := by
    have hsize := congrArg Array.size h
    rw [Array.size_map, Array.size_map] at hsize
    exact Nat.le_of_eq hsize.symm
  core {id} _ := h.core id

theorem push (s : Store) (c : Closure) :
    FunctionsKept s { s with closures := s.closures.push c } where
  size := Nat.le_of_lt (Array.size_push _ ▸ Nat.lt_succ_self _)
  core hid := by rw [Store.closure_push, if_neg (Nat.ne_of_lt hid)]

end FunctionsKept

/-- The law that the functions of some earlier moment are kept. -/
def Law.functionsKept {host : Host} (hk : host.KeepsFunctions) (earlier : Store) : Law host {} :=
  .ofStore FunctionsKept .refl .trans
    (fun hm s => (hm.sameFunctions hk s).mono fun _ => .of_same) .push earlier

/-- Whatever comes out of an evaluation, the functions that there were are kept. -/
theorem functions_kept {host : Host} (hk : host.KeepsFunctions) (n : Nat) (t : Task) (s : State) :
    (Machine.perform host n t s).Leaves fun s' => FunctionsKept s.store s'.store := by
  have h := (Law.functionsKept hk s.store).perform n t s (fun _ _ => Discipline.admits_all _)
    (Discipline.asks_all t) (FunctionsKept.refl s.store)
  exact h.leaves.mono fun s' hs => hs.1

end Estree
