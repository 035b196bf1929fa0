/-
Estree/Proofs/Unscoped.lean

The store without the scopes of its functions.

`Store.unscoped` forgets in which scopes the functions of the program were made.  Nothing that is
read of the store depends on it: not the text of a value, its look, its document or its keys.  For
functions of the embedder this is an assumption, `Host.IgnoresScopes`: a scope is a place, and they
do not look at places.

Two stores that differ in the scopes of closures alone are therefore worked on in the same way by
every routine (`Scopeless`).  This is what lets a run be compared with one in which scopes are
numbered differently.
-/
import Estree.Eval.Function

namespace Estree

/-- A function of the program as if it had been made in the root scope. -/
def Closure.unscoped (c : Closure) : Closure := { c with scope := 0 }

/-- A closure is its code and its scope. -/
theorem Closure.eq_of_unscoped {c c' : Closure} (h : c'.unscoped = c.unscoped)
    (hs : c'.scope = c.scope) : c' = c :=
  calc c' = { c'.unscoped with scope := c'.scope } := rfl
    _ = { c.unscoped with scope := c.scope } := by rw [h, hs]

namespace Store

/-- The store as if all functions of the program had been made in the root scope. -/
def unscoped (s : Store) : Store := { s with closures := s.closures.map Closure.unscoped }

variable (s : Store) (v : Value)

@[simp]
theorem closure_unscoped (id : ClosureId) : s.unscoped.closure id = (s.closure id).unscoped := by
  unfold closure unscoped
  dsimp only
  rw [Array.getD_eq_getD_getElem?, Array.getElem?_map, Array.getD_eq_getD_getElem?]
  cases s.closures[id]? <;> rfl

/-! ### Texts -/

/-- Texts do not depend on where closures were made. -/
theorem textWithin_unscoped (n : Nat) (seen : List ArrayId) :
    s.unscoped.textWithin n seen v = s.textWithin n seen v := by
  induction n generalizing seen v with
  | zero => rfl
  | succ n ih =>
    unfold textWithin
    simp only [ih, closure_unscoped]
    rfl

@[simp]
theorem text?_unscoped : s.unscoped.text? v = s.text? v := s.textWithin_unscoped v _ _

end Store

/-! ### Looks and documents -/

section read

variable (s : Store) (v : Value)

/-- Descriptions do not depend on where closures were made. -/
theorem Console.lookWithin_unscoped (left : Nat) (path : List Builtin.Container) :
    Console.lookWithin s.unscoped left path v = Console.lookWithin s left path v := by
  induction left generalizing path v with
  | zero =>
    unfold Console.lookWithin
    simp only [Store.text?_unscoped, Store.closure_unscoped]
    rfl
  | succ left ih =>
    unfold Console.lookWithin
    simp only [ih, Store.text?_unscoped, Store.closure_unscoped]
    rfl

theorem Console.line?_unscoped (args : List Value) :
    Console.line? s.unscoped args = Console.line? s args := by
  simp only [Console.line?, Console.look?, Console.lookWithin_unscoped]

/-- Serialization does not depend on where closures were made. -/
theorem Builtin.jsonWithin_unscoped (n : Nat) (path : List Builtin.Container) :
    Builtin.jsonWithin s.unscoped n path v = Builtin.jsonWithin s n path v := by
  induction n generalizing path v with
  | zero => rfl
  | succ n ih =>
    unfold Builtin.jsonWithin
    simp only [ih]
    rfl

theorem Builtin.toJson_unscoped : Builtin.toJson s.unscoped v = Builtin.toJson s v :=
  Builtin.jsonWithin_unscoped s v _ _

/-! ### Properties -/

theorem Property.has_unscoped (key : String) :
    Property.has s.unscoped v key = Property.has s v key := by
  cases v <;> simp only [Property.has, Store.closure_unscoped] <;> rfl

theorem Property.keys_unscoped : Property.keys s.unscoped v = Property.keys s v := by
  cases v <;> simp only [Property.keys, Store.closure_unscoped] <;> rfl

theorem Eval.isConstructor_unscoped :
    Eval.isConstructor s.unscoped v = Eval.isConstructor s v := by
  cases v <;> simp only [Eval.isConstructor, Store.closure_unscoped] <;> rfl

theorem Operator.nativeInstance_unscoped {host : Host}
    (hi : ∀ id s v, host.isInstance id (Store.unscoped s) v = host.isInstance id s v) (n : Native) :
    Operator.nativeInstance host s.unscoped n v = Operator.nativeInstance host s n v := by
  simp only [Operator.nativeInstance, hi]
  rfl

end read

/-! ### Outcomes -/

namespace Outcome

variable {σ τ α : Type}

/-- An outcome with something done to the state that it leaves behind. -/
def mapState (f : σ → τ) : Outcome σ α → Outcome τ α
  | .done a s => .done a (f s)
  | .failed e s => .failed e (f s)
  | .endless => .endless

end Outcome

/-- The embedder's functions do the same wherever functions of the program have been made. -/
structure Host.IgnoresScopes (host : Host) : Prop where
  call : ∀ id this args s,
    host.call id this args (Store.unscoped s) = (host.call id this args s).mapState Store.unscoped
  isInstance : ∀ id s v, host.isInstance id (Store.unscoped s) v = host.isInstance id s v

theorem Host.none_ignoresScopes : Host.none.IgnoresScopes :=
  ⟨fun _ _ _ _ => rfl, fun _ _ _ => rfl⟩

end Estree
