/-
Estree/Run.lean

Computations over a state.  One of three things comes out: a value, an error, or nothing at
all because the computation does not end.  A value and an error come with the state they
leave behind.

A computation that does not end leaves no state.  So what is shown of the outcomes that there are
says nothing about such runs, and that a run does end has to be shown apart.
-/
import Estree.Error

namespace Estree

/-- What comes out of a computation. -/
inductive Outcome (σ α : Type) where
  | done (value : α) (state : σ)
  | failed (error : EvalError) (state : σ)
  /-- The computation does not end, or not within its bounds. -/
  | endless

/-- A computation over a state. -/
def Run (σ α : Type) : Type := σ → Outcome σ α

namespace Run

variable {σ τ α β : Type}

/-- Give a value and leave the state alone. -/
@[always_inline, inline]
protected def pure (a : α) : Run σ α := fun s => .done a s

/-- One computation after the other. -/
@[always_inline, inline]
protected def bind (m : Run σ α) (f : α → Run σ β) : Run σ β := fun s =>
  match m s with
  | .done a s => f a s
  | .failed e s => .failed e s
  | .endless => .endless

@[always_inline]
instance : Monad (Run σ) where
  pure := Run.pure
  bind := Run.bind

/-- Fail. -/
@[always_inline, inline]
def fail (e : EvalError) : Run σ α := fun s => .failed e s

/-- Fail with a cause. -/
@[always_inline, inline]
def failWith (cause : Cause) : Run σ α := fail { cause }

/-- Never end. -/
@[always_inline, inline]
def endless : Run σ α := fun _ => .endless

/-- The state. -/
@[always_inline, inline]
def get : Run σ σ := fun s => .done s s

/-- A value read off the state. -/
@[always_inline, inline]
def read (f : σ → α) : Run σ α := fun s => .done (f s) s

/-- Change the state. -/
@[always_inline, inline]
def modify (f : σ → σ) : Run σ Unit := fun s => .done () (f s)

/-- Change the state and give a value. -/
@[always_inline, inline]
def update (f : σ → α × σ) : Run σ α := fun s =>
  match f s with
  | (a, s) => .done a s

/-- A value that may be missing because finding it does not end. -/
@[always_inline, inline]
def ofOption (f : σ → Option α) : Run σ α := fun s =>
  match f s with
  | some a => .done a s
  | none => .endless

/-- Turn an error into a value. -/
@[always_inline, inline]
def attempt (m : Run σ α) : Run σ (Except EvalError α) := fun s =>
  match m s with
  | .done a s => .done (.ok a) s
  | .failed e s => .done (.error e) s
  | .endless => .endless

end Run

end Estree
