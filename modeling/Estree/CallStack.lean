/-
Estree/CallStack.lean

The stack of running functions.  A call is refused when the stack is as deep as its limit.

The stack keeps only names: they are what a backtrace tells.  An error gets its backtrace where the
call that it leaves is closed, the innermost one first, and keeps it on the way out
(`CallStack.attach`).  A refused call is not on the stack, so its error tells of exactly as many
functions as the limit allows.
-/
import Estree.Error

namespace Estree

/-- The names of the running functions, outermost first, and how many may run at once. -/
structure CallStack where
  frames : Array String := #[]
  limit : Option Nat := none

namespace CallStack

/-- The number of running functions. -/
def depth (s : CallStack) : Nat :=
  s.frames.size

/-- Whether another function may be entered. -/
def isFull (s : CallStack) : Bool :=
  match s.limit with
  | some limit => limit ≤ s.depth
  | none => false

/-- Enter a function, unless the limit is reached: then the error names the limit and the stack
stays as it is. -/
def push (s : CallStack) (name : String) : Except EvalError Unit × CallStack :=
  if s.isFull then (.error { cause := .tooDeep (s.limit.getD 0) }, s)
  else (.ok (), { s with frames := s.frames.push name })

/-- Leave the innermost function. -/
def pop (s : CallStack) : CallStack :=
  { s with frames := s.frames.pop }

/-- The running functions, innermost first. -/
def capture (s : CallStack) : Backtrace :=
  ⟨s.frames.toList.reverse⟩

/-- Give an error the running functions as its backtrace, unless it has one or none runs. -/
def attach (s : CallStack) (e : EvalError) : EvalError :=
  if s.frames.isEmpty || e.backtrace.isSome then e
  else { e with backtrace := some s.capture }

end CallStack

end Estree
