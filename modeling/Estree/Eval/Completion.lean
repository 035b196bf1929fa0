/-
Estree/Eval/Completion.lean

How statements complete: normally with a value, or with a signal that travels outward until
something takes it up.

A statement never fails by jumping.  Where a signal arrives and nothing is left to take it up, at
the end of a function or of a program, it becomes an error there.
-/
import Estree.Value

namespace Estree

/-- How a statement completes. -/
inductive Completion where
  | normal (value : Value)
  | returns (value : Value)
  | breaks (label : Option String)
  | continues (label : Option String)

/-- Normal completion with nothing to tell. -/
def Completion.empty : Completion := .normal .undefined

/-- What a loop does after a round. -/
inductive LoopStep where
  /-- Go on; the value is the loop's last so far. -/
  | next (last : Value)
  /-- Stop normally. -/
  | stop
  /-- Pass a signal on. -/
  | pass (signal : Completion)

/-- Whether a jump is addressed to a statement with these labels: a jump without a label always
is. -/
def addressed (labels : List String) : Option String → Bool
  | none => true
  | some label => labels.contains label

/-- What a loop with these labels does when its body has completed. -/
def LoopStep.of (labels : List String) (last : Value) : Completion → LoopStep
  | .normal value => .next value
  | .continues label => if addressed labels label then .next last else .pass (.continues label)
  | .breaks label => if addressed labels label then .stop else .pass (.breaks label)
  | .returns value => .pass (.returns value)

end Estree
