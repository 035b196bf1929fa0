/-
Estree/Error.lean

What can go wrong while a program runs.  An error has a cause, with its wording in
`Cause.message`, and possibly a backtrace: the names of the functions that were running,
innermost first.

Causes that lie in the tree itself are fatal: no handler and no finalizer of the program sees
them.  All others can be caught.

The wording of a cause is part of what a program sees: a caught error is an object that has the
wording as its message (`Estree.Convert`).
-/
import Estree.Value

namespace Estree

/-- The two values that have no properties. -/
inductive Nullish where
  | undefined | null
deriving DecidableEq

/-- The word for it. -/
def Nullish.word : Nullish → String
  | .undefined => "undefined"
  | .null => "null"

/-- Null for null, undefined for everything else. -/
def Nullish.ofValue : Value → Nullish
  | .null => .null
  | _ => .undefined

/-- Causes of failure. -/
inductive Cause where
  | unbound (name : String)
  | declaredTwice (name : String)
  | constant (name : String)
  | unsupported (node : String)
  | strayBreak (label : Option String)
  | strayContinue (label : Option String)
  | notCallable (callee : String)
  | notConstructor (callee : String)
  | cannotRead (base : Nullish) (property : String)
  | cannotSet (base : Nullish) (property : String)
  | typeError (message : String)
  | rangeError (message : String)
  | tooDeep (depth : Nat)
  | thrown (value : Value)

namespace Cause

/-- Whether a handler of the program sees it. -/
def isCatchable : Cause → Bool
  | declaredTwice _ | unsupported _ | strayBreak _ | strayContinue _ => false
  | _ => true

/-- The name of the error object that a handler is given. -/
def errorName : Cause → String
  | unbound _ => "ReferenceError"
  | declaredTwice _ | strayBreak _ | strayContinue _ => "SyntaxError"
  | tooDeep _ | rangeError _ => "RangeError"
  | unsupported _ | thrown _ => "Error"
  | constant _ | notCallable _ | notConstructor _ | cannotRead _ _ | cannotSet _ _
  | typeError _ => "TypeError"

/-- The wording for a jump that leads nowhere. -/
def jumpMessage (keyword : String) : Option String → String
  | some label => "Undefined label '" ++ label ++ "' for " ++ keyword
  | none => "Illegal " ++ keyword ++ " statement"

/-- The wording.  For a thrown value it needs the value's text. -/
def message (text : Value → String) : Cause → String
  | unbound name => name ++ " is not defined"
  | declaredTwice name => "Identifier '" ++ name ++ "' has already been declared"
  | constant name => "Assignment to constant variable '" ++ name ++ "'."
  | unsupported node => "unsupported node: " ++ node
  | strayBreak label => jumpMessage "break" label
  | strayContinue label => jumpMessage "continue" label
  | notCallable callee => callee ++ " is not a function"
  | notConstructor callee => callee ++ " is not a constructor"
  | cannotRead base property =>
    "Cannot read properties of " ++ base.word ++ " (reading '" ++ property ++ "')"
  | cannotSet base property =>
    "Cannot set properties of " ++ base.word ++ " (setting '" ++ property ++ "')"
  | typeError message => message
  | rangeError message => message
  | tooDeep depth => "Maximum call stack size exceeded (depth " ++ toString depth ++ ")"
  | thrown value => "Uncaught " ++ text value

end Cause

/-- The names of the running functions, innermost first. -/
structure Backtrace where
  frames : List String := []
deriving DecidableEq

/-- The line of the frame at an index. -/
def Backtrace.line (name : String) (index : Nat) : String :=
  "  " ++ toString index ++ ": " ++ name ++ "\n"

/-- One line a frame, under a heading; nothing for no frames. -/
def Backtrace.text (b : Backtrace) : String :=
  if b.frames.isEmpty then ""
  else
    b.frames.zipIdx.foldl (fun out frame => out ++ line frame.1 frame.2) "stack backtrace:\n"

/-- An error of a run. -/
structure EvalError where
  cause : Cause
  backtrace : Option Backtrace := none

/-- Whether a handler of the program sees it. -/
def EvalError.isCatchable (e : EvalError) : Bool :=
  e.cause.isCatchable

end Estree
