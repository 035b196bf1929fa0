/-
Estree/Builtin/Code.lean

The functions that a program finds without declaring them, by what they do.  A function of
the embedder is known here by a number only; what it does is given by the `Host`.
-/

namespace Estree

/-- Members of arrays. -/
inductive ArrayMethod where
  | push | pop | shift | unshift | join | indexOf | includes | slice | concat | reverse
deriving DecidableEq

namespace ArrayMethod

/-- The name under which it is found. -/
def name : ArrayMethod → String
  | push => "push" | pop => "pop" | shift => "shift" | unshift => "unshift" | join => "join"
  | indexOf => "indexOf" | includes => "includes" | slice => "slice" | concat => "concat"
  | reverse => "reverse"

/-- The number of its parameters. -/
def arity : ArrayMethod → Nat
  | pop | shift | reverse => 0
  | push | unshift | join | indexOf | includes | concat => 1
  | slice => 2

/-- All of them. -/
def all : List ArrayMethod :=
  [push, pop, shift, unshift, join, indexOf, includes, slice, concat, reverse]

end ArrayMethod

/-- Members of strings. -/
inductive StringMethod where
  | charAt | charCodeAt | indexOf | includes | startsWith | endsWith | slice
  | toUpperCase | toLowerCase | trim | split | toString
deriving DecidableEq

namespace StringMethod

/-- The name under which it is found. -/
def name : StringMethod → String
  | charAt => "charAt" | charCodeAt => "charCodeAt" | indexOf => "indexOf"
  | includes => "includes" | startsWith => "startsWith" | endsWith => "endsWith"
  | slice => "slice" | toUpperCase => "toUpperCase" | toLowerCase => "toLowerCase"
  | trim => "trim" | split => "split" | toString => "toString"

/-- The number of its parameters. -/
def arity : StringMethod → Nat
  | toUpperCase | toLowerCase | trim | toString => 0
  | charAt | charCodeAt | indexOf | includes | startsWith | endsWith | split => 1
  | slice => 2

/-- All of them. -/
def all : List StringMethod :=
  [charAt, charCodeAt, indexOf, includes, startsWith, endsWith, slice, toUpperCase,
    toLowerCase, trim, split, toString]

end StringMethod

/-- Members of numbers. -/
inductive NumberMethod where
  | toString | toFixed
deriving DecidableEq

/-- The name under which it is found. -/
def NumberMethod.name : NumberMethod → String
  | .toString => "toString"
  | .toFixed => "toFixed"

/-- All of them. -/
def NumberMethod.all : List NumberMethod := [.toString, .toFixed]

/-- Members of every object. -/
inductive ObjectMethod where
  | hasOwnProperty | toString
deriving DecidableEq

namespace ObjectMethod

/-- The name under which it is found. -/
def name : ObjectMethod → String
  | hasOwnProperty => "hasOwnProperty"
  | toString => "toString"

/-- The number of its parameters. -/
def arity : ObjectMethod → Nat
  | hasOwnProperty => 1
  | toString => 0

/-- All of them. -/
def all : List ObjectMethod := [hasOwnProperty, toString]

end ObjectMethod

/-- Functions on one number. -/
inductive MathFunction where
  | abs | floor | ceil | sqrt | trunc | sign | round
deriving DecidableEq

namespace MathFunction

/-- The name under which it is found. -/
def name : MathFunction → String
  | abs => "abs" | floor => "floor" | ceil => "ceil" | sqrt => "sqrt" | trunc => "trunc"
  | sign => "sign" | round => "round"

/-- All of them. -/
def all : List MathFunction := [abs, floor, ceil, sqrt, trunc, sign, round]

end MathFunction

/-- Severities of console lines. -/
inductive Level where
  | log | info | warn | error
deriving DecidableEq

namespace Level

/-- The method that writes lines of this severity. -/
def name : Level → String
  | log => "log" | info => "info" | warn => "warn" | error => "error"

/-- All of them. -/
def all : List Level := [log, info, warn, error]

end Level

/-- Constructors of error objects. -/
inductive ErrorClass where
  | error | typeError | referenceError | rangeError | syntaxError
deriving DecidableEq

namespace ErrorClass

/-- The name of the class. -/
def name : ErrorClass → String
  | error => "Error" | typeError => "TypeError" | referenceError => "ReferenceError"
  | rangeError => "RangeError" | syntaxError => "SyntaxError"

/-- All of them. -/
def all : List ErrorClass := [error, typeError, referenceError, rangeError, syntaxError]

end ErrorClass

/-- What a host function does. -/
inductive Code where
  | array (method : ArrayMethod)
  | string (method : StringMethod)
  | number (method : NumberMethod)
  | object (method : ObjectMethod)
  | console (level : Level)
  | jsonStringify
  | jsonParse
  | math (f : MathFunction)
  | mathPow
  | mathMax
  | mathMin
  | newObject
  | objectAssign
  | objectKeys
  | objectValues
  | newArray
  | isArray
  | isNaN
  | isFinite
  | parseInt
  | parseFloat
  | toStr
  | toNumber
  | toBoolean
  | newError (cls : ErrorClass)
  /-- A function of the embedder. -/
  | host (id : Nat)
deriving DecidableEq

end Estree
