/-
Estree/Value.lean

Values.  Primitive values stand for themselves; arrays, objects and functions are places in
the store (`Estree.Store`), so that two equal places are one and the same thing.

There are two sorts of functions: closures of the program, and native functions that are known by
what they do (`Estree.Builtin.Code`).  Numbers are doubles, and texts are sequences of characters
that count their length in UTF-16 units.
-/

namespace Estree

/-- The place of an array. -/
abbrev ArrayId := Nat

/-- The place of an object. -/
abbrev ObjectId := Nat

/-- The place of a function of the program. -/
abbrev ClosureId := Nat

/-- The place of a function of the host. -/
abbrev NativeId := Nat

/-- A value. -/
inductive Value where
  | undefined
  | null
  | bool (b : Bool)
  | num (x : Float)
  | str (s : String)
  | array (id : ArrayId)
  | object (id : ObjectId)
  | closure (id : ClosureId)
  | native (id : NativeId)

namespace Value

instance : Inhabited Value := ⟨.undefined⟩

/-- The value of a missing argument, item or property. -/
def orUndefined (v : Option Value) : Value :=
  v.getD .undefined

/-- Not a number. -/
def nan : Value := .num (0.0 / 0.0)

/-- A natural number as a value. -/
def nat (n : Nat) : Value := .num (Float.ofNat n)

/-- An integer as a value. -/
def int (n : Int) : Value := .num (Float.ofInt n)

/-- Whether the value is undefined. -/
def isUndefined : Value → Bool
  | .undefined => true
  | _ => false

/-- Undefined and null. -/
def isNullish : Value → Bool
  | .undefined | .null => true
  | _ => false

/-- Functions of either sort. -/
def isCallable : Value → Bool
  | .closure _ | .native _ => true
  | _ => false

/-- Arrays, objects and functions. -/
def isReference : Value → Bool
  | .array _ | .object _ | .closure _ | .native _ => true
  | _ => false

/-- The number, if it is one. -/
def number? : Value → Option Float
  | .num x => some x
  | _ => none

/-- The text, if it is one. -/
def text? : Value → Option String
  | .str s => some s
  | _ => none

/-- The word that `typeof` gives. -/
def typeOf : Value → String
  | .undefined => "undefined"
  | .null | .array _ | .object _ => "object"
  | .bool _ => "boolean"
  | .num _ => "number"
  | .str _ => "string"
  | .closure _ | .native _ => "function"

/-- Whether a value counts as true. -/
def truthy : Value → Bool
  | .undefined | .null => false
  | .bool b => b
  | .num x => x != 0 && !x.isNaN
  | .str s => !s.isEmpty
  | .array _ | .object _ | .closure _ | .native _ => true

/-- Strict equality: numbers as numbers, so that NaN differs from itself; references by place. -/
def strictEq : Value → Value → Bool
  | .undefined, .undefined => true
  | .null, .null => true
  | .bool a, .bool b => a == b
  | .num a, .num b => a == b
  | .str a, .str b => a == b
  | .array a, .array b => a == b
  | .object a, .object b => a == b
  | .closure a, .closure b => a == b
  | .native a, .native b => a == b
  | _, _ => false

/-- Strict equality, except that NaN is the same as itself. -/
def sameAs : Value → Value → Bool
  | .num a, .num b => (a.isNaN && b.isNaN) || a == b
  | a, b => a.strictEq b

end Value

end Estree
