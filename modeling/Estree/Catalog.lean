/-
Estree/Catalog.lean

The standard table of names: what a program finds when its embedder asks for the usual
globals.
-/
import Estree.Builtin.Call

namespace Estree

namespace Catalog

/-- A function without properties. -/
def native (name : String) (arity : Nat) (code : Code) : Run Store Value :=
  Store.newNative { name, arity, code }

/-- A function under its own name. -/
def entry (name : String) (arity : Nat) (code : Code) : Run Store (String × Value) := do
  return (name, ← native name arity code)

/-- A constructor with properties. -/
def constructor (name : String) (code : Code) (props : List (String × Value)) :
    Run Store (String × Value) := do
  let v ← Store.newNative
    { name, arity := 1, code, constructs := true, props := Table.ofList props }
  return (name, v)

/-- An object of functions and constants. -/
def group (name : String) (members : List (String × Value)) : Run Store (String × Value) := do
  return (name, ← Store.newPlain members)

/-- The object that writes to the console. -/
def console : Run Store (String × Value) := do
  group "console" (← Level.all.mapM fun level => entry level.name 0 (.console level))

/-- The object for JSON texts. -/
def json : Run Store (String × Value) := do
  group "JSON" [← entry "stringify" 3 .jsonStringify, ← entry "parse" 2 .jsonParse]

/-- The ratio of circumference and diameter. -/
def pi : Float := 3.141592653589793

/-- The base of the natural logarithm. -/
def e : Float := 2.718281828459045

/-- The object of mathematical functions. -/
def math : Run Store (String × Value) := do
  let functions ← MathFunction.all.mapM fun f => entry f.name 1 (.math f)
  let others := [← entry "pow" 2 .mathPow, ← entry "max" 2 .mathMax, ← entry "min" 2 .mathMin]
  group "Math" ([("PI", .num pi), ("E", .num e)] ++ functions ++ others)

/-- The constructor of objects. -/
def object : Run Store (String × Value) := do
  constructor "Object" .newObject
    [← entry "assign" 2 .objectAssign, ← entry "keys" 1 .objectKeys,
      ← entry "values" 1 .objectValues]

/-- The constructor of arrays. -/
def array : Run Store (String × Value) := do
  constructor "Array" .newArray [← entry "isArray" 1 .isArray]

/-- The constructors of errors. -/
def errors : Run Store (List (String × Value)) :=
  ErrorClass.all.mapM fun cls => constructor cls.name (.newError cls) []

/-- Functions that stand alone. -/
def functions : Run Store (List (String × Value)) := do
  return [← entry "isNaN" 1 .isNaN, ← entry "isFinite" 1 .isFinite,
    ← entry "parseInt" 2 .parseInt, ← entry "parseFloat" 1 .parseFloat,
    ← entry "String" 1 .toStr, ← entry "Number" 1 .toNumber, ← entry "Boolean" 1 .toBoolean]

/-- The standard table. -/
def standard : Run Store (Table Value) := do
  let constants :=
    [("undefined", Value.undefined), ("NaN", Value.nan), ("Infinity", Value.num (1.0 / 0.0))]
  let objects := [← console, ← json, ← math, ← object, ← array]
  return Table.ofList (constants ++ objects ++ (← functions) ++ (← errors))

end Catalog

end Estree
