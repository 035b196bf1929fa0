/-
Estree/Builtin/Call.lean

Calling a function of the host.

An argument that is missing is undefined.  A member of an array or a string gets its receiver as
`this`, and fails if that is of another sort; a member of a number converts it.  Whatever a function
does is a computation on the store: it declares no name, and it calls no function of the program.
-/
import Estree.Operator
import Estree.Console
import Estree.Builtin.Array
import Estree.Builtin.Text
import Estree.Builtin.Number
import Estree.Builtin.Json

namespace Estree

namespace Builtin

/-- An argument, undefined if it is missing. -/
def arg (args : List Value) (i : Nat) : Value :=
  .orUndefined args[i]?

/-! ### Objects -/

/-- Copy the enumerable properties of a value, key by key. -/
def copyProperties (target source : Value) : List String → Run Store Unit
  | [] => pure ()
  | key :: rest => do
    let v ← Property.get source key
    Property.set target key v
    copyProperties target source rest

/-- Copy the enumerable properties of values, one after the other. -/
def assignAll (target : Value) : List Value → Run Store Unit
  | [] => pure ()
  | source :: rest => do
    let keys ← Run.read fun s => Property.keys s source
    copyProperties target source keys
    assignAll target rest

/-- A member of every object. -/
def callObjectMethod (method : ObjectMethod) (this : Value) (args : List Value) :
    Run Store Value := do
  match method with
  | .hasOwnProperty =>
    let key ← Convert.key (arg args 0)
    Run.read fun s => .bool (Property.has s this key)
  | .toString => return .str (← Convert.text this)

/-! ### Constructors -/

/-- A new array: of a length if the only argument is a number, else of the arguments. -/
def makeArray (args : List Value) : Run Store Value := do
  match args with
  | [.num x] =>
    let length ← denseLength x
    Store.newArray (Array.replicate length .undefined)
  | _ => Store.newArray args.toArray

/-- A new error object. -/
def makeError (cls : ErrorClass) (args : List Value) : Run Store Value := do
  match arg args 0 with
  | .undefined => Store.newError cls.name ""
  | v =>
    let message ← Convert.text v
    Store.newError cls.name message

/-! ### All functions -/

/-- The base given to `parseInt`: 0 if there is none, and never above 2^32 - 1. -/
def radixArg (v : Value) : Run Store Nat := do
  match v with
  | .undefined => return 0
  | _ => return Double.toNatUpTo (Nat.pow 2 32 - 1) (← Convert.number v)

/-- Run a function of the host. -/
def call (host : Host) (code : Code) (this : Value) (args : List Value) : Run Store Value := do
  match code with
  | .array method => callArrayMethod method this args
  | .string method => callStringMethod method this args
  | .number method => callNumberMethod method this args
  | .object method => callObjectMethod method this args
  | .console level => Console.write level args
  | .jsonStringify => stringify (arg args 0) args[2]?
  | .jsonParse => parse (← Convert.text (arg args 0))
  | .math f => return .num (mathFunction f (← Convert.number (arg args 0)))
  | .mathPow =>
    let base ← Convert.number (arg args 0)
    let exponent ← Convert.number (arg args 1)
    return .num (base.pow exponent)
  | .mathMax => foldNumbers (-1.0 / 0.0) greater args
  | .mathMin => foldNumbers (1.0 / 0.0) smaller args
  | .newObject =>
    let v := arg args 0
    if v.isReference then return v else Store.newPlain []
  | .objectAssign =>
    let target := arg args 0
    if target.isNullish then
      Run.failWith (.typeError "Cannot convert undefined or null to object")
    else
      assignAll target (args.drop 1)
      return target
  | .objectKeys =>
    let keys ← Run.read fun s => Property.keys s (arg args 0)
    Store.newArray (keys.map Value.str).toArray
  | .objectValues =>
    let source := arg args 0
    let keys ← Run.read fun s => Property.keys s source
    let values ← keys.mapM fun key => Property.get source key
    Store.newArray values.toArray
  | .newArray => makeArray args
  | .isArray =>
    match arg args 0 with
    | .array _ => return .bool true
    | _ => return .bool false
  | .isNaN => return .bool (← Convert.number (arg args 0)).isNaN
  | .isFinite => return .bool (← Convert.number (arg args 0)).isFinite
  | .parseInt =>
    let radix ← radixArg (arg args 1)
    let text ← Convert.text (arg args 0)
    return .num (parseInt text radix)
  | .parseFloat => return .num (parseFloat (← Convert.text (arg args 0)))
  | .toStr =>
    match args[0]? with
    | none => return .str ""
    | some v => return .str (← Convert.text v)
  | .toNumber => return .num (← firstNumber args)
  | .toBoolean => return .bool (arg args 0).truthy
  | .newError cls => makeError cls args
  | .host id => host.call id this args

end Builtin

end Estree
