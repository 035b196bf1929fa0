/-
Estree/Operator.lean

What the operators do with values.  Reference values take part by their text, except in strict
equality, `in` and `instanceof`.

Relations compare two texts by their UTF-16 units and everything else as numbers, where no relation
holds of NaN.  Addition puts texts together if either operand is or becomes a text.  The operators
on bits work on 32-bit integers.  Of the binary operators only `in` and `instanceof` can fail, on a
right operand of the wrong sort.
-/
import Estree.Property

namespace Estree

namespace Operator

/-! ### Equality and order -/

/-- How often a value may be converted before it is compared: truth values and references once. -/
def conversions : Value → Nat
  | .bool _ | .array _ | .object _ | .closure _ | .native _ => 1
  | .undefined | .null | .num _ | .str _ => 0

theorem conversions_of_isReference {v : Value} (h : v.isReference = true) : conversions v = 1 := by
  cases v <;> first | rfl | cases h

/-- Loose equality.  Undefined and null equal each other and nothing else; a number and a text are
compared as numbers; truth values count as numbers; a reference and a primitive value are compared
by the text of the reference; two references by place. -/
def looseEq (l r : Value) : Run Store Bool :=
  match l, r with
  | .undefined, .undefined | .undefined, .null | .null, .undefined | .null, .null => pure true
  | .undefined, _ | .null, _ | _, .undefined | _, .null => pure false
  | .num a, .str b => do return a == (← Convert.number (.str b))
  | .str a, .num b => do return (← Convert.number (.str a)) == b
  | .bool a, r => do looseEq (.num (← Convert.number (.bool a))) r
  | l, .bool b => do looseEq l (.num (← Convert.number (.bool b)))
  | l, r => do
    if l.isReference && !r.isReference then looseEq (.str (← Convert.text l)) r
    else if !l.isReference && r.isReference then looseEq l (.str (← Convert.text r))
    else return l.strictEq r
termination_by conversions l + conversions r
decreasing_by
  · exact Nat.add_lt_add_right Nat.zero_lt_one _
  · exact Nat.add_lt_add_left Nat.zero_lt_one _
  · rename_i h _
    rw [conversions_of_isReference (Bool.and_eq_true_iff.1 h).1]
    exact Nat.add_lt_add_right Nat.zero_lt_one _
  · rename_i h _
    rw [conversions_of_isReference (Bool.and_eq_true_iff.1 h).2]
    exact Nat.add_lt_add_left Nat.zero_lt_one _

/-- The order of two numbers; none if one is NaN. -/
def compareNumbers (a b : Float) : Option Ordering :=
  if a < b then some .lt else if a > b then some .gt else if a == b then some .eq else none

/-- The order of two values: texts by their units, everything else as numbers. -/
def compare (l r : Value) : Run Store (Option Ordering) := do
  match ← Convert.primitive l, ← Convert.primitive r with
  | .str a, .str b => return some (Text.compareText a b)
  | l, r => return compareNumbers (← Convert.number l) (← Convert.number r)

/-! ### Arithmetic -/

/-- Sum of numbers, or concatenation as soon as one side is a text. -/
def add (l r : Value) : Run Store Value := do
  match ← Convert.primitive l, ← Convert.primitive r with
  | .str a, b => return .str (a ++ (← Convert.text b))
  | a, .str b => return .str ((← Convert.text a) ++ b)
  | a, b => return .num ((← Convert.number a) + (← Convert.number b))

/-- Powers.  An exponent that is not a number, or an infinite one for a base of magnitude 1,
gives NaN. -/
def power (base exponent : Float) : Float :=
  if exponent.isNaN || (base.abs == 1 && exponent.isInf) then 0.0 / 0.0
  else base.pow exponent

/-- An arithmetic operation on the numbers of both sides. -/
def onNumbers (f : Float → Float → Float) (l r : Value) : Run Store Value := do
  let a ← Convert.number l
  let b ← Convert.number r
  return .num (f a b)

/-- A shift: the distance is taken modulo 32. -/
def shift (f : Value → Nat → Run Store Value) (l r : Value) : Run Store Value := do
  let distance ← Convert.uint32 r
  f l (distance % 32)

/-- An operation on the bits of both sides, as words of 32 bits. -/
def onBits (f : BitVec 32 → BitVec 32 → BitVec 32) (l r : Value) : Run Store Value := do
  let a ← Convert.uint32 l
  let b ← Convert.uint32 r
  return .int (f (BitVec.ofNat 32 a) (BitVec.ofNat 32 b)).toInt

/-- An arithmetic operator. -/
def arith (op : ArithOp) (l r : Value) : Run Store Value :=
  match op with
  | .add => add l r
  | .sub => onNumbers (· - ·) l r
  | .mul => onNumbers (· * ·) l r
  | .div => onNumbers (· / ·) l r
  | .mod => onNumbers Double.remainder l r
  | .exp => onNumbers power l r
  | .shl => shift (fun v n => do
      return .int (BitVec.ofNat 32 (← Convert.uint32 v) <<< n).toInt) l r
  | .shr => shift (fun v n => do return .int ((← Convert.int32 v) >>> n)) l r
  | .ushr => shift (fun v n => do return .nat ((← Convert.uint32 v) >>> n)) l r
  | .bitAnd => onBits (· &&& ·) l r
  | .bitOr => onBits (· ||| ·) l r
  | .bitXor => onBits (· ^^^ ·) l r

/-! ### Membership -/

/-- Whether a value is an error object, of a given name if one is given. -/
def isError (s : Store) (expected : Option String) (v : Value) : Bool :=
  match v with
  | .object id =>
    match (s.object id).brand with
    | .error name => expected.isNone || expected == some name
    | .plain | .instance _ => false
  | _ => false

/-- What a host function takes for its instances. -/
def nativeInstance (host : Host) (s : Store) (n : Native) (v : Value) : Bool :=
  match n.code with
  | .newObject => v.isReference
  | .newArray => match v with
    | .array _ => true
    | _ => false
  | .newError .error => isError s none v
  | .newError cls => isError s (some cls.name) v
  | .host id => n.constructs && host.isInstance id s v
  | _ => false

/-- Whether a value was made by a function: by `new` on a function of the program, or
according to a function of the host. -/
def instanceOf (host : Host) (v maker : Value) : Run Store Bool :=
  match maker with
  | .closure id => Run.read fun s =>
    match v with
    | .object o => (s.object o).brand == .instance id
    | _ => false
  | .native id => Run.read fun s => nativeInstance host s (s.native id) v
  | _ => Run.failWith (.typeError "Right-hand side of 'instanceof' is not callable")

/-- Whether a value has a property. -/
def isIn (l r : Value) : Run Store Bool := do
  if r.isReference then
    let key ← Convert.key l
    Run.read fun s => Property.has s r key
  else
    let what ← Convert.text l
    let place ← Convert.text r
    Run.failWith (.typeError
      ("Cannot use 'in' operator to search for '" ++ what ++ "' in " ++ place))

/-! ### All operators -/

/-- A binary operator. -/
def binary (host : Host) (op : BinaryOp) (l r : Value) : Run Store Value := do
  match op with
  | .looseEq => return .bool (← looseEq l r)
  | .looseNe => return .bool !(← looseEq l r)
  | .strictEq => return .bool (l.strictEq r)
  | .strictNe => return .bool !(l.strictEq r)
  | .lt => return .bool ((← compare l r) == some .lt)
  | .gt => return .bool ((← compare l r) == some .gt)
  | .le =>
    let order ← compare l r
    return .bool (order == some .lt || order == some .eq)
  | .ge =>
    let order ← compare l r
    return .bool (order == some .gt || order == some .eq)
  | .isIn => return .bool (← isIn l r)
  | .instanceOf => return .bool (← instanceOf host l r)
  | .arith op => arith op l r

/-- A unary operator on a value. -/
def unary (op : UnaryOp) (v : Value) : Run Store Value := do
  match op with
  | .neg => return .num (-(← Convert.number v))
  | .plus => return .num (← Convert.number v)
  | .not => return .bool !v.truthy
  | .bitNot => return .int (~~~(BitVec.ofNat 32 (← Convert.uint32 v))).toInt
  | .typeOf => return .str v.typeOf
  | .void => return .undefined
  | .delete => Run.failWith (.typeError "delete needs a reference, not a value")

/-- Whether a logical operator goes on to its right operand. -/
def goesOn (op : LogicalOp) (left : Value) : Bool :=
  match op with
  | .or => !left.truthy
  | .and => left.truthy
  | .coalesce => left.isNullish

end Operator

end Estree
