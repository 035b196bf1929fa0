/-
Estree/Eval/Expression.lean

Evaluation of expressions, one level deep: the parts of an expression are left to the
`Evaluator`.  Parts are evaluated from left to right.

Some expressions look at more than the values of their parts.  `typeof` and `delete` do not evaluate
a name that they stand in front of; a call takes its receiver from a member; an assignment evaluates
the parts of its target before the right side; and a function on the right of a name gets this name
if it has none (`named`).
-/
import Estree.Eval.Function

namespace Estree

namespace Eval

/-! ### Literals -/

/-- The value of a literal. -/
def literalValue (l : Literal) : Eval Value :=
  if l.regex then Run.failWith (.unsupported "RegExpLiteral")
  else if l.bigint.isSome then Run.failWith (.unsupported "BigIntLiteral")
  else
    match l.value with
    | .null => pure .null
    | .bool b => pure (.bool b)
    | .num x => pure (.num x)
    | .str s => pure (.str s)

/-- The values of a list of expressions. -/
def exprList (ev : Evaluator) (scope : ScopeId) : List Expr → Eval (List Value)
  | [] => pure []
  | e :: rest => do
    let v ← ev.expr e scope
    return v :: (← exprList ev scope rest)

/-- The items of an array literal; a hole is undefined. -/
def elementList (ev : Evaluator) (scope : ScopeId) : List (Option Expr) → Eval (List Value)
  | [] => pure []
  | none :: rest => do return .undefined :: (← elementList ev scope rest)
  | some e :: rest => do
    let v ← ev.expr e scope
    return v :: (← elementList ev scope rest)

/-- The key of a property: the name or literal itself, or the value of an expression. -/
def propertyKey (ev : Evaluator) (scope : ScopeId) (key : Expr) (computed : Bool) :
    Eval String := do
  match key, computed with
  | .ident name, false => pure name
  | .literal l, false => do
    let v ← literalValue l
    onStore (Convert.key v)
  | e, _ => do
    let v ← ev.expr e scope
    onStore (Convert.key v)

/-- The properties of an object literal, entered one after the other. -/
def memberList (ev : Evaluator) (scope : ScopeId) :
    List Member → Table Value → Eval (Table Value)
  | [], props => pure props
  | .spread :: _, _ => Run.failWith (.unsupported "SpreadElement")
  | .property key value kind computed _ _ :: rest, props => do
    if kind = .init then
      let name ← propertyKey ev scope key computed
      let v ← named ev value name scope
      memberList ev scope rest (props.insert name v)
    else Run.failWith (.unsupported "accessor Property")

/-- The text of a template: its stretches of text, each followed by the text of the next
expression, if there is one. -/
def templateText (ev : Evaluator) (scope : ScopeId) :
    List Quasi → List Expr → String → Eval String
  | [], _, text => pure text
  | q :: quasis, expressions, text => do
    let text := text ++ q.cooked.getD q.raw
    match expressions with
    | [] => templateText ev scope quasis [] text
    | e :: rest =>
      let v ← ev.expr e scope
      let inner ← onStore (Convert.text v)
      templateText ev scope quasis rest (text ++ inner)

/-- A function expression.  Its own name, if it has one, is a constant in a scope around it. -/
def functionValue (f : Function) (scope : ScopeId) : Eval Value := do
  match f.id with
  | none => makeClosure f none scope .normal
  | some name =>
    let own ← newChild scope
    let v ← makeClosure f (some name) own .normal
    declare own .const name (some v)
    pure v

/-! ### References -/

/-- What an assignment changes. -/
inductive Reference where
  | variable (name : String)
  | property (object : Value) (key : String)

/-- The key of a member expression. -/
def memberKey (ev : Evaluator) (scope : ScopeId) (property : Expr) (computed : Bool) :
    Eval String := do
  if computed then
    let v ← ev.expr property scope
    onStore (Convert.key v)
  else
    match property with
    | .ident name => pure name
    | e => Run.failWith (.unsupported e.kind)

/-- Object and key of a member expression. -/
def memberParts (ev : Evaluator) (scope : ScopeId) (object property : Expr) (computed : Bool) :
    Eval (Value × String) := do
  let base ← ev.expr object scope
  let key ← memberKey ev scope property computed
  return (base, key)

/-- The reference of a member expression. -/
def memberReference (ev : Evaluator) (scope : ScopeId) (object property : Expr)
    (computed : Bool) : Eval Reference := do
  let (base, key) ← memberParts ev scope object property computed
  return .property base key

/-- The value that a reference has. -/
def getReference (scope : ScopeId) : Reference → Eval Value
  | .variable name => query scope name
  | .property base key => onStore (Property.get base key)

/-- Give a reference a value. -/
def putReference (scope : ScopeId) (r : Reference) (value : Value) : Eval Unit :=
  match r with
  | .variable name => assign scope name value
  | .property base key => onStore (Property.set base key value)

/-! ### Operators -/

/-- A unary expression.  `typeof` of an unbound name is not an error, and `delete` works on names
and members. -/
def unaryExpr (ev : Evaluator) (scope : ScopeId) (op : UnaryOp) (argument : Expr) :
    Eval Value := do
  match op, argument with
  | .typeOf, .ident name =>
    match ← lookup scope name with
    | some v => return .str v.typeOf
    | none => return .str "undefined"
  | .delete, .ident name => return .bool (← deleteName scope name)
  | .delete, .member object property computed =>
    let (base, key) ← memberParts ev scope object property computed
    return .bool (← onStore (Property.delete base key))
  | .delete, e =>
    let _ ← ev.expr e scope
    return .bool true
  | op, e =>
    let v ← ev.expr e scope
    onStore (Operator.unary op v)

/-- The reference that an update works on. -/
def updateReference (ev : Evaluator) (scope : ScopeId) : Expr → Eval Reference
  | .ident name => pure (.variable name)
  | .member object property computed => memberReference ev scope object property computed
  | e => Run.failWith (.unsupported e.kind)

/-- `++` and `--`: the old value as a number, one more or one less, stored back. -/
def updateExpr (ev : Evaluator) (scope : ScopeId) (op : UpdateOp) (argument : Expr)
    (leading : Bool) : Eval Value := do
  let r ← updateReference ev scope argument
  let current ← getReference scope r
  let old ← onStore (Convert.number current)
  let new ← onStore (Operator.arith op.arith (.num old) (.num 1))
  putReference scope r new
  return if leading then new else .num old

/-- The reference that an assignment works on. -/
def assignReference (ev : Evaluator) (scope : ScopeId) : Pattern → Eval Reference
  | .ident name => pure (.variable name)
  | .member object property computed => memberReference ev scope object property computed
  | p => Run.failWith (.unsupported p.kind)

/-- The right side of a plain assignment: a function takes the name of the variable. -/
def assignedValue (ev : Evaluator) (scope : ScopeId) (r : Reference) (right : Expr) :
    Eval Value :=
  match r with
  | .variable name => named ev right name scope
  | .property _ _ => ev.expr right scope

/-- An assignment: first the target, then its old value if it is needed, then the right side. -/
def assignExpr (ev : Evaluator) (scope : ScopeId) (op : AssignOp) (target : Pattern)
    (right : Expr) : Eval Value := do
  let r ← assignReference ev scope target
  match op.combining with
  | .replace =>
    let value ← assignedValue ev scope r right
    putReference scope r value
    return value
  | .arith op =>
    let current ← getReference scope r
    let v ← ev.expr right scope
    let value ← onStore (Operator.arith op current v)
    putReference scope r value
    return value
  | .logical op =>
    let current ← getReference scope r
    if Operator.goesOn op current then
      let value ← ev.expr right scope
      putReference scope r value
      return value
    else return current

/-! ### Calls -/

/-- How an expression is named when its value cannot be called. -/
def describeCallee : Expr → String
  | .ident name => name
  | .this => "this"
  | .member object property computed =>
    match property, computed with
    | .ident name, false => describeCallee object ++ "." ++ name
    | _, _ => describeCallee object ++ "[...]"
  | .call callee _ => describeCallee callee ++ "(...)"
  | e => "(" ++ e.kind ++ ")"

/-- The receiver and the function of a call: a member is called on its object, everything else on
the current `this`. -/
def callTarget (ev : Evaluator) (scope : ScopeId) : Expr → Eval (Value × Value)
  | .member object property computed => do
    let (base, key) ← memberParts ev scope object property computed
    let method ← onStore (Property.get base key)
    return (base, method)
  | e => do
    let this ← thisValue scope
    let callee ← ev.expr e scope
    return (this, callee)

/-- A call. -/
def callExpr (host : Host) (ev : Evaluator) (scope : ScopeId) (callee : Expr)
    (arguments : List Expr) : Eval Value := do
  let (this, f) ← callTarget ev scope callee
  let args ← exprList ev scope arguments
  if f.isCallable then callValue host ev f this args
  else Run.failWith (.notCallable (describeCallee callee))

/-- `new`. -/
def newExpr (host : Host) (ev : Evaluator) (scope : ScopeId) (callee : Expr)
    (arguments : List Expr) : Eval Value := do
  let f ← ev.expr callee scope
  let args ← exprList ev scope arguments
  if ← Run.read fun s => isConstructor s.store f then construct host ev f args
  else Run.failWith (.notConstructor (describeCallee callee))

/-! ### All expressions -/

/-- The value of the last of several expressions. -/
def sequenceValue (ev : Evaluator) (scope : ScopeId) : List Expr → Value → Eval Value
  | [], last => pure last
  | e :: rest, _ => do
    let v ← ev.expr e scope
    sequenceValue ev scope rest v

/-- Evaluate an expression. -/
def expr (host : Host) (ev : Evaluator) (e : Expr) (scope : ScopeId) : Eval Value := do
  match e with
  | .ident name => query scope name
  | .literal l => literalValue l
  | .this => thisValue scope
  | .array elements =>
    let items ← elementList ev scope elements
    onStore (Store.newArray items.toArray)
  | .object members =>
    let props ← memberList ev scope members .empty
    onStore (Store.newObject { props })
  | .function f => functionValue f scope
  | .arrow f => makeClosure f none scope .arrow
  | .template quasis expressions => return .str (← templateText ev scope quasis expressions "")
  | .unary op argument => unaryExpr ev scope op argument
  | .update op argument leading => updateExpr ev scope op argument leading
  | .binary op left right =>
    let l ← ev.expr left scope
    let r ← ev.expr right scope
    onStore (Operator.binary host op l r)
  | .logical op left right =>
    let l ← ev.expr left scope
    if Operator.goesOn op l then ev.expr right scope else pure l
  | .assign op target right => assignExpr ev scope op target right
  | .conditional test consequent alternate =>
    let t ← ev.expr test scope
    if t.truthy then ev.expr consequent scope else ev.expr alternate scope
  | .call callee arguments => callExpr host ev scope callee arguments
  | .new callee arguments => newExpr host ev scope callee arguments
  | .member object property computed =>
    let (base, key) ← memberParts ev scope object property computed
    onStore (Property.get base key)
  | .sequence expressions => sequenceValue ev scope expressions .undefined
  | .inert node => Run.failWith (.unsupported node.kind)

end Eval

end Estree
