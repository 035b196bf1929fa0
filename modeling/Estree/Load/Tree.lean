/-
Estree/Load/Tree.lean

The tree of a JSON document.  Every node is read by its schema; a document that does not fit
has no tree.

Expressions, patterns and statements contain one another.  What is read at one level is given
the readers of the level below as an argument (`Readers`), and `readers n` knows how to read
n levels; the nesting depth of the document is level enough.
-/
import Estree.Ast.Node
import Estree.Load.Record

namespace Estree.Load

/-- Readers for the nodes below. -/
structure Readers where
  expr : Json → Option Expr
  pattern : Json → Option Pattern
  stmt : Json → Option Stmt

/-! ### Small records -/

/-- A name. -/
def identifier (j : Json) : Option String := do
  let f ← record ["name"] j
  f.required "name" string

/-- The value of a literal; arrays and objects count as null. -/
def literalValue : Json → LiteralValue
  | .bool b => .bool b
  | .num n => .num n.toFloat
  | .str s => .str s
  | _ => .null

/-- A literal. -/
def literal (j : Json) : Option Literal := do
  let f ← record ["value", "regex", "bigint"] j
  let value ← f.orElse "value" .null fun v => some (literalValue v)
  let regex ← f.optional "regex" present
  let bigint ← f.optional "bigint" string
  some { value, regex := regex.isSome, bigint }

/-- A stretch of template text. -/
def quasi (j : Json) : Option Quasi := do
  let f ← record ["value", "tail"] j
  let (raw, cooked) ← f.required "value" fun v => do
    let g ← record ["raw", "cooked"] v
    some (← g.required "raw" string, ← g.optional "cooked" string)
  let tail ← f.orElse "tail" false bool
  some { raw, cooked, tail }

/-- The parts of a member expression. -/
def memberParts (r : Readers) (j : Json) : Option (Expr × Expr × Bool) := do
  let f ← record ["object", "property", "computed"] j
  some (← f.required "object" r.expr, ← f.required "property" r.expr,
    ← f.orElse "computed" false bool)

/-- The body of a block, whatever its kind. -/
def block (r : Readers) (j : Json) : Option (List Stmt) := do
  let f ← record ["body"] j
  f.required "body" (listOf r.stmt)

/-- A function body: an expression if it can be read as one, else a block. -/
def body (r : Readers) (j : Json) : Option Body :=
  match r.expr j with
  | some e => some (.concise e)
  | none => (block r j).map .block

/-- What all functions have. -/
def function (r : Readers) (j : Json) : Option Function := do
  let f ← record ["id", "params", "body", "generator", "async"] j
  let id ← f.optional "id" identifier
  let params ← f.required "params" (listOf r.pattern)
  let body ← f.required "body" (body r)
  let generator ← f.orElse "generator" false bool
  let async ← f.orElse "async" false bool
  some (.mk id params body generator async)

/-- One declared target. -/
def declarator (r : Readers) (j : Json) : Option Declarator := do
  let f ← record ["id", "init"] j
  some (.mk (← f.required "id" r.pattern) (← f.optional "init" r.expr))

/-- The parts of a variable declaration. -/
def declaration (r : Readers) (j : Json) : Option (VarKind × List Declarator) := do
  let f ← record ["kind", "declarations"] j
  some (← f.required "kind" (word VarKind.ofKeyword?),
    ← f.required "declarations" (listOf (declarator r)))

/-! ### Expressions -/

/-- The kinds of expressions, in the order of the schema. -/
def exprKinds : List String :=
  ["Identifier", "Literal", "ThisExpression", "ArrayExpression", "ObjectExpression",
    "FunctionExpression", "ArrowFunctionExpression", "TemplateLiteral", "UnaryExpression",
    "UpdateExpression", "BinaryExpression", "LogicalExpression", "AssignmentExpression",
    "ConditionalExpression", "CallExpression", "NewExpression", "MemberExpression",
    "SequenceExpression"]
    ++ InertExpr.byKind.map Prod.fst

/-- An entry of an object literal. -/
def objectMember (r : Readers) (j : Json) : Option Member := do
  let (kind, rest) ← tagged .nameOrNumber ["Property", "SpreadElement"] j
  if kind = "Property" then
    let f ← record ["key", "value", "kind", "computed", "method", "shorthand"] rest
    some (.property (← f.required "key" r.expr) (← f.required "value" r.expr)
      (← f.orElse "kind" .init (word PropertyKind.ofWord?))
      (← f.orElse "computed" false bool) (← f.orElse "method" false bool)
      (← f.orElse "shorthand" false bool))
  else
    let _ ← present rest
    some .spread

/-- An expression of a given kind. -/
def exprOfKind (r : Readers) (kind : String) (j : Json) : Option Expr :=
  match kind with
  | "Identifier" => (identifier j).map .ident
  | "Literal" => (literal j).map .literal
  | "ThisExpression" => (present j).map fun _ => .this
  | "ArrayExpression" => do
    let f ← record ["elements"] j
    some (.array (← f.required "elements" (listOf (nullable r.expr))))
  | "ObjectExpression" => do
    let f ← record ["properties"] j
    some (.object (← f.required "properties" (listOf (objectMember r))))
  | "FunctionExpression" => (function r j).map .function
  | "ArrowFunctionExpression" => (function r j).map .arrow
  | "TemplateLiteral" => do
    let f ← record ["quasis", "expressions"] j
    some (.template (← f.required "quasis" (listOf quasi))
      (← f.required "expressions" (listOf r.expr)))
  | "UnaryExpression" => do
    let f ← record ["operator", "argument"] j
    some (.unary (← f.required "operator" (word UnaryOp.ofSymbol?))
      (← f.required "argument" r.expr))
  | "UpdateExpression" => do
    let f ← record ["operator", "argument", "prefix"] j
    some (.update (← f.required "operator" (word UpdateOp.ofSymbol?))
      (← f.required "argument" r.expr) (← f.required "prefix" bool))
  | "BinaryExpression" => do
    let f ← record ["operator", "left", "right"] j
    some (.binary (← f.required "operator" (word BinaryOp.ofSymbol?))
      (← f.required "left" r.expr) (← f.required "right" r.expr))
  | "LogicalExpression" => do
    let f ← record ["operator", "left", "right"] j
    some (.logical (← f.required "operator" (word LogicalOp.ofSymbol?))
      (← f.required "left" r.expr) (← f.required "right" r.expr))
  | "AssignmentExpression" => do
    let f ← record ["operator", "left", "right"] j
    some (.assign (← f.required "operator" (word AssignOp.ofSymbol?))
      (← f.required "left" r.pattern) (← f.required "right" r.expr))
  | "ConditionalExpression" => do
    let f ← record ["test", "consequent", "alternate"] j
    some (.conditional (← f.required "test" r.expr) (← f.required "consequent" r.expr)
      (← f.required "alternate" r.expr))
  | "CallExpression" => do
    let f ← record ["callee", "arguments"] j
    some (.call (← f.required "callee" r.expr) (← f.required "arguments" (listOf r.expr)))
  | "NewExpression" => do
    let f ← record ["callee", "arguments"] j
    some (.new (← f.required "callee" r.expr) (← f.orElse "arguments" [] (listOf r.expr)))
  | "MemberExpression" => (memberParts r j).map (fun (object, property, computed) =>
    .member object property computed)
  | "SequenceExpression" => do
    let f ← record ["expressions"] j
    some (.sequence (← f.required "expressions" (listOf r.expr)))
  | _ => do
    let node ← InertExpr.byKind.lookup kind
    let _ ← present j
    some (.inert node)

/-- An expression. -/
def readExpr (r : Readers) (j : Json) : Option Expr := do
  let (kind, rest) ← tagged .nameOrNumber exprKinds j
  exprOfKind r kind rest

/-! ### Patterns -/

/-- The kinds of patterns, in the order of the schema. -/
def patternKinds : List String :=
  ["Identifier", "MemberExpression", "AssignmentPattern", "RestElement", "ObjectPattern",
    "ArrayPattern"]

/-- A destructuring pattern of a given kind. -/
def destructuring (kind : String) (j : Json) : Option Destructuring :=
  (present j).bind fun _ =>
    if kind = "ObjectPattern" then some .object
    else if kind = "ArrayPattern" then some .array
    else none

/-- A pattern of a given kind. -/
def patternOfKind (r : Readers) (kind : String) (j : Json) : Option Pattern :=
  match kind with
  | "Identifier" => (identifier j).map .ident
  | "MemberExpression" => (memberParts r j).map (fun (object, property, computed) =>
    .member object property computed)
  | "AssignmentPattern" => do
    let f ← record ["left", "right"] j
    some (.default (← f.required "left" r.pattern) (← f.required "right" r.expr))
  | "RestElement" => do
    let f ← record ["argument"] j
    some (.rest (← f.required "argument" r.pattern))
  | _ => (destructuring kind j).map .destructuring

/-- A pattern. -/
def readPattern (r : Readers) (j : Json) : Option Pattern := do
  let (kind, rest) ← tagged .nameOrNumber patternKinds j
  patternOfKind r kind rest

/-! ### Statements -/

/-- The kinds of statements, in the order of the schema. -/
def stmtKinds : List String :=
  ["ExpressionStatement", "BlockStatement", "EmptyStatement", "DebuggerStatement",
    "VariableDeclaration", "FunctionDeclaration", "ReturnStatement", "BreakStatement",
    "ContinueStatement", "IfStatement", "SwitchStatement", "WhileStatement",
    "DoWhileStatement", "ForStatement", "ForInStatement", "LabeledStatement",
    "TryStatement", "ThrowStatement"]
    ++ InertStmt.byKind.map Prod.fst

/-- The label of a jump. -/
def jumpLabel (j : Json) : Option (Option String) := do
  let f ← record ["label"] j
  f.optional "label" identifier

/-- Test and body of a loop. -/
def loopParts (r : Readers) (j : Json) : Option (Expr × Stmt) := do
  let f ← record ["test", "body"] j
  some (← f.required "test" r.expr, ← f.required "body" r.stmt)

/-- A case of a `switch`. -/
def switchCase (r : Readers) (j : Json) : Option Case := do
  let f ← record ["test", "consequent"] j
  some (.mk (← f.optional "test" r.expr) (← f.required "consequent" (listOf r.stmt)))

/-- The `catch` part of a `try`. -/
def handler (r : Readers) (j : Json) : Option Handler := do
  let f ← record ["param", "body"] j
  some (.mk (← f.optional "param" r.pattern) (← f.required "body" (block r)))

/-- The first part of a `for` header: a declaration if it can be read as one, else an
expression. -/
def forInit (r : Readers) (j : Json) : Option ForInit :=
  let declared := do
    let (_, rest) ← tagged .nameOrNumber ["VariableDeclaration"] j
    declaration r rest
  match declared with
  | some (kind, declarators) => some (.variables kind declarators)
  | none => (r.expr j).map .expression

/-- The target of a `for … in`. -/
def forTarget (r : Readers) (j : Json) : Option ForTarget := do
  let (kind, rest) ← tagged .nameOrNumber
    ["VariableDeclaration", "Identifier", "MemberExpression", "ObjectPattern", "ArrayPattern"] j
  match kind with
  | "VariableDeclaration" => (declaration r rest).map (fun (kind, declarators) =>
    .variables kind declarators)
  | "Identifier" => (identifier rest).map .ident
  | "MemberExpression" => (memberParts r rest).map (fun (object, property, computed) =>
    .member object property computed)
  | _ => (destructuring kind rest).map .destructuring

/-- A statement of a given kind. -/
def stmtOfKind (r : Readers) (kind : String) (j : Json) : Option Stmt :=
  match kind with
  | "ExpressionStatement" => do
    let f ← record ["expression"] j
    some (.expression (← f.required "expression" r.expr))
  | "BlockStatement" => (block r j).map .block
  | "EmptyStatement" => (present j).map fun _ => .empty
  | "DebuggerStatement" => (present j).map fun _ => .debugger
  | "VariableDeclaration" => (declaration r j).map (fun (kind, declarators) =>
    .variables kind declarators)
  | "FunctionDeclaration" => (function r j).map .function
  | "ReturnStatement" => do
    let f ← record ["argument"] j
    some (.returns (← f.optional "argument" r.expr))
  | "BreakStatement" => (jumpLabel j).map .breaks
  | "ContinueStatement" => (jumpLabel j).map .continues
  | "IfStatement" => do
    let f ← record ["test", "consequent", "alternate"] j
    some (.branch (← f.required "test" r.expr) (← f.required "consequent" r.stmt)
      (← f.optional "alternate" r.stmt))
  | "SwitchStatement" => do
    let f ← record ["discriminant", "cases"] j
    some (.switch (← f.required "discriminant" r.expr)
      (← f.required "cases" (listOf (switchCase r))))
  | "WhileStatement" => (loopParts r j).map (fun (test, body) => .while test body)
  | "DoWhileStatement" => (loopParts r j).map (fun (test, body) => .doWhile test body)
  | "ForStatement" => do
    let f ← record ["init", "test", "update", "body"] j
    some (.for (← f.optional "init" (forInit r)) (← f.optional "test" r.expr)
      (← f.optional "update" r.expr) (← f.required "body" r.stmt))
  | "ForInStatement" => do
    let f ← record ["left", "right", "body"] j
    some (.forIn (← f.required "left" (forTarget r)) (← f.required "right" r.expr)
      (← f.required "body" r.stmt))
  | "LabeledStatement" => do
    let f ← record ["label", "body"] j
    some (.labeled (← f.required "label" identifier) (← f.required "body" r.stmt))
  | "TryStatement" => do
    let f ← record ["block", "handler", "finalizer"] j
    some (.tries (← f.required "block" (block r)) (← f.optional "handler" (handler r))
      (← f.optional "finalizer" (block r)))
  | "ThrowStatement" => do
    let f ← record ["argument"] j
    some (.throws (← f.required "argument" r.expr))
  | _ => do
    let node ← InertStmt.byKind.lookup kind
    let _ ← present j
    some (.inert node)

/-- A statement. -/
def readStmt (r : Readers) (form : KindForm) (j : Json) : Option Stmt := do
  let (kind, rest) ← tagged form stmtKinds j
  stmtOfKind r kind rest

/-! ### Levels -/

/-- Readers for trees of at most `n` levels. -/
def readers : Nat → Readers
  | 0 => { expr := fun _ => none, pattern := fun _ => none, stmt := fun _ => none }
  | n + 1 =>
    { expr := fun j => readExpr (readers n) j
      pattern := fun j => readPattern (readers n) j
      stmt := fun j => readStmt (readers n) .nameOrNumber j }

/-! ### Programs -/

/-- A source type in a program's own member. -/
def sourceType : Json → Option SourceType
  | .str s => SourceType.ofWord? s
  | .obj [(s, .null)] => SourceType.ofWord? s
  | _ => none

end Estree.Load

namespace Estree

mutual

/-- The nesting depth of a document. -/
def Json.depth : Json → Nat
  | .arr items => Json.depthItems items + 1
  | .obj members => Json.depthMembers members + 1
  | _ => 1

/-- The greatest depth of the items. -/
def Json.depthItems : List Json → Nat
  | [] => 0
  | j :: rest => max j.depth (Json.depthItems rest)

/-- The greatest depth of the members' values. -/
def Json.depthMembers : List (String × Json) → Nat
  | [] => 0
  | (_, j) :: rest => max j.depth (Json.depthMembers rest)

end

/-- The program that a document describes, if it fits the schema. -/
def Program.ofJson? (j : Json) : Option Program := do
  let r := Load.readers j.depth
  let f ← Load.record ["body", "sourceType"] j
  let body ← f.required "body" (Load.listOf (Load.readStmt r .name))
  let sourceType ← f.orElse "sourceType" .script Load.sourceType
  some { body, sourceType }

end Estree
