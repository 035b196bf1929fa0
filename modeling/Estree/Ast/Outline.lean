/-
Estree/Ast/Outline.lean

The outline of a tree: its nodes in preorder, one line a node.  `-` stands for an optional
part that is absent, and `end` closes a list.

An outline is what a tree looks like to a reader who only wants to see its shape: names, operators
and values stand in the lines, and what belongs to what is told by the order of the lines alone.
-/
import Estree.Ast.Node
import Estree.Decimal.Layout

namespace Estree

namespace Outline

/-- A text between single quotes. -/
def quotedText (s : String) : String :=
  "'" ++ s ++ "'"

/-- A name, or `-`. -/
def nameOrDash : Option String → String
  | some name => name
  | none => "-"

/-- A word that is appended when it applies. -/
def mark (applies : Bool) (word : String) : String :=
  if applies then " " ++ word else ""

/-- The value of a literal. -/
def literalText (l : Literal) : String :=
  let value :=
    match l.value with
    | .null => "null"
    | .bool b => if b then "true" else "false"
    | .num x => signedNumberText x
    | .str s => quotedText s
  value ++ mark l.isExotic "exotic"

/-- The line of an update expression. -/
def updateText (op : UpdateOp) (leading : Bool) : String :=
  op.symbol ++ " " ++ (if leading then "prefix" else "postfix") ++ " as " ++ op.arith.symbol

/-- How an assignment combines old and new value. -/
def combiningText : Combining → String
  | .replace => "replace"
  | .arith op => "binary " ++ op.symbol
  | .logical op => "logical " ++ op.symbol

/-- The line of an assignment. -/
def assignText (op : AssignOp) : String :=
  op.symbol ++ " " ++ combiningText op.combining

/-- The line of a stretch of template text. -/
def quasiText (q : Quasi) : String :=
  "quasi " ++ quotedText q.raw ++ " "
    ++ (match q.cooked with
        | some s => quotedText s
        | none => "-")
    ++ mark q.tail "tail"

/-- The line of a statement: its kind, with a mark for loops. -/
def heading (s : Stmt) : String :=
  s.kind ++ mark s.isLoop "loop"

mutual

/-- The lines of an expression. -/
def expr : Expr → List String
  | .ident name => ["Identifier " ++ name]
  | .literal l => ["Literal " ++ literalText l]
  | .this => ["ThisExpression"]
  | .array elements => "ArrayExpression" :: elementList elements
  | .object members => "ObjectExpression" :: memberList members
  | .function f => "FunctionExpression" :: function f
  | .arrow f => "ArrowFunctionExpression" :: function f
  | .template quasis expressions =>
    "TemplateLiteral" :: (quasis.map quasiText ++ exprList expressions)
  | .unary op argument => ("UnaryExpression " ++ op.symbol) :: expr argument
  | .update op argument leading =>
    ("UpdateExpression " ++ updateText op leading) :: expr argument
  | .binary op left right => ("BinaryExpression " ++ op.symbol) :: (expr left ++ expr right)
  | .logical op left right => ("LogicalExpression " ++ op.symbol) :: (expr left ++ expr right)
  | .assign op target right =>
    ("AssignmentExpression " ++ assignText op) :: (pattern target ++ expr right)
  | .conditional test consequent alternate =>
    "ConditionalExpression" :: (expr test ++ expr consequent ++ expr alternate)
  | .call callee arguments => "CallExpression" :: (expr callee ++ exprList arguments)
  | .new callee arguments => "NewExpression" :: (expr callee ++ exprList arguments)
  | .member object property computed =>
    ("MemberExpression" ++ mark computed "computed") :: (expr object ++ expr property)
  | .sequence expressions => "SequenceExpression" :: exprList expressions
  | .inert node => [node.kind]

/-- An expression, or `-`. -/
def exprOrDash : Option Expr → List String
  | some e => expr e
  | none => ["-"]

/-- A list of expressions. -/
def exprList : List Expr → List String
  | [] => ["end"]
  | e :: rest => expr e ++ exprList rest

/-- The elements of an array literal. -/
def elementList : List (Option Expr) → List String
  | [] => ["end"]
  | none :: rest => "-" :: elementList rest
  | some e :: rest => expr e ++ elementList rest

/-- The entries of an object literal. -/
def memberList : List Member → List String
  | [] => ["end"]
  | .spread :: rest => "SpreadElement" :: memberList rest
  | .property key value kind computed method shorthand :: rest =>
    ("Property " ++ kind.word ++ mark computed "computed" ++ mark method "method"
        ++ mark shorthand "shorthand")
      :: (expr key ++ expr value ++ memberList rest)

/-- The lines of a pattern. -/
def pattern : Pattern → List String
  | .ident name => ["Pattern Identifier " ++ name]
  | .member object property computed =>
    ["Pattern MemberExpression", "MemberExpression" ++ mark computed "computed"]
      ++ expr object ++ expr property
  | .default target value => "Pattern AssignmentPattern" :: (pattern target ++ expr value)
  | .rest target => "Pattern RestElement" :: pattern target
  | .destructuring node => ["Pattern " ++ node.kind]

/-- A list of patterns. -/
def patternList : List Pattern → List String
  | [] => ["end"]
  | p :: rest => pattern p ++ patternList rest

/-- The lines of a function. -/
def function : Function → List String
  | .mk id params b generator async =>
    ("function " ++ nameOrDash id ++ mark generator "generator" ++ mark async "async")
      :: (patternList params ++ body b)

/-- The lines of a function body. -/
def body : Body → List String
  | .concise value => "concise" :: expr value
  | .block stmts => "block" :: stmtList stmts

/-- The declared targets with their initial values. -/
def declaratorList : List Declarator → List String
  | [] => ["end"]
  | .mk target init :: rest => pattern target ++ exprOrDash init ++ declaratorList rest

/-- The lines of a statement. -/
def stmt : Stmt → List String
  | s@(.expression value) => heading s :: expr value
  | s@(.block stmts) => heading s :: stmtList stmts
  | s@.empty => [heading s]
  | s@.debugger => [heading s]
  | s@(.variables kind declarators) => heading s :: kind.keyword :: declaratorList declarators
  | s@(.function f) => heading s :: function f
  | s@(.returns argument) => heading s :: exprOrDash argument
  | s@(.breaks label) => [heading s, nameOrDash label]
  | s@(.continues label) => [heading s, nameOrDash label]
  | s@(.branch test consequent alternate) =>
    heading s :: (expr test ++ stmt consequent ++ stmtOrDash alternate)
  | s@(.switch discriminant cases) => heading s :: (expr discriminant ++ caseList cases)
  | s@(.while test loopBody) => heading s :: (expr test ++ stmt loopBody)
  | s@(.doWhile test loopBody) => heading s :: (expr test ++ stmt loopBody)
  | s@(.for init test update loopBody) =>
    heading s :: (forInitOrDash init ++ exprOrDash test ++ exprOrDash update ++ stmt loopBody)
  | s@(.forIn target object loopBody) =>
    heading s :: (forTarget target ++ expr object ++ stmt loopBody)
  | s@(.labeled label labeledBody) => heading s :: label :: stmt labeledBody
  | s@(.tries block handler finalizer) =>
    heading s :: (stmtList block ++ handlerOrDash handler ++ stmtListOrDash finalizer)
  | s@(.throws argument) => heading s :: expr argument
  | s@(.inert _) => [heading s]

/-- A statement, or `-`. -/
def stmtOrDash : Option Stmt → List String
  | some s => stmt s
  | none => ["-"]

/-- A list of statements. -/
def stmtList : List Stmt → List String
  | [] => ["end"]
  | s :: rest => stmt s ++ stmtList rest

/-- A list of statements, or `-`. -/
def stmtListOrDash : Option (List Stmt) → List String
  | some stmts => stmtList stmts
  | none => ["-"]

/-- The cases of a `switch`. -/
def caseList : List Case → List String
  | [] => ["end"]
  | .mk test consequent :: rest => exprOrDash test ++ stmtList consequent ++ caseList rest

/-- The first part of a `for` header, or `-`. -/
def forInitOrDash : Option ForInit → List String
  | some (.variables kind declarators) => kind.keyword :: declaratorList declarators
  | some (.expression value) => expr value
  | none => ["-"]

/-- The target of a `for … in`. -/
def forTarget : ForTarget → List String
  | .variables kind declarators => kind.keyword :: declaratorList declarators
  | .ident name => ["Identifier " ++ name]
  | .member object property computed =>
    ("MemberExpression" ++ mark computed "computed") :: (expr object ++ expr property)
  | .destructuring node => [node.kind]

/-- The `catch` part of a `try`, or `-`. -/
def handlerOrDash : Option Handler → List String
  | some (.mk (some param) stmts) => pattern param ++ stmtList stmts
  | some (.mk none stmts) => "-" :: stmtList stmts
  | none => ["-"]

end

end Outline

/-- The outline of a program. -/
def Program.outline (p : Program) : List String :=
  ("Program " ++ p.sourceType.word) :: Outline.stmtList p.body

end Estree
