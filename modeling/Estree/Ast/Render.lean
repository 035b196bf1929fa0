/-
Estree/Ast/Render.lean

The JSON document of a tree, in one canonical form: every field of every node is written, in
the order of the schema; absent parts and holes are null.  Every node is written under its kind
(`Expr.kind`, `Pattern.kind`, `Stmt.kind`); the records that have none of these carry the name that
the schema gives them.

What is written can be read again (`Estree.Load.Tree`), and is read as the same tree.  Reading
accepts more than this form: members in another order, members that the schema does not know, and
absent parts left out.
-/
import Estree.Ast.Node
import Estree.Json.Basic

namespace Estree

namespace Render

/-- A node of a given kind. -/
def node (kind : String) (fields : List (String × Json)) : Json :=
  .obj (("type", .str kind) :: fields)

/-- A name as a node. -/
def identifier (name : String) : Json :=
  node "Identifier" [("name", .str name)]

/-- A name as a node, or null. -/
def identifierOrNull : Option String → Json
  | some name => identifier name
  | none => .null

/-- A string, or null. -/
def strOrNull : Option String → Json
  | some s => .str s
  | none => .null

/-- The fields of a literal. -/
def literal (l : Literal) : List (String × Json) :=
  let value : Json :=
    match l.value with
    | .null => .null
    | .bool b => .bool b
    | .num x => .num (.float x)
    | .str s => .str s
  [("value", value), ("regex", if l.regex then .obj [] else .null),
    ("bigint", strOrNull l.bigint)]

/-- A stretch of template text. -/
def quasi (q : Quasi) : Json :=
  node "TemplateElement"
    [("value", .obj [("raw", .str q.raw), ("cooked", strOrNull q.cooked)]),
      ("tail", .bool q.tail)]

mutual

/-- An expression. -/
def expr : Expr → Json
  | e@(.ident name) => node e.kind [("name", .str name)]
  | e@(.literal l) => node e.kind (literal l)
  | e@.this => node e.kind []
  | e@(.array elements) => node e.kind [("elements", .arr (elementList elements))]
  | e@(.object members) => node e.kind [("properties", .arr (memberList members))]
  | e@(.function f) => node e.kind (function f)
  | e@(.arrow f) => node e.kind (function f)
  | e@(.template quasis expressions) =>
    node e.kind
      [("quasis", .arr (quasis.map quasi)), ("expressions", .arr (exprList expressions))]
  | e@(.unary op argument) =>
    node e.kind [("operator", .str op.symbol), ("argument", expr argument)]
  | e@(.update op argument leading) =>
    node e.kind
      [("operator", .str op.symbol), ("argument", expr argument), ("prefix", .bool leading)]
  | e@(.binary op left right) =>
    node e.kind
      [("operator", .str op.symbol), ("left", expr left), ("right", expr right)]
  | e@(.logical op left right) =>
    node e.kind
      [("operator", .str op.symbol), ("left", expr left), ("right", expr right)]
  | e@(.assign op target right) =>
    node e.kind
      [("operator", .str op.symbol), ("left", pattern target), ("right", expr right)]
  | e@(.conditional test consequent alternate) =>
    node e.kind
      [("test", expr test), ("consequent", expr consequent), ("alternate", expr alternate)]
  | e@(.call callee arguments) =>
    node e.kind [("callee", expr callee), ("arguments", .arr (exprList arguments))]
  | e@(.new callee arguments) =>
    node e.kind [("callee", expr callee), ("arguments", .arr (exprList arguments))]
  | e@(.member object property computed) =>
    node e.kind
      [("object", expr object), ("property", expr property), ("computed", .bool computed)]
  | e@(.sequence expressions) =>
    node e.kind [("expressions", .arr (exprList expressions))]
  | e@(.inert _) => node e.kind []

/-- An expression, or null. -/
def exprOrNull : Option Expr → Json
  | some e => expr e
  | none => .null

/-- A list of expressions. -/
def exprList : List Expr → List Json
  | [] => []
  | e :: rest => expr e :: exprList rest

/-- The elements of an array literal. -/
def elementList : List (Option Expr) → List Json
  | [] => []
  | none :: rest => .null :: elementList rest
  | some e :: rest => expr e :: elementList rest

/-- The entries of an object literal. -/
def memberList : List Member → List Json
  | [] => []
  | .spread :: rest => node "SpreadElement" [] :: memberList rest
  | .property key value kind computed method shorthand :: rest =>
    node "Property"
        [("key", expr key), ("value", expr value), ("kind", .str kind.word),
          ("computed", .bool computed), ("method", .bool method),
          ("shorthand", .bool shorthand)]
      :: memberList rest

/-- A pattern. -/
def pattern : Pattern → Json
  | p@(.ident name) => node p.kind [("name", .str name)]
  | p@(.member object property computed) =>
    node p.kind
      [("object", expr object), ("property", expr property), ("computed", .bool computed)]
  | p@(.default target value) =>
    node p.kind [("left", pattern target), ("right", expr value)]
  | p@(.rest target) => node p.kind [("argument", pattern target)]
  | p@(.destructuring _) => node p.kind []

/-- A list of patterns. -/
def patternList : List Pattern → List Json
  | [] => []
  | p :: rest => pattern p :: patternList rest

/-- The fields of a function. -/
def function : Function → List (String × Json)
  | .mk id params b generator async =>
    [("id", identifierOrNull id), ("params", .arr (patternList params)), ("body", body b),
      ("generator", .bool generator), ("async", .bool async)]

/-- A function body. -/
def body : Body → Json
  | .concise value => expr value
  | .block stmts => node "BlockStatement" [("body", .arr (stmtList stmts))]

/-- The declared targets of a declaration. -/
def declaratorList : List Declarator → List Json
  | [] => []
  | .mk target init :: rest =>
    node "VariableDeclarator" [("id", pattern target), ("init", exprOrNull init)]
      :: declaratorList rest

/-- A statement. -/
def stmt : Stmt → Json
  | s@(.expression value) => node s.kind [("expression", expr value)]
  | s@(.block stmts) => node s.kind [("body", .arr (stmtList stmts))]
  | s@.empty => node s.kind []
  | s@.debugger => node s.kind []
  | s@(.variables kind declarators) =>
    node s.kind
      [("kind", .str kind.keyword), ("declarations", .arr (declaratorList declarators))]
  | s@(.function f) => node s.kind (function f)
  | s@(.returns argument) => node s.kind [("argument", exprOrNull argument)]
  | s@(.breaks label) => node s.kind [("label", identifierOrNull label)]
  | s@(.continues label) => node s.kind [("label", identifierOrNull label)]
  | s@(.branch test consequent alternate) =>
    node s.kind
      [("test", expr test), ("consequent", stmt consequent), ("alternate", stmtOrNull alternate)]
  | s@(.switch discriminant cases) =>
    node s.kind
      [("discriminant", expr discriminant), ("cases", .arr (caseList cases))]
  | s@(.while test loopBody) =>
    node s.kind [("test", expr test), ("body", stmt loopBody)]
  | s@(.doWhile test loopBody) =>
    node s.kind [("test", expr test), ("body", stmt loopBody)]
  | s@(.for init test update loopBody) =>
    node s.kind
      [("init", forInitOrNull init), ("test", exprOrNull test), ("update", exprOrNull update),
        ("body", stmt loopBody)]
  | s@(.forIn target object loopBody) =>
    node s.kind
      [("left", forTarget target), ("right", expr object), ("body", stmt loopBody)]
  | s@(.labeled label labeledBody) =>
    node s.kind [("label", identifier label), ("body", stmt labeledBody)]
  | s@(.tries block handler finalizer) =>
    node s.kind
      [("block", node "BlockStatement" [("body", .arr (stmtList block))]),
        ("handler", handlerOrNull handler), ("finalizer", blockOrNull finalizer)]
  | s@(.throws argument) => node s.kind [("argument", expr argument)]
  | s@(.inert _) => node s.kind []

/-- A statement, or null. -/
def stmtOrNull : Option Stmt → Json
  | some s => stmt s
  | none => .null

/-- A list of statements. -/
def stmtList : List Stmt → List Json
  | [] => []
  | s :: rest => stmt s :: stmtList rest

/-- A block, or null. -/
def blockOrNull : Option (List Stmt) → Json
  | some stmts => node "BlockStatement" [("body", .arr (stmtList stmts))]
  | none => .null

/-- The cases of a `switch`. -/
def caseList : List Case → List Json
  | [] => []
  | .mk test consequent :: rest =>
    node "SwitchCase" [("test", exprOrNull test), ("consequent", .arr (stmtList consequent))]
      :: caseList rest

/-- The first part of a `for` header, or null. -/
def forInitOrNull : Option ForInit → Json
  | some (.variables kind declarators) =>
    node "VariableDeclaration"
      [("kind", .str kind.keyword), ("declarations", .arr (declaratorList declarators))]
  | some (.expression value) => expr value
  | none => .null

/-- The target of a `for … in`. -/
def forTarget : ForTarget → Json
  | .variables kind declarators =>
    node "VariableDeclaration"
      [("kind", .str kind.keyword), ("declarations", .arr (declaratorList declarators))]
  | .ident name => identifier name
  | .member object property computed =>
    node "MemberExpression"
      [("object", expr object), ("property", expr property), ("computed", .bool computed)]
  | .destructuring n => node n.kind []

/-- The `catch` part of a `try`, or null. -/
def handlerOrNull : Option Handler → Json
  | some (.mk (some param) stmts) =>
    node "CatchClause"
      [("param", pattern param),
        ("body", node "BlockStatement" [("body", .arr (stmtList stmts))])]
  | some (.mk none stmts) =>
    node "CatchClause"
      [("param", .null), ("body", node "BlockStatement" [("body", .arr (stmtList stmts))])]
  | none => .null

end

end Render

/-- The document of a program. -/
def Program.toJson (p : Program) : Json :=
  Render.node "Program"
    [("body", .arr (Render.stmtList p.body)), ("sourceType", .str p.sourceType.word)]

/-- Whether two programs are the same tree: they have the same document. -/
def Program.same (p q : Program) : Bool :=
  p.toJson.same q.toJson

end Estree
