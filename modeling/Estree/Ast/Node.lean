/-
Estree/Ast/Node.lean

The trees that the evaluator runs: programs, statements, expressions, patterns.

Node kinds that the schema knows but that are never executed carry nothing except
their kind (`InertExpr`, `InertStmt`, `Destructuring`); a tree that contains them
can be loaded, and the run fails at the point where such a node is reached.

Positions in the source and the spelling of literals are not part of a tree, since nothing that is
executed depends on them.  A function carries its name, its parameters and its body, and whether it
was written as a generator or as asynchronous.
-/
import Estree.Ast.Operator

namespace Estree

/-! ### Leaves -/

/-- The three ways to declare a variable. -/
inductive VarKind where
  | var | let | const
deriving DecidableEq

/-- The keyword of a declaration. -/
def VarKind.keyword : VarKind → String
  | .var => "var"
  | .let => "let"
  | .const => "const"

/-- All of them. -/
def VarKind.all : List VarKind := [.var, .let, .const]

/-- The declarations by the keywords that are read. -/
def VarKind.byKeyword : List (String × VarKind) :=
  [("var", .var), ("let", .let), ("const", .const)]

/-- The declaration with a given keyword. -/
def VarKind.ofKeyword? (text : String) : Option VarKind :=
  VarKind.byKeyword.lookup text

/-- The value of a literal. -/
inductive LiteralValue where
  | null
  | bool (b : Bool)
  | num (x : Float)
  | str (s : String)

/-- A literal.  Regular expressions and big integers are marked as such; their value cannot
be represented. -/
structure Literal where
  value : LiteralValue := .null
  regex : Bool := false
  bigint : Option String := none

/-- Literals without a representable value. -/
def Literal.isExotic (l : Literal) : Bool :=
  l.regex || l.bigint.isSome

/-- Roles of a property in an object literal. -/
inductive PropertyKind where
  | init | get | set
deriving DecidableEq

/-- The word for a role. -/
def PropertyKind.word : PropertyKind → String
  | .init => "init"
  | .get => "get"
  | .set => "set"

/-- All of them. -/
def PropertyKind.all : List PropertyKind := [.init, .get, .set]

/-- The roles by the words that are read. -/
def PropertyKind.byWord : List (String × PropertyKind) :=
  [("init", .init), ("get", .get), ("set", .set)]

/-- The role with a given word. -/
def PropertyKind.ofWord? (text : String) : Option PropertyKind :=
  PropertyKind.byWord.lookup text

/-- A stretch of literal text in a template: as written, as understood, and whether it is
marked as the last. -/
structure Quasi where
  raw : String
  cooked : Option String
  tail : Bool
deriving DecidableEq

/-- Patterns that take a value apart; never executed. -/
inductive Destructuring where
  | object | array
deriving DecidableEq

/-- The kind of a destructuring pattern. -/
def Destructuring.kind : Destructuring → String
  | .object => "ObjectPattern"
  | .array => "ArrayPattern"

/-- Expressions known to the schema and never executed. -/
inductive InertExpr where
  | classExpression | taggedTemplate | spread | yielding | awaiting | chain
  | importing | metaProperty | super
deriving DecidableEq

/-- The kind of an inert expression. -/
def InertExpr.kind : InertExpr → String
  | .classExpression => "ClassExpression"
  | .taggedTemplate => "TaggedTemplateExpression"
  | .spread => "SpreadElement"
  | .yielding => "YieldExpression"
  | .awaiting => "AwaitExpression"
  | .chain => "ChainExpression"
  | .importing => "ImportExpression"
  | .metaProperty => "MetaProperty"
  | .super => "Super"

/-- The inert expressions by the kinds that are read. -/
def InertExpr.byKind : List (String × InertExpr) :=
  [("ClassExpression", .classExpression), ("TaggedTemplateExpression", .taggedTemplate),
    ("SpreadElement", .spread), ("YieldExpression", .yielding), ("AwaitExpression", .awaiting),
    ("ChainExpression", .chain), ("ImportExpression", .importing),
    ("MetaProperty", .metaProperty), ("Super", .super)]

/-- Statements known to the schema and never executed. -/
inductive InertStmt where
  | forOf | classDeclaration | withStatement | importDeclaration
  | exportNamed | exportDefault | exportAll
deriving DecidableEq

/-- The kind of an inert statement. -/
def InertStmt.kind : InertStmt → String
  | .forOf => "ForOfStatement"
  | .classDeclaration => "ClassDeclaration"
  | .withStatement => "WithStatement"
  | .importDeclaration => "ImportDeclaration"
  | .exportNamed => "ExportNamedDeclaration"
  | .exportDefault => "ExportDefaultDeclaration"
  | .exportAll => "ExportAllDeclaration"

/-- The inert statements by the kinds that are read. -/
def InertStmt.byKind : List (String × InertStmt) :=
  [("ForOfStatement", .forOf), ("ClassDeclaration", .classDeclaration),
    ("WithStatement", .withStatement), ("ImportDeclaration", .importDeclaration),
    ("ExportNamedDeclaration", .exportNamed), ("ExportDefaultDeclaration", .exportDefault),
    ("ExportAllDeclaration", .exportAll)]

/-! ### Nodes -/

mutual

/-- Expressions. -/
inductive Expr where
  | ident (name : String)
  | literal (value : Literal)
  | this
  /-- Array literal; `none` is a hole. -/
  | array (elements : List (Option Expr))
  | object (members : List Member)
  | function (f : Function)
  | arrow (f : Function)
  | template (quasis : List Quasi) (expressions : List Expr)
  | unary (op : UnaryOp) (argument : Expr)
  /-- `++x` when `leading`, else `x++`. -/
  | update (op : UpdateOp) (argument : Expr) (leading : Bool)
  | binary (op : BinaryOp) (left right : Expr)
  | logical (op : LogicalOp) (left right : Expr)
  | assign (op : AssignOp) (target : Pattern) (right : Expr)
  | conditional (test consequent alternate : Expr)
  | call (callee : Expr) (arguments : List Expr)
  | new (callee : Expr) (arguments : List Expr)
  /-- `object[property]` when `computed`, else `object.property`. -/
  | member (object property : Expr) (computed : Bool)
  | sequence (expressions : List Expr)
  | inert (node : InertExpr)

/-- Targets of declarations, assignments and parameters. -/
inductive Pattern where
  | ident (name : String)
  | member (object property : Expr) (computed : Bool)
  /-- A target with a default value. -/
  | default (target : Pattern) (value : Expr)
  /-- All remaining arguments. -/
  | rest (target : Pattern)
  | destructuring (node : Destructuring)

/-- Entries of an object literal. -/
inductive Member where
  | property (key value : Expr) (kind : PropertyKind) (computed method shorthand : Bool)
  | spread

/-- What function declarations, function expressions and arrows have in common. -/
inductive Function where
  | mk (id : Option String) (params : List Pattern) (body : Body) (generator async : Bool)

/-- A function body: one expression, or statements. -/
inductive Body where
  | concise (value : Expr)
  | block (body : List Stmt)

/-- One declared name (or pattern) with its initial value. -/
inductive Declarator where
  | mk (target : Pattern) (init : Option Expr)

/-- Statements. -/
inductive Stmt where
  | expression (value : Expr)
  | block (body : List Stmt)
  | empty
  | debugger
  | variables (kind : VarKind) (declarators : List Declarator)
  | function (f : Function)
  | returns (argument : Option Expr)
  | breaks (label : Option String)
  | continues (label : Option String)
  | branch (test : Expr) (consequent : Stmt) (alternate : Option Stmt)
  | switch (discriminant : Expr) (cases : List Case)
  | while (test : Expr) (body : Stmt)
  | doWhile (test : Expr) (body : Stmt)
  | for (init : Option ForInit) (test update : Option Expr) (body : Stmt)
  | forIn (target : ForTarget) (object : Expr) (body : Stmt)
  | labeled (label : String) (body : Stmt)
  | tries (block : List Stmt) (handler : Option Handler) (finalizer : Option (List Stmt))
  | throws (argument : Expr)
  | inert (node : InertStmt)

/-- One case of a `switch`; without a test it is the default. -/
inductive Case where
  | mk (test : Option Expr) (consequent : List Stmt)

/-- The first part of a `for` header. -/
inductive ForInit where
  | variables (kind : VarKind) (declarators : List Declarator)
  | expression (value : Expr)

/-- What a `for … in` assigns its keys to. -/
inductive ForTarget where
  | variables (kind : VarKind) (declarators : List Declarator)
  | ident (name : String)
  | member (object property : Expr) (computed : Bool)
  | destructuring (node : Destructuring)

/-- The `catch` part of a `try`. -/
inductive Handler where
  | mk (param : Option Pattern) (body : List Stmt)

end

/-- Whether a program is a script or a module. -/
inductive SourceType where
  | script | module
deriving DecidableEq

/-- The word for a source type. -/
def SourceType.word : SourceType → String
  | .script => "script"
  | .module => "module"

/-- All of them. -/
def SourceType.all : List SourceType := [.script, .module]

/-- The source types by the words that are read. -/
def SourceType.byWord : List (String × SourceType) :=
  [("script", .script), ("module", .module)]

/-- The source type with a given word. -/
def SourceType.ofWord? (text : String) : Option SourceType :=
  SourceType.byWord.lookup text

/-- A whole program. -/
structure Program where
  body : List Stmt
  sourceType : SourceType := .script

instance : Inhabited Expr := ⟨.this⟩
instance : Inhabited Stmt := ⟨.empty⟩
instance : Inhabited Function := ⟨.mk none [] (.block []) false false⟩

/-! ### Parts and kinds -/

namespace Function

/-- The function's own name. -/
def id : Function → Option String
  | mk id _ _ _ _ => id

/-- The parameters. -/
def params : Function → List Pattern
  | mk _ params _ _ _ => params

/-- The body. -/
def body : Function → Body
  | mk _ _ body _ _ => body

/-- Whether it is a generator. -/
def generator : Function → Bool
  | mk _ _ _ generator _ => generator

/-- Whether it is asynchronous. -/
def async : Function → Bool
  | mk _ _ _ _ async => async

end Function

/-- The name of a pattern that is a plain identifier. -/
def Pattern.ident? : Pattern → Option String
  | .ident name => some name
  | _ => none

/-- The kind of a pattern. -/
def Pattern.kind : Pattern → String
  | .ident _ => "Identifier"
  | .member _ _ _ => "MemberExpression"
  | .default _ _ => "AssignmentPattern"
  | .rest _ => "RestElement"
  | .destructuring node => node.kind

/-- The kind of an expression. -/
def Expr.kind : Expr → String
  | .ident _ => "Identifier"
  | .literal _ => "Literal"
  | .this => "ThisExpression"
  | .array _ => "ArrayExpression"
  | .object _ => "ObjectExpression"
  | .function _ => "FunctionExpression"
  | .arrow _ => "ArrowFunctionExpression"
  | .template _ _ => "TemplateLiteral"
  | .unary _ _ => "UnaryExpression"
  | .update _ _ _ => "UpdateExpression"
  | .binary _ _ _ => "BinaryExpression"
  | .logical _ _ _ => "LogicalExpression"
  | .assign _ _ _ => "AssignmentExpression"
  | .conditional _ _ _ => "ConditionalExpression"
  | .call _ _ => "CallExpression"
  | .new _ _ => "NewExpression"
  | .member _ _ _ => "MemberExpression"
  | .sequence _ => "SequenceExpression"
  | .inert node => node.kind

/-- The kind of a statement. -/
def Stmt.kind : Stmt → String
  | .expression _ => "ExpressionStatement"
  | .block _ => "BlockStatement"
  | .empty => "EmptyStatement"
  | .debugger => "DebuggerStatement"
  | .variables _ _ => "VariableDeclaration"
  | .function _ => "FunctionDeclaration"
  | .returns _ => "ReturnStatement"
  | .breaks _ => "BreakStatement"
  | .continues _ => "ContinueStatement"
  | .branch _ _ _ => "IfStatement"
  | .switch _ _ => "SwitchStatement"
  | .while _ _ => "WhileStatement"
  | .doWhile _ _ => "DoWhileStatement"
  | .for _ _ _ _ => "ForStatement"
  | .forIn _ _ _ => "ForInStatement"
  | .labeled _ _ => "LabeledStatement"
  | .tries _ _ _ => "TryStatement"
  | .throws _ => "ThrowStatement"
  | .inert node => node.kind

/-- Loops: the statements that consume an unlabelled `continue`. -/
def Stmt.isLoop : Stmt → Bool
  | .while _ _ | .doWhile _ _ | .for _ _ _ _ | .forIn _ _ _ | .inert .forOf => true
  | _ => false

end Estree
