/-
Estree/Ast/Build.lean

Short forms for building trees: the usual literals, objects, functions and declarations with
all the details that a parser would have filled in.
-/
import Estree.Ast.Node

namespace Estree.Build

/-! ### Expressions -/

/-- A number. -/
def num (x : Float) : Expr := .literal { value := .num x }

/-- A string. -/
def str (s : String) : Expr := .literal { value := .str s }

/-- A truth value. -/
def bool (b : Bool) : Expr := .literal { value := .bool b }

/-- The value null. -/
def null : Expr := .literal {}

/-- An array literal without holes. -/
def array (elements : List Expr) : Expr := .array (elements.map some)

/-- A property with a plain name. -/
def property (key : String) (value : Expr) : Member :=
  .property (.ident key) value .init false false false

/-- An object literal with plain names. -/
def object (entries : List (String × Expr)) : Expr :=
  .object (entries.map fun entry => property entry.1 entry.2)

/-- An object literal with one computed name. -/
def computedObject (key value : Expr) : Expr :=
  .object [.property key value .init true false false]

/-- Assignment to a variable. -/
def assign (name : String) (op : AssignOp) (right : Expr) : Expr :=
  .assign op (.ident name) right

/-- Assignment to a property with a plain name. -/
def assignMember (object : Expr) (name : String) (op : AssignOp) (right : Expr) : Expr :=
  .assign op (.member object (.ident name) false) right

/-- `object.name`. -/
def member (object : Expr) (name : String) : Expr := .member object (.ident name) false

/-- `object[property]`. -/
def index (object property : Expr) : Expr := .member object property true

/-- The stretches of text of a template: only the last is marked as such. -/
def quasis : List String → List Quasi
  | [] => []
  | [text] => [{ raw := text, cooked := some text, tail := true }]
  | text :: rest => { raw := text, cooked := some text, tail := false } :: quasis rest

/-- A template. -/
def template (texts : List String) (expressions : List Expr) : Expr :=
  .template (quasis texts) expressions

/-- A function with plain parameters and statements as its body. -/
def function (name : Option String) (params : List String) (body : List Stmt) : Function :=
  .mk name (params.map .ident) (.block body) false false

/-- A function expression. -/
def functionExpr (name : Option String) (params : List String) (body : List Stmt) : Expr :=
  .function (function name params body)

/-- An arrow with statements as its body. -/
def arrow (params : List String) (body : List Stmt) : Expr :=
  .arrow (function none params body)

/-- An arrow with an expression as its body. -/
def arrowExpr (params : List String) (value : Expr) : Expr :=
  .arrow (.mk none (params.map .ident) (.concise value) false false)

/-! ### Statements -/

/-- Declared names with their initial values. -/
def declarators (names : List (String × Option Expr)) : List Declarator :=
  names.map fun entry => .mk (.ident entry.1) entry.2

/-- A declaration of several names. -/
def declareAll (kind : VarKind) (names : List (String × Option Expr)) : Stmt :=
  .variables kind (declarators names)

/-- A declaration of one name. -/
def declare (kind : VarKind) (name : String) (init : Option Expr) : Stmt :=
  declareAll kind [(name, init)]

/-- A function declaration. -/
def declareFunction (name : String) (params : List String) (body : List Stmt) : Stmt :=
  .function (function (some name) params body)

/-- A declaration in a `for` header. -/
def initDeclare (kind : VarKind) (names : List (String × Option Expr)) : ForInit :=
  .variables kind (declarators names)

/-- A `for … in` over a declared name, or over a name that exists. -/
def forIn (kind : Option VarKind) (name : String) (object : Expr) (body : Stmt) : Stmt :=
  let target : ForTarget :=
    match kind with
    | some kind => .variables kind (declarators [(name, none)])
    | none => .ident name
  .forIn target object body

/-- A `try` whose handler, if there is one, has at most a plain name as its parameter. -/
def tries (block : List Stmt) (handler : Option (Option String × List Stmt))
    (finalizer : Option (List Stmt)) : Stmt :=
  .tries block (handler.map fun h => .mk (h.1.map .ident) h.2) finalizer

end Estree.Build
