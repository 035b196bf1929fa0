/-
Estree/Proofs/Tree/Every.lean

Conditions on all nodes of a tree.

A condition looks at one node (`Node`) and says whether that node alone is in order; `Every` walks
through a tree, also into functions and into what is never reached, and asks it of all nodes.
The name in `object.name` or in `{ name: value }` is no node: it is never looked up.

The functions of the walk on lists and options are only there for its recursion; the lemmas below
restate them by `∀ x ∈ xs`.
-/
import Estree.Ast.Node

namespace Estree

/-- A node by itself. -/
inductive Node where
  | expr (e : Expr)
  /-- A target of a declaration, an assignment, a `for … in` or a parameter. -/
  | pattern (p : Pattern)
  | member (m : Member)
  | function (f : Function)
  | stmt (s : Stmt)

/-- Whether an expression is a name. -/
def Expr.isName : Expr → Bool
  | .ident _ => true
  | _ => false

/-- Whether a property is a name that stands for itself. -/
def Expr.isPropertyName (property : Expr) (computed : Bool) : Bool :=
  !computed && property.isName

namespace Every

variable (check : Node → Bool)

mutual

/-- An expression and all that is in it. -/
def expr (e : Expr) : Bool :=
  check (.expr e) &&
    match e with
    | .ident _ | .literal _ | .this | .inert _ => true
    | .array elements => elementList elements
    | .object members => memberList members
    | .function f | .arrow f => function f
    | .template _ expressions | .sequence expressions => exprList expressions
    | .unary _ argument | .update _ argument _ => expr argument
    | .binary _ left right | .logical _ left right => expr left && expr right
    | .assign _ target right => pattern target && expr right
    | .conditional test consequent alternate => expr test && expr consequent && expr alternate
    | .call callee arguments | .new callee arguments => expr callee && exprList arguments
    | .member object property computed =>
      expr object && (property.isPropertyName computed || expr property)

def exprOption : Option Expr → Bool
  | some e => expr e
  | none => true

def exprList : List Expr → Bool
  | [] => true
  | e :: rest => expr e && exprList rest

def elementList : List (Option Expr) → Bool
  | [] => true
  | element :: rest => exprOption element && elementList rest

/-- An entry of an object literal. -/
def member (m : Member) : Bool :=
  check (.member m) &&
    match m with
    | .spread => true
    | .property key value _ computed _ _ =>
      (key.isPropertyName computed || expr key) && expr value

def memberList : List Member → Bool
  | [] => true
  | m :: rest => member m && memberList rest

/-- A pattern and all that is in it. -/
def pattern (p : Pattern) : Bool :=
  check (.pattern p) &&
    match p with
    | .ident _ | .destructuring _ => true
    | .member object property computed =>
      expr object && (property.isPropertyName computed || expr property)
    | .default target value => pattern target && expr value
    | .rest target => pattern target

def patternOption : Option Pattern → Bool
  | some p => pattern p
  | none => true

def patternList : List Pattern → Bool
  | [] => true
  | p :: rest => pattern p && patternList rest

/-- A function and all that is in it. -/
def function (f : Function) : Bool :=
  check (.function f) &&
    match f with
    | .mk _ params b _ _ => patternList params && body b

def body : Body → Bool
  | .concise value => expr value
  | .block stmts => stmtList stmts

def declarator : Declarator → Bool
  | .mk target init => pattern target && exprOption init

def declaratorList : List Declarator → Bool
  | [] => true
  | d :: rest => declarator d && declaratorList rest

/-- A statement and all that is in it. -/
def stmt (s : Stmt) : Bool :=
  check (.stmt s) &&
    match s with
    | .empty | .debugger | .breaks _ | .continues _ | .inert _ => true
    | .expression value | .throws value => expr value
    | .block stmts => stmtList stmts
    | .variables _ declarators => declaratorList declarators
    | .function f => function f
    | .returns argument => exprOption argument
    | .branch test consequent alternate => expr test && stmt consequent && stmtOption alternate
    | .switch discriminant cases => expr discriminant && caseList cases
    | .while test b | .doWhile test b => expr test && stmt b
    | .for init test update b =>
      forInit init && exprOption test && exprOption update && stmt b
    | .forIn target object b => forTarget target && expr object && stmt b
    | .labeled _ b => stmt b
    | .tries block handler finalizer =>
      stmtList block && handlerOption handler && stmtListOption finalizer

def stmtOption : Option Stmt → Bool
  | some s => stmt s
  | none => true

/-- A list of statements and all that is in them. -/
def stmtList : List Stmt → Bool
  | [] => true
  | s :: rest => stmt s && stmtList rest

def stmtListOption : Option (List Stmt) → Bool
  | some stmts => stmtList stmts
  | none => true

def case : Case → Bool
  | .mk test stmts => exprOption test && stmtList stmts

def caseList : List Case → Bool
  | [] => true
  | c :: rest => case c && caseList rest

def forInit : Option ForInit → Bool
  | some (.variables _ declarators) => declaratorList declarators
  | some (.expression value) => expr value
  | none => true

/-- The target of a `for … in` is in order if it would be so as a pattern. -/
def forTarget : ForTarget → Bool
  | .variables _ declarators => declaratorList declarators
  | .ident name => check (.pattern (.ident name))
  | .member object property computed =>
    check (.pattern (.member object property computed)) &&
      (expr object && (property.isPropertyName computed || expr property))
  | .destructuring node => check (.pattern (.destructuring node))

def handler : Handler → Bool
  | .mk param stmts => patternOption param && stmtList stmts

def handlerOption : Option Handler → Bool
  | some h => handler h
  | none => true

end

variable {check}

/-! ### The nodes themselves -/

theorem check_expr {e : Expr} (h : expr check e = true) : check (.expr e) = true := by
  rw [expr.eq_def, Bool.and_eq_true] at h
  exact h.1

theorem check_member {m : Member} (h : member check m = true) : check (.member m) = true := by
  rw [member.eq_def, Bool.and_eq_true] at h
  exact h.1

theorem check_pattern {p : Pattern} (h : pattern check p = true) :
    check (.pattern p) = true := by
  rw [pattern.eq_def, Bool.and_eq_true] at h
  exact h.1

theorem check_function {f : Function} (h : function check f = true) :
    check (.function f) = true := by
  rw [function.eq_def, Bool.and_eq_true] at h
  exact h.1

theorem check_stmt {s : Stmt} (h : stmt check s = true) : check (.stmt s) = true := by
  rw [stmt.eq_def, Bool.and_eq_true] at h
  exact h.1

/-! ### Lists and options -/

/-- A walk through a list that stops at the first element that is not in order. -/
theorem list_iff {α : Type} {f : List α → Bool} {g : α → Bool} (nil : f [] = true)
    (cons : ∀ x xs, f (x :: xs) = (g x && f xs)) (xs : List α) :
    f xs = true ↔ ∀ x ∈ xs, g x = true := by
  induction xs with
  | nil => exact ⟨fun _ => nofun, fun _ => nil⟩
  | cons x xs ih => rw [cons, Bool.and_eq_true, ih, List.forall_mem_cons]

theorem exprList_iff {es : List Expr} :
    exprList check es = true ↔ ∀ e ∈ es, expr check e = true :=
  list_iff rfl (fun _ _ => rfl) es

theorem elementList_iff {elements : List (Option Expr)} :
    elementList check elements = true ↔ ∀ o ∈ elements, exprOption check o = true :=
  list_iff rfl (fun _ _ => rfl) elements

theorem memberList_iff {members : List Member} :
    memberList check members = true ↔ ∀ m ∈ members, member check m = true :=
  list_iff rfl (fun _ _ => rfl) members

theorem patternList_iff {ps : List Pattern} :
    patternList check ps = true ↔ ∀ p ∈ ps, pattern check p = true :=
  list_iff rfl (fun _ _ => rfl) ps

theorem declaratorList_iff {declarators : List Declarator} :
    declaratorList check declarators = true ↔ ∀ d ∈ declarators, declarator check d = true :=
  list_iff rfl (fun _ _ => rfl) declarators

theorem stmtList_iff {stmts : List Stmt} :
    stmtList check stmts = true ↔ ∀ s ∈ stmts, stmt check s = true :=
  list_iff rfl (fun _ _ => rfl) stmts

theorem caseList_iff {cases : List Case} :
    caseList check cases = true ↔ ∀ c ∈ cases, case check c = true :=
  list_iff rfl (fun _ _ => rfl) cases

theorem of_exprOption {o : Option Expr} (h : exprOption check o = true) {e : Expr}
    (he : o = some e) : expr check e = true := by
  subst he
  exact h

end Every

end Estree
