/-
Estree/Proofs/Jump/Correct.lean

Programs whose jumps all lead somewhere.

`JumpCheck` decides it.  It walks through the whole tree, also into functions, and carries along
which jumps are taken up on the way out (`JumpScope`): a loop takes up `break` and `continue`
without a label and a `continue` to the labels written directly in front of it; a `switch` takes
up `break`; a labelled statement takes up a `break` to its label.  At the top of a program and
in the body of a function nothing is taken up.

It is a check of the tree alone, and it can be run.  Whether it is strong enough is another question
(`Estree.Proofs.Jump.Sound`); here are the lemmas that take it apart, one for each construct that
has parts, so that nothing else has to unfold it.
-/
import Estree.Proofs.Discipline
import Estree.Proofs.Tree.Every

namespace Estree

/-! ### Where jumps are taken up -/

/-- The jumps that are taken up around a statement. -/
structure JumpScope where
  /-- Inside of a loop or a `switch`. -/
  breaks : Bool := false
  /-- Inside of a loop. -/
  continues : Bool := false
  /-- The labels of the statements around. -/
  labels : List String := []
  /-- Those written directly in front of a loop. -/
  loops : List String := []

namespace JumpScope

/-- Whether a jump is taken up. -/
def allows (c : JumpScope) : Jump → Bool
  | .breaks none => c.breaks
  | .breaks (some label) => c.labels.contains label
  | .continues none => c.continues
  | .continues (some label) => c.loops.contains label

/-- Inside of a loop with these labels in front of it. -/
def inLoop (c : JumpScope) (front : List String) : JumpScope where
  breaks := true
  continues := true
  labels := c.labels
  loops := front ++ c.loops

/-- Inside of a `switch`. -/
def inSwitch (c : JumpScope) : JumpScope := { c with breaks := true }

/-- Inside of a statement with this label. -/
def labeled (c : JumpScope) (label : String) : JumpScope :=
  { c with labels := label :: c.labels }

end JumpScope

/-! ### The check -/

namespace JumpCheck

mutual

/-- An expression: the functions in it. -/
def expr : Expr → Bool
  | .ident _ | .literal _ | .this | .inert _ => true
  | .array elements => elementList elements
  | .object members => memberList members
  | .function f | .arrow f => function f
  | .template _ expressions | .sequence expressions => exprList expressions
  | .unary _ argument | .update _ argument _ => expr argument
  | .binary _ left right | .logical _ left right => expr left && expr right
  | .assign _ target right => pattern target && expr right
  | .conditional test consequent alternate => expr test && expr consequent && expr alternate
  | .call callee arguments | .new callee arguments => expr callee && exprList arguments
  | .member object property _ => expr object && expr property

def exprOption : Option Expr → Bool
  | some e => expr e
  | none => true

def exprList : List Expr → Bool
  | [] => true
  | e :: rest => expr e && exprList rest

def elementList : List (Option Expr) → Bool
  | [] => true
  | none :: rest => elementList rest
  | some e :: rest => expr e && elementList rest

def memberList : List Member → Bool
  | [] => true
  | .spread :: rest => memberList rest
  | .property key value _ _ _ _ :: rest => expr key && expr value && memberList rest

def pattern : Pattern → Bool
  | .ident _ | .destructuring _ => true
  | .member object property _ => expr object && expr property
  | .default target value => pattern target && expr value
  | .rest target => pattern target

def patternOption : Option Pattern → Bool
  | some p => pattern p
  | none => true

def patternList : List Pattern → Bool
  | [] => true
  | p :: rest => pattern p && patternList rest

/-- A function: nothing around it takes up its jumps. -/
def function : Function → Bool
  | .mk _ params (.concise value) _ _ => patternList params && expr value
  | .mk _ params (.block body) _ _ => patternList params && stmtList {} body

def declaratorList : List Declarator → Bool
  | [] => true
  | .mk target init :: rest => pattern target && exprOption init && declaratorList rest

/-- A statement with the labels directly in front of it. -/
def stmt (c : JumpScope) (front : List String) : Stmt → Bool
  | .empty | .debugger | .inert _ => true
  | .expression value | .throws value => expr value
  | .block body => stmtList c body
  | .variables _ declarators => declaratorList declarators
  | .function f => function f
  | .returns argument => exprOption argument
  | .breaks label => c.allows (.breaks label)
  | .continues label => c.allows (.continues label)
  | .branch test consequent alternate =>
    expr test && stmt c [] consequent && stmtOption c alternate
  | .switch discriminant cases => expr discriminant && caseList c.inSwitch cases
  | .while test body | .doWhile test body => expr test && stmt (c.inLoop front) [] body
  | .for init test update body =>
    forInit init && exprOption test && exprOption update && stmt (c.inLoop front) [] body
  | .forIn target object body =>
    forTarget target && expr object && stmt (c.inLoop front) [] body
  | .labeled label body => stmt (c.labeled label) (front ++ [label]) body
  | .tries block handler finalizer =>
    stmtList c block && handlerOption c handler && stmtListOption c finalizer

def stmtOption (c : JumpScope) : Option Stmt → Bool
  | some s => stmt c [] s
  | none => true

def stmtList (c : JumpScope) : List Stmt → Bool
  | [] => true
  | s :: rest => stmt c [] s && stmtList c rest

def stmtListOption (c : JumpScope) : Option (List Stmt) → Bool
  | some stmts => stmtList c stmts
  | none => true

def caseList (c : JumpScope) : List Case → Bool
  | [] => true
  | .mk test body :: rest => exprOption test && stmtList c body && caseList c rest

def forInit : Option ForInit → Bool
  | some (.variables _ declarators) => declaratorList declarators
  | some (.expression value) => expr value
  | none => true

def forTarget : ForTarget → Bool
  | .variables _ declarators => declaratorList declarators
  | .ident _ | .destructuring _ => true
  | .member object property _ => expr object && expr property

def handlerOption (c : JumpScope) : Option Handler → Bool
  | some (.mk param body) => patternOption param && stmtList c body
  | none => true

end

/-! ### Lists -/

theorem of_exprOption {o : Option Expr} (h : exprOption o = true) {e : Expr} (he : o = some e) :
    expr e = true := by
  subst he
  exact h

theorem of_exprList {es : List Expr} (h : exprList es = true) : ∀ e ∈ es, expr e = true :=
  (Every.list_iff rfl (fun _ _ => rfl) es).1 h

theorem of_elementList {elements : List (Option Expr)} (h : elementList elements = true) :
    ∀ e, some e ∈ elements → expr e = true := by
  have each : ∀ o ∈ elements, exprOption o = true :=
    (Every.list_iff rfl (fun o _ => by cases o <;> rfl) elements).1 h
  exact fun e he => each (some e) he

/-- An entry of an object literal. -/
def member : Member → Bool
  | .spread => true
  | .property key value _ _ _ _ => expr key && expr value

/-- The key and the value of a member of a correct list are correct. -/
theorem of_memberList {members : List Member} (h : memberList members = true)
    {key value : Expr} {kind : PropertyKind} {computed method shorthand : Bool}
    (hm : .property key value kind computed method shorthand ∈ members) :
    expr key = true ∧ expr value = true := by
  have each : ∀ m ∈ members, member m = true :=
    (Every.list_iff rfl (fun m _ => by cases m <;> rfl) members).1 h
  exact Bool.and_eq_true_iff.1 (each _ hm)

theorem of_patternList {ps : List Pattern} (h : patternList ps = true) :
    ∀ p ∈ ps, pattern p = true :=
  (Every.list_iff rfl (fun _ _ => rfl) ps).1 h

/-- A declared target with its first value. -/
def declarator : Declarator → Bool
  | .mk target init => pattern target && exprOption init

/-- The pattern and the initial value of a declarator of a correct list are correct. -/
theorem of_declaratorList {declarators : List Declarator} (h : declaratorList declarators = true)
    {target : Pattern} {init : Option Expr} (hd : .mk target init ∈ declarators) :
    pattern target = true ∧ exprOption init = true := by
  have each : ∀ d ∈ declarators, declarator d = true :=
    (Every.list_iff rfl (fun d _ => by cases d; rfl) declarators).1 h
  exact Bool.and_eq_true_iff.1 (each _ hd)

/-- A list of statements is correct if each of them is, without labels in front. -/
theorem stmtList_iff {c : JumpScope} {stmts : List Stmt} :
    stmtList c stmts = true ↔ ∀ s ∈ stmts, stmt c [] s = true :=
  Every.list_iff rfl (fun _ _ => rfl) stmts

/-- A case of a `switch`. -/
def case (c : JumpScope) : Case → Bool
  | .mk test body => exprOption test && stmtList c body

/-- The test and the body of a case of a correct list are correct. -/
theorem of_caseList {c : JumpScope} {cases : List Case} (h : caseList c cases = true)
    {test : Option Expr} {body : List Stmt} (hc : .mk test body ∈ cases) :
    exprOption test = true ∧ stmtList c body = true := by
  have each : ∀ x ∈ cases, case c x = true :=
    (Every.list_iff rfl (fun x _ => by cases x; rfl) cases).1 h
  exact Bool.and_eq_true_iff.1 (each _ hc)

/-! ### Statements with parts -/

section parts

variable {c : JumpScope} {front : List String} {test object discriminant : Expr} {body : Stmt}
variable {consequent : Stmt} {alternate : Option Stmt} {cases : List Case}
variable {block : List Stmt} {handler : Option Handler} {finalizer : Option (List Stmt)}

theorem stmt_branch : stmt c front (.branch test consequent alternate) = true ↔
    expr test = true ∧ stmt c [] consequent = true ∧ stmtOption c alternate = true := by
  rw [stmt, Bool.and_eq_true, Bool.and_eq_true, and_assoc]

/-- Inside the cases a plain `break` is allowed. -/
theorem stmt_switch : stmt c front (.switch discriminant cases) = true ↔
    expr discriminant = true ∧ caseList c.inSwitch cases = true := by
  rw [stmt, Bool.and_eq_true]

/-- Inside the body both jumps are allowed, and those to the labels in front. -/
theorem stmt_while : stmt c front (.while test body) = true ↔
    expr test = true ∧ stmt (c.inLoop front) [] body = true := by
  rw [stmt, Bool.and_eq_true]

theorem stmt_doWhile : stmt c front (.doWhile test body) = true ↔
    expr test = true ∧ stmt (c.inLoop front) [] body = true := by
  rw [stmt, Bool.and_eq_true]

/-- The labels in front are handed to the body as targets of `continue`. -/
theorem stmt_for {init : Option ForInit} {test update : Option Expr} :
    stmt c front (.for init test update body) = true ↔
      forInit init = true ∧ exprOption test = true ∧ exprOption update = true ∧
        stmt (c.inLoop front) [] body = true := by
  rw [stmt, Bool.and_eq_true, Bool.and_eq_true, Bool.and_eq_true, and_assoc, and_assoc]

theorem stmt_forIn {target : ForTarget} : stmt c front (.forIn target object body) = true ↔
    forTarget target = true ∧ expr object = true ∧ stmt (c.inLoop front) [] body = true := by
  rw [stmt, Bool.and_eq_true, Bool.and_eq_true, and_assoc]

/-- All three parts are checked in the same surroundings. -/
theorem stmt_tries : stmt c front (.tries block handler finalizer) = true ↔
    stmtList c block = true ∧ handlerOption c handler = true ∧
      stmtListOption c finalizer = true := by
  rw [stmt, Bool.and_eq_true, Bool.and_eq_true, and_assoc]

theorem handlerOption_some {param : Option Pattern} :
    handlerOption c (some (.mk param block)) = true ↔
      patternOption param = true ∧ stmtList c block = true := by
  rw [handlerOption, Bool.and_eq_true]

end parts

end JumpCheck

/-- Every jump of the program leads somewhere, at the top and in each of its functions. -/
def Program.JumpCorrect (p : Program) : Prop := JumpCheck.stmtList {} p.body = true

instance (p : Program) : Decidable p.JumpCorrect := inferInstanceAs (Decidable (_ = true))

end Estree
