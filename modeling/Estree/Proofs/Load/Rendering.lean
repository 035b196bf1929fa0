/-
Estree/Proofs/Load/Rendering.lean

The loader inverts the canonical document.

`GivesBack n render decode` says that `decode` finds in the document that `render` writes for a
thing the thing itself, as long as the document is at most `n` levels deep.  If the readers for
the parts of a node give them back (`Readers.Sound`), so does the reader for the node, by cases
on the node; the induction is on the levels (`readers_sound`), so lists of parts need one lemma
only (`GivesBack.items`), and optional parts one (`GivesBack.orNull`).

The words in a node (its operator, its keyword, the role of a property) are looked up in tables of
their own, which give back what is written (`Vocabulary.lookup`).

In the two places where a reader tries one form after the other, the first must fail on
documents of the second: no block is read as an expression (`Readers.Sound.noBlock`), no
expression as a declaration (`expr_no_declaration`).

An absent part may be left out instead of written as null, numbers may be written as integers,
and members may stand in any order: all these documents are edits of the canonical one
(`Json.Respelled`), which the loader does not see.
-/
import Estree.Ast.Render
import Estree.Proofs.Load.Rearranged
import Estree.Proofs.Load.Word

namespace Estree

/-! ### Depth -/

namespace Json

/-- The values of a list of members are at most `n` levels deep. -/
def Shallow (n : Nat) : List (String × Json) → Prop
  | [] => True
  | (_, j) :: rest => j.depth ≤ n ∧ Shallow n rest

/-- Where the greatest depth is within a bound, each of the depths is. -/
theorem shallow_of_depthMembers {n : Nat} :
    {members : List (String × Json)} → depthMembers members ≤ n → Shallow n members
  | [], _ => trivial
  | (_, _) :: _, h =>
    have h := Nat.max_le.1 h
    ⟨h.1, shallow_of_depthMembers h.2⟩

end Json

namespace Load

open Json (Shallow)

variable {α : Type} {r : Readers} {n : Nat}

/-! ### Giving back -/

/-- A reader gives back all things whose documents are at most `n` levels deep. -/
def GivesBack (n : Nat) (render : α → Json) (decode : Json → Option α) : Prop :=
  ∀ a, (render a).depth ≤ n → decode (render a) = some a

/-- The items of a list are given back in their order. -/
theorem GivesBack.items {render : α → Json} {decode : Json → Option α}
    (h : GivesBack n render decode) {list : List α → List Json} (nil : list [] = [])
    (cons : ∀ a rest, list (a :: rest) = render a :: list rest) :
    GivesBack n (fun as => .arr (list as)) (listOf decode) := by
  intro as hdepth
  replace hdepth : Json.depthItems (list as) ≤ n := Nat.le_trans (Nat.le_succ _) hdepth
  show (list as).mapM decode = some as
  induction as with
  | nil => rw [nil]; rfl
  | cons a rest ih =>
    rw [cons] at hdepth ⊢
    have hdepth := Nat.max_le.1 hdepth
    rw [List.mapM_cons, h a hdepth.1, ih hdepth.2]
    rfl

/-- So is an optional part that is written as null when it is absent. -/
theorem GivesBack.orNull {render : α → Json} {decode : Json → Option α}
    (h : GivesBack n render decode) {orNull : Option α → Json} (none : orNull .none = .null)
    (some : ∀ a, orNull (.some a) = render a) (present : ∀ a, render a ≠ .null) :
    GivesBack n orNull (nullable decode) := by
  intro o hdepth
  cases o with
  | none => rw [none]; rfl
  | some a =>
    rw [some] at hdepth ⊢
    have ha := h a hdepth
    have hp := present a
    cases hj : render a with
    | null => exact absurd hj hp
    | _ => rw [hj] at ha; rw [nullable, ha]; rfl; exact nofun

/-- A field that is written is read as a value or null where it may be missing. -/
theorem optional_eq {fields : Fields} {name : String} {j : Json} (decode : Json → Option α)
    (h : fields.lookup name = some j) : fields.optional name decode = nullable decode j := by
  rw [Fields.optional_eq, h]
  rfl

/-- The fields of a node are one level less deep than the node. -/
theorem fields_shallow {kind : String} {fields : List (String × Json)}
    (h : (Render.node kind fields).depth ≤ n + 1) : Shallow n fields :=
  (Json.shallow_of_depthMembers (Nat.le_of_succ_le_succ h)).2

/-! ### Leaves -/

theorem nullable_identifier (name : Option String) :
    nullable identifier (Render.identifierOrNull name) = some name := by
  cases name <;> rfl

/-- A literal is written with those of its fields that say something, and read back from them. -/
theorem literal_node (l : Literal) :
    readExpr r (Render.expr (.literal l)) = some (.literal l) := by
  obtain ⟨value, regex, bigint⟩ := l
  cases value <;> cases regex <;> cases bigint <;> rfl

/-- A stretch of text is read back as it was written. -/
theorem quasi_node : GivesBack n Render.quasi quasi := by
  rintro ⟨raw, cooked, tail⟩ -
  cases cooked <;> rfl

theorem quasis_node (quasis : List Quasi)
    (h : (Json.arr (quasis.map Render.quasi)).depth ≤ n) :
    listOf quasi (.arr (quasis.map Render.quasi)) = some quasis :=
  quasi_node.items rfl (fun _ _ => rfl) quasis h

/-! ### One level -/

/-- The document of a block. -/
def blockNode (stmts : List Stmt) : Json :=
  Render.node "BlockStatement" [("body", .arr (Render.stmtList stmts))]

/-- All three readers give back what they should, and a block is not read as an expression. -/
structure Readers.Sound (r : Readers) (n : Nat) : Prop where
  expr : GivesBack n Render.expr r.expr
  pattern : GivesBack n Render.pattern r.pattern
  stmt : GivesBack n Render.stmt r.stmt
  noBlock : ∀ stmts, r.expr (blockNode stmts) = none

namespace Readers.Sound

variable (hr : r.Sound n)
include hr

theorem exprOrNull : GivesBack n Render.exprOrNull (nullable r.expr) :=
  hr.expr.orNull rfl (fun _ => rfl) fun e => by cases e <;> exact nofun

theorem stmtOrNull : GivesBack n Render.stmtOrNull (nullable r.stmt) :=
  hr.stmt.orNull rfl (fun _ => rfl) fun s => by cases s <;> exact nofun

theorem exprList : GivesBack n (fun es => .arr (Render.exprList es)) (listOf r.expr) :=
  hr.expr.items rfl fun _ _ => rfl

theorem elementList :
    GivesBack n (fun es => .arr (Render.elementList es)) (listOf (nullable r.expr)) :=
  hr.exprOrNull.items rfl fun e _ => by cases e <;> rfl

theorem patternList : GivesBack n (fun ps => .arr (Render.patternList ps)) (listOf r.pattern) :=
  hr.pattern.items rfl fun _ _ => rfl

theorem stmtList : GivesBack n (fun ss => .arr (Render.stmtList ss)) (listOf r.stmt) :=
  hr.stmt.items rfl fun _ _ => rfl

/-! #### Parts of nodes -/

end Readers.Sound

/-- The document of an entry of an object literal. -/
def memberNode : Member → Json
  | .spread => Render.node "SpreadElement" []
  | .property key value kind computed method shorthand =>
    Render.node "Property"
      [("key", Render.expr key), ("value", Render.expr value), ("kind", .str kind.word),
        ("computed", .bool computed), ("method", .bool method), ("shorthand", .bool shorthand)]

/-- The document of a declared target. -/
def declaratorNode : Declarator → Json
  | .mk target init =>
    Render.node "VariableDeclarator"
      [("id", Render.pattern target), ("init", Render.exprOrNull init)]

/-- The document of a case. -/
def caseNode : Case → Json
  | .mk test consequent =>
    Render.node "SwitchCase"
      [("test", Render.exprOrNull test), ("consequent", .arr (Render.stmtList consequent))]

/-- The document of a declaration in a place that also takes other nodes. -/
def declarationNode (kind : VarKind) (declarators : List Declarator) : Json :=
  Render.node "VariableDeclaration"
    [("kind", .str kind.keyword), ("declarations", .arr (Render.declaratorList declarators))]

/-- The document of the first part of a `for` header. -/
def forInitNode : ForInit → Json
  | .variables kind declarators => declarationNode kind declarators
  | .expression value => Render.expr value

/-- No expression is taken for a declaration. -/
theorem expr_no_declaration (e : Expr) :
    tagged .nameOrNumber ["VariableDeclaration"] (Render.expr e) = none := by
  cases e with
  | function f => cases f; rfl
  | arrow f => cases f; rfl
  | inert node => cases node <;> rfl
  | _ => rfl

/-- The document of what a `catch` part binds. -/
def paramNode : Option Pattern → Json
  | some p => Render.pattern p
  | none => .null

/-- The document of a `catch` part. -/
def handlerNode : Handler → Json
  | .mk param stmts =>
    Render.node "CatchClause" [("param", paramNode param), ("body", blockNode stmts)]

namespace Readers.Sound

variable (hr : r.Sound n)
include hr

/-- An entry of an object literal is read back, whichever of the two it is. -/
theorem member : GivesBack (n + 1) memberNode (objectMember r) := by
  intro m h
  cases m with
  | spread => rfl
  | property key value kind computed method shorthand =>
    obtain ⟨hkey, hvalue, -⟩ := fields_shallow h
    show (do some (Member.property (← r.expr (Render.expr key)) (← r.expr (Render.expr value))
      (← PropertyKind.byWord.lookup kind.word) computed method shorthand)) = _
    rw [hr.expr key hkey, hr.expr value hvalue, PropertyKind.vocabulary.lookup]
    rfl

theorem memberList : GivesBack (n + 1) (fun ms => .arr (Render.memberList ms))
    (listOf (objectMember r)) :=
  hr.member.items rfl fun m _ => by cases m <;> rfl

/-- A declared target is read back with its first value, or without one. -/
theorem declarator : GivesBack (n + 1) declaratorNode (declarator r) := by
  rintro ⟨target, init⟩ h
  obtain ⟨htarget, hinit, -⟩ := fields_shallow h
  show (do some (Declarator.mk (← r.pattern (Render.pattern target))
    (← Fields.optional _ "init" r.expr))) = _
  rw [hr.pattern target htarget, optional_eq _ rfl, hr.exprOrNull init hinit]
  rfl

theorem declaratorList : GivesBack (n + 1) (fun ds => .arr (Render.declaratorList ds))
    (listOf (Load.declarator r)) :=
  hr.declarator.items rfl fun d _ => by cases d; rfl

/-- A case is read back; the default is the one without a test. -/
theorem switchCase : GivesBack (n + 1) caseNode (switchCase r) := by
  rintro ⟨test, consequent⟩ h
  obtain ⟨htest, hbody, -⟩ := fields_shallow h
  show (do some (Case.mk (← Fields.optional _ "test" r.expr)
    (← listOf r.stmt (.arr (Render.stmtList consequent))))) = _
  rw [optional_eq _ rfl, hr.exprOrNull test htest, hr.stmtList consequent hbody]
  rfl

theorem caseList : GivesBack (n + 1) (fun cs => .arr (Render.caseList cs))
    (listOf (Load.switchCase r)) :=
  hr.switchCase.items rfl fun c _ => by cases c; rfl

theorem block : GivesBack (n + 1) blockNode (block r) := by
  intro stmts h
  obtain ⟨hbody, -⟩ := fields_shallow h
  exact hr.stmtList stmts hbody

theorem blockOrNull : GivesBack (n + 1) Render.blockOrNull (nullable (Load.block r)) :=
  hr.block.orNull rfl (fun _ => rfl) fun _ => nofun

/-- A handler is read back with its parameter, or without one. -/
theorem handler : GivesBack (n + 1) handlerNode (handler r) := by
  rintro ⟨param, stmts⟩ h
  obtain ⟨hparam, hbody, -⟩ := fields_shallow h
  have hp : nullable r.pattern (paramNode param) = some param :=
    hr.pattern.orNull rfl (fun _ => rfl) (fun p => by cases p <;> exact nofun) param hparam
  have hb := hr.block stmts (Nat.le_succ_of_le hbody)
  show (do some (Handler.mk (← Fields.optional _ "param" r.pattern)
    (← Load.block r (blockNode stmts)))) = _
  rw [optional_eq _ rfl, hp, hb]
  rfl

theorem handlerOrNull : GivesBack (n + 1) Render.handlerOrNull (nullable (Load.handler r)) :=
  hr.handler.orNull rfl (fun h => by obtain ⟨param, stmts⟩ := h; cases param <;> rfl) fun h => by
    obtain ⟨param, stmts⟩ := h; exact nofun

/-- A declaration is read back from its kind and its targets. -/
theorem declaration (kind : VarKind) (declarators : List Declarator)
    (h : (Json.arr (Render.declaratorList declarators)).depth ≤ n) :
    Load.declaration r (.obj
      [("kind", .str kind.keyword), ("declarations", .arr (Render.declaratorList declarators))])
      = some (kind, declarators) := by
  show (do some (← VarKind.byKeyword.lookup kind.keyword,
    ← listOf (Load.declarator r) (.arr (Render.declaratorList declarators)))) = _
  rw [VarKind.vocabulary.lookup, hr.declaratorList declarators (Nat.le_succ_of_le h)]
  rfl

/-- A body is read as what it is, because no expression is a block. -/
theorem body (b : Body) (h : (Render.body b).depth ≤ n) :
    Load.body r (Render.body b) = some b := by
  cases b with
  | concise value =>
    rw [Render.body, Load.body, hr.expr value h]
  | block stmts =>
    show Load.body r (blockNode stmts) = _
    rw [Load.body, hr.noBlock stmts, hr.block stmts (Nat.le_succ_of_le h)]
    rfl

/-- A function is read back from its five fields. -/
theorem function (f : Function) (h : Shallow n (Render.function f)) :
    Load.function r (.obj (Render.function f)) = some f := by
  obtain ⟨id, params, b, generator, async⟩ := f
  obtain ⟨-, hparams, hbody, -⟩ := h
  show (do some (Function.mk (← Fields.optional _ "id" identifier)
    (← listOf r.pattern (.arr (Render.patternList params))) (← Load.body r (Render.body b))
    generator async)) = _
  rw [optional_eq _ rfl, nullable_identifier, hr.patternList params hparams, hr.body b hbody]
  rfl

theorem memberParts {object property : Expr} (hobject : (Render.expr object).depth ≤ n)
    (hproperty : (Render.expr property).depth ≤ n) (computed : Bool) :
    Load.memberParts r (.obj [("object", Render.expr object), ("property", Render.expr property),
      ("computed", .bool computed)]) = some (object, property, computed) := by
  show (do some (← r.expr (Render.expr object), ← r.expr (Render.expr property), computed)) = _
  rw [hr.expr object hobject, hr.expr property hproperty]
  rfl

theorem loopParts {test : Expr} {body : Stmt} (htest : (Render.expr test).depth ≤ n)
    (hbody : (Render.stmt body).depth ≤ n) :
    Load.loopParts r (.obj [("test", Render.expr test), ("body", Render.stmt body)])
      = some (test, body) := by
  show (do some (← r.expr (Render.expr test), ← r.stmt (Render.stmt body))) = _
  rw [hr.expr test htest, hr.stmt body hbody]
  rfl

/-! #### Nodes -/

/-- An expression is read back, kind by kind: the tag leads to the kind, and the fields to the
parts. -/
theorem readExpr : GivesBack (n + 1) Render.expr (readExpr r) := by
  intro e h
  cases e with
  | ident name => rfl
  | literal l => exact literal_node l
  | this => rfl
  | array elements =>
    obtain ⟨helements, -⟩ := fields_shallow h
    show (do some (Expr.array (← listOf (nullable r.expr) (.arr (Render.elementList elements)))))
      = _
    rw [hr.elementList elements helements]
    rfl
  | object members =>
    obtain ⟨hmembers, -⟩ := fields_shallow h
    show (do some (Expr.object (← listOf (objectMember r) (.arr (Render.memberList members)))))
      = _
    rw [hr.memberList members (Nat.le_succ_of_le hmembers)]
    rfl
  | function f =>
    obtain ⟨id, params, b, generator, async⟩ := f
    exact congrArg (Option.map Expr.function) (hr.function _ (fields_shallow h))
  | arrow f =>
    obtain ⟨id, params, b, generator, async⟩ := f
    exact congrArg (Option.map Expr.arrow) (hr.function _ (fields_shallow h))
  | template quasis expressions =>
    obtain ⟨hquasis, hexpressions, -⟩ := fields_shallow h
    show (do some (Expr.template (← listOf quasi (.arr (quasis.map Render.quasi)))
      (← listOf r.expr (.arr (Render.exprList expressions))))) = _
    rw [quasis_node quasis hquasis, hr.exprList expressions hexpressions]
    rfl
  -- an operator is read back from the table of symbols
  | unary op argument =>
    obtain ⟨-, hargument, -⟩ := fields_shallow h
    show (do some (Expr.unary (← UnaryOp.bySymbol.lookup op.symbol)
      (← r.expr (Render.expr argument)))) = _
    rw [UnaryOp.vocabulary.lookup, hr.expr argument hargument]
    rfl
  | update op argument leading =>
    obtain ⟨-, hargument, -⟩ := fields_shallow h
    show (do some (Expr.update (← UpdateOp.bySymbol.lookup op.symbol)
      (← r.expr (Render.expr argument)) leading)) = _
    rw [UpdateOp.vocabulary.lookup, hr.expr argument hargument]
    rfl
  | binary op left right =>
    obtain ⟨-, hleft, hright, -⟩ := fields_shallow h
    show (do some (Expr.binary (← BinaryOp.bySymbol.lookup op.symbol)
      (← r.expr (Render.expr left)) (← r.expr (Render.expr right)))) = _
    rw [BinaryOp.vocabulary.lookup, hr.expr left hleft, hr.expr right hright]
    rfl
  | logical op left right =>
    obtain ⟨-, hleft, hright, -⟩ := fields_shallow h
    show (do some (Expr.logical (← LogicalOp.bySymbol.lookup op.symbol)
      (← r.expr (Render.expr left)) (← r.expr (Render.expr right)))) = _
    rw [LogicalOp.vocabulary.lookup, hr.expr left hleft, hr.expr right hright]
    rfl
  | assign op target right =>
    obtain ⟨-, htarget, hright, -⟩ := fields_shallow h
    show (do some (Expr.assign (← AssignOp.bySymbol.lookup op.symbol)
      (← r.pattern (Render.pattern target)) (← r.expr (Render.expr right)))) = _
    rw [AssignOp.vocabulary.lookup, hr.pattern target htarget, hr.expr right hright]
    rfl
  | conditional test consequent alternate =>
    obtain ⟨htest, hconsequent, halternate, -⟩ := fields_shallow h
    show (do some (Expr.conditional (← r.expr (Render.expr test))
      (← r.expr (Render.expr consequent)) (← r.expr (Render.expr alternate)))) = _
    rw [hr.expr test htest, hr.expr consequent hconsequent, hr.expr alternate halternate]
    rfl
  | call callee arguments =>
    obtain ⟨hcallee, harguments, -⟩ := fields_shallow h
    show (do some (Expr.call (← r.expr (Render.expr callee))
      (← listOf r.expr (.arr (Render.exprList arguments))))) = _
    rw [hr.expr callee hcallee, hr.exprList arguments harguments]
    rfl
  | new callee arguments =>
    obtain ⟨hcallee, harguments, -⟩ := fields_shallow h
    show (do some (Expr.new (← r.expr (Render.expr callee))
      (← listOf r.expr (.arr (Render.exprList arguments))))) = _
    rw [hr.expr callee hcallee, hr.exprList arguments harguments]
    rfl
  | member object property computed =>
    obtain ⟨hobject, hproperty, -⟩ := fields_shallow h
    exact congrArg (Option.map fun m => Expr.member m.1 m.2.1 m.2.2)
      (hr.memberParts hobject hproperty computed)
  | sequence expressions =>
    obtain ⟨hexpressions, -⟩ := fields_shallow h
    show (do some (Expr.sequence (← listOf r.expr (.arr (Render.exprList expressions))))) = _
    rw [hr.exprList expressions hexpressions]
    rfl
  -- a node without parts is read back from its kind
  | inert node => cases node <;> rfl

/-- A pattern is read back, kind by kind. -/
theorem readPattern : GivesBack (n + 1) Render.pattern (readPattern r) := by
  intro p h
  cases p with
  | ident name => rfl
  | member object property computed =>
    obtain ⟨hobject, hproperty, -⟩ := fields_shallow h
    exact congrArg (Option.map fun m => Pattern.member m.1 m.2.1 m.2.2)
      (hr.memberParts hobject hproperty computed)
  | default target value =>
    obtain ⟨htarget, hvalue, -⟩ := fields_shallow h
    show (do some (Pattern.default (← r.pattern (Render.pattern target))
      (← r.expr (Render.expr value)))) = _
    rw [hr.pattern target htarget, hr.expr value hvalue]
    rfl
  | rest target =>
    obtain ⟨htarget, -⟩ := fields_shallow h
    show (do some (Pattern.rest (← r.pattern (Render.pattern target)))) = _
    rw [hr.pattern target htarget]
    rfl
  | destructuring node => cases node <;> rfl

/-- The first part of a `for` header is read back: no expression is read as a declaration. -/
theorem forInit : GivesBack n forInitNode (forInit r) := by
  intro init h
  cases init with
  | «variables» kind declarators =>
    obtain ⟨-, hdeclarators, -⟩ := fields_shallow (Nat.le_succ_of_le h)
    have hdeclared : declared? r (declarationNode kind declarators) = some (kind, declarators) :=
      hr.declaration kind declarators hdeclarators
    rw [forInitNode, forInit_eq, hdeclared]
    rfl
  | expression value =>
    rw [forInitNode, forInit_eq, declared?, expr_no_declaration, hr.expr value h]
    rfl

theorem forInitOrNull : GivesBack n Render.forInitOrNull (nullable (Load.forInit r)) :=
  hr.forInit.orNull rfl (fun init => by cases init <;> rfl) fun init => by
    cases init with
    | «variables» kind declarators => exact nofun
    | expression value => cases value <;> exact nofun

/-- The target of a `for … in` is read back, kind by kind. -/
theorem forTarget : GivesBack (n + 1) Render.forTarget (forTarget r) := by
  intro target h
  cases target with
  | «variables» kind declarators =>
    obtain ⟨-, hdeclarators, -⟩ := fields_shallow h
    exact congrArg (Option.map fun d => ForTarget.variables d.1 d.2)
      (hr.declaration kind declarators hdeclarators)
  | ident name => rfl
  | member object property computed =>
    obtain ⟨hobject, hproperty, -⟩ := fields_shallow h
    exact congrArg (Option.map fun m => ForTarget.member m.1 m.2.1 m.2.2)
      (hr.memberParts hobject hproperty computed)
  | destructuring node => cases node <;> rfl

/-- A statement is read back, kind by kind, in either form of its tag. -/
theorem readStmt (form : KindForm) : GivesBack (n + 1) Render.stmt (readStmt r form) := by
  intro s h
  cases s with
  | expression value =>
    obtain ⟨hvalue, -⟩ := fields_shallow h
    show (do some (Stmt.expression (← r.expr (Render.expr value)))) = _
    rw [hr.expr value hvalue]
    rfl
  | block stmts =>
    obtain ⟨hstmts, -⟩ := fields_shallow h
    exact congrArg (Option.map Stmt.block) (hr.stmtList stmts hstmts)
  | empty => rfl
  | debugger => rfl
  | «variables» kind declarators =>
    obtain ⟨-, hdeclarators, -⟩ := fields_shallow h
    exact congrArg (Option.map fun d => Stmt.variables d.1 d.2)
      (hr.declaration kind declarators hdeclarators)
  | function f =>
    obtain ⟨id, params, b, generator, async⟩ := f
    exact congrArg (Option.map Stmt.function) (hr.function _ (fields_shallow h))
  -- an optional part is written as null where it is missing
  | returns argument =>
    obtain ⟨hargument, -⟩ := fields_shallow h
    show (do some (Stmt.returns (← Fields.optional _ "argument" r.expr))) = _
    rw [optional_eq _ rfl, hr.exprOrNull argument hargument]
    rfl
  | breaks label => cases label <;> rfl
  | continues label => cases label <;> rfl
  | branch test consequent alternate =>
    obtain ⟨htest, hconsequent, halternate, -⟩ := fields_shallow h
    show (do some (Stmt.branch (← r.expr (Render.expr test)) (← r.stmt (Render.stmt consequent))
      (← Fields.optional _ "alternate" r.stmt))) = _
    rw [hr.expr test htest, hr.stmt consequent hconsequent, optional_eq _ rfl,
      hr.stmtOrNull alternate halternate]
    rfl
  | switch discriminant cases =>
    obtain ⟨hdiscriminant, hcases, -⟩ := fields_shallow h
    show (do some (Stmt.switch (← r.expr (Render.expr discriminant))
      (← listOf (Load.switchCase r) (.arr (Render.caseList cases))))) = _
    rw [hr.expr discriminant hdiscriminant, hr.caseList cases (Nat.le_succ_of_le hcases)]
    rfl
  | «while» test body =>
    obtain ⟨htest, hbody, -⟩ := fields_shallow h
    exact congrArg (Option.map fun parts => Stmt.while parts.1 parts.2)
      (hr.loopParts htest hbody)
  | doWhile test body =>
    obtain ⟨htest, hbody, -⟩ := fields_shallow h
    exact congrArg (Option.map fun parts => Stmt.doWhile parts.1 parts.2)
      (hr.loopParts htest hbody)
  | «for» init test update body =>
    obtain ⟨hinit, htest, hupdate, hbody, -⟩ := fields_shallow h
    show (do some (Stmt.for (← Fields.optional _ "init" (Load.forInit r))
      (← Fields.optional _ "test" r.expr) (← Fields.optional _ "update" r.expr)
      (← r.stmt (Render.stmt body)))) = _
    rw [optional_eq _ rfl, hr.forInitOrNull init hinit, optional_eq _ rfl,
      hr.exprOrNull test htest, optional_eq _ rfl, hr.exprOrNull update hupdate,
      hr.stmt body hbody]
    rfl
  | forIn target object body =>
    obtain ⟨htarget, hobject, hbody, -⟩ := fields_shallow h
    show (do some (Stmt.forIn (← Load.forTarget r (Render.forTarget target))
      (← r.expr (Render.expr object)) (← r.stmt (Render.stmt body)))) = _
    rw [hr.forTarget target (Nat.le_succ_of_le htarget), hr.expr object hobject,
      hr.stmt body hbody]
    rfl
  | labeled label body =>
    obtain ⟨-, hbody, -⟩ := fields_shallow h
    show (do some (Stmt.labeled label (← r.stmt (Render.stmt body)))) = _
    rw [hr.stmt body hbody]
    rfl
  | tries block handler finalizer =>
    obtain ⟨hblock, hhandler, hfinalizer, -⟩ := fields_shallow h
    show (do some (Stmt.tries (← Load.block r (blockNode block))
      (← Fields.optional _ "handler" (Load.handler r))
      (← Fields.optional _ "finalizer" (Load.block r)))) = _
    rw [hr.block block (Nat.le_succ_of_le hblock), optional_eq _ rfl,
      hr.handlerOrNull handler (Nat.le_succ_of_le hhandler), optional_eq _ rfl,
      hr.blockOrNull finalizer (Nat.le_succ_of_le hfinalizer)]
    rfl
  | throws argument =>
    obtain ⟨hargument, -⟩ := fields_shallow h
    show (do some (Stmt.throws (← r.expr (Render.expr argument)))) = _
    rw [hr.expr argument hargument]
    rfl
  | inert node => cases node <;> rfl

end Readers.Sound

/-! ### All levels -/

/-- So many levels as a document has are enough to read it back. -/
theorem readers_sound (n : Nat) : (readers n).Sound n := by
  induction n with
  | zero =>
    have none {j : Json} (h : j.depth ≤ 0) : False := by cases j <;> cases h
    exact ⟨fun _ h => (none h).elim, fun _ h => (none h).elim, fun _ h => (none h).elim,
      fun _ => rfl⟩
  | succ n ih =>
    exact ⟨ih.readExpr, ih.readPattern, ih.readStmt .nameOrNumber, fun _ => rfl⟩

end Load

/-- The canonical document of a program is read as the program. -/
theorem Program.ofJson?_toJson (p : Program) : Program.ofJson? p.toJson = some p := by
  have hr := Load.readers_sound p.toJson.depth
  have hdepth : (Render.node "Program" [("body", .arr (Render.stmtList p.body)),
      ("sourceType", .str p.sourceType.word)]).depth ≤ p.toJson.depth + 1 := Nat.le_succ _
  have hbody := ((hr.readStmt .name).items rfl (fun _ _ => rfl) : Load.GivesBack _
    (fun ss => .arr (Render.stmtList ss)) _) p.body
    (Nat.le_succ_of_le (Load.fields_shallow hdepth).1)
  show (do some (Program.mk (← Load.listOf (Load.readStmt (Load.readers p.toJson.depth) .name)
    (.arr (Render.stmtList p.body))) (← SourceType.byWord.lookup p.sourceType.word))) = _
  rw [hbody, SourceType.vocabulary.lookup]
  rfl

/-- **The loader inverts the rendering.**  From the document of a program the program is read, also
when absent parts are left out instead of written as null, when numbers are written as integers,
and when the members of nodes stand in another order or have foreign ones among them.  Nothing
is asked of the numbers in the program, as a document holds every double. -/
theorem rendering_is_read_back (p : Program) {j : Json}
    (h : Relation.EqvGen (Json.Edited Json.Respelled (fun j => j.spellsWord = true) false)
      p.toJson j) :
    Program.ofJson? j = some p :=
  (Program.ofJson?_eqvGen h).symm.trans p.ofJson?_toJson

/-- A module with a `return` whose absent argument is left out and a literal whose number is
written as an integer. -/
theorem terse_module_is_read_back :
    let p : Program :=
      { body := [.returns none, .expression (.literal { value := .num (Float.ofInt 7) })]
        sourceType := .module }
    let terse : Json := .obj [("type", .str "Program"),
      ("body", .arr [.obj [("type", .str "ReturnStatement")],
        .obj [("type", .str "ExpressionStatement"), ("expression", .obj
          [("value", .num (.int 7)), ("type", .str "Literal"), ("regex", .null),
            ("bigint", .null)])]]),
      ("sourceType", .str "module")]
    Relation.EqvGen (Json.Edited Json.Respelled (fun j => j.spellsWord = true) false)
      p.toJson terse ∧
    Program.ofJson? terse = some p := by
  intro p terse
  have h : Relation.EqvGen (Json.Edited Json.Respelled (fun j => j.spellsWord = true) false)
      p.toJson terse := by
    -- first the absent argument, moved to the front of its node, then the number
    refine .trans _ _ _ (.rel _ _ (.member [_] [_] (.item [] [_] (.here
      (.rearranged (.moved (.swap _ _ _))) fun _ => ⟨nofun, nofun⟩)) nofun)) ?_
    refine .trans _ _ _ (.rel _ _ (.member [_] [_] (.item [] [_] (.here
      (.omitted (by decide) rfl) fun _ => ⟨nofun, nofun⟩)) nofun)) ?_
    refine .trans _ _ _ (.rel _ _ (.member [_] [_] (.item [_] [] (.member [_] [] (.here
      (.rearranged (.moved (.swap _ _ _))) nofun) fun _ => ⟨nofun, nofun⟩)) nofun)) ?_
    exact .rel _ _ (.member [_] [_] (.item [_] [] (.member [_] [] (.here
      (.number (b := .int 7) rfl) nofun) fun _ => ⟨nofun, nofun⟩)) nofun)
  exact ⟨h, rendering_is_read_back _ h⟩

end Estree
