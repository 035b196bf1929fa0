/-
Estree/Proofs/Tree/Outline.lean

What stands in an outline.

An outline lists the nodes of a tree in preorder, so the lines of a node are followed by those of
its parts, and the lines of a part stand in one piece among them.  By induction over the tree the
lines of every expression, function and statement that is in a program, also inside of functions and
where it is never reached, are one piece of the program's outline (`Program.every_stands`): nothing
is left out of it, and no node is torn apart.

Patterns are not looked at by themselves: the target of a `for … in` is in order if it would be so
as a pattern, and it has another line than a pattern has.
-/
import Mathlib.Data.List.Infix
import Estree.Ast.Outline
import Estree.Proofs.Tree.Every

namespace Estree

namespace Outline

variable {lines l r : List String} {line : String}

/-- Whether the lines of a node are one piece of some lines. -/
def stands (lines : List String) : Node → Bool
  | .expr e => decide (expr e <:+: lines)
  | .function f => decide (function f <:+: lines)
  | .stmt s => decide (stmt s <:+: lines)
  | .pattern _ | .member _ => true

/-! ### Pieces -/

theorem piece_tail (h : line :: l <:+: lines) : l <:+: lines :=
  (List.suffix_cons line l).isInfix.trans h

theorem piece_left (h : l ++ r <:+: lines) : l <:+: lines :=
  (List.prefix_append l r).isInfix.trans h

theorem piece_right (h : l ++ r <:+: lines) : r <:+: lines :=
  (List.suffix_append l r).isInfix.trans h

/-! ### Nodes and their parts -/

theorem every_property {property : Expr} {computed : Bool}
    (h : Every.expr (stands lines) property = true) :
    (property.isPropertyName computed || Every.expr (stands lines) property) = true := by
  rw [h, Bool.or_true]

mutual

/-- What is in an expression stands where the expression stands. -/
theorem every_expr : ∀ e : Expr, expr e <:+: lines → Every.expr (stands lines) e = true
  | .ident _, h | .literal _, h | .this, h | .inert _, h => by
    rw [Every.expr, Bool.and_eq_true]
    exact ⟨decide_eq_true h, rfl⟩
  | .array elements, h => by
    rw [Every.expr, Bool.and_eq_true]
    exact ⟨decide_eq_true h, every_elementList elements (piece_tail h)⟩
  | .object members, h => by
    rw [Every.expr, Bool.and_eq_true]
    exact ⟨decide_eq_true h, every_memberList members (piece_tail h)⟩
  | .function f, h | .arrow f, h => by
    rw [Every.expr, Bool.and_eq_true]
    exact ⟨decide_eq_true h, every_function f (piece_tail h)⟩
  | .template quasis expressions, h => by
    rw [Every.expr, Bool.and_eq_true]
    exact ⟨decide_eq_true h, every_exprList expressions (piece_right (piece_tail h))⟩
  | .sequence expressions, h => by
    rw [Every.expr, Bool.and_eq_true]
    exact ⟨decide_eq_true h, every_exprList expressions (piece_tail h)⟩
  | .unary _ argument, h | .update _ argument _, h => by
    rw [Every.expr, Bool.and_eq_true]
    exact ⟨decide_eq_true h, every_expr argument (piece_tail h)⟩
  | .binary _ left right, h | .logical _ left right, h => by
    rw [Every.expr, Bool.and_eq_true, Bool.and_eq_true]
    exact ⟨decide_eq_true h, every_expr left (piece_left (piece_tail h)),
      every_expr right (piece_right (piece_tail h))⟩
  | .assign op target right, h => by
    rw [Every.expr, Bool.and_eq_true, Bool.and_eq_true]
    exact ⟨decide_eq_true h, every_pattern target (piece_left (piece_tail h)),
      every_expr right (piece_right (piece_tail h))⟩
  | .conditional test consequent alternate, h => by
    rw [Every.expr, Bool.and_eq_true, Bool.and_eq_true, Bool.and_eq_true]
    have hparts := piece_left (piece_tail h)
    exact ⟨decide_eq_true h, ⟨every_expr test (piece_left hparts),
      every_expr consequent (piece_right hparts)⟩,
      every_expr alternate (piece_right (piece_tail h))⟩
  | .call callee arguments, h | .new callee arguments, h => by
    rw [Every.expr, Bool.and_eq_true, Bool.and_eq_true]
    exact ⟨decide_eq_true h, every_expr callee (piece_left (piece_tail h)),
      every_exprList arguments (piece_right (piece_tail h))⟩
  | .member object property computed, h => by
    rw [Every.expr, Bool.and_eq_true, Bool.and_eq_true]
    exact ⟨decide_eq_true h, every_expr object (piece_left (piece_tail h)),
      every_property (every_expr property (piece_right (piece_tail h)))⟩

theorem every_exprOption : ∀ o : Option Expr, exprOrDash o <:+: lines →
    Every.exprOption (stands lines) o = true
  | none, _ => rfl
  | some e, h => every_expr e h

theorem every_exprList : ∀ es : List Expr, exprList es <:+: lines →
    Every.exprList (stands lines) es = true
  | [], _ => rfl
  | e :: rest, h => by
    rw [Every.exprList, Bool.and_eq_true]
    exact ⟨every_expr e (piece_left h), every_exprList rest (piece_right h)⟩

theorem every_elementList : ∀ elements : List (Option Expr), elementList elements <:+: lines →
    Every.elementList (stands lines) elements = true
  | [], _ => rfl
  | none :: rest, h => every_elementList rest (piece_tail h)
  | some e :: rest, h => by
    rw [Every.elementList, Bool.and_eq_true]
    exact ⟨every_expr e (piece_left h), every_elementList rest (piece_right h)⟩

theorem every_memberList : ∀ members : List Member, memberList members <:+: lines →
    Every.memberList (stands lines) members = true
  | [], _ => rfl
  | .spread :: rest, h => every_memberList rest (piece_tail h)
  | .property key value kind computed method shorthand :: rest, h => by
    rw [Every.memberList, Every.member, Bool.and_eq_true, Bool.and_eq_true, Bool.and_eq_true]
    have hparts := piece_left (piece_tail h)
    exact ⟨⟨rfl, every_property (every_expr key (piece_left hparts)),
      every_expr value (piece_right hparts)⟩, every_memberList rest (piece_right (piece_tail h))⟩

theorem every_pattern : ∀ p : Pattern, pattern p <:+: lines →
    Every.pattern (stands lines) p = true
  | .ident name, _ => by rw [Every.pattern]; rfl
  | .destructuring node, _ => by rw [Every.pattern]; rfl
  | .member object property computed, h => by
    rw [Every.pattern, Bool.and_eq_true, Bool.and_eq_true]
    exact ⟨rfl, every_expr object (piece_right (piece_left h)),
      every_property (every_expr property (piece_right h))⟩
  | .default target value, h => by
    rw [Every.pattern, Bool.and_eq_true, Bool.and_eq_true]
    exact ⟨rfl, every_pattern target (piece_left (piece_tail h)),
      every_expr value (piece_right (piece_tail h))⟩
  | .rest target, h => by
    rw [Every.pattern, Bool.and_eq_true]
    exact ⟨rfl, every_pattern target (piece_tail h)⟩

theorem every_patternList : ∀ ps : List Pattern, patternList ps <:+: lines →
    Every.patternList (stands lines) ps = true
  | [], _ => rfl
  | p :: rest, h => by
    rw [Every.patternList, Bool.and_eq_true]
    exact ⟨every_pattern p (piece_left h), every_patternList rest (piece_right h)⟩

/-- What is in a function stands where the function stands. -/
theorem every_function : ∀ f : Function, function f <:+: lines →
    Every.function (stands lines) f = true
  | .mk id params b generator async, h => by
    rw [Every.function, Bool.and_eq_true, Bool.and_eq_true]
    exact ⟨decide_eq_true h, every_patternList params (piece_left (piece_tail h)),
      every_body b (piece_right (piece_tail h))⟩

theorem every_body : ∀ b : Body, body b <:+: lines → Every.body (stands lines) b = true
  | .concise value, h => every_expr value (piece_tail h)
  | .block stmts, h => every_stmtList stmts (piece_tail h)

theorem every_declaratorList : ∀ declarators : List Declarator,
    declaratorList declarators <:+: lines →
      Every.declaratorList (stands lines) declarators = true
  | [], _ => rfl
  | .mk target init :: rest, h => by
    rw [Every.declaratorList, Every.declarator, Bool.and_eq_true, Bool.and_eq_true]
    exact ⟨⟨every_pattern target (piece_left (piece_left h)),
      every_exprOption init (piece_right (piece_left h))⟩,
      every_declaratorList rest (piece_right h)⟩

/-- What is in a statement stands where the statement stands. -/
theorem every_stmt : ∀ s : Stmt, stmt s <:+: lines → Every.stmt (stands lines) s = true
  | .empty, h | .debugger, h | .breaks _, h | .continues _, h | .inert _, h => by
    rw [Every.stmt, Bool.and_eq_true]
    exact ⟨decide_eq_true h, rfl⟩
  | .expression value, h | .throws value, h => by
    rw [Every.stmt, Bool.and_eq_true]
    exact ⟨decide_eq_true h, every_expr value (piece_tail h)⟩
  | .block stmts, h => by
    rw [Every.stmt, Bool.and_eq_true]
    exact ⟨decide_eq_true h, every_stmtList stmts (piece_tail h)⟩
  | .variables kind declarators, h => by
    rw [Every.stmt, Bool.and_eq_true]
    exact ⟨decide_eq_true h, every_declaratorList declarators (piece_tail (piece_tail h))⟩
  | .function f, h => by
    rw [Every.stmt, Bool.and_eq_true]
    exact ⟨decide_eq_true h, every_function f (piece_tail h)⟩
  | .returns argument, h => by
    rw [Every.stmt, Bool.and_eq_true]
    exact ⟨decide_eq_true h, every_exprOption argument (piece_tail h)⟩
  | .branch test consequent alternate, h => by
    rw [Every.stmt, Bool.and_eq_true, Bool.and_eq_true, Bool.and_eq_true]
    have hparts := piece_left (piece_tail h)
    exact ⟨decide_eq_true h, ⟨every_expr test (piece_left hparts),
      every_stmt consequent (piece_right hparts)⟩,
      every_stmtOption alternate (piece_right (piece_tail h))⟩
  | .switch discriminant cases, h => by
    rw [Every.stmt, Bool.and_eq_true, Bool.and_eq_true]
    exact ⟨decide_eq_true h, every_expr discriminant (piece_left (piece_tail h)),
      every_caseList cases (piece_right (piece_tail h))⟩
  | .while test b, h | .doWhile test b, h => by
    rw [Every.stmt, Bool.and_eq_true, Bool.and_eq_true]
    exact ⟨decide_eq_true h, every_expr test (piece_left (piece_tail h)),
      every_stmt b (piece_right (piece_tail h))⟩
  | .for init test update b, h => by
    rw [Every.stmt, Bool.and_eq_true, Bool.and_eq_true, Bool.and_eq_true, Bool.and_eq_true]
    have hheader := piece_left (piece_tail h)
    exact ⟨decide_eq_true h, ⟨⟨every_forInit init (piece_left (piece_left hheader)),
      every_exprOption test (piece_right (piece_left hheader))⟩,
      every_exprOption update (piece_right hheader)⟩, every_stmt b (piece_right (piece_tail h))⟩
  | .forIn target object b, h => by
    rw [Every.stmt, Bool.and_eq_true, Bool.and_eq_true, Bool.and_eq_true]
    have hheader := piece_left (piece_tail h)
    exact ⟨decide_eq_true h, ⟨every_forTarget target (piece_left hheader),
      every_expr object (piece_right hheader)⟩, every_stmt b (piece_right (piece_tail h))⟩
  | .labeled label b, h => by
    rw [Every.stmt, Bool.and_eq_true]
    exact ⟨decide_eq_true h, every_stmt b (piece_tail (piece_tail h))⟩
  | .tries block handler finalizer, h => by
    rw [Every.stmt, Bool.and_eq_true, Bool.and_eq_true, Bool.and_eq_true]
    have hparts := piece_left (piece_tail h)
    exact ⟨decide_eq_true h, ⟨every_stmtList block (piece_left hparts),
      every_handlerOption handler (piece_right hparts)⟩,
      every_stmtListOption finalizer (piece_right (piece_tail h))⟩

theorem every_stmtOption : ∀ o : Option Stmt, stmtOrDash o <:+: lines →
    Every.stmtOption (stands lines) o = true
  | none, _ => rfl
  | some s, h => every_stmt s h

theorem every_stmtList : ∀ stmts : List Stmt, stmtList stmts <:+: lines →
    Every.stmtList (stands lines) stmts = true
  | [], _ => rfl
  | s :: rest, h => by
    rw [Every.stmtList, Bool.and_eq_true]
    exact ⟨every_stmt s (piece_left h), every_stmtList rest (piece_right h)⟩

theorem every_stmtListOption : ∀ o : Option (List Stmt), stmtListOrDash o <:+: lines →
    Every.stmtListOption (stands lines) o = true
  | none, _ => rfl
  | some stmts, h => every_stmtList stmts h

theorem every_caseList : ∀ cases : List Case, caseList cases <:+: lines →
    Every.caseList (stands lines) cases = true
  | [], _ => rfl
  | .mk test stmts :: rest, h => by
    rw [Every.caseList, Every.case, Bool.and_eq_true, Bool.and_eq_true]
    exact ⟨⟨every_exprOption test (piece_left (piece_left h)),
      every_stmtList stmts (piece_right (piece_left h))⟩, every_caseList rest (piece_right h)⟩

theorem every_forInit : ∀ init : Option ForInit, forInitOrDash init <:+: lines →
    Every.forInit (stands lines) init = true
  | none, _ => rfl
  | some (.variables _ declarators), h => every_declaratorList declarators (piece_tail h)
  | some (.expression value), h => every_expr value h

theorem every_forTarget : ∀ target : ForTarget, forTarget target <:+: lines →
    Every.forTarget (stands lines) target = true
  | .variables _ declarators, h => every_declaratorList declarators (piece_tail h)
  | .ident _, _ => rfl
  | .member object property computed, h => by
    rw [Every.forTarget, Bool.and_eq_true, Bool.and_eq_true]
    exact ⟨rfl, every_expr object (piece_left (piece_tail h)),
      every_property (every_expr property (piece_right (piece_tail h)))⟩
  | .destructuring _, _ => rfl

theorem every_handlerOption : ∀ o : Option Handler, handlerOrDash o <:+: lines →
    Every.handlerOption (stands lines) o = true
  | none, _ => rfl
  | some (.mk none stmts), h => every_stmtList stmts (piece_tail h)
  | some (.mk (some param) stmts), h => by
    rw [Every.handlerOption, Every.handler, Bool.and_eq_true]
    exact ⟨every_pattern param (piece_left h), every_stmtList stmts (piece_right h)⟩

end

end Outline

/-- **Outlines.**  The lines of every expression, function and statement of a program are one piece
of the program's outline. -/
theorem Program.every_stands (p : Program) :
    Every.stmtList (Outline.stands p.outline) p.body = true :=
  Outline.every_stmtList p.body (List.suffix_cons _ _).isInfix

end Estree
