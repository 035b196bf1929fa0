/-
Estree/Proofs/Tree/Admits.lean

Trees whose nodes all meet a condition, as a discipline.

`Discipline.tree` lets only such trees be evaluated, and restricts the names that are used and the
causes that are raised.  `Grants` says when the condition is strong enough for that: names that
stand in a tree may be used, and a node that is not supported (`Node.isSupported`) may make the
evaluation fail.  Then one level of evaluation abides by the discipline (`Grants.admits`), whatever
the condition is about.

The lemmas about nodes go through the constructors once more, now with the check of a whole tree
(`Every`) as what is known: the check of a node gives those of its parts, and these are what the
discipline asks for.
-/
import Estree.Proofs.Level.Statement
import Estree.Proofs.Tree.Every

namespace Estree

/-! ### Supported nodes -/

/-- What `++` and `--` work on. -/
def Expr.isReference : Expr → Bool
  | .ident _ | .member _ _ _ => true
  | _ => false

/-- A property that is computed or a name. -/
def Expr.isKey (property : Expr) (computed : Bool) : Bool :=
  computed || property.isName

/-- Whether a pattern is a name. -/
def Pattern.isName : Pattern → Bool
  | .ident _ => true
  | _ => false

/-- What an assignment works on. -/
def Pattern.isReference : Pattern → Bool
  | .ident _ | .member _ _ _ => true
  | _ => false

/-- A name, perhaps with defaults. -/
def Pattern.isParam : Pattern → Bool
  | .ident _ => true
  | .default target _ => target.isParam
  | _ => false

/-- A parameter: a name, perhaps with defaults, or a rest of that form. -/
def Pattern.isParameter : Pattern → Bool
  | .rest target => target.isParam
  | p => p.isParam

/-- A declarator of a name. -/
def Declarator.isPlain : Declarator → Bool
  | .mk target _ => target.isName

/-- What a `for … in` may declare: one name. -/
def Declarator.isSingle : List Declarator → Bool
  | [d] => d.isPlain
  | _ => false

/-- Whether a node by itself is supported. -/
def Node.isSupported : Node → Bool
  | .expr (.literal l) => !l.isExotic
  | .expr (.update _ argument _) => argument.isReference
  | .expr (.assign _ target _) => target.isReference
  | .expr (.member _ property computed) => property.isKey computed
  | .expr (.inert _) => false
  | .pattern (.member _ property computed) => property.isKey computed
  | .pattern (.destructuring _) => false
  | .member .spread => false
  | .member (.property _ _ kind _ _ _) => kind = .init
  | .function f => !f.generator && !f.async && f.params.all Pattern.isParameter
  | .stmt (.function f) => f.id.isSome
  | .stmt (.variables _ declarators) => declarators.all Declarator.isPlain
  | .stmt (.for (some (.variables _ declarators)) _ _ _) => declarators.all Declarator.isPlain
  | .stmt (.forIn (.variables _ declarators) _ _) => Declarator.isSingle declarators
  | .stmt (.tries _ (some (.mk (some param) _)) _) => param.isName
  | .stmt (.inert _) => false
  | _ => true

/-- Whether a statement is a loop whose rounds nothing in it bounds. -/
def Stmt.isUnbounded : Stmt → Bool
  | .while _ _ | .doWhile _ _ | .for _ _ _ _ => true
  | _ => false

/-! ### The discipline -/

/-- Trees whose nodes all meet a condition, with the names that are used and the causes that are
raised on the way. -/
def Discipline.tree (check : Node → Bool) (names : String → Prop) (fails : Cause → Prop) :
    Discipline where
  expr e := Every.expr check e = true
  stmt s _ := Every.stmt check s = true
  function f := Every.function check f = true
  fails := fails
  names := names
  loops := ∃ s : Stmt, s.isUnbounded = true ∧ Every.stmt check s = true

/-- A condition on nodes that guarantees what names are used and what causes are raised. -/
structure Grants (check : Node → Bool) (names : String → Prop) (fails : Cause → Prop) : Prop where
  receiver : names "this"
  expr : ∀ name, check (.expr (.ident name)) = true → names name
  pattern : ∀ name, check (.pattern (.ident name)) = true → names name
  function : ∀ f name, check (.function f) = true → f.id = some name → names name
  stray : ∀ j : Jump, fails j.stray
  unsupported : ∀ x, check x = true → x.isSupported = false → ∀ kind, fails (.unsupported kind)

namespace Grants

variable {check : Node → Bool} {names : String → Prop} {fails : Cause → Prop}

/-- The discipline that a condition on nodes gives rise to. -/
abbrev discipline (_ : Grants check names fails) : Discipline := .tree check names fails

variable (g : Grants check names fails)

/-! ### Expressions -/

/-- A generator or an `async` function is not supported as a node. -/
theorem admitsFunction {f : Function} (h : Every.function check f = true) :
    g.discipline.AdmitsFunction f := by
  refine ⟨h, fun hf kind => g.unsupported _ (Every.check_function h) ?_ kind⟩
  obtain hf | hf := hf <;> simp [Node.isSupported, hf]

/-- An operand that is a function is a node with a function below it. -/
theorem admitsOperand {e : Expr} (h : Every.expr check e = true) :
    g.discipline.AdmitsOperand e := by
  refine ⟨h, ?_⟩
  rintro f (rfl | rfl)
  · rw [Every.expr, Bool.and_eq_true] at h
    exact g.admitsFunction h.2
  · rw [Every.expr, Bool.and_eq_true] at h
    exact g.admitsFunction h.2

/-- A literal that is a regular expression or a big integer is not supported as a node. -/
theorem admitsLiteral {l : Literal} (h : check (.expr (.literal l)) = true) :
    g.discipline.AdmitsLiteral l := by
  intro hl kind
  exact g.unsupported _ h (by simp [Node.isSupported, hl]) kind

/-- The two sides of a member expression, of which the node `x` must be one. -/
theorem admitsParts {object property : Expr} {computed : Bool} {x : Node} (hx : check x = true)
    (hs : x.isSupported = property.isKey computed)
    (h : (Every.expr check object &&
      (property.isPropertyName computed || Every.expr check property)) = true) :
    g.discipline.expr object ∧ g.discipline.AdmitsKey property computed := by
  rw [Bool.and_eq_true] at h
  refine ⟨h.1, ?_⟩
  cases computed with
  | true => exact h.2
  | false =>
    cases property with
    | ident name => exact .inl ⟨name, rfl⟩
    | _ => exact .inr (g.unsupported x hx hs _)

theorem admitsMemberExpr {object property : Expr} {computed : Bool}
    (h : Every.expr check (.member object property computed) = true) :
    g.discipline.expr object ∧ g.discipline.AdmitsKey property computed := by
  rw [Every.expr, Bool.and_eq_true] at h
  exact g.admitsParts h.1 rfl h.2

/-- A key that is a name is no node and needs no condition. -/
theorem admitsPropertyKey {key : Expr} {computed : Bool}
    (h : (key.isPropertyName computed || Every.expr check key) = true) :
    g.discipline.AdmitsPropertyKey key computed := by
  cases computed with
  | true => cases key <;> exact h
  | false =>
    cases key with
    | ident name => trivial
    | literal l => exact g.admitsLiteral (Every.check_expr h)
    | _ => exact h

/-- A spread is not supported as a node, and neither is an accessor. -/
theorem admitsMember {m : Member} (h : Every.member check m = true) :
    g.discipline.AdmitsMember m := by
  cases m with
  | spread => exact g.unsupported _ (Every.check_member h) rfl _
  | property key value kind computed method shorthand =>
    rw [Every.member, Bool.and_eq_true, Bool.and_eq_true] at h
    refine ⟨fun _ => ⟨g.admitsPropertyKey h.2.1, g.admitsOperand h.2.2⟩, fun hk => ?_⟩
    exact g.unsupported _ h.1 (decide_eq_false hk) _

theorem admitsUnary {op : UnaryOp} {e : Expr} (h : Every.expr check e = true) :
    g.discipline.AdmitsUnary op e := by
  unfold Discipline.AdmitsUnary
  split
  · exact g.expr _ (Every.check_expr h)
  · exact ⟨g.expr _ (Every.check_expr h), trivial⟩
  · exact g.admitsMemberExpr h
  · exact h

theorem admitsUpdate {op : UpdateOp} {e : Expr} {leading : Bool}
    (h : Every.expr check (.update op e leading) = true) : g.discipline.AdmitsUpdate e := by
  rw [Every.expr, Bool.and_eq_true] at h
  cases e with
  | ident name => exact g.expr name (Every.check_expr h.2)
  | member object property computed => exact g.admitsMemberExpr h.2
  | _ => exact g.unsupported _ h.1 rfl _

/-- An assignment to a pattern that is no reference is not supported as a node. -/
theorem admitsTarget {op : AssignOp} {target : Pattern} {right : Expr}
    (h : check (.expr (.assign op target right)) = true)
    (ht : Every.pattern check target = true) : g.discipline.AdmitsTarget target := by
  cases target with
  | ident name => exact g.pattern name (Every.check_pattern ht)
  | member object property computed =>
    rw [Every.pattern, Bool.and_eq_true] at ht
    exact g.admitsParts ht.1 rfl ht.2
  | _ => exact g.unsupported _ h rfl _

theorem admitsCallee {e : Expr} (h : Every.expr check e = true) :
    g.discipline.AdmitsCallee e := by
  unfold Discipline.AdmitsCallee
  split
  · exact g.admitsMemberExpr h
  · exact ⟨h, g.receiver⟩

/-- Constructor by constructor: the condition on the node, and on all nodes in its parts. -/
theorem admitsExpr {e : Expr} (h : Every.expr check e = true) : g.discipline.AdmitsExpr e := by
  have hx := Every.check_expr h
  cases e with
  | ident name => exact g.expr name hx
  | literal l => exact g.admitsLiteral hx
  | this => exact g.receiver
  | unary op argument =>
    rw [Every.expr, Bool.and_eq_true] at h
    exact g.admitsUnary h.2
  | update op argument leading => exact g.admitsUpdate h
  | member object property computed => exact g.admitsMemberExpr h
  | inert node => exact g.unsupported _ hx rfl _
  -- from here on the check of the node itself is not needed, only those of its parts
  | array elements =>
    rw [Every.expr, Bool.and_eq_true] at h
    exact fun e he => Every.elementList_iff.1 h.2 (some e) he
  | object members =>
    rw [Every.expr, Bool.and_eq_true] at h
    exact fun m hm => g.admitsMember (Every.memberList_iff.1 h.2 m hm)
  | function f =>
    rw [Every.expr, Bool.and_eq_true] at h
    exact g.admitsFunction h.2
  | arrow f =>
    rw [Every.expr, Bool.and_eq_true] at h
    exact g.admitsFunction h.2
  | template quasis expressions =>
    rw [Every.expr, Bool.and_eq_true] at h
    exact Every.exprList_iff.1 h.2
  | sequence expressions =>
    rw [Every.expr, Bool.and_eq_true] at h
    exact Every.exprList_iff.1 h.2
  | binary op left right =>
    rw [Every.expr, Bool.and_eq_true, Bool.and_eq_true] at h
    exact h.2
  | logical op left right =>
    rw [Every.expr, Bool.and_eq_true, Bool.and_eq_true] at h
    exact h.2
  | assign op target right =>
    rw [Every.expr, Bool.and_eq_true, Bool.and_eq_true] at h
    exact ⟨g.admitsTarget h.1 h.2.1, g.admitsOperand h.2.2⟩
  | conditional test consequent alternate =>
    rw [Every.expr, Bool.and_eq_true, Bool.and_eq_true, Bool.and_eq_true] at h
    exact ⟨h.2.1.1, h.2.1.2, h.2.2⟩
  | call callee arguments =>
    rw [Every.expr, Bool.and_eq_true, Bool.and_eq_true] at h
    exact ⟨g.admitsCallee h.2.1, Every.exprList_iff.1 h.2.2⟩
  | new callee arguments =>
    rw [Every.expr, Bool.and_eq_true, Bool.and_eq_true] at h
    exact ⟨h.2.1, Every.exprList_iff.1 h.2.2⟩

/-! ### Bodies and functions -/

/-- A declared function has a name, or it is not supported as a node. -/
theorem admitsDeclaration {f : Function} (h : Every.stmt check (.function f) = true) :
    g.discipline.AdmitsDeclaration f := by
  rw [Every.stmt, Bool.and_eq_true] at h
  unfold Discipline.AdmitsDeclaration
  split
  · exact g.unsupported _ h.1 (by simp [Node.isSupported, *]) _
  · exact ⟨g.function f _ (Every.check_function h.2) ‹_›, g.admitsFunction h.2⟩

/-- A list in which all nodes meet the condition. -/
theorem body {stmts : List Stmt} (h : Every.stmtList check stmts = true) :
    g.discipline.Body stmts := by
  intro s hs
  have hst := Every.stmtList_iff.1 h s hs
  refine ⟨hst, fun _ _ => trivial, ?_⟩
  rintro f rfl
  exact g.admitsDeclaration hst

theorem lands {J : Jump → Prop} : g.discipline.Lands J := fun j _ => g.stray j

/-- A parameter is a name under any number of defaults, or the function is not supported. -/
theorem admitsParam {p : Pattern} (h : Every.pattern check p = true)
    (hp : p.isParam = false → ∀ kind, fails (.unsupported kind)) :
    g.discipline.AdmitsParam p := by
  match p with
  | .ident name => trivial
  | .default target init =>
    rw [Every.pattern, Bool.and_eq_true, Bool.and_eq_true] at h
    exact ⟨g.admitsOperand h.2.2, admitsParam h.2.1 hp⟩
  | .member _ _ _ | .rest _ | .destructuring _ => exact hp rfl _

theorem admitsParameter {p : Pattern} (h : Every.pattern check p = true)
    (hp : p.isParameter = false → ∀ kind, fails (.unsupported kind)) :
    g.discipline.AdmitsParameter p := by
  cases p with
  | rest target =>
    rw [Every.pattern, Bool.and_eq_true] at h
    exact g.admitsParam h.2 hp
  | _ => exact g.admitsParam h hp

/-- The condition on a function is about its parameters and its body. -/
theorem admitsCall {f : Function} (h : Every.function check f = true) :
    g.discipline.AdmitsCall f := by
  have hf := Every.check_function h
  obtain ⟨id, params, b, generator, async⟩ := f
  rw [Every.function, Bool.and_eq_true, Bool.and_eq_true] at h
  obtain ⟨-, hp, hb⟩ := h
  refine ⟨fun p hm => g.admitsParameter (Every.patternList_iff.1 hp p hm) fun hn => ?_, ?_⟩
  · have : params.all Pattern.isParameter = false :=
      List.all_eq_false.2 ⟨p, hm, Bool.eq_false_iff.1 hn⟩
    exact g.unsupported _ hf
      (by simp only [Node.isSupported, Function.params, this, Bool.and_false])
  · cases b with
    | concise value => exact hb
    | block stmts => exact ⟨g.body hb, g.lands⟩

/-! ### Statements -/

theorem binds {p : Pattern} (hp : p.isName = false → ∀ kind, fails (.unsupported kind)) :
    g.discipline.Binds p := by
  cases p with
  | ident name => exact .inl ⟨name, rfl⟩
  | _ => exact .inr (hp rfl _)

include g in
/-- A name that stands in a tree may be used. -/
theorem names_of_pattern {p : Pattern} (h : Every.pattern check p = true) {name : String}
    (hp : p = .ident name) : names name := by
  subst hp
  exact g.pattern name (Every.check_pattern h)

/-- A declaration of something else than names is not supported as a node. -/
theorem admitsDeclarators {declarators : List Declarator}
    (h : Every.declaratorList check declarators = true)
    (hp : declarators.all Declarator.isPlain = false → ∀ kind, fails (.unsupported kind)) :
    ∀ d ∈ declarators, g.discipline.AdmitsDeclarator d := by
  rintro ⟨target, init⟩ hd
  have hdc := Every.declaratorList_iff.1 h _ hd
  rw [Every.declarator, Bool.and_eq_true] at hdc
  refine ⟨g.binds fun hn => hp (List.all_eq_false.2 ⟨_, hd, Bool.eq_false_iff.1 hn⟩), ?_, ?_⟩
  · exact fun name => g.names_of_pattern hdc.1
  · exact fun e he => g.admitsOperand (Every.of_exprOption hdc.2 he)

theorem admitsLoop {b : Stmt} (h : Every.stmt check b = true) (labels : List String) :
    g.discipline.AdmitsLoop labels (fun _ => True) b := by
  refine ⟨?_, fun _ _ _ => trivial⟩
  cases b with
  | block stmts =>
    rw [Every.stmt, Bool.and_eq_true] at h
    exact g.body h.2
  | _ => exact h

theorem admitsFor {init : Option ForInit} {test update : Option Expr} {b : Stmt}
    (h : check (.stmt (.for init test update b)) = true) (hi : Every.forInit check init = true)
    (i : ForInit) (he : init = some i) : g.discipline.AdmitsForInit i := by
  subst he
  cases i with
  | «variables» kind declarators => exact g.admitsDeclarators hi (g.unsupported _ h)
  | expression e => exact hi

/-- A target that declares more than one name is not supported as a node. -/
theorem admitsForIn {target : ForTarget} {object : Expr} {b : Stmt}
    (h : check (.stmt (.forIn target object b)) = true)
    (ht : Every.forTarget check target = true) : g.discipline.AdmitsForTarget target := by
  cases target with
  | «variables» kind declarators =>
    match declarators with
    | [.mk target init] =>
      rw [Every.forTarget, Every.declaratorList, Every.declarator, Bool.and_eq_true,
        Bool.and_eq_true] at ht
      exact ⟨g.binds (g.unsupported _ h), fun name => g.names_of_pattern ht.1.1⟩
    | [] => exact g.unsupported _ h rfl _
    | .mk _ _ :: _ :: _ => exact g.unsupported _ h rfl _
  | ident name => exact g.pattern name ht
  | member object property computed =>
    rw [Every.forTarget, Bool.and_eq_true] at ht
    exact g.admitsParts ht.1 rfl ht.2
  | destructuring node => exact g.unsupported _ ht rfl _

theorem admitsCase {c : Case} (h : Every.case check c = true) (labels : List String) :
    g.discipline.AdmitsCase labels (fun _ => True) c := by
  obtain ⟨test, stmts⟩ := c
  rw [Every.case, Bool.and_eq_true] at h
  exact ⟨fun e => Every.of_exprOption h.1, g.body h.2, fun _ _ _ => trivial⟩

/-- A handler with a pattern for a parameter is not supported as a node. -/
theorem admitsTry {block : List Stmt} {handler : Option Handler} {finalizer : Option (List Stmt)}
    (h : Every.stmt check (.tries block handler finalizer) = true) :
    g.discipline.AdmitsTry (fun _ => True) block handler finalizer := by
  rw [Every.stmt, Bool.and_eq_true, Bool.and_eq_true, Bool.and_eq_true] at h
  obtain ⟨hx, ⟨hb, hh⟩, hf⟩ := h
  refine ⟨trivial, ⟨g.body hb, fun _ _ => trivial⟩, ?_, ?_⟩
  · rintro param stmts rfl
    rw [Every.handlerOption, Every.handler, Bool.and_eq_true] at hh
    refine ⟨⟨?_, g.body hh.2⟩, fun _ _ => trivial⟩
    rintro p rfl
    exact g.binds (g.unsupported _ hx)
  · rintro stmts rfl
    exact ⟨g.body hf, fun _ _ => trivial⟩

/-- Constructor by constructor, as for expressions. -/
theorem admitsStmt {s : Stmt} (h : Every.stmt check s = true) (labels : List String) :
    g.discipline.AdmitsStmt s labels := by
  have hx := Every.check_stmt h
  cases s with
  | empty => trivial
  | debugger => trivial
  | breaks label => trivial
  | continues label => trivial
  | inert node => exact g.unsupported _ hx rfl _
  | function f => exact g.admitsDeclaration h
  | tries block handler finalizer => exact g.admitsTry h
  | expression e =>
    rw [Every.stmt, Bool.and_eq_true] at h
    exact h.2
  | throws e =>
    rw [Every.stmt, Bool.and_eq_true] at h
    exact h.2
  | block stmts =>
    rw [Every.stmt, Bool.and_eq_true] at h
    exact ⟨g.body h.2, fun _ _ => trivial⟩
  | «variables» kind declarators =>
    rw [Every.stmt, Bool.and_eq_true] at h
    exact g.admitsDeclarators h.2 (g.unsupported _ hx)
  | returns argument =>
    rw [Every.stmt, Bool.and_eq_true] at h
    cases argument with
    | none => trivial
    | some e => exact h.2
  | branch test consequent alternate =>
    rw [Every.stmt, Bool.and_eq_true, Bool.and_eq_true, Bool.and_eq_true] at h
    obtain ⟨-, ⟨ht, hc⟩, ha⟩ := h
    refine ⟨ht, ⟨hc, fun _ _ => trivial⟩, ?_⟩
    rintro other rfl
    exact ⟨ha, fun _ _ => trivial⟩
  | switch discriminant cases =>
    rw [Every.stmt, Bool.and_eq_true, Bool.and_eq_true] at h
    exact ⟨h.2.1, fun c hc => g.admitsCase (Every.caseList_iff.1 h.2.2 c hc) labels⟩
  -- a loop grants that loops may occur
  | «while» test b =>
    have hl : g.discipline.loops := ⟨_, rfl, h⟩
    rw [Every.stmt, Bool.and_eq_true, Bool.and_eq_true] at h
    exact ⟨hl, h.2.1, g.admitsLoop h.2.2 labels⟩
  | doWhile test b =>
    have hl : g.discipline.loops := ⟨_, rfl, h⟩
    rw [Every.stmt, Bool.and_eq_true, Bool.and_eq_true] at h
    exact ⟨hl, h.2.1, g.admitsLoop h.2.2 labels⟩
  | «for» init test update b =>
    have hl : g.discipline.loops := ⟨_, rfl, h⟩
    rw [Every.stmt, Bool.and_eq_true, Bool.and_eq_true, Bool.and_eq_true, Bool.and_eq_true] at h
    obtain ⟨-, ⟨⟨hi, ht⟩, hu⟩, hb⟩ := h
    exact ⟨hl, g.admitsFor hx hi, fun e => Every.of_exprOption ht, fun e => Every.of_exprOption hu,
      g.admitsLoop hb labels⟩
  | forIn target object b =>
    rw [Every.stmt, Bool.and_eq_true, Bool.and_eq_true, Bool.and_eq_true] at h
    obtain ⟨-, ⟨ht, ho⟩, hb⟩ := h
    exact ⟨g.admitsForIn hx ht, ho, g.admitsLoop hb labels⟩
  | labeled label b =>
    rw [Every.stmt, Bool.and_eq_true] at h
    exact ⟨h.2, fun _ _ _ => trivial⟩

/-- Every task that may be asked for is admitted. -/
theorem admits {t : Task} (h : g.discipline.asks t) : g.discipline.Admits t := by
  cases t with
  | expr e scope => exact g.admitsExpr h
  | stmt s scope labels => exact g.admitsStmt h labels
  | invoke c this args => exact g.admitsCall h
  | _ => exact h

/-- A program whose nodes all meet the condition may be run. -/
theorem asksProgram {p : Program} (h : Every.stmtList check p.body = true)
    (module : Option Value) : g.discipline.asks (.program module p) :=
  ⟨g.body h, g.lands⟩

end Grants

end Estree
