/-
Estree/Proofs/Level/Part.lean

What a discipline admits depends on the parts only.

The rule of a node asks for smaller nodes.  So if one discipline allows of all that is smaller
than `n` what another allows (`Discipline.Below`), it admits every node of that size that the
other admits.  This is how a discipline may bound what is evaluated: the bound goes down with
every level of a tree.  Calls are left out, and the second discipline need not let functions be
entered.
-/
import Estree.Proofs.Level.Statement

namespace Estree

/-- The size of the tree that a task comes with. -/
noncomputable def Task.size : Task → Nat
  | .expr e _ => sizeOf e
  | .stmt s _ _ => sizeOf s
  | .body stmts _ => sizeOf stmts
  | .handler h _ _ => sizeOf h
  | .invoke c _ _ => sizeOf c.node
  | .program _ p => sizeOf p.body
  | .call _ _ _ | .apply _ _ _ | .construct _ _ | .spent => 0

namespace Discipline

/-- A discipline that allows of what is smaller than `n` all that another allows, apart from
entering functions and from performing parts that spend nothing.  No rule of a node refuses a call,
so the cause of that may be left out. -/
structure Below (n : Nat) (D D' : Discipline) : Prop where
  expr : ∀ {e}, sizeOf e < n → D.expr e → D'.expr e
  stmt : ∀ {s labels}, sizeOf s < n → D.stmt s labels → D'.stmt s labels
  function : ∀ {f}, sizeOf f < n → D.function f → D'.function f
  jumps : D'.jumps = D.jumps
  bodyJumps : D'.bodyJumps = D.bodyJumps
  fails : ∀ {cause}, (∀ depth, cause ≠ .tooDeep depth) → D.fails cause → D'.fails cause
  names : ∀ {name}, D.names name → D'.names name
  deletes : ∀ {name}, D.deletes name → D'.deletes name
  loops : D.loops → D'.loops

namespace Below

variable {D D' : Discipline} {n : Nat} (h : D.Below n D')

include h

/-! ### Expressions -/

theorem admitsFunction {f : Function} (hn : sizeOf f < n) (ha : D.AdmitsFunction f) :
    D'.AdmitsFunction f :=
  ⟨h.function hn ha.1, fun hf kind => h.fails nofun (ha.2 hf kind)⟩

/-- A function expression asks for its function, which is smaller than itself. -/
theorem admitsOperand {e : Expr} (hn : sizeOf e < n) (ha : D.AdmitsOperand e) :
    D'.AdmitsOperand e := by
  refine ⟨h.expr hn ha.1, fun f hf => h.admitsFunction ?_ (ha.2 f hf)⟩
  obtain rfl | rfl := hf
  · simp only [Expr.function.sizeOf_spec] at hn
    omega
  · simp only [Expr.arrow.sizeOf_spec] at hn
    omega

theorem admitsLiteral {l : Literal} (ha : D.AdmitsLiteral l) : D'.AdmitsLiteral l :=
  fun hl kind => h.fails nofun (ha hl kind)

theorem admitsKey {property : Expr} {computed : Bool} (hn : sizeOf property < n)
    (ha : D.AdmitsKey property computed) : D'.AdmitsKey property computed := by
  cases computed with
  | true => exact h.expr hn ha
  | false => exact ha.imp_right (h.fails nofun)

theorem admitsPropertyKey {key : Expr} {computed : Bool} (hn : sizeOf key < n)
    (ha : D.AdmitsPropertyKey key computed) : D'.AdmitsPropertyKey key computed := by
  unfold AdmitsPropertyKey at ha ⊢
  split at ha
  · trivial
  · exact h.admitsLiteral ha
  · exact h.expr hn ha

/-- Key and value of an entry are smaller than the entry. -/
theorem admitsMember {m : Member} (hn : sizeOf m < n) (ha : D.AdmitsMember m) :
    D'.AdmitsMember m := by
  cases m with
  | spread => exact h.fails nofun ha
  | property key value kind computed method shorthand =>
    simp only [Member.property.sizeOf_spec] at hn
    refine ⟨fun hk => ⟨h.admitsPropertyKey (by omega) (ha.1 hk).1, ?_⟩, fun hk => ?_⟩
    · exact h.admitsOperand (by omega) (ha.1 hk).2
    · exact h.fails nofun (ha.2 hk)

/-- The two sides of a member expression. -/
theorem admitsParts {object property : Expr} {computed : Bool}
    (hn : sizeOf object + sizeOf property < n)
    (ha : D.expr object ∧ D.AdmitsKey property computed) :
    D'.expr object ∧ D'.AdmitsKey property computed :=
  ⟨h.expr (by omega) ha.1, h.admitsKey (by omega) ha.2⟩

/-- What `typeof` and `delete` look at is not evaluated, but names and parts are the same. -/
theorem admitsUnary {op : UnaryOp} {e : Expr} (hn : sizeOf e < n) (ha : D.AdmitsUnary op e) :
    D'.AdmitsUnary op e := by
  unfold AdmitsUnary at ha ⊢
  split at ha
  · exact h.names ha
  · exact ⟨h.names ha.1, h.deletes ha.2⟩
  · simp only [Expr.member.sizeOf_spec] at hn
    exact h.admitsParts (by omega) ha
  · exact h.expr hn ha

theorem admitsUpdate {e : Expr} (hn : sizeOf e < n) (ha : D.AdmitsUpdate e) :
    D'.AdmitsUpdate e := by
  unfold AdmitsUpdate at ha ⊢
  split at ha
  · exact h.names ha
  · simp only [Expr.member.sizeOf_spec] at hn
    exact h.admitsParts (by omega) ha
  · exact h.fails nofun ha

theorem admitsTarget {p : Pattern} (hn : sizeOf p < n) (ha : D.AdmitsTarget p) :
    D'.AdmitsTarget p := by
  unfold AdmitsTarget at ha ⊢
  split at ha
  · exact h.names ha
  · simp only [Pattern.member.sizeOf_spec] at hn
    exact h.admitsParts (by omega) ha
  · exact h.fails nofun ha

theorem admitsCallee {e : Expr} (hn : sizeOf e < n) (ha : D.AdmitsCallee e) :
    D'.AdmitsCallee e := by
  unfold AdmitsCallee at ha ⊢
  split at ha
  · simp only [Expr.member.sizeOf_spec] at hn
    exact h.admitsParts (by omega) ha
  · exact ⟨h.expr hn ha.1, h.names ha.2⟩

/-- The elements of a list are smaller than the list. -/
theorem exprs {es : List Expr} (hn : sizeOf es < n) (ha : ∀ e ∈ es, D.expr e) :
    ∀ e ∈ es, D'.expr e :=
  fun e he => h.expr (Nat.lt_trans (List.sizeOf_lt_of_mem he) hn) (ha e he)

/-- Constructor by constructor, with the sizes of the parts below that of the whole. -/
theorem admitsExpr {e : Expr} (hn : sizeOf e ≤ n) (ha : D.AdmitsExpr e) : D'.AdmitsExpr e := by
  cases e with
  | ident name => exact h.names ha
  | literal l => exact h.admitsLiteral ha
  | this => exact h.names ha
  | inert node => exact h.fails nofun ha
  -- an element is smaller than the list, and the list than the node
  | array elements =>
    simp only [Expr.array.sizeOf_spec] at hn
    intro e he
    have hlt := List.sizeOf_lt_of_mem he
    simp only [Option.some.sizeOf_spec] at hlt
    exact h.expr (by omega) (ha e he)
  | object members =>
    simp only [Expr.object.sizeOf_spec] at hn
    intro m hm
    have hlt := List.sizeOf_lt_of_mem hm
    exact h.admitsMember (by omega) (ha m hm)
  | function f =>
    simp only [Expr.function.sizeOf_spec] at hn
    exact h.admitsFunction (by omega) ha
  | arrow f =>
    simp only [Expr.arrow.sizeOf_spec] at hn
    exact h.admitsFunction (by omega) ha
  | template quasis expressions =>
    simp only [Expr.template.sizeOf_spec] at hn
    exact h.exprs (by omega) ha
  | sequence expressions =>
    simp only [Expr.sequence.sizeOf_spec] at hn
    exact h.exprs (by omega) ha
  | unary op argument =>
    simp only [Expr.unary.sizeOf_spec] at hn
    exact h.admitsUnary (by omega) ha
  | update op argument leading =>
    simp only [Expr.update.sizeOf_spec] at hn
    exact h.admitsUpdate (by omega) ha
  | binary op left right =>
    simp only [Expr.binary.sizeOf_spec] at hn
    exact ⟨h.expr (by omega) ha.1, h.expr (by omega) ha.2⟩
  | logical op left right =>
    simp only [Expr.logical.sizeOf_spec] at hn
    exact ⟨h.expr (by omega) ha.1, h.expr (by omega) ha.2⟩
  | assign op target right =>
    simp only [Expr.assign.sizeOf_spec] at hn
    exact ⟨h.admitsTarget (by omega) ha.1, h.admitsOperand (by omega) ha.2⟩
  | conditional test consequent alternate =>
    simp only [Expr.conditional.sizeOf_spec] at hn
    exact ⟨h.expr (by omega) ha.1, h.expr (by omega) ha.2.1, h.expr (by omega) ha.2.2⟩
  | call callee arguments =>
    simp only [Expr.call.sizeOf_spec] at hn
    exact ⟨h.admitsCallee (by omega) ha.1, h.exprs (by omega) ha.2⟩
  | new callee arguments =>
    simp only [Expr.new.sizeOf_spec] at hn
    exact ⟨h.expr (by omega) ha.1, h.exprs (by omega) ha.2⟩
  | member object property computed =>
    simp only [Expr.member.sizeOf_spec] at hn
    exact h.admitsParts (by omega) ha

/-! ### Bodies and functions -/

theorem binds {p : Pattern} (ha : D.Binds p) : D'.Binds p := ha.imp_right (h.fails nofun)

/-- A jump that leads nowhere fails for a reason that is no depth of calls. -/
theorem lands {stmts : List Stmt} (ha : D.Lands (D.bodyJumps stmts)) :
    D'.Lands (D'.bodyJumps stmts) := by
  rw [h.bodyJumps]
  exact fun j hj => h.fails (by cases j <;> nofun) (ha j hj)

theorem admitsDeclaration {f : Function} (hn : sizeOf f < n) (ha : D.AdmitsDeclaration f) :
    D'.AdmitsDeclaration f := by
  unfold AdmitsDeclaration at ha ⊢
  split
  · simp only [*] at ha
    exact h.fails nofun ha
  · simp only [*] at ha
    exact ⟨h.names ha.1, h.admitsFunction hn ha.2⟩

/-- Statements are smaller than their list, and so are the functions among them. -/
theorem body {stmts : List Stmt} (hn : sizeOf stmts ≤ n) (ha : D.Body stmts) : D'.Body stmts := by
  intro s hs
  have hlt := List.sizeOf_lt_of_mem hs
  obtain ⟨hst, hj, hf⟩ := ha s hs
  rw [h.jumps, h.bodyJumps]
  refine ⟨h.stmt (by omega) hst, hj, ?_⟩
  rintro f rfl
  simp only [Stmt.function.sizeOf_spec] at hlt
  exact h.admitsDeclaration (by omega) (hf f rfl)

theorem handles {hd : Handler} (hn : sizeOf hd ≤ n) (ha : D.Handles hd) : D'.Handles hd := by
  obtain ⟨param, stmts⟩ := hd
  simp only [Handler.mk.sizeOf_spec] at hn
  exact ⟨fun p hp => h.binds (ha.1 p hp), h.body (by omega) ha.2⟩

/-- Defaults may be nested, so this goes by recursion. -/
theorem admitsParam {p : Pattern} (hn : sizeOf p ≤ n) (ha : D.AdmitsParam p) :
    D'.AdmitsParam p := by
  match p with
  | .ident name => trivial
  | .default target init =>
    simp only [Pattern.default.sizeOf_spec] at hn
    exact ⟨h.admitsOperand (by omega) ha.1, admitsParam (by omega) ha.2⟩
  | .member _ _ _ | .rest _ | .destructuring _ => exact h.fails nofun ha

theorem admitsParameter {p : Pattern} (hn : sizeOf p ≤ n) (ha : D.AdmitsParameter p) :
    D'.AdmitsParameter p := by
  cases p with
  | rest target =>
    simp only [Pattern.rest.sizeOf_spec] at hn
    exact h.admitsParam (by omega) ha
  | _ => exact h.admitsParam hn ha

theorem admitsCall {f : Function} (hn : sizeOf f ≤ n) (ha : D.AdmitsCall f) : D'.AdmitsCall f := by
  obtain ⟨id, params, b, generator, async⟩ := f
  simp only [Function.mk.sizeOf_spec] at hn
  refine ⟨fun p hp => ?_, ?_⟩
  · have hlt := List.sizeOf_lt_of_mem (show p ∈ params from hp)
    exact h.admitsParameter (by omega) (ha.1 p hp)
  · cases b with
    | concise e =>
      simp only [Body.concise.sizeOf_spec] at hn
      exact h.expr (by omega) ha.2
    | block stmts =>
      simp only [Body.block.sizeOf_spec] at hn
      exact ⟨h.body (by omega) ha.2.1, h.lands ha.2.2⟩

/-! ### Statements -/

theorem admitsDeclarator {d : Declarator} (hn : sizeOf d ≤ n) (ha : D.AdmitsDeclarator d) :
    D'.AdmitsDeclarator d := by
  obtain ⟨target, init⟩ := d
  simp only [Declarator.mk.sizeOf_spec] at hn
  refine ⟨h.binds ha.1, fun name hname => h.names (ha.2.1 name hname), ?_⟩
  rintro e rfl
  simp only [Option.some.sizeOf_spec] at hn
  exact h.admitsOperand (by omega) (ha.2.2 e rfl)

theorem admitsDeclarators {ds : List Declarator} (hn : sizeOf ds ≤ n)
    (ha : ∀ d ∈ ds, D.AdmitsDeclarator d) : ∀ d ∈ ds, D'.AdmitsDeclarator d := by
  intro d hd
  have hlt := List.sizeOf_lt_of_mem hd
  exact h.admitsDeclarator (by omega) (ha d hd)

/-- A loop performs its body as a list if it is a block, and as a statement else. -/
theorem admitsLoop {labels : List String} {s b : Stmt} (hn : sizeOf b < n)
    (ha : D.AdmitsLoop labels (D.jumps s labels) b) :
    D'.AdmitsLoop labels (D'.jumps s labels) b := by
  have same : D'.loopJumps b = D.loopJumps b := by
    cases b <;> simp only [loopJumps, h.jumps, h.bodyJumps]
  unfold AdmitsLoop at ha ⊢
  rw [same, h.jumps]
  refine ⟨?_, ha.2⟩
  cases b with
  | block stmts =>
    simp only [Stmt.block.sizeOf_spec] at hn
    exact h.body (by omega) ha.1
  | _ => exact h.stmt hn ha.1

theorem admitsForInit {i : ForInit} (hn : sizeOf i ≤ n) (ha : D.AdmitsForInit i) :
    D'.AdmitsForInit i := by
  cases i with
  | «variables» kind ds =>
    simp only [ForInit.variables.sizeOf_spec] at hn
    exact h.admitsDeclarators (by omega) ha
  | expression e =>
    simp only [ForInit.expression.sizeOf_spec] at hn
    exact h.expr (by omega) ha

theorem admitsForTarget {target : ForTarget} (hn : sizeOf target ≤ n)
    (ha : D.AdmitsForTarget target) : D'.AdmitsForTarget target := by
  cases target with
  | «variables» kind ds =>
    unfold AdmitsForTarget AdmitsForName at ha ⊢
    dsimp only at ha ⊢
    split at ha
    · exact ⟨h.binds ha.1, fun name hname => h.names (ha.2 name hname)⟩
    · exact h.fails nofun ha
  | ident name => exact h.names ha
  | member object property computed =>
    simp only [ForTarget.member.sizeOf_spec] at hn
    exact h.admitsParts (by omega) ha
  | destructuring node => exact h.fails nofun ha

theorem admitsCase {labels : List String} {s : Stmt} {c : Case} (hn : sizeOf c ≤ n)
    (ha : D.AdmitsCase labels (D.jumps s labels) c) :
    D'.AdmitsCase labels (D'.jumps s labels) c := by
  obtain ⟨test, stmts⟩ := c
  simp only [Case.mk.sizeOf_spec] at hn
  unfold AdmitsCase at ha ⊢
  rw [h.jumps, h.bodyJumps]
  refine ⟨?_, h.body (by omega) ha.2.1, ha.2.2⟩
  rintro e rfl
  simp only [Option.some.sizeOf_spec] at hn
  exact h.expr (by omega) (ha.1 e rfl)

/-- Each of the three parts is a list of statements of its own. -/
theorem admitsTry {s : Stmt} {labels : List String} {block : List Stmt} {handler : Option Handler}
    {finalizer : Option (List Stmt)} (hp : D.parts → D'.parts)
    (hn : sizeOf block + sizeOf handler + sizeOf finalizer ≤ n)
    (ha : D.AdmitsTry (D.jumps s labels) block handler finalizer) :
    D'.AdmitsTry (D'.jumps s labels) block handler finalizer := by
  unfold AdmitsTry at ha ⊢
  rw [h.jumps, h.bodyJumps]
  obtain ⟨hparts, ⟨hb, hj⟩, hh, hf⟩ := ha
  refine ⟨hp hparts, ⟨h.body (by omega) hb, hj⟩, ?_, ?_⟩
  · rintro param stmts rfl
    simp only [Option.some.sizeOf_spec] at hn
    exact ⟨h.handles (by omega) (hh param stmts rfl).1, (hh param stmts rfl).2⟩
  · rintro stmts rfl
    simp only [Option.some.sizeOf_spec] at hn
    exact ⟨h.body (by omega) (hf stmts rfl).1, (hf stmts rfl).2⟩

/-- Constructor by constructor, as for expressions. -/
theorem admitsStmt {s : Stmt} {labels : List String} (hp : D.parts → D'.parts) (hn : sizeOf s ≤ n)
    (ha : D.AdmitsStmt s labels) : D'.AdmitsStmt s labels := by
  cases s with
  | empty => trivial
  | debugger => trivial
  | breaks label =>
    show D'.jumps _ _ _
    rw [h.jumps]
    exact ha
  | continues label =>
    show D'.jumps _ _ _
    rw [h.jumps]
    exact ha
  | inert node => exact h.fails nofun ha
  | expression e =>
    simp only [Stmt.expression.sizeOf_spec] at hn
    exact h.expr (by omega) ha
  | throws e =>
    simp only [Stmt.throws.sizeOf_spec] at hn
    exact h.expr (by omega) ha
  | block stmts =>
    simp only [Stmt.block.sizeOf_spec] at hn
    unfold AdmitsStmt at ha ⊢
    rw [h.jumps, h.bodyJumps]
    exact ⟨h.body (by omega) ha.1, ha.2⟩
  | «variables» kind ds =>
    simp only [Stmt.variables.sizeOf_spec] at hn
    exact h.admitsDeclarators (by omega) ha
  | function f =>
    simp only [Stmt.function.sizeOf_spec] at hn
    exact h.admitsDeclaration (by omega) ha
  | returns argument =>
    cases argument with
    | none => trivial
    | some e =>
      simp only [Stmt.returns.sizeOf_spec, Option.some.sizeOf_spec] at hn
      exact h.expr (by omega) ha
  -- both branches jump only where the statement may
  | branch test consequent alternate =>
    simp only [Stmt.branch.sizeOf_spec] at hn
    unfold AdmitsStmt at ha ⊢
    rw [h.jumps]
    obtain ⟨ht, hc, ha⟩ := ha
    refine ⟨h.expr (by omega) ht, ⟨h.stmt (by omega) hc.1, hc.2⟩, ?_⟩
    rintro other rfl
    simp only [Option.some.sizeOf_spec] at hn
    exact ⟨h.stmt (by omega) (ha other rfl).1, (ha other rfl).2⟩
  | switch discriminant cases =>
    simp only [Stmt.switch.sizeOf_spec] at hn
    refine ⟨h.expr (by omega) ha.1, fun c hc => ?_⟩
    have hlt := List.sizeOf_lt_of_mem hc
    exact h.admitsCase (by omega) (ha.2 c hc)
  | «while» test b =>
    simp only [Stmt.while.sizeOf_spec] at hn
    exact ⟨h.loops ha.1, h.expr (by omega) ha.2.1, h.admitsLoop (by omega) ha.2.2⟩
  | doWhile test b =>
    simp only [Stmt.doWhile.sizeOf_spec] at hn
    exact ⟨h.loops ha.1, h.expr (by omega) ha.2.1, h.admitsLoop (by omega) ha.2.2⟩
  -- the optional parts are bounded where they are present
  | «for» init test update b =>
    simp only [Stmt.for.sizeOf_spec] at hn
    obtain ⟨hl, hi, ht, hu, hb⟩ := ha
    refine ⟨h.loops hl, ?_, ?_, ?_, h.admitsLoop (by omega) hb⟩
    · rintro i rfl
      simp only [Option.some.sizeOf_spec] at hn
      exact h.admitsForInit (by omega) (hi i rfl)
    · rintro e rfl
      simp only [Option.some.sizeOf_spec] at hn
      exact h.expr (by omega) (ht e rfl)
    · rintro e rfl
      simp only [Option.some.sizeOf_spec] at hn
      exact h.expr (by omega) (hu e rfl)
  | forIn target object b =>
    simp only [Stmt.forIn.sizeOf_spec] at hn
    exact ⟨h.admitsForTarget (by omega) ha.1, h.expr (by omega) ha.2.1,
      h.admitsLoop (by omega) ha.2.2⟩
  | labeled label b =>
    simp only [Stmt.labeled.sizeOf_spec] at hn
    unfold AdmitsStmt at ha ⊢
    rw [h.jumps]
    exact ⟨h.stmt (by omega) ha.1, ha.2⟩
  | tries block handler finalizer =>
    simp only [Stmt.tries.sizeOf_spec] at hn
    exact h.admitsTry hp (by omega) ha

/-! ### Tasks -/

/-- What may be asked for within a size may be asked for under the other discipline. -/
theorem asks {t : Task} (hn : t.size < n) (ha : D.asks t) : D'.asks t := by
  cases t with
  | expr e scope => exact h.expr hn ha
  | stmt s scope labels => exact h.stmt hn ha
  | body stmts scope => exact h.body (Nat.le_of_lt hn) ha
  | handler hd e scope => exact h.handles (Nat.le_of_lt hn) ha
  | invoke c this args => exact h.function hn ha
  | program module p => exact ⟨h.body (Nat.le_of_lt hn) ha.1, h.lands ha.2⟩
  | spent => exact h.loops ha
  | _ => trivial

/-- What is admitted within a size is admitted under the other discipline, apart from calls. -/
theorem admits {t : Task} (hc : ∀ id this args, t ≠ .call id this args)
    (hp : t.cost = 1 → D.parts → D'.parts) (hn : t.size ≤ n) (ha : D.Admits t) : D'.Admits t := by
  cases t with
  | expr e scope => exact h.admitsExpr hn ha
  | stmt s scope labels => exact h.admitsStmt (hp rfl) hn ha
  | call id this args => exact absurd rfl (hc id this args)
  | body stmts scope => exact h.body hn ha
  | handler hd e scope => exact h.handles hn ha
  | invoke c this args => exact h.admitsCall hn ha
  | apply callee this args => trivial
  | construct callee args => trivial
  | program module p => exact ⟨h.body hn ha.1, h.lands ha.2⟩
  | spent => exact h.loops ha

end Below

/-- Without restrictions anything but a call can be done without entering a function. -/
theorem admits_unentered {t : Task} (hc : ∀ id this args, t ≠ .call id this args) :
    Discipline.Admits { enters := False } t := by
  have below : Discipline.Below t.size {} { enters := False } :=
    ⟨fun _ => id, fun _ => id, fun _ => id, rfl, rfl, fun _ => id, id, id, id⟩
  exact below.admits hc (fun _ => id) (Nat.le_refl _) (Discipline.admits_all t)

/-- The discipline that leaves it to the call stack to refuse a call. -/
def unrefused : Discipline where
  fails cause := ∀ depth, cause ≠ .tooDeep depth

/-- It admits every task. -/
theorem unrefused_admits (t : Task) : unrefused.Admits t := by
  by_cases hc : ∃ id this args, t = .call id this args
  · obtain ⟨id, this, args, rfl⟩ := hc
    trivial
  · have below : Discipline.Below t.size {} unrefused :=
      ⟨fun _ => id, fun _ => id, fun _ => id, rfl, rfl, fun h _ => h, id, id, id⟩
    have hc' : ∀ id this args, t ≠ .call id this args :=
      fun id this args ht => hc ⟨id, this, args, ht⟩
    exact below.admits hc' (fun _ => id) (Nat.le_refl _) (Discipline.admits_all t)

/-- It also lets every task be asked for. -/
theorem unrefused_asks (t : Task) : unrefused.asks t := by
  have below : Discipline.Below (t.size + 1) {} unrefused :=
    ⟨fun _ => id, fun _ => id, fun _ => id, rfl, rfl, fun h _ => h, id, id, id⟩
  exact below.asks (Nat.lt_succ_self _) (Discipline.asks_all t)

end Discipline

end Estree
