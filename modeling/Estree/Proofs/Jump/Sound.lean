/-
Estree/Proofs/Jump/Sound.lean

Jumps of correct programs never lead nowhere.

`Discipline.checked` lets only checked trees be evaluated, and of a statement only those jumps out
that every scope which it has been checked in takes up.  The rules of the evaluator are
composed in this way (`JumpCheck.admits`), and at the top and at the end of a function no jump is
left.  What remains is an invariant of states, `Law.admitted`: all functions that were ever made
have been checked.

The surroundings matter: the same statement may be correct inside of a loop and incorrect outside of
one.  So the jumps that a statement may leave with are those that all surroundings have in common in
which it was found correct, and a statement that was checked in one way may be executed whenever
that is so.
-/
import Estree.Proofs.Admitted
import Estree.Proofs.Jump.Correct

namespace Estree

/-- Failures for a jump that leads nowhere. -/
def Cause.IsStray : Cause → Prop
  | .strayBreak _ | .strayContinue _ => True
  | _ => False

/-- Checked trees, and jumps that are taken up around them. -/
def Discipline.checked : Discipline where
  expr e := JumpCheck.expr e = true
  stmt s front := ∃ c, JumpCheck.stmt c front s = true
  jumps s front j := ∀ c, JumpCheck.stmt c front s = true → c.allows j = true
  bodyJumps stmts j := ∀ c, JumpCheck.stmtList c stmts = true → c.allows j = true
  function f := JumpCheck.function f = true
  fails cause := ¬ cause.IsStray

namespace JumpCheck

open Discipline (checked)

variable {c : JumpScope} {front : List String}

/-! ### Expressions -/

theorem admitsFunction {f : Function} (h : function f = true) : checked.AdmitsFunction f :=
  ⟨h, fun _ _ => id⟩

/-- A function that is an operand is checked like any other. -/
theorem admitsOperand {e : Expr} (h : expr e = true) : checked.AdmitsOperand e := by
  refine ⟨h, ?_⟩
  rintro f (rfl | rfl)
  · exact admitsFunction h
  · exact admitsFunction h

/-- Causes that have nothing to do with jumps are allowed. -/
theorem admitsLiteral (l : Literal) : checked.AdmitsLiteral l := fun _ _ => id

theorem admitsKey {property : Expr} (h : expr property = true) (computed : Bool) :
    checked.AdmitsKey property computed := by
  cases computed with
  | true => exact h
  | false => exact .inr id

theorem admitsPropertyKey {key : Expr} (h : expr key = true) (computed : Bool) :
    checked.AdmitsPropertyKey key computed := by
  unfold Discipline.AdmitsPropertyKey
  split
  · trivial
  · exact admitsLiteral _
  · exact h

/-- Key and value of each entry are checked. -/
theorem admitsMember {members : List Member} (h : memberList members = true) :
    ∀ m ∈ members, checked.AdmitsMember m := by
  intro m hm
  cases m with
  | spread => exact id
  | property key value kind computed method shorthand =>
    obtain ⟨hk, hv⟩ := of_memberList h hm
    exact ⟨fun _ => ⟨admitsPropertyKey hk computed, admitsOperand hv⟩, fun _ => id⟩

/-- The two sides of a member expression. -/
theorem admitsParts {object property : Expr} {computed : Bool}
    (h : expr (.member object property computed) = true) :
    checked.expr object ∧ checked.AdmitsKey property computed := by
  rw [expr, Bool.and_eq_true] at h
  exact ⟨h.1, admitsKey h.2 computed⟩

theorem admitsUnary {op : UnaryOp} {e : Expr} (h : expr e = true) : checked.AdmitsUnary op e := by
  unfold Discipline.AdmitsUnary
  split
  · trivial
  · exact ⟨trivial, trivial⟩
  · exact admitsParts h
  · exact h

theorem admitsUpdate {e : Expr} (h : expr e = true) : checked.AdmitsUpdate e := by
  unfold Discipline.AdmitsUpdate
  split
  · trivial
  · exact admitsParts h
  · exact id

/-- A pattern that is no reference fails, for a reason that has nothing to do with jumps. -/
theorem admitsTarget {p : Pattern} (h : pattern p = true) : checked.AdmitsTarget p := by
  unfold Discipline.AdmitsTarget
  split
  · trivial
  · rw [pattern, Bool.and_eq_true] at h
    exact ⟨h.1, admitsKey h.2 _⟩
  · exact id

theorem admitsCallee {e : Expr} (h : expr e = true) : checked.AdmitsCallee e := by
  unfold Discipline.AdmitsCallee
  split
  · exact admitsParts h
  · exact ⟨h, trivial⟩

/-- Constructor by constructor: no jump stands in an expression outside of its functions. -/
theorem admitsExpr {e : Expr} (h : expr e = true) : checked.AdmitsExpr e := by
  cases e with
  | ident name => trivial
  | literal l => exact admitsLiteral l
  | this => trivial
  | array elements => exact of_elementList h
  | object members => exact admitsMember h
  | function f => exact admitsFunction h
  | arrow f => exact admitsFunction h
  | template quasis expressions => exact of_exprList h
  | unary op argument => exact admitsUnary h
  | update op argument leading => exact admitsUpdate h
  -- operands are checked one by one
  | binary op left right =>
    rw [expr, Bool.and_eq_true] at h
    exact h
  | logical op left right =>
    rw [expr, Bool.and_eq_true] at h
    exact h
  | assign op target right =>
    rw [expr, Bool.and_eq_true] at h
    exact ⟨admitsTarget h.1, admitsOperand h.2⟩
  | conditional test consequent alternate =>
    rw [expr, Bool.and_eq_true, Bool.and_eq_true] at h
    exact ⟨h.1.1, h.1.2, h.2⟩
  | call callee arguments =>
    rw [expr, Bool.and_eq_true] at h
    exact ⟨admitsCallee h.1, of_exprList h.2⟩
  | new callee arguments =>
    rw [expr, Bool.and_eq_true] at h
    exact ⟨h.1, of_exprList h.2⟩
  | member object property computed => exact admitsParts h
  | sequence expressions => exact of_exprList h
  | inert node => exact id

/-! ### Bodies and functions -/

theorem admitsDeclaration {f : Function} (h : function f = true) :
    checked.AdmitsDeclaration f := by
  unfold Discipline.AdmitsDeclaration
  split
  · exact id
  · exact ⟨trivial, admitsFunction h⟩

/-- The jumps that a list may be left by are allowed around it, if those of its statements are. -/
theorem body {stmts : List Stmt} (h : stmtList c stmts = true) : checked.Body stmts := by
  intro s hs
  have hst := stmtList_iff.1 h s hs
  refine ⟨⟨c, hst⟩, fun j hj c' hc => hj c' (stmtList_iff.1 hc s hs), ?_⟩
  rintro f rfl
  exact admitsDeclaration hst

/-- Nothing leaves a list of statements that has been checked with nothing around it. -/
theorem lands {stmts : List Stmt} (h : stmtList {} stmts = true) :
    checked.Lands (checked.bodyJumps stmts) := by
  intro j hj
  -- nothing is taken up in the empty scope
  have ha := hj {} h
  rcases j with (_ | label) | (_ | label) <;> cases ha

theorem admitsParam {p : Pattern} (h : pattern p = true) : checked.AdmitsParam p := by
  match p with
  | .ident name => trivial
  | .default target init =>
    rw [pattern, Bool.and_eq_true] at h
    exact ⟨admitsOperand h.2, admitsParam h.1⟩
  | .member _ _ _ | .rest _ | .destructuring _ => exact id

theorem admitsParameter {p : Pattern} (h : pattern p = true) : checked.AdmitsParameter p := by
  unfold Discipline.AdmitsParameter
  split
  · exact admitsParam h
  · exact admitsParam h

/-- In the body of a function nothing around it takes up a jump, so none leads out of it. -/
theorem admitsCall {f : Function} (h : function f = true) : checked.AdmitsCall f := by
  obtain ⟨id, params, b, generator, async⟩ := f
  cases b with
  | concise value =>
    rw [function, Bool.and_eq_true] at h
    exact ⟨fun p hp => admitsParameter (of_patternList h.1 p hp), h.2⟩
  | block stmts =>
    rw [function, Bool.and_eq_true] at h
    exact ⟨fun p hp => admitsParameter (of_patternList h.1 p hp), body h.2, lands h.2⟩

/-! ### Statements -/

theorem admitsDeclarators {declarators : List Declarator} (h : declaratorList declarators = true) :
    ∀ d ∈ declarators, checked.AdmitsDeclarator d := by
  intro d hd
  obtain ⟨target, init⟩ := d
  obtain ⟨-, hi⟩ := of_declaratorList h hd
  refine ⟨.inr id, fun _ _ => trivial, fun e he => ?_⟩
  exact admitsOperand (of_exprOption hi he)

/-- What a loop does not take up is taken up around it, or nowhere. -/
theorem allows_of_inLoop {j : Jump} (h : (c.inLoop front).allows j = true)
    (hj : addressed front j.label = false) : c.allows j = true := by
  match j with
  | .breaks none => cases hj
  | .breaks (some label) => exact h
  | .continues none => cases hj
  | .continues (some label) =>
    simp only [JumpScope.allows, JumpScope.inLoop, List.contains_eq_mem, List.mem_append,
      decide_eq_true_eq] at h
    simp only [addressed, Jump.label, List.contains_eq_mem, decide_eq_false_iff_not] at hj
    simp only [JumpScope.allows, List.contains_eq_mem, decide_eq_true_eq]
    exact h.resolve_left hj

/-- A loop takes up what its body may be left by, apart from jumps to labels further out. -/
theorem loop {s b : Stmt} (hs : ∀ c, stmt c front s = true → stmt (c.inLoop front) [] b = true)
    (h : stmt c front s = true) : checked.AdmitsLoop front (checked.jumps s front) b := by
  have hb := hs c h
  cases b with
  | block stmts =>
    -- the statements of a block are run in the scope of the round
    exact ⟨body hb, fun j hj hne c h => allows_of_inLoop (hj _ (hs c h)) hne⟩
  | _ => exact ⟨⟨_, hb⟩, fun j hj hne c h => allows_of_inLoop (hj _ (hs c h)) hne⟩

theorem admitsForInit {init : Option ForInit} (h : forInit init = true) {i : ForInit}
    (hi : init = some i) : checked.AdmitsForInit i := by
  subst hi
  cases i with
  | «variables» kind declarators => exact admitsDeclarators h
  | expression e => exact h

theorem admitsForTarget {target : ForTarget} (h : forTarget target = true) :
    checked.AdmitsForTarget target := by
  cases target with
  | «variables» kind declarators =>
    unfold Discipline.AdmitsForTarget Discipline.AdmitsForName
    dsimp only
    split
    · exact ⟨.inr id, fun _ _ => trivial⟩
    · exact id
  | ident name => trivial
  | member object property computed =>
    rw [forTarget, Bool.and_eq_true] at h
    exact ⟨h.1, admitsKey h.2 computed⟩
  | destructuring node => exact id

/-- What a `switch` does not take up is taken up around it, or nowhere. -/
theorem allows_of_inSwitch {j : Jump} (h : c.inSwitch.allows j = true)
    (hj : j.LeavesSwitch front) : c.allows j = true := by
  match j with
  | .breaks none => cases hj
  | .breaks (some _) | .continues none | .continues (some _) => exact h

/-- A `switch` takes up `break`, and lets all other jumps of its cases through. -/
theorem switch {discriminant : Expr} {cs : List Case}
    (h : stmt c front (.switch discriminant cs) = true) :
    ∀ x ∈ cs, checked.AdmitsCase front (checked.jumps (.switch discriminant cs) front) x := by
  rintro ⟨test, stmts⟩ hx
  obtain ⟨ht, hb⟩ := of_caseList (stmt_switch.1 h).2 hx
  refine ⟨fun e he => of_exprOption ht he, body hb, fun j hj hl c h => ?_⟩
  exact allows_of_inSwitch (hj _ (of_caseList (stmt_switch.1 h).2 hx).2) hl

theorem handles {param : Option Pattern} {stmts : List Stmt}
    (h : handlerOption c (some (.mk param stmts)) = true) : checked.Handles (.mk param stmts) := by
  exact ⟨fun _ _ => .inr id, body (handlerOption_some.1 h).2⟩

/-- The three parts are left by the jumps that are allowed around the statement. -/
theorem tries {block : List Stmt} {handler : Option Handler} {finalizer : Option (List Stmt)}
    (h : stmt c front (.tries block handler finalizer) = true) :
    checked.AdmitsTry (checked.jumps (.tries block handler finalizer) front) block handler
      finalizer := by
  obtain ⟨hb, hh, hf⟩ := stmt_tries.1 h
  refine ⟨trivial, ⟨body hb, fun j hj c h => hj c (stmt_tries.1 h).1⟩, ?_, ?_⟩
  · rintro param stmts rfl
    exact ⟨handles hh, fun j hj c h => hj c (handlerOption_some.1 (stmt_tries.1 h).2.1).2⟩
  · rintro stmts rfl
    exact ⟨body hf, fun j hj c h => hj c (stmt_tries.1 h).2.2⟩

/-- The label takes up the one jump to it, and is one more label in front of the statement below. -/
theorem labeled {label : String} {b : Stmt} {j : Jump}
    (hj : checked.jumps b (front ++ [label]) j) (hne : j ≠ .breaks (some label)) :
    checked.jumps (.labeled label b) front j := by
  intro c h
  have ha := hj (c.labeled label) h
  match j with
  | .breaks none => exact ha
  | .breaks (some l) =>
    simp only [JumpScope.allows, JumpScope.labeled, List.contains_cons, Bool.or_eq_true,
      beq_iff_eq] at ha
    refine ha.resolve_left fun hl => hne ?_
    rw [hl]
  | .continues none => exact ha
  | .continues (some l) => exact ha

/-- Constructor by constructor, each with the jumps that it takes up. -/
theorem admitsStmt {s : Stmt} (h : stmt c front s = true) : checked.AdmitsStmt s front := by
  cases s with
  | expression e => exact h
  | block stmts => exact ⟨body h, fun j hj => hj⟩
  | empty => trivial
  | debugger => trivial
  | «variables» kind declarators => exact admitsDeclarators h
  | function f => exact admitsDeclaration h
  | returns argument =>
    cases argument with
    | none => trivial
    | some e => exact h
  | breaks label => exact fun c hc => hc
  | continues label => exact fun c hc => hc
  -- a jump that leaves a branch leaves the statement, in the same surroundings
  | branch test consequent alternate =>
    obtain ⟨ht, hc, ha⟩ := stmt_branch.1 h
    refine ⟨ht, ⟨⟨c, hc⟩, fun j hj c h => hj c (stmt_branch.1 h).2.1⟩, ?_⟩
    rintro other rfl
    exact ⟨⟨c, ha⟩, fun j hj c h => hj c (stmt_branch.1 h).2.2⟩
  | switch discriminant cases => exact ⟨(stmt_switch.1 h).1, switch h⟩
  | «while» test b =>
    exact ⟨trivial, (stmt_while.1 h).1, loop (fun c h => (stmt_while.1 h).2) h⟩
  | doWhile test b =>
    exact ⟨trivial, (stmt_doWhile.1 h).1, loop (fun c h => (stmt_doWhile.1 h).2) h⟩
  | «for» init test update b =>
    obtain ⟨hi, ht, hu, -⟩ := stmt_for.1 h
    exact ⟨trivial, fun i => admitsForInit hi, fun e => of_exprOption ht, fun e => of_exprOption hu,
      loop (fun c h => (stmt_for.1 h).2.2.2) h⟩
  | forIn target object b =>
    obtain ⟨ht, ho, -⟩ := stmt_forIn.1 h
    exact ⟨admitsForTarget ht, ho, loop (fun c h => (stmt_forIn.1 h).2.2) h⟩
  | labeled label b => exact ⟨⟨_, h⟩, fun j => labeled⟩
  | tries block handler finalizer => exact tries h
  | throws e => exact h
  | inert node => exact id

/-- Every task that may be asked for is admitted. -/
theorem admits {t : Task} (h : checked.asks t) : checked.Admits t := by
  cases t with
  | expr e scope => exact admitsExpr h
  | stmt s scope labels => exact admitsStmt h.choose_spec
  | invoke f this args => exact admitsCall h
  | _ => exact h

end JumpCheck

/-! ### The law -/

/-- The embedder's functions do not fail for a jump that leads nowhere. -/
def Host.NeverStray (host : Host) : Prop :=
  ∀ id this args s e s', host.call id this args s = .failed e s' → ¬ e.cause.IsStray

/-- What fails in a routine has nothing to do with jumps. -/
theorem Cause.not_isStray_of_isOrdinary {cause : Cause} (h : cause.isOrdinary = true) :
    ¬ cause.IsStray := by
  cases cause <;> first | exact id | cases h

theorem ScopeError.not_isStray (e : ScopeError) : ¬ e.cause.IsStray := by
  cases e <;> exact id

/-- All functions of the program have been checked. -/
def AllChecked (s : State) : Prop := s.FunctionsIn (JumpCheck.function · = true)

variable {host : Host}

/-- Everything but a jump that leads nowhere is allowed for. -/
theorem JumpCheck.covers (hf : host.NeverStray) : Discipline.checked.Covers host where
  ordinary _ := Cause.not_isStray_of_isOrdinary
  scope := ScopeError.not_isStray
  depth _ := id
  host := hf

/-- The law that all functions of the program have been checked and no jump is lost. -/
def Law.checked (hk : host.KeepsFunctions) (hf : host.NeverStray) : Law host .checked :=
  .admitted hk (JumpCheck.covers hf)

/-! ### Sessions -/

/-- What an embedder may ask for: programs whose jumps are correct, and calls of any value. -/
def JumpCorrect : Task → Prop
  | .program _ p => p.JumpCorrect
  | .apply _ _ _ | .construct _ _ => True
  | _ => False

/-- A task whose tree has been checked may be asked for. -/
theorem JumpCorrect.asks {t : Task} (h : JumpCorrect t) : Discipline.checked.asks t := by
  cases t with
  | program module p => exact ⟨JumpCheck.body h, JumpCheck.lands h⟩
  | apply callee this args => trivial
  | construct callee args => trivial
  | _ => cases h

/-- **Jumps of correct programs never lead nowhere.**  On an interpreter that was built over a
store without functions of the program, and on which only jump-correct programs have been run and
values have been called, nothing fails for a `break` or `continue` that leads nowhere: neither
another such program or call nor any evaluation within it. -/
theorem correct_jumps_never_stray (hk : host.KeepsFunctions) (hf : host.NeverStray)
    {config : Config} {store : Store} (hc : store.closures = #[]) {i : Interpreter} {s₀ s : State}
    (hb : Interpreter.build config store = .done i s₀)
    (hs : Session host (fun _ t _ => JumpCorrect t) s₀ s) {n : Nat} {t : Task}
    (ht : JumpCorrect t) {m : Nat} {t' : Task} {s' : State} (he : Encloses host n t s m t' s') :
    ∀ e σ, Machine.perform host m t' s' = .failed e σ →
      (∀ label, e.cause ≠ .strayBreak label) ∧ ∀ label, e.cause ≠ .strayContinue label := by
  let L := Law.checked hk hf
  -- there are no closures yet; the place holder read for a missing one is correct
  have initial : AllChecked
      { store, scopes := #[{}], calls := { limit := config.maxCallDepth } } := by
    intro id
    unfold Store.closure
    rw [hc]
    rfl
  have h₀ : AllChecked s₀ := L.build (fun _ => trivial) hb initial
  have h : AllChecked s :=
    L.session (fun ht h => ⟨ht.asks, h, fun _ => JumpCheck.admits⟩) hs h₀
  obtain ⟨ht', hi⟩ := L.enclosed he (fun _ => JumpCheck.admits) ht.asks h
  intro e σ hfail
  have hp := L.perform m t' s' (fun _ => JumpCheck.admits) ht' hi
  rw [hfail] at hp
  refine ⟨fun label hl => hp.2.2 ?_, fun label hl => hp.2.2 ?_⟩
  · rw [hl]
    trivial
  · rw [hl]
    trivial

/-- A loop that is left by its label, and then a value that is thrown. -/
theorem labelled_break_is_taken_up :
    let loop : Stmt := .labeled "outer" (.while (.array []) (.block [.breaks (some "outer")]))
    let p : Program := ⟨[loop, .throws .this], .script⟩
    ∃ i s₀ e σ, Interpreter.build {} {} = .done i s₀ ∧
      Machine.perform Host.none 9 (.program none p) s₀ = .failed e σ ∧
      (∀ label, e.cause ≠ .strayBreak label) ∧ ∀ label, e.cause ≠ .strayContinue label := by
  intro loop p
  obtain ⟨i, s₀, e, σ, hbuild, hfail⟩ : ∃ i s₀ e σ, Interpreter.build {} {} = .done i s₀ ∧
      Machine.perform Host.none 9 (.program none p) s₀ = .failed e σ :=
    ⟨_, _, _, _, rfl, rfl⟩
  have hk : Host.none.KeepsFunctions := by
    rintro id this args s s' (⟨v, h⟩ | ⟨e, h⟩) <;> cases h
    rfl
  have hf : Host.none.NeverStray := by
    intro id this args s e s' h
    cases h
  have hp : JumpCorrect (.program none p) := by
    show p.JumpCorrect
    decide
  exact ⟨i, s₀, e, σ, hbuild, hfail,
    correct_jumps_never_stray hk hf rfl hbuild .start hp .self e σ hfail⟩

end Estree
