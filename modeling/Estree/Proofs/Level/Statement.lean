/-
Estree/Proofs/Level/Statement.lean

The rules for bodies, calls, loops and statements are composed as a discipline demands.

`Discipline.AdmitsStmt` is for statements what `Discipline.AdmitsExpr` is for expressions.  Here
it also speaks about jumps: those of the parts that are not taken up must be among the jumps of
the whole.  The main result is `Abides.rule`: one level of evaluation abides by every discipline
that admits the task.

Loops are handled by induction on the rounds that are left, and lists by induction on the list.  The
jumps are the only information that travels from a part to the whole: a completion is within the
jumps of its statement (`Completion.Within`), and each construct says which of them it takes up.
-/
import Estree.Proofs.Level.Expression

namespace Estree

/-- Jumps that a `switch` with these labels does not take up. -/
def Jump.LeavesSwitch (labels : List String) : Jump → Prop
  | .breaks label => addressed labels label = false
  | .continues _ => True

/-- Statements that keep their declarations to themselves: blocks, `switch`, `try`, and loops whose
header does not declare a `var`. -/
def Stmt.Confined : Stmt → Prop
  | .block _ | .switch _ _ | .while _ _ | .doWhile _ _ | .tries _ _ _ => True
  | .for init _ _ _ => ∀ declarators, init ≠ some (.variables .var declarators)
  | .forIn target _ _ => ∀ declarators, target ≠ .variables .var declarators
  | _ => False

namespace Discipline

variable (D : Discipline)

/-! ### What a discipline must admit -/

/-- A parameter, apart from a rest. -/
def AdmitsParam : Pattern → Prop
  | .ident _ => True
  | .default target init => D.AdmitsOperand init ∧ AdmitsParam target
  | p => D.fails (.unsupported p.kind)

/-- A parameter. -/
def AdmitsParameter : Pattern → Prop
  | .rest target => D.AdmitsParam target
  | p => D.AdmitsParam p

/-- A function that is called. -/
def AdmitsCall (f : Function) : Prop :=
  (∀ p ∈ f.params, D.AdmitsParameter p) ∧
    match f.body with
    | .concise e => D.expr e
    | .block stmts => D.Body stmts ∧ D.Lands (D.bodyJumps stmts)

/-- A declared variable. -/
def AdmitsDeclarator : Declarator → Prop
  | .mk target init =>
    D.Binds target ∧ (∀ name, target = .ident name → D.names name) ∧
      ∀ e, init = some e → D.AdmitsOperand e

/-- The body of a loop: a block is run as a list. -/
def LoopBody : Stmt → Prop
  | .block stmts => D.Body stmts
  | s => D.stmt s []

/-- The jumps that may leave the body of a loop. -/
def loopJumps : Stmt → Jump → Prop
  | .block stmts => D.bodyJumps stmts
  | s => D.jumps s []

/-- A body in a loop with these labels, of whose jumps those in `J` leave the loop. -/
def AdmitsLoop (labels : List String) (J : Jump → Prop) (body : Stmt) : Prop :=
  D.LoopBody body ∧ ∀ j, D.loopJumps body j → addressed labels j.label = false → J j

/-- The first part of a `for` header. -/
def AdmitsForInit : ForInit → Prop
  | .variables _ declarators => ∀ d ∈ declarators, D.AdmitsDeclarator d
  | .expression e => D.expr e

/-- The only variable of a `for … in`. -/
def AdmitsForName : List Declarator → Prop
  | [.mk target _] => D.Binds target ∧ ∀ name, target = .ident name → D.names name
  | _ => D.fails (.unsupported "VariableDeclaration")

/-- The target of a `for … in`. -/
def AdmitsForTarget : ForTarget → Prop
  | .variables _ declarators => D.AdmitsForName declarators
  | .ident name => D.names name
  | .member object property computed => D.expr object ∧ D.AdmitsKey property computed
  | .destructuring node => D.fails (.unsupported node.kind)

/-- A case in a `switch` with these labels, of whose jumps those in `J` leave the `switch`. -/
def AdmitsCase (labels : List String) (J : Jump → Prop) : Case → Prop
  | .mk test body =>
    (∀ e, test = some e → D.expr e) ∧ D.Body body ∧
      ∀ j, D.bodyJumps body j → j.LeavesSwitch labels → J j

/-- The parts of a `try`, of whose jumps all may leave it. -/
def AdmitsTry (J : Jump → Prop) (block : List Stmt) (handler : Option Handler)
    (finalizer : Option (List Stmt)) : Prop :=
  D.parts ∧ (D.Body block ∧ ∀ j, D.bodyJumps block j → J j) ∧
    (∀ param body, handler = some (.mk param body) →
      D.Handles (.mk param body) ∧ ∀ j, D.bodyJumps body j → J j) ∧
    ∀ body, finalizer = some body → D.Body body ∧ ∀ j, D.bodyJumps body j → J j

/-- A statement with the labels in front of it. -/
def AdmitsStmt (s : Stmt) (labels : List String) : Prop :=
  match s with
  | .expression e | .throws e => D.expr e
  | .block body => D.Body body ∧ ∀ j, D.bodyJumps body j → D.jumps s labels j
  | .empty | .debugger | .returns none => True
  | .variables _ declarators => ∀ d ∈ declarators, D.AdmitsDeclarator d
  | .function f => D.AdmitsDeclaration f
  | .returns (some e) => D.expr e
  | .breaks label => D.jumps s labels (.breaks label)
  | .continues label => D.jumps s labels (.continues label)
  | .branch test consequent alternate =>
    D.expr test ∧ (D.stmt consequent [] ∧ ∀ j, D.jumps consequent [] j → D.jumps s labels j) ∧
      ∀ other, alternate = some other →
        D.stmt other [] ∧ ∀ j, D.jumps other [] j → D.jumps s labels j
  | .switch discriminant cases =>
    D.expr discriminant ∧ ∀ c ∈ cases, D.AdmitsCase labels (D.jumps s labels) c
  | .while test body | .doWhile test body =>
    D.loops ∧ D.expr test ∧ D.AdmitsLoop labels (D.jumps s labels) body
  | .for init test update body =>
    D.loops ∧ (∀ i, init = some i → D.AdmitsForInit i) ∧ (∀ e, test = some e → D.expr e) ∧
      (∀ e, update = some e → D.expr e) ∧ D.AdmitsLoop labels (D.jumps s labels) body
  | .forIn target object body =>
    D.AdmitsForTarget target ∧ D.expr object ∧ D.AdmitsLoop labels (D.jumps s labels) body
  | .labeled label body =>
    D.stmt body (labels ++ [label]) ∧ ∀ j, D.jumps body (labels ++ [label]) j →
      j ≠ .breaks (some label) → D.jumps s labels j
  | .tries block handler finalizer => D.AdmitsTry (D.jumps s labels) block handler finalizer
  | .inert node => D.fails (.unsupported node.kind)

/-- A task. -/
def Admits : Task → Prop
  | .expr e _ => D.AdmitsExpr e
  | .stmt s _ labels => D.AdmitsStmt s labels
  | .body stmts _ => D.Body stmts
  | .handler h _ _ => D.Handles h
  | .invoke c _ _ => D.AdmitsCall c.node
  | .program _ p => D.Body p.body ∧ D.Lands (D.bodyJumps p.body)
  | .spent => D.loops
  | .call _ _ _ => D.enters
  | .apply _ _ _ | .construct _ _ => True

end Discipline

namespace Abides

variable {host : Host} {D : Discipline} {Γ : Reach} {rounds : Nat} {scope : ScopeId}
variable {J : Jump → Prop} {labels : List String}

/-! ### Bodies -/

/-- What is bound is a name, or the discipline lets it fail. -/
theorem bindingName {p : Pattern} (hp : D.Binds p) :
    Abides host D Γ (fun name => p = .ident name) fun _ => Eval.bindingName p := by
  obtain ⟨name, rfl⟩ | hf := hp
  · exact .pure rfl
  · cases p with
    | ident name => exact .pure rfl
    | _ => exact .fail (.inr hf)

/-- A function without a name fails, any other is made and declared in the scope's own right. -/
theorem declareFunction {f : Function} (hf : D.AdmitsDeclaration f) (hs : Γ.own scope) :
    Abides host D Γ (fun _ => True) fun _ => Eval.declareFunction f scope := by
  unfold Discipline.AdmitsDeclaration at hf
  unfold Eval.declareFunction
  split
  · simp only [*] at hf
    exact .fail (.inr hf)
  · simp only [*] at hf
    exact .bind (makeClosure hf.2 (Γ.own_known hs)) fun _ _ => declare hs (.inr hf.1)

/-- The functions of a list are declared in order, everything else is passed over. -/
theorem hoist {stmts : List Stmt}
    (hf : ∀ s ∈ stmts, ∀ f, s = .function f → D.AdmitsDeclaration f) (hs : Γ.own scope) :
    Abides host D Γ (fun _ => True) fun _ => Eval.hoist scope stmts := by
  induction stmts with
  | nil => exact .pure trivial
  | cons s stmts ih =>
    obtain ⟨hf, rest⟩ := List.forall_mem_cons.1 hf
    cases s with
    | function f => exact .bind (declareFunction (hf f rfl) hs) fun _ _ => ih rest
    | _ => exact ih rest

/-- A list is left by the jumps of its statements only. -/
theorem runHoisted {stmts : List Stmt}
    (hb : ∀ s ∈ stmts, D.stmt s [] ∧ ∀ j, D.jumps s [] j → J j) (hs : Γ.own scope)
    (last : Value) :
    Abides host D Γ (Completion.Within J)
      fun p => Eval.runHoisted (p.evaluator rounds) scope stmts last := by
  induction stmts generalizing last with
  | nil => exact .pure trivial
  | cons s stmts ih =>
    obtain ⟨⟨hst, hj⟩, rest⟩ := List.forall_mem_cons.1 hb
    cases s with
    | function f => exact ih rest last
    | _ =>
      -- a jump ends the list, and leaves it as it has left the statement
      refine .bind (stmt hst hs) fun c hc => ?_
      cases c with
      | normal v => exact ih rest v
      | _ => exact .pure (hc.mono hj)

/-- The statements of a list after its functions have been declared. -/
theorem runRest {stmts : List Stmt} (hb : D.Body stmts) (hs : Γ.own scope) (last : Value) :
    Abides host D Γ (Completion.Within (D.bodyJumps stmts))
      fun p => Eval.runHoisted (p.evaluator rounds) scope stmts last :=
  runHoisted (fun s h => ⟨(hb s h).1, (hb s h).2.1⟩) hs last

theorem runBody {stmts : List Stmt} (hb : D.Body stmts) (hs : Γ.own scope) :
    Abides host D Γ (Completion.Within (D.bodyJumps stmts))
      fun p => Eval.runBody (p.evaluator rounds) stmts scope :=
  .bind (hoist (fun s h => (hb s h).2.2) hs) fun _ _ => runRest hb hs _

/-! ### Calls -/

/-- A default is evaluated in the scope of the call, in which all earlier parameters stand. -/
theorem bindParameter {p : Pattern} (hp : D.AdmitsParam p) (hs : Γ.fresh scope) (value : Value) :
    Abides host D Γ (fun _ => True)
      fun q => Eval.bindParameter (q.evaluator rounds) scope p value := by
  have known := Γ.own_known (Γ.fresh_own hs)
  match p with
  | .ident name => exact declare (Γ.fresh_own hs) (.inl hs)
  | .default target init =>
    have rest (v : Value) := bindParameter hp.2 hs v
    unfold Eval.bindParameter
    dsimp only
    split
    · split
      · exact .bind (named hp.1 known) fun v _ => rest v
      · exact .bind (expr hp.1.1 known) fun v _ => rest v
    · exact rest value
  | .member _ _ _ | .rest _ | .destructuring _ => exact .fail (.inr hp)

/-- A rest parameter takes what is left in a new array, and the parameters after it get nothing. -/
theorem bindParameters {params : List Pattern} (hp : ∀ p ∈ params, D.AdmitsParameter p)
    (hs : Γ.fresh scope) (args : List Value) :
    Abides host D Γ (fun _ => True)
      fun q => Eval.bindParameters (q.evaluator rounds) scope params args := by
  induction params generalizing args with
  | nil => exact .pure trivial
  | cons p params ih =>
    obtain ⟨hp, rest⟩ := List.forall_mem_cons.1 hp
    cases p with
    | rest target =>
      refine .bind (store (.newArray _)) fun v _ => ?_
      exact .bind (bindParameter hp hs v) fun _ _ => ih rest []
    | _ => exact .bind (bindParameter hp hs _) fun _ _ => ih rest _

/-- A jump that arrives at the end of a body leads nowhere. -/
theorem resultOf {c : Completion} (hJ : D.Lands J) (hc : c.Within J) :
    Abides host D Γ (fun _ => True) fun _ => Eval.resultOf c := by
  cases c with
  | normal v => exact .pure trivial
  | returns v => exact .pure trivial
  | breaks label => exact .fail (.inr (hJ _ hc))
  | continues label => exact .fail (.inr (hJ _ hc))

theorem invoke {c : Closure} {this : Value} {args : List Value} (hc : D.AdmitsCall c.node)
    (hs : Γ.known c.scope) :
    Abides host D Γ (fun _ => True)
      fun p => Eval.invoke (p.evaluator rounds) c this args := by
  refine .child hs fun scope => ?_
  have fresh : (Γ.add scope).fresh scope := Reach.fresh_add
  -- parameters and body share the scope that was just made
  have inside : Abides host D (Γ.add scope) (fun _ => True) (fun p => do
      Eval.bindParameters (p.evaluator rounds) scope c.node.params args
      match c.node.body with
      | .concise value => (p.evaluator rounds).expr value scope
      | .block body =>
        let completion ← Eval.runBody (p.evaluator rounds) body scope
        Eval.resultOf completion) := by
    refine .bind (bindParameters hc.1 fresh args) fun _ _ => ?_
    have hb := hc.2
    split at hb
    · exact expr hb Reach.known_add
    · exact .bind (runBody hb.1 Reach.own_add) fun _ => resultOf hb.2
  dsimp only
  split
  · -- a function that is not an arrow has a receiver and arguments of its own
    refine .bind (declare Reach.own_add (.inl fresh)) fun _ _ => ?_
    refine .bind (store (.newArray _)) fun all _ => ?_
    exact .bind (declare Reach.own_add (.inl fresh)) fun _ _ => inside
  · exact inside

/-! ### Loops -/

/-- Each target is a name, and its first value is evaluated in front of the declaration. -/
theorem declareVariables {kind : VarKind} {declarators : List Declarator}
    (hd : ∀ d ∈ declarators, D.AdmitsDeclarator d) (hs : Γ.own scope) :
    Abides host D Γ (fun _ => True)
      fun p => Eval.declareVariables (p.evaluator rounds) scope kind declarators := by
  induction declarators with
  | nil => exact .pure trivial
  | cons d declarators ih =>
    obtain ⟨target, init⟩ := d
    obtain ⟨⟨hb, hn, hi⟩, rest⟩ := List.forall_mem_cons.1 hd
    refine .bind (bindingName hb) fun name hname => ?_
    have declared (v : Option Value) : Abides host D Γ (fun _ => True) (fun p => do
        Eval.declare scope kind name v
        Eval.declareVariables (p.evaluator rounds) scope kind declarators) :=
      .bind (declare hs (.inr (hn name hname))) fun _ _ => ih rest
    cases init with
    | none => exact declared none
    | some e =>
      exact .bind (named (hi e rfl) (Γ.own_known hs)) fun v _ => declared (some v)

theorem loopBody {body : Stmt} (hb : D.LoopBody body) (hs : Γ.own scope) :
    Abides host D Γ (Completion.Within (D.loopJumps body))
      fun p => Eval.loopBody (p.evaluator rounds) body scope := by
  cases body with
  | block stmts => exact runBody hb hs
  | _ => exact stmt hb hs

/-- What a loop does after a round, once it is settled how it goes on. -/
theorem afterRound {body : Stmt} {completion : Completion} {last : Value}
    {K : Value → Performer → Eval Completion} (hb : D.AdmitsLoop labels J body)
    (hc : completion.Within (D.loopJumps body))
    (hK : ∀ v, Abides host D Γ (Completion.Within J) (K v)) :
    Abides host D Γ (Completion.Within J) fun p =>
      match LoopStep.of labels last completion with
      | .next last => K last p
      | .stop => Pure.pure (.normal last)
      | .pass signal => Pure.pure signal := by
  cases completion with
  | normal v => exact hK v
  | returns v => exact .pure trivial
  | breaks label =>
    -- a jump with a label of the loop is its own; any other one is passed on
    rcases ha : addressed labels label
    · simp only [LoopStep.of, ha, Bool.false_eq_true, if_false]
      exact .pure (hb.2 _ hc ha)
    · simp only [LoopStep.of, ha, if_true]
      exact .pure trivial
  | continues label =>
    rcases ha : addressed labels label
    · simp only [LoopStep.of, ha, Bool.false_eq_true, if_false]
      exact .pure (hb.2 _ hc ha)
    · simp only [LoopStep.of, ha, if_true]
      exact hK last

/-- A `while` is left by jumps of its body that it does not take up itself. -/
theorem whileRounds {test : Expr} {body : Stmt} (hl : D.loops) (ht : D.expr test)
    (hb : D.AdmitsLoop labels J body) (hs : Γ.known scope) (n : Nat) (last : Value) :
    Abides host D Γ (Completion.Within J)
      fun p => Eval.whileRounds (p.evaluator rounds) test body scope labels n last := by
  -- on the rounds that are left; each round adds its scope to the reach
  induction n generalizing Γ last with
  | zero => exact spent hl
  | succ n ih =>
    refine .bind (expr ht hs) fun t _ => ?_
    split
    · refine .child hs fun round => .bind (loopBody hb.1 Reach.own_add) fun c hc => ?_
      exact afterRound hb hc fun v => ih (Reach.known.add hs) v
    · exact .pure trivial

/-- The body comes first and the test after it, in every round. -/
theorem doWhileRounds {test : Expr} {body : Stmt} (hl : D.loops) (ht : D.expr test)
    (hb : D.AdmitsLoop labels J body) (hs : Γ.known scope) (n : Nat) (last : Value) :
    Abides host D Γ (Completion.Within J)
      fun p => Eval.doWhileRounds (p.evaluator rounds) test body scope labels n last := by
  induction n generalizing Γ last with
  | zero => exact spent hl
  | succ n ih =>
    refine .child hs fun round => .bind (loopBody hb.1 Reach.own_add) fun c hc => ?_
    refine afterRound hb hc fun v => .bind (expr ht (.inr hs)) fun t _ => ?_
    split
    · exact ih (Reach.known.add hs) v
    · exact .pure trivial

/-- Only a `var` is declared in the scope around the loop. -/
theorem forHeader {header : ScopeId} {init : Option ForInit}
    (hi : ∀ i, init = some i → D.AdmitsForInit i)
    (hs : ∀ declarators, init = some (.variables .var declarators) → Γ.own scope)
    (hh : Γ.own header) :
    Abides host D Γ (fun _ => True)
      fun p => Eval.forHeader (p.evaluator rounds) scope header init := by
  cases init with
  | none => exact .pure trivial
  | some i =>
    have hi := hi i rfl
    cases i with
    | «variables» kind declarators =>
      refine declareVariables hi ?_
      split
      · subst kind
        exact hs declarators rfl
      · exact hh
    | expression e => exact .bind (expr hi (Γ.own_known hh)) fun _ _ => .pure trivial

theorem forTest {test : Option Expr} (ht : ∀ e, test = some e → D.expr e) (hs : Γ.known scope) :
    Abides host D Γ (fun _ => True)
      fun p => Eval.forTest (p.evaluator rounds) scope test := by
  cases test with
  | none => exact .pure trivial
  | some e => exact .bind (expr (ht e rfl) hs) fun _ _ => .pure trivial

theorem forUpdate {update : Option Expr} (hu : ∀ e, update = some e → D.expr e)
    (hs : Γ.known scope) :
    Abides host D Γ (fun _ => True)
      fun p => Eval.forUpdate (p.evaluator rounds) scope update := by
  cases update with
  | none => exact .pure trivial
  | some e => exact .bind (expr (hu e rfl) hs) fun _ _ => .pure trivial

/-- The scope of a round is a copy of the one before it, made behind the body. -/
theorem forRounds {test update : Option Expr} {body : Stmt} (hl : D.loops)
    (ht : ∀ e, test = some e → D.expr e) (hu : ∀ e, update = some e → D.expr e)
    (hb : D.AdmitsLoop labels J body) (n : Nat) (hs : Γ.fresh scope) (last : Value) :
    Abides host D Γ (Completion.Within J)
      fun p => Eval.forRounds (p.evaluator rounds) test update body labels n scope last := by
  induction n generalizing Γ scope last with
  | zero => exact spent hl
  | succ n ih =>
    have known := Γ.own_known (Γ.fresh_own hs)
    refine .bind (forTest ht known) fun goesOn _ => ?_
    split
    · refine .child known fun inner => .bind (loopBody hb.1 Reach.own_add) fun c hc => ?_
      -- the next round has a copy of the scope, which has just been opened as well
      refine afterRound hb hc fun v => .fork (.inr hs) fun next => ?_
      exact .bind (forUpdate hu Reach.known_add) fun _ _ => ih Reach.fresh_add v
    · exact .pure trivial

theorem forLoop {init : Option ForInit} {test update : Option Expr} {body : Stmt} (hl : D.loops)
    (hi : ∀ i, init = some i → D.AdmitsForInit i) (ht : ∀ e, test = some e → D.expr e)
    (hu : ∀ e, update = some e → D.expr e) (hb : D.AdmitsLoop labels J body)
    (known : Γ.known scope)
    (hs : ∀ declarators, init = some (.variables .var declarators) → Γ.own scope) :
    Abides host D Γ (Completion.Within J)
      fun p => Eval.forLoop (p.evaluator rounds) init test update body scope labels := by
  refine .child known fun header => ?_
  refine .bind (forHeader hi (fun ds h => .inr (hs ds h)) Reach.own_add) fun _ _ => ?_
  exact .fork Reach.fresh_add fun round => forRounds hl ht hu hb _ Reach.fresh_add _

theorem forInName {declarators : List Declarator} (hd : D.AdmitsForName declarators) :
    Abides host D Γ D.names fun _ => Eval.forInName declarators := by
  match declarators, hd with
  | [], hd => exact .fail (.inr hd)
  | [.mk target init], hd => exact .weaken (bindingName hd.1) fun name h => hd.2 name h
  | .mk _ _ :: .mk _ _ :: _, hd => exact .fail (.inr hd)

theorem forInBind {target : ForTarget} {key : Value} (ht : D.AdmitsForTarget target)
    (hs : Γ.own scope) :
    Abides host D Γ (fun _ => True)
      fun p => Eval.forInBind (p.evaluator rounds) scope target key := by
  cases target with
  | «variables» kind declarators =>
    refine .bind (forInName ht) fun name hn => ?_
    split
    · exact assign (Γ.own_known hs) hn
    · exact declare hs (.inr hn)
  | ident name => exact assign (Γ.own_known hs) ht
  | member object property computed =>
    exact .bind (memberParts ht.1 ht.2 (Γ.own_known hs)) fun parts _ => store (.set _ _ _)
  | destructuring node => exact .fail (.inr ht)

/-- Each key is bound in a scope of its own. -/
theorem forInRounds {target : ForTarget} {body : Stmt} (ht : D.AdmitsForTarget target)
    (hb : D.AdmitsLoop labels J body) (hs : Γ.known scope) (keys : List String) (last : Value) :
    Abides host D Γ (Completion.Within J)
      fun p => Eval.forInRounds (p.evaluator rounds) target body scope labels keys last := by
  induction keys generalizing Γ last with
  | nil => exact .pure trivial
  | cons key keys ih =>
    refine .child hs fun round => .bind (forInBind ht Reach.own_add) fun _ _ => ?_
    refine .bind (loopBody hb.1 Reach.own_add) fun c hc => ?_
    exact afterRound hb hc fun v => ih (Reach.known.add hs) v

/-- Only a `var` is declared in the scope around the loop, before the object is evaluated. -/
theorem forInLoop {target : ForTarget} {object : Expr} {body : Stmt}
    (ht : D.AdmitsForTarget target) (ho : D.expr object) (hb : D.AdmitsLoop labels J body)
    (known : Γ.known scope)
    (hs : ∀ declarators, target = .variables .var declarators → Γ.own scope) :
    Abides host D Γ (Completion.Within J)
      fun p => Eval.forInLoop (p.evaluator rounds) target object body scope labels := by
  have rest : Abides host D Γ (Completion.Within J) (fun p => do
      let v ← (p.evaluator rounds).expr object scope
      let keys ← Run.read fun s => Property.keys s.store v
      Eval.forInRounds (p.evaluator rounds) target body scope labels keys .undefined) :=
    .bind (expr ho known) fun v _ => .bind (peek fun s => Property.keys s v) fun keys _ =>
      forInRounds ht hb known keys _
  unfold Eval.forInLoop
  dsimp only
  split
  · have own := hs _ rfl
    exact .bind (forInName ht) fun name hn => .bind (declare own (.inr hn)) fun _ _ => rest
  · exact rest

/-! ### `switch` -/

theorem applies {discriminant : Value} {test : Option Expr} (ht : ∀ e, test = some e → D.expr e)
    (hs : Γ.known scope) :
    Abides host D Γ (fun _ => True)
      fun p => Eval.applies (p.evaluator rounds) scope discriminant test := by
  cases test with
  | none => exact .pure trivial
  | some e => exact .bind (expr (ht e rfl) hs) fun _ _ => .pure trivial

/-- Tests are evaluated until one applies; from there on the bodies are run, up to the first jump.
-/
theorem caseRounds {discriminant : Value} {cases : List Case}
    (hc : ∀ c ∈ cases, D.AdmitsCase labels J c) (hk : Γ.known scope) (ho : Γ.own scope)
    (matched : Bool) (last : Value) :
    Abides host D Γ (Completion.Within J)
      fun p => Eval.caseRounds (p.evaluator rounds) scope labels discriminant matched last
        cases := by
  induction cases generalizing matched last with
  | nil => exact .pure trivial
  | cons c cases ih =>
    obtain ⟨test, body⟩ := c
    obtain ⟨⟨ht, hb, hj⟩, rest⟩ := List.forall_mem_cons.1 hc
    refine .bind (Q := fun _ => True) ?_ fun found _ => ?_
    · cases matched with
      | true => exact .pure trivial
      | false => exact applies ht hk
    · cases found with
      | false => exact ih rest false last
      | true =>
        -- from here on the bodies are run
        refine .bind (runRest hb ho _) fun completion hc => ?_
        cases completion with
        | normal v => exact ih rest true v
        | returns v => exact .pure trivial
        | breaks label =>
          dsimp only
          split
          · exact .pure trivial
          · exact .pure (hj _ hc (Bool.eq_false_iff.2 ‹_›))
        | continues label => exact .pure (hj _ hc trivial)

/-- The functions of all cases are declared in the one scope that they share. -/
theorem hoistCases {cases : List Case} (hc : ∀ c ∈ cases, D.AdmitsCase labels J c)
    (hs : Γ.own scope) :
    Abides host D Γ (fun _ => True) fun _ => Eval.hoistCases scope cases := by
  induction cases with
  | nil => exact .pure trivial
  | cons c cases ih =>
    obtain ⟨test, body⟩ := c
    obtain ⟨⟨-, hb, -⟩, rest⟩ := List.forall_mem_cons.1 hc
    exact .bind (hoist (fun s h => (hb s h).2.2) hs) fun _ _ => ih rest

theorem switchStmt {discriminant : Expr} {cases : List Case} (hd : D.expr discriminant)
    (hc : ∀ c ∈ cases, D.AdmitsCase labels J c) (hs : Γ.known scope) :
    Abides host D Γ (Completion.Within J)
      fun p => Eval.switchStmt (p.evaluator rounds) discriminant cases scope labels := by
  refine .bind (expr hd hs) fun v _ => .child hs fun inner => ?_
  refine .bind (hoistCases hc Reach.own_add) fun _ _ => ?_
  exact caseRounds hc Reach.known_add Reach.own_add false _

/-! ### `try` -/

theorem runHandler {h : Handler} {e : EvalError} (hh : D.Handles h) (hs : Γ.known scope) :
    Abides host D Γ (D.gives (.handler h e scope))
      fun p => Eval.runHandler (p.evaluator rounds) scope h e := by
  obtain ⟨param, body⟩ := h
  refine .child hs fun inner => ?_
  have rest : Abides host D (Γ.add inner) (Completion.Within (D.bodyJumps body))
      fun p => Eval.runBody (p.evaluator rounds) body inner :=
    runBody hh.2 Reach.own_add
  cases param with
  | none => exact rest
  | some p =>
    refine .bind (bindingName (hh.1 p rfl)) fun name _ => .bind (store (.caught e)) fun v _ => ?_
    exact .bind (declare Reach.own_add (.inl Reach.fresh_add)) fun _ _ => rest

/-- A list of statements as a part of a `try`, in a scope of its own. -/
theorem tryPart {body : List Stmt} (hg : D.parts) (hb : D.Body body)
    (hJ : ∀ j, D.bodyJumps body j → J j) :
    Abides host D (Γ.add scope) (Completion.Within J) fun p => p (.body body scope) :=
  .weaken (.ask (.body body scope) hb hg (Reach.owning_le Reach.own_add)) fun _ hc => hc.mono hJ

/-- A failure is handed to the handler if it may be caught. -/
theorem tryCatch {block : List Stmt} {handler : Option Handler} (hg : D.parts)
    (hb : D.Body block ∧ ∀ j, D.bodyJumps block j → J j)
    (hh : ∀ param body, handler = some (.mk param body) →
      D.Handles (.mk param body) ∧ ∀ j, D.bodyJumps body j → J j) (hs : Γ.known scope) :
    Abides host D Γ (Completion.Within J) fun p => Rule.tryCatch p block handler scope := by
  refine .child hs fun inner => ?_
  cases handler with
  | none => exact tryPart hg hb.1 hb.2
  | some h =>
    obtain ⟨param, body⟩ := h
    obtain ⟨hh, hJ⟩ := hh param body rfl
    refine .recover (tryPart hg hb.1 hb.2) (fun _ hc => .pure hc) fun e => ?_
    exact .weaken (.ask (.handler (.mk param body) e scope) hh hg (Reach.seeing_le (.inr hs)))
      fun c (hc : c.Within (D.bodyJumps body)) => hc.mono hJ

/-- The finalizer runs in any event, and decides if it is left by a jump or fails. -/
theorem tryStmt {block : List Stmt} {handler : Option Handler} {finalizer : Option (List Stmt)}
    (h : D.AdmitsTry J block handler finalizer) (hs : Γ.known scope) :
    Abides host D Γ (Completion.Within J)
      fun p => Rule.tryStmt p block handler finalizer scope := by
  obtain ⟨hg, hb, hh, hf⟩ := h
  cases finalizer with
  | none => exact tryCatch hg hb hh hs
  | some body =>
    have final : Abides host D Γ (Completion.Within J)
        fun p => Eval.newChild scope >>= fun inner => p (.body body inner) :=
      .child hs fun inner => tryPart hg (hf body rfl).1 (hf body rfl).2
    exact .recover (tryCatch hg hb hh hs) (fun _ _ => final) fun _ => final

/-! ### All statements -/

/-- A label takes up the `break` to it, and nothing else. -/
theorem labeledStmt {label : String} {body : Stmt} (hb : D.stmt body (labels ++ [label]))
    (hJ : ∀ j, D.jumps body (labels ++ [label]) j → j ≠ .breaks (some label) → J j)
    (hs : Γ.own scope) :
    Abides host D Γ (Completion.Within J)
      fun p => Eval.labeledStmt (p.evaluator rounds) label body scope labels := by
  refine .bind (stmt hb hs) fun completion hc => ?_
  match completion, hc with
  | .normal v, _ => exact .pure trivial
  | .returns v, _ => exact .pure trivial
  | .continues target, hc => exact .pure (hJ _ hc (by simp))
  | .breaks none, hc => exact .pure (hJ _ hc (by simp))
  | .breaks (some target), hc =>
    dsimp only
    split
    · exact .pure trivial
    · exact .pure (hJ _ hc (by simpa using ‹_›))

/-- A statement that keeps its declarations to itself does not declare in the scope that it is
executed in. -/
theorem confinedRule {s : Stmt} (hc : s.Confined) (h : D.AdmitsStmt s labels)
    (known : Γ.known scope) :
    Abides host D Γ (Completion.Within (D.jumps s labels))
      fun p => rule host rounds p (.stmt s scope labels) := by
  cases s with
  | block body =>
    refine .child known fun inner => ?_
    exact .weaken (runBody h.1 Reach.own_add) fun _ => Completion.Within.mono h.2
  | switch discriminant cases => exact switchStmt h.1 h.2 known
  | «while» test body => exact whileRounds h.1 h.2.1 h.2.2 known _ _
  | doWhile test body => exact doWhileRounds h.1 h.2.1 h.2.2 known _ _
  | «for» init test update body =>
    exact forLoop h.1 h.2.1 h.2.2.1 h.2.2.2.1 h.2.2.2.2 known fun ds hd => absurd hd (hc ds)
  | forIn target object body =>
    exact forInLoop h.1 h.2.1 h.2.2 known fun ds hd => absurd hd (hc ds)
  | tries block handler finalizer => exact tryStmt h known
  | _ => exact hc.elim

/-- The rule of a statement abides by every discipline that admits the statement. -/
theorem stmtRule {s : Stmt} (h : D.AdmitsStmt s labels) (hs : Γ.own scope) :
    Abides host D Γ (Completion.Within (D.jumps s labels))
      fun p => rule host rounds p (.stmt s scope labels) := by
  have known := Γ.own_known hs
  cases s with
  | expression e => exact .bind (expr h known) fun _ _ => .pure trivial
  | block body => exact confinedRule trivial h known
  | empty => exact .pure trivial
  | debugger => exact .pure trivial
  | «variables» kind declarators =>
    exact .bind (declareVariables h hs) fun _ _ => .pure trivial
  | function f => exact .bind (declareFunction h hs) fun _ _ => .pure trivial
  | returns argument =>
    cases argument with
    | none => exact .pure trivial
    | some e => exact .bind (expr h known) fun _ _ => .pure trivial
  | breaks label => exact .pure h
  | continues label => exact .pure h
  -- a branch runs in the scope of the statement, with no labels of its own
  | branch test consequent alternate =>
    obtain ⟨ht, hc, ha⟩ := h
    refine .bind (expr ht known) fun t _ => ?_
    split
    · exact .weaken (stmt hc.1 hs) fun _ => Completion.Within.mono hc.2
    · cases alternate with
      | none => exact .pure trivial
      | some other =>
        exact .weaken (stmt (ha other rfl).1 hs) fun _ => Completion.Within.mono (ha other rfl).2
  | switch discriminant cases => exact confinedRule trivial h known
  | «while» test body => exact confinedRule trivial h known
  | doWhile test body => exact confinedRule trivial h known
  | «for» init test update body =>
    exact forLoop h.1 h.2.1 h.2.2.1 h.2.2.2.1 h.2.2.2.2 known fun _ _ => hs
  | forIn target object body => exact forInLoop h.1 h.2.1 h.2.2 known fun _ _ => hs
  | labeled label body => exact labeledStmt h.1 h.2 hs
  | tries block handler finalizer => exact confinedRule trivial h known
  | throws e => exact .bind (expr h known) fun _ _ => .fail (.inl rfl)
  | inert node => exact .fail (.inr h)

/-! ### All tasks -/

theorem callClosure {id : ClosureId} {this : Value} {args : List Value} (he : D.enters) :
    Abides host D Γ (fun _ => True) fun p => Rule.callClosure p id this args := by
  refine .load he fun c hc => .framed he ?_
  exact .ask (.invoke c this args) hc he (Reach.seeing_le (.inl rfl))

theorem programResult {c : Completion} (hJ : D.Lands J) (hc : c.Within J) :
    Abides host D Γ (fun _ => True) fun _ => Interpreter.programResult c := by
  cases c with
  | normal v => exact .pure trivial
  | returns v => exact .pure trivial
  | breaks label => exact .fail (.inr (hJ _ hc))
  | continues label => exact .fail (.inr (hJ _ hc))

/-- A program is its body in the root scope, with the jumps out of it as failures. -/
theorem runProgram {module : Option Value} {q : Program} (hb : D.Body q.body)
    (hJ : D.Lands (D.bodyJumps q.body)) (hs : Γ.own rootScope) :
    Abides host D Γ (fun _ => True) fun p => Rule.runProgram p rounds module q := by
  refine .bind (runBody hb hs) fun completion hc => ?_
  refine .bind (programResult hJ hc) fun v _ => ?_
  cases module with
  | none => exact .pure trivial
  | some m => exact store (.get m "exports")

/-- One level of evaluation abides by every discipline that admits the task. -/
theorem rule {t : Task} (h : D.Admits t) :
    Abides host D (Reach.of t) (D.gives t) fun p => Estree.rule host rounds p t := by
  cases t with
  | expr e scope => exact exprRule h rfl
  | stmt s scope labels => exact stmtRule h rfl
  | call id this args => exact callClosure h
  | body stmts scope => exact runBody h rfl
  | handler hd e scope => exact runHandler h rfl
  | invoke c this args => exact invoke h rfl
  | apply callee this args => exact callValue
  | construct callee args => exact construct
  | program module q => exact runProgram h.1 h.2 rfl
  | spent => exact .endless h

end Abides

/-! ### Restricting nothing but deletion -/

namespace Discipline

variable {d : String → Prop}

theorem deleting_declaration (f : Function) : (deleting d).AdmitsDeclaration f := by
  unfold AdmitsDeclaration
  split
  · trivial
  · exact ⟨trivial, deleting_function f⟩

theorem deleting_body (stmts : List Stmt) : (deleting d).Body stmts :=
  fun _ _ => ⟨trivial, fun _ _ => trivial, fun f _ => deleting_declaration f⟩

theorem deleting_param (p : Pattern) : (deleting d).AdmitsParam p := by
  match p with
  | .default target init => exact ⟨deleting_operand init, deleting_param target⟩
  | .ident _ | .member _ _ _ | .rest _ | .destructuring _ => trivial

theorem deleting_parameter (p : Pattern) : (deleting d).AdmitsParameter p := by
  unfold AdmitsParameter
  split <;> exact deleting_param _

theorem deleting_call (f : Function) : (deleting d).AdmitsCall f := by
  refine ⟨fun p _ => deleting_parameter p, ?_⟩
  split
  · trivial
  · exact ⟨deleting_body _, fun _ _ => trivial⟩

theorem deleting_declarator (v : Declarator) : (deleting d).AdmitsDeclarator v := by
  obtain ⟨target, init⟩ := v
  exact ⟨.inr trivial, fun _ _ => trivial, fun e _ => deleting_operand e⟩

theorem deleting_loop (labels : List String) (body : Stmt) :
    (deleting d).AdmitsLoop labels (fun _ => True) body := by
  refine ⟨?_, fun _ _ _ => trivial⟩
  unfold LoopBody
  split
  · exact deleting_body _
  · trivial

theorem deleting_forInit (i : ForInit) : (deleting d).AdmitsForInit i := by
  cases i with
  | «variables» kind declarators => exact fun v _ => deleting_declarator v
  | expression e => trivial

theorem deleting_forTarget (target : ForTarget) : (deleting d).AdmitsForTarget target := by
  cases target with
  | «variables» kind declarators =>
    unfold AdmitsForTarget AdmitsForName
    dsimp only
    split
    · exact ⟨.inr trivial, fun _ _ => trivial⟩
    · trivial
  | ident name => trivial
  | member object property computed => exact ⟨trivial, deleting_key property computed⟩
  | destructuring node => trivial

theorem deleting_case (labels : List String) (c : Case) :
    (deleting d).AdmitsCase labels (fun _ => True) c := by
  obtain ⟨test, body⟩ := c
  exact ⟨fun _ _ => trivial, deleting_body body, fun _ _ _ => trivial⟩

theorem deleting_handler (h : Handler) : (deleting d).Handles h := by
  obtain ⟨param, body⟩ := h
  exact ⟨fun _ _ => .inr trivial, deleting_body body⟩

/-- All statements are admitted; what they may delete is asked of the expressions in them. -/
theorem deleting_stmt (s : Stmt) (labels : List String) : (deleting d).AdmitsStmt s labels := by
  cases s with
  | block body => exact ⟨deleting_body body, fun _ _ => trivial⟩
  | «variables» kind declarators => exact fun v _ => deleting_declarator v
  | function f => exact deleting_declaration f
  | returns argument => cases argument <;> trivial
  | branch test consequent alternate =>
    exact ⟨trivial, ⟨trivial, fun _ _ => trivial⟩, fun _ _ => ⟨trivial, fun _ _ => trivial⟩⟩
  | switch discriminant cases => exact ⟨trivial, fun c _ => deleting_case labels c⟩
  | «while» test body => exact ⟨trivial, trivial, deleting_loop labels body⟩
  | doWhile test body => exact ⟨trivial, trivial, deleting_loop labels body⟩
  | «for» init test update body =>
    exact ⟨trivial, fun i _ => deleting_forInit i, fun _ _ => trivial, fun _ _ => trivial,
      deleting_loop labels body⟩
  | forIn target object body =>
    exact ⟨deleting_forTarget target, trivial, deleting_loop labels body⟩
  | labeled label body => exact ⟨trivial, fun _ _ _ => trivial⟩
  -- three lists of statements, each with its own declarations
  | tries block handler finalizer =>
    exact ⟨trivial, ⟨deleting_body block, fun _ _ => trivial⟩,
      fun param body _ => ⟨deleting_handler (.mk param body), fun _ _ => trivial⟩,
      fun body _ => ⟨deleting_body body, fun _ _ => trivial⟩⟩
  | _ => trivial

/-- Every task is admitted that is not itself the deletion of another name. -/
theorem deleting_task (t : Task)
    (h : ∀ name scope, t = .expr (.unary .delete (.ident name)) scope → d name) :
    (deleting d).Admits t := by
  cases t with
  | expr e scope =>
    refine deleting_expr e fun name he => ?_
    subst he
    exact h name scope rfl
  | stmt s scope labels => exact deleting_stmt s labels
  | body stmts scope => exact deleting_body stmts
  | handler hd e scope => exact deleting_handler hd
  | invoke c this args => exact deleting_call c.node
  | program module p => exact ⟨deleting_body p.body, fun _ _ => trivial⟩
  | _ => trivial

/-- The discipline without restrictions admits every task. -/
theorem admits_all (t : Task) : Discipline.Admits {} t :=
  deleting_task t fun _ _ _ => trivial

/-- It also lets every task be asked for. -/
theorem asks_all (t : Task) : (deleting d).asks t := by
  cases t with
  | body stmts scope => exact deleting_body stmts
  | handler h e scope => exact deleting_handler h
  | program module p => exact ⟨deleting_body p.body, fun _ _ => trivial⟩
  | _ => trivial

end Discipline

end Estree
