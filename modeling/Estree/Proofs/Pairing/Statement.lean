/-
Estree/Proofs/Pairing/Statement.lean

Statements and calls in paired states.

A statement may declare names in the scope that it is executed in, so that it does the same in
scopes that are paired.  With expressions and calls this gives the evaluator itself, by induction on
its budget (`Machine.faithful`).

An expression only needs scopes that are known to each other; a statement needs a pair of own
scopes, so that a declaration on one side can be followed on the other.  A block, a round of a loop
or a call makes such a pair and adds it to the pairing, which only grows.
-/
import Estree.Proofs.Pairing.Expression

namespace Estree

namespace Pairing.Mirrors

variable {host : Host} {ev : Evaluator} (hev : ev.Faithful host) {w : Pairing} {i j : ScopeId}

/-! ### Bodies -/

theorem bindingName (p : Pattern) : w.Mirrors (Eval.bindingName p) (Eval.bindingName p) := by
  unfold Eval.bindingName
  split
  · exact .pure _
  · exact .fail _

/-- A function is made over both scopes at once, and declared in both. -/
theorem declareFunction (h : w.own i j) (f : Function) :
    w.Mirrors (Eval.declareFunction f i) (Eval.declareFunction f j) := by
  unfold Eval.declareFunction
  split
  · exact .fail _
  · exact .bind (makeClosure (w.own_known h) f _ _) fun v => declare h _ _ _

/-- Functions are declared on both sides in the same order. -/
theorem hoist (h : w.own i j) (stmts : List Stmt) :
    w.Mirrors (Eval.hoist i stmts) (Eval.hoist j stmts) := by
  induction stmts with
  | nil => exact .pure ()
  | cons s stmts ih =>
    cases s with
    | function f => exact .bind (declareFunction h f) fun _ => ih
    | _ => exact ih

theorem resultOf (c : Completion) : w.Mirrors (Eval.resultOf c) (Eval.resultOf c) := by
  cases c with
  | normal v => exact .pure _
  | returns v => exact .pure v
  | breaks label => exact .fail _
  | continues label => exact .fail _

section

include hev

/-- Both runs go through a list together and leave it by the same jump. -/
theorem runHoisted (h : w.own i j) (stmts : List Stmt) (last : Value) :
    w.Mirrors (Eval.runHoisted ev i stmts last) (Eval.runHoisted ev j stmts last) := by
  induction stmts generalizing last with
  | nil => exact .pure _
  | cons s stmts ih =>
    cases s with
    | function f => exact ih last
    | _ =>
      refine .bind (hev.stmt h _ []) fun c => ?_
      cases c with
      | normal v => exact ih v
      | _ => exact .pure _

theorem runBody (h : w.own i j) (stmts : List Stmt) :
    w.Mirrors (Eval.runBody ev stmts i) (Eval.runBody ev stmts j) :=
  .bind (hoist h stmts) fun _ => runHoisted hev h stmts _

/-- A list of statements in a scope of its own. -/
theorem inner (h : w.known i j) (stmts : List Stmt) :
    w.Mirrors (Eval.newChild i >>= fun inner => Eval.runBody ev stmts inner)
      (Eval.newChild j >>= fun inner => Eval.runBody ev stmts inner) :=
  .child h fun _ h => runBody hev h stmts

/-! ### Calls -/

/-- A default is evaluated in both scopes, under the same condition. -/
theorem bindParameter (h : w.own i j) (p : Pattern) (value : Value) :
    w.Mirrors (Eval.bindParameter ev i p value) (Eval.bindParameter ev j p value) := by
  match p with
  | .ident name => exact declare h _ name _
  | .default target init =>
    have rest (v : Value) := bindParameter h target v
    unfold Eval.bindParameter
    dsimp only
    split
    · split
      · exact .bind (named hev (w.own_known h) init _) rest
      · exact .bind (hev.expr (w.own_known h) init) rest
    · exact rest value
  | .member _ _ _ | .rest _ | .destructuring _ => exact .fail _

/-- A rest parameter is a new array on both sides, at the same place. -/
theorem bindParameters (h : w.own i j) (params : List Pattern) (args : List Value) :
    w.Mirrors (Eval.bindParameters ev i params args) (Eval.bindParameters ev j params args) := by
  induction params generalizing args with
  | nil => exact .pure ()
  | cons p params ih =>
    cases p with
    | rest target =>
      refine .bind (hev.store (.newArray _)) fun v => ?_
      exact .bind (bindParameter hev h target v) fun _ => ih []
    | _ => exact .bind (bindParameter hev h _ _) fun _ => ih _

/-- The body of a function, which is an expression or a list of statements. -/
theorem functionBody (h : w.own i j) (body : Body) :
    w.Mirrors
      (match body with
      | .concise value => ev.expr value i
      | .block body => do
        let completion ← Eval.runBody ev body i
        Eval.resultOf completion)
      (match body with
      | .concise value => ev.expr value j
      | .block body => do
        let completion ← Eval.runBody ev body j
        Eval.resultOf completion) := by
  cases body with
  | concise value => exact hev.expr (w.own_known h) value
  | block body => exact .bind (runBody hev h body) resultOf

/-- Functions that differ in their scopes are run. -/
theorem invoke {c c' : Closure} (hc : c'.unscoped = c.unscoped) (h : w.known c.scope c'.scope)
    (this : Value) (args : List Value) :
    w.Mirrors (Eval.invoke ev c this args) (Eval.invoke ev c' this args) := by
  have hkind : c'.kind = c.kind := (congrArg Closure.kind hc :)
  have hnode : c'.node = c.node := (congrArg Closure.node hc :)
  unfold Eval.invoke
  rw [hkind, hnode]
  refine .child h fun {w₁ i j} _ h => ?_
  have inside := (bindParameters hev h c.node.params args).bind fun _ =>
    functionBody hev h c.node.body
  dsimp only
  split
  · -- a function that is not an arrow has its own `this` and its own `arguments`
    refine .bind (declare h _ _ _) fun _ => .bind (hev.store (.newArray _)) fun all => ?_
    exact .bind (declare h _ _ _) fun _ => inside
  · exact inside

/-- A call opens a scope on either side, and these are scopes of their own from then on. -/
theorem callClosure (id : ClosureId) (this : Value) (args : List Value) :
    w.Mirrors (Eval.callClosure ev id this args) (Eval.callClosure ev id this args) := by
  refine .load fun {w₁ c c'} _ hc h => ?_
  rw [show c'.displayName = c.displayName from (congrArg Closure.displayName hc :)]
  refine .bind (enter c.displayName) fun _ => ?_
  refine .bind (attempt (invoke hev hc h this args)) fun result => ?_
  cases result with
  | ok v => exact .bind leave fun _ => .pure v
  | error e => exact .bind (withBacktrace e) fun e => .bind leave fun _ => .fail e

/-! ### Loops -/

/-- Targets are declared on both sides in the same order, each after its first value. -/
theorem declareVariables (h : w.own i j) (kind : VarKind) (declarators : List Declarator) :
    w.Mirrors (Eval.declareVariables ev i kind declarators)
      (Eval.declareVariables ev j kind declarators) := by
  induction declarators with
  | nil => exact .pure ()
  | cons d declarators ih =>
    obtain ⟨target, init⟩ := d
    refine .bind (bindingName target) fun name => ?_
    have declared (v : Option Value) : w.Mirrors
        (Eval.declare i kind name v >>= fun _ => Eval.declareVariables ev i kind declarators)
        (Eval.declare j kind name v >>= fun _ => Eval.declareVariables ev j kind declarators) :=
      .bind (declare h kind name v) fun _ => ih
    cases init with
    | none => exact .bind (.pure none) declared
    | some e => exact .bind (named hev (w.own_known h) e name) fun v => declared (some v)

theorem loopBody (h : w.own i j) (body : Stmt) :
    w.Mirrors (Eval.loopBody ev body i) (Eval.loopBody ev body j) := by
  cases body with
  | block stmts => exact runBody hev h stmts
  | _ => exact hev.stmt h _ []

omit hev in
/-- What a loop does after a round. -/
theorem afterRound {labels : List String} {last : Value} {completion : Completion}
    {f f' : Value → Eval Completion} (hf : ∀ v, w.Mirrors (f v) (f' v)) :
    w.Mirrors
      (match LoopStep.of labels last completion with
      | .next last => f last
      | .stop => Pure.pure (.normal last)
      | .pass signal => Pure.pure signal)
      (match LoopStep.of labels last completion with
      | .next last => f' last
      | .stop => Pure.pure (.normal last)
      | .pass signal => Pure.pure signal) := by
  split
  · exact hf _
  · exact .pure _
  · exact .pure _

/-- Rounds go side by side: each opens a scope on both sides and tests alike. -/
theorem whileRounds (h : w.known i j) (test : Expr) (body : Stmt) (labels : List String) (n : Nat)
    (last : Value) :
    w.Mirrors (Eval.whileRounds ev test body i labels n last)
      (Eval.whileRounds ev test body j labels n last) := by
  induction n generalizing w last with
  | zero => exact hev.spent w
  | succ n ih =>
    refine .bind (hev.expr h test) fun t => ?_
    split
    · refine .child h fun hw h' => .bind (loopBody hev h' body) fun c => ?_
      exact afterRound fun v => ih (hw.known h) v
    · exact .pure _

/-- Rounds go side by side, with the test behind the body. -/
theorem doWhileRounds (h : w.known i j) (test : Expr) (body : Stmt) (labels : List String) (n : Nat)
    (last : Value) :
    w.Mirrors (Eval.doWhileRounds ev test body i labels n last)
      (Eval.doWhileRounds ev test body j labels n last) := by
  induction n generalizing w last with
  | zero => exact hev.spent w
  | succ n ih =>
    refine .child h fun hw h' => .bind (loopBody hev h' body) fun c => ?_
    refine afterRound fun v => .bind (hev.expr (hw.known h) test) fun t => ?_
    split
    · exact ih (hw.known h) v
    · exact .pure _

/-- A `var` is declared around the loop, all else in the header, on both sides alike. -/
theorem forHeader {i' j' : ScopeId} (h : w.own i j) (h' : w.own i' j') (init : Option ForInit) :
    w.Mirrors (Eval.forHeader ev i i' init) (Eval.forHeader ev j j' init) := by
  cases init with
  | none => exact .pure ()
  | some init =>
    cases init with
    | «variables» kind declarators =>
      refine declareVariables hev ?_ kind declarators
      split
      · exact h
      · exact h'
    | expression e => exact .bind (hev.expr (w.own_known h') e) fun _ => .pure ()

theorem forTest (h : w.known i j) (test : Option Expr) :
    w.Mirrors (Eval.forTest ev i test) (Eval.forTest ev j test) := by
  cases test with
  | none => exact .pure true
  | some e => exact .bind (hev.expr h e) fun _ => .pure _

theorem forUpdate (h : w.known i j) (update : Option Expr) :
    w.Mirrors (Eval.forUpdate ev i update) (Eval.forUpdate ev j update) := by
  cases update with
  | none => exact .pure ()
  | some e => exact .bind (hev.expr h e) fun _ => .pure ()

/-- The scopes of the rounds are copied on both sides at the same moments. -/
theorem forRounds (h : w.own i j) (test update : Option Expr) (body : Stmt) (labels : List String)
    (n : Nat) (last : Value) :
    w.Mirrors (Eval.forRounds ev test update body labels n i last)
      (Eval.forRounds ev test update body labels n j last) := by
  induction n generalizing w i j last with
  | zero => exact hev.spent w
  | succ n ih =>
    have known := w.own_known h
    refine .bind (forTest hev known test) fun goesOn => ?_
    split
    · refine .child known fun hw h' => .bind (loopBody hev h' body) fun c => ?_
      refine afterRound fun v => .fork (hw.own h) fun {w₂ _ _} _ h' => ?_
      exact .bind (forUpdate hev (w₂.own_known h') update) fun _ => ih h' v
    · exact .pure _

theorem forLoop (h : w.own i j) (init : Option ForInit) (test update : Option Expr) (body : Stmt)
    (labels : List String) :
    w.Mirrors (Eval.forLoop ev init test update body i labels)
      (Eval.forLoop ev init test update body j labels) := by
  refine .child (w.own_known h) fun hw h' => .bind (forHeader hev (hw.own h) h' init) fun _ => ?_
  exact .fork h' fun _ h' => forRounds hev h' test update body labels _ _

omit hev in
theorem forInName (declarators : List Declarator) :
    w.Mirrors (Eval.forInName declarators) (Eval.forInName declarators) := by
  match declarators with
  | [] => exact .fail _
  | [.mk target init] => exact bindingName target
  | .mk _ _ :: .mk _ _ :: _ => exact .fail _

/-- A key is declared or assigned on both sides alike. -/
theorem forInBind (h : w.own i j) (target : ForTarget) (key : Value) :
    w.Mirrors (Eval.forInBind ev i target key) (Eval.forInBind ev j target key) := by
  have known := w.own_known h
  cases target with
  | «variables» kind declarators =>
    refine .bind (forInName declarators) fun name => ?_
    split
    · exact assign known name key
    · exact declare h kind name _
  | ident name => exact assign known name key
  | member object property computed =>
    refine .bind (memberParts hev known object property computed) fun parts => ?_
    exact hev.store (.set _ _ _)
  | destructuring node => exact .fail _

/-- Rounds go side by side, one for each key. -/
theorem forInRounds (h : w.known i j) (target : ForTarget) (body : Stmt) (labels : List String)
    (keys : List String) (last : Value) :
    w.Mirrors (Eval.forInRounds ev target body i labels keys last)
      (Eval.forInRounds ev target body j labels keys last) := by
  induction keys generalizing w last with
  | nil => exact .pure _
  | cons key keys ih =>
    refine .child h fun hw h' => .bind (forInBind hev h' target _) fun _ => ?_
    exact .bind (loopBody hev h' body) fun c => afterRound fun v => ih (hw.known h) v

/-- The keys are those of the same object in the same store. -/
theorem forInLoop (h : w.own i j) (target : ForTarget) (object : Expr) (body : Stmt)
    (labels : List String) :
    w.Mirrors (Eval.forInLoop ev target object body i labels)
      (Eval.forInLoop ev target object body j labels) := by
  have known := w.own_known h
  have rest : w.Mirrors
      (do
        let v ← ev.expr object i
        let keys ← Run.read fun s => Property.keys s.store v
        Eval.forInRounds ev target body i labels keys .undefined)
      (do
        let v ← ev.expr object j
        let keys ← Run.read fun s => Property.keys s.store v
        Eval.forInRounds ev target body j labels keys .undefined) := by
    refine .bind (hev.expr known object) fun v => ?_
    refine .bind (.read (fun s => Property.keys s v) fun s => ?_) fun keys => ?_
    -- the keys do not depend on where closures were made
    · exact Property.keys_unscoped s v
    · exact forInRounds hev known target body labels keys _
  unfold Eval.forInLoop
  dsimp only
  split
  · exact .bind (forInName _) fun name => .bind (declare h _ name none) fun _ => rest
  · exact rest

/-! ### `switch` -/

theorem applies (h : w.known i j) (discriminant : Value) (test : Option Expr) :
    w.Mirrors (Eval.applies ev i discriminant test) (Eval.applies ev j discriminant test) := by
  cases test with
  | none => exact .pure true
  | some test => exact .bind (hev.expr h test) fun _ => .pure _

/-- Both sides find the same case, as their tests have the same values. -/
theorem caseRounds (h : w.own i j) (labels : List String) (discriminant : Value)
    (cases : List Case) (matched : Bool) (last : Value) :
    w.Mirrors (Eval.caseRounds ev i labels discriminant matched last cases)
      (Eval.caseRounds ev j labels discriminant matched last cases) := by
  induction cases generalizing matched last with
  | nil => exact .pure _
  | cons c cases ih =>
    obtain ⟨test, body⟩ := c
    refine .bind ?_ fun found => ?_
    -- once a case has matched, the tests behind it are not evaluated
    · cases matched with
      | true => exact .pure true
      | false => exact applies hev (w.own_known h) discriminant test
    · cases found with
      | false => exact ih false last
      | true =>
        refine .bind (runHoisted hev h body _) fun completion => ?_
        cases completion with
        | normal v => exact ih true v
        | breaks label =>
          dsimp only
          split <;> exact .pure _
        | _ => exact .pure _

omit hev in
theorem hoistCases (h : w.own i j) (cases : List Case) :
    w.Mirrors (Eval.hoistCases i cases) (Eval.hoistCases j cases) := by
  induction cases with
  | nil => exact .pure ()
  | cons c cases ih =>
    obtain ⟨test, body⟩ := c
    exact .bind (hoist h body) fun _ => ih

theorem switchStmt (h : w.known i j) (discriminant : Expr) (cases : List Case)
    (labels : List String) :
    w.Mirrors (Eval.switchStmt ev discriminant cases i labels)
      (Eval.switchStmt ev discriminant cases j labels) := by
  refine .bind (hev.expr h discriminant) fun v => .child h fun {w₁ _ _} _ h' => ?_
  refine .bind (hoistCases h' cases) fun _ => ?_
  exact caseRounds hev h' labels v cases false _

/-! ### `try` -/

theorem runHandler (h : w.known i j) (handler : Handler) (e : EvalError) :
    w.Mirrors (Eval.runHandler ev i handler e) (Eval.runHandler ev j handler e) := by
  obtain ⟨param, body⟩ := handler
  refine .child h fun _ h' => ?_
  cases param with
  | none => exact runBody hev h' body
  | some p =>
    refine .bind (bindingName p) fun name => .bind (hev.store (.caught e)) fun v => ?_
    exact .bind (declare h' _ name _) fun _ => runBody hev h' body

/-- What is caught on one side is caught on the other. -/
theorem tryCatch (h : w.known i j) (block : List Stmt) (handler : Option Handler) :
    w.Mirrors (Eval.tryCatch ev block handler i) (Eval.tryCatch ev block handler j) := by
  refine .child h fun hw h' => ?_
  cases handler with
  | none => exact runBody hev h' block
  | some handler =>
    refine .bind (attempt (runBody hev h' block)) fun result => ?_
    cases result with
    | ok c => exact .pure c
    | error e =>
      dsimp only
      split
      · exact runHandler hev (hw.known h) handler e
      · exact .fail e

/-- The finalizer runs on both sides, and what it does decides on both. -/
theorem tryStmt (h : w.known i j) (block : List Stmt) (handler : Option Handler)
    (finalizer : Option (List Stmt)) :
    w.Mirrors (Eval.tryStmt ev block handler finalizer i)
      (Eval.tryStmt ev block handler finalizer j) := by
  cases finalizer with
  | none => exact tryCatch hev h block handler
  | some body =>
    refine .bind (attempt (tryCatch hev h block handler)) fun result => ?_
    cases result with
    | ok c => exact inner hev h body
    | error e =>
      dsimp only
      split
      · exact inner hev h body
      · exact .fail e

/-! ### All statements -/

theorem labeledStmt (h : w.own i j) (label : String) (body : Stmt) (labels : List String) :
    w.Mirrors (Eval.labeledStmt ev label body i labels)
      (Eval.labeledStmt ev label body j labels) := by
  refine .bind (hev.stmt h body _) fun completion => ?_
  split
  · split <;> exact .pure _
  · exact .pure _

/-- A statement does the same in scopes that are paired. -/
theorem stmt (h : w.own i j) (s : Stmt) (labels : List String) :
    w.Mirrors (Eval.stmt ev s i labels) (Eval.stmt ev s j labels) := by
  have known := w.own_known h
  cases s with
  | expression e => exact .bind (hev.expr known e) fun _ => .pure _
  | block body => exact inner hev known body
  | empty => exact .pure _
  | debugger => exact .pure _
  | «variables» kind declarators =>
    exact .bind (declareVariables hev h kind declarators) fun _ => .pure _
  | function f => exact .bind (declareFunction h f) fun _ => .pure _
  | returns argument =>
    cases argument with
    | none => exact .pure _
    | some e => exact .bind (hev.expr known e) fun _ => .pure _
  | breaks label => exact .pure _
  | continues label => exact .pure _
  -- both sides take the same branch, since the tests have one value
  | branch test consequent alternate =>
    refine .bind (hev.expr known test) fun t => ?_
    split
    · exact hev.stmt h consequent []
    · cases alternate with
      | none => exact .pure _
      | some other => exact hev.stmt h other []
  | switch discriminant cases => exact switchStmt hev known discriminant cases labels
  | «while» test body => exact whileRounds hev known test body labels _ _
  | doWhile test body => exact doWhileRounds hev known test body labels _ _
  | «for» init test update body => exact forLoop hev h init test update body labels
  | forIn target object body => exact forInLoop hev h target object body labels
  | labeled label body => exact labeledStmt hev h label body labels
  | tries block handler finalizer => exact tryStmt hev known block handler finalizer
  | throws e => exact .bind (hev.expr known e) fun _ => .fail _
  | inert node => exact .fail _

end

end Pairing.Mirrors

/-! ### The evaluator -/

/-- With every budget the evaluator does the same in paired states. -/
theorem Machine.faithful {host : Host} (hk : host.KeepsFunctions) (hh : host.IgnoresScopes)
    (n : Nat) : (evaluator host n).Faithful host := by
  induction n with
  | zero =>
    exact
      { store := .store hk hh
        expr := fun _ _ => .endless
        stmt := fun _ _ _ => .endless
        call := fun _ _ _ _ => .endless
        spent := fun _ => .endless }
  | succ n ih =>
    exact
      { store := .store hk hh
        expr := fun h e => .expr ih h e
        stmt := fun h s labels => .stmt ih h s labels
        call := fun _ id this args => .callClosure ih id this args
        spent := fun _ => .endless }

end Estree
