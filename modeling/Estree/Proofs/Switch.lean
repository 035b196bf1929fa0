/-
Estree/Proofs/Switch.lean

What a `switch` does, said in the order of its parts.

The evaluator goes through the cases once.  With a flag it remembers whether a case has been found,
and from there on it runs their bodies.  This is the same as two passes, one that finds the first
case that applies, and one that runs what is left of the list (`Eval.caseRounds_eq`).

The description that it is compared with (`Eval.switchParts`) does one thing after the other: all
functions of all cases are declared, the place of the first case that applies is found, and from
there on the statements of all bodies are run as one list.  What declaring a function leaves behind
is said by `Eval.declareFunction_done_iff`.  Both sides of the comparison are taken apart by the
same two facts: declaring functions and running statements distribute over `++`.

The one thing that bodies have and their concatenation has not is an end of each.  A completed
`switch` has the value of the last body that was run to its end (`Eval.Finishes`).
-/
import Estree.Proofs.Incremental
import Estree.Proofs.Scope

namespace Estree

/-! ### Parts of a `switch` -/

namespace Case

/-- The test; without one it is a default. -/
def test : Case → Option Expr
  | mk test _ => test

/-- The statements. -/
def body : Case → List Stmt
  | mk _ body => body

end Case

/-- The function that a statement declares. -/
def Stmt.declared? : Stmt → Option Function
  | .function f => some f
  | _ => none

/-- The signal that leaves a statement, unless it completes normally. -/
def Completion.signal? : Completion → Option Completion
  | .normal _ => none
  | signal => some signal

/-- The signal that leaves a `switch` with these labels when a statement in it has completed. -/
def Completion.leaving? (labels : List String) : Completion → Option Completion
  | .normal _ => none
  | .breaks label => if addressed labels label then none else some (.breaks label)
  | signal => some signal

namespace Run

variable {σ α β : Type} {m : Run σ α} {f : α → Run σ β} {s s' : σ} {b : β}

/-- If one thing after another gives a value, both do. -/
theorem of_bind_done (h : (m >>= f) s = .done b s') :
    ∃ a s₁, m s = .done a s₁ ∧ f a s₁ = .done b s' := by
  rw [bind_apply] at h
  cases hm : m s with
  | done a s₁ =>
    rw [hm] at h
    exact ⟨a, s₁, rfl, h⟩
  | failed e s₁ =>
    rw [hm] at h
    cases h
  | endless =>
    rw [hm] at h
    cases h

end Run

namespace Eval

/-- Whether to begin with a case: with a default, or if the test has the value of the discriminant
by strict equality. -/
def beginsWith (ev : Evaluator) (scope : ScopeId) (discriminant : Value) (c : Case) : Eval Bool :=
  match c.test with
  | none => pure true
  | some test => do return (← ev.expr test scope).strictEq discriminant

/-- The first case that applies, and its place.  No case after it is looked at. -/
def firstCase (ev : Evaluator) (scope : ScopeId) (discriminant : Value) (cases : List Case) :
    Eval (Option (Case × Nat)) :=
  cases.zipIdx.findM? fun c => beginsWith ev scope discriminant c.1

/-- Run another statement, unless a signal is on its way. -/
def runNext (ev : Evaluator) (scope : ScopeId) : Completion → Stmt → Eval Completion
  | .normal _, s => ev.stmt s scope []
  | signal, _ => pure signal

/-- The cases from a place on; none without one. -/
def casesFrom (cases : List Case) : Option (Case × Nat) → List Case
  | some (_, i) => cases.drop i
  | none => []

/-- A `switch`, part by part, and the signal that leaves it. -/
def switchParts (ev : Evaluator) (discriminant : Expr) (cases : List Case) (scope : ScopeId)
    (labels : List String) : Eval (Option Completion) := do
  let v ← ev.expr discriminant scope
  let inner ← newChild scope
  ((cases.flatMap Case.body).filterMap Stmt.declared?).forM fun f => declareFunction f inner
  let chosen ← firstCase ev inner v cases
  let statements := (casesFrom cases chosen).flatMap Case.body
  let completion ← (statements.filter fun s => s.declared?.isNone).foldlM (runNext ev inner) .empty
  return completion.leaving? labels

variable {ev : Evaluator} {scope : ScopeId} {labels : List String} {discriminant : Value}

/-! ### Functions first -/

/-- The state after a function has been declared: the store has one more function of the program,
and the name is a `var` of the scope that stands for it. -/
def declared (f : Function) (name : String) (scope : ScopeId) (s : State) : State :=
  { s with
    store := { s.store with
      closures := s.store.closures.push { name := some name, node := f, scope, kind := .normal } }
    scopes := s.scopes.setIfInBounds scope
      ((s.scopes.scope scope).insert .var name (.closure s.store.closures.size)) }

/-- A function declaration goes through if the function has a name and is supported, and the name
is bound in the scope as a `var`, if at all.  It leaves nothing else behind than the function under
its name. -/
theorem declareFunction_done_iff {f : Function} {s s' : State} :
    declareFunction f scope s = .done () s' ↔
      ∃ name, f.id = some name ∧ f.generator = false ∧ f.async = false ∧
        (∀ b, (s.scopes.scope scope).bindings.get? name = some b → b.kind = .var) ∧
        s' = declared f name scope s := by
  unfold declareFunction makeClosure
  cases hid : f.id with
  | none => exact ⟨nofun, nofun⟩
  | some name =>
    simp only [Option.some.injEq, exists_eq_left']
    cases hg : f.generator with
    | true => exact ⟨nofun, nofun⟩
    | false =>
      cases ha : f.async with
      | true => exact ⟨nofun, nofun⟩
      | false =>
        -- the function is made first, and then its name is declared
        show onScopes (fun ss => ss.create scope .var name (some _))
          { s with store := (declared f name scope s).store } = _ ↔ _
        unfold onScopes Scopes.create
        dsimp only
        cases hc : (s.scopes.scope scope).create .var name (some (.closure s.store.closures.size))
          with
        | error e =>
          refine ⟨nofun, fun h => ?_⟩
          rw [Scope.create_var_ok_iff.2 ⟨h.2.2.1, rfl⟩] at hc
          cases hc
        | ok c =>
          obtain ⟨hvar, rfl⟩ := Scope.create_var_ok_iff.1 hc
          constructor
          · rintro ⟨⟩
            exact ⟨rfl, rfl, hvar, rfl⟩
          · rintro ⟨-, -, -, rfl⟩
            rfl

/-- The declared name stands for the function. -/
theorem bindings_declared {f : Function} {name : String} {s : State}
    (hs : scope < s.scopes.size)
    (h : ∀ b, (s.scopes.scope scope).bindings.get? name = some b → b.kind = .var) :
    ((declared f name scope s).scopes.scope scope).bindings.get? name
      = some ⟨.var, .closure s.store.closures.size⟩ ∧
    (declared f name scope s).store.closure s.store.closures.size
      = { name := some name, node := f, scope, kind := .normal } := by
  constructor
  · show (Scopes.scope (s.scopes.setIfInBounds scope _) scope).bindings.get? name = _
    rw [Scopes.set_eq_modify, Scopes.scope_modify, if_pos ⟨rfl, hs⟩, Scope.get?_bindings_insert h,
      if_pos rfl]
  · show (s.store.closures.push _).getD s.store.closures.size default = _
    rw [Array.getD_eq_getD_getElem?, Array.getElem?_push_size, Option.getD_some]

/-- The functions of a list of statements are declared one after the other. -/
theorem hoist_eq (scope : ScopeId) (stmts : List Stmt) :
    hoist scope stmts = (stmts.filterMap Stmt.declared?).forM fun f => declareFunction f scope := by
  induction stmts with
  | nil => rfl
  | cons s stmts ih =>
    cases s with
    | function f => exact congrArg (declareFunction f scope >>= ·) (funext fun _ => ih)
    | _ => exact ih

/-- To declare the functions of all cases is to declare those of all bodies as one. -/
theorem hoistCases_eq (scope : ScopeId) (cases : List Case) :
    hoistCases scope cases = hoist scope (cases.flatMap Case.body) := by
  induction cases with
  | nil => rfl
  | cons c cases ih =>
    obtain ⟨test, body⟩ := c
    rw [List.flatMap_cons, hoist_append, ← ih]
    rfl

/-! ### Two passes -/

/-- The cases from the first that applies on.  No test after it is evaluated. -/
def findCase (ev : Evaluator) (scope : ScopeId) (discriminant : Value) :
    List Case → Eval (List Case)
  | [] => pure []
  | .mk test body :: rest => do
    if ← applies ev scope discriminant test then pure (.mk test body :: rest)
    else findCase ev scope discriminant rest

/-- Run the bodies of cases one after the other.  A `break` addressed to the `switch` ends it. -/
def runCases (ev : Evaluator) (scope : ScopeId) (labels : List String) :
    List Case → Value → Eval Completion
  | [], last => pure (.normal last)
  | .mk _ body :: rest, last => do
    match ← runHoisted ev scope body .undefined with
    | .normal value => runCases ev scope labels rest value
    | .breaks label =>
      if addressed labels label then pure (.normal last) else pure (.breaks label)
    | signal => pure signal

/-- Once a case has been found, the rounds run the bodies. -/
theorem caseRounds_matched (ev : Evaluator) (scope : ScopeId) (labels : List String)
    (discriminant : Value) (cases : List Case) (last : Value) :
    caseRounds ev scope labels discriminant true last cases
      = runCases ev scope labels cases last := by
  induction cases generalizing last with
  | nil => rfl
  | cons c cases ih =>
    obtain ⟨test, body⟩ := c
    show (runHoisted ev scope body .undefined >>= _) = _
    refine congrArg (runHoisted ev scope body .undefined >>= ·) (funext fun completion => ?_)
    cases completion with
    | normal value => exact ih value
    | _ => rfl

/-- Until then they look for one: the rounds are one pass that finds the case and one that runs what
is left. -/
theorem caseRounds_eq (ev : Evaluator) (scope : ScopeId) (labels : List String)
    (discriminant : Value) (cases : List Case) (last : Value) :
    caseRounds ev scope labels discriminant false last cases
      = findCase ev scope discriminant cases
          >>= fun chosen => runCases ev scope labels chosen last := by
  induction cases with
  | nil => rfl
  | cons c cases ih =>
    obtain ⟨test, body⟩ := c
    rw [findCase, bind_assoc]
    refine congrArg (applies ev scope discriminant test >>= ·) (funext fun found => ?_)
    cases found with
    | false => exact ih
    | true =>
      -- the first body is run in the same round in which the case is found
      have h := caseRounds_matched ev scope labels discriminant (.mk test body :: cases) last
      exact h

/-! ### The first case that applies -/

theorem findM?_cons {α : Type} (p : α → Eval Bool) (a : α) (as : List α) :
    (a :: as).findM? p = p a >>= fun b => if b then pure (some a) else as.findM? p := by
  rw [List.findM?]
  refine congrArg (p a >>= ·) (funext fun b => ?_)
  cases b <;> rfl

/-- What is left of the cases once the first that applies has been found is what begins at its
place. -/
theorem findCase_drop (ev : Evaluator) (scope : ScopeId) (discriminant : Value)
    (cases rest : List Case) (k : Nat) (h : cases.drop k = rest) :
    findCase ev scope discriminant rest
      = casesFrom cases <$>
          (rest.zipIdx k).findM? fun c => beginsWith ev scope discriminant c.1 := by
  induction rest generalizing k with
  | nil => rfl
  | cons c rest ih =>
    have hrest : cases.drop (k + 1) = rest := by rw [← List.tail_drop, h, List.tail_cons]
    have hhere : casesFrom cases (some (c, k)) = c :: rest := h
    obtain ⟨test, body⟩ := c
    rw [List.zipIdx_cons, findM?_cons, map_bind]
    refine congrArg (applies ev scope discriminant test >>= ·) (funext fun found => ?_)
    cases found with
    | false => exact ih (k + 1) hrest
    | true =>
      show pure _ = pure _
      rw [hhere]

theorem findCase_eq (ev : Evaluator) (scope : ScopeId) (discriminant : Value) (cases : List Case) :
    findCase ev scope discriminant cases
      = casesFrom cases <$> firstCase ev scope discriminant cases :=
  findCase_drop ev scope discriminant cases cases 0 rfl

/-! ### Bodies as one list -/

/-- A signal on its way is passed on. -/
theorem foldlM_runNext_signal {c : Completion} (h : c.signal? = some c) (stmts : List Stmt) :
    stmts.foldlM (runNext ev scope) c = pure c := by
  induction stmts with
  | nil => rfl
  | cons s stmts ih =>
    rw [List.foldlM_cons]
    cases c with
    | normal v => cases h
    | _ => exact ih

/-- Statements are run one after the other, functions left out. -/
theorem runHoisted_eq (ev : Evaluator) (scope : ScopeId) (stmts : List Stmt) (last : Value) :
    runHoisted ev scope stmts last
      = (stmts.filter fun s => s.declared?.isNone).foldlM (runNext ev scope) (.normal last) := by
  induction stmts generalizing last with
  | nil => rfl
  | cons s stmts ih =>
    cases s with
    | function f => exact ih last
    | _ =>
      refine congrArg (ev.stmt _ scope [] >>= ·) (funext fun completion => ?_)
      cases completion with
      | normal value => exact ih value
      | _ => exact (foldlM_runNext_signal rfl _).symm

/-- If what follows does not look at the value of the statements, it does not matter which they
begin with. -/
theorem runHoisted_bind_congr {α : Type} {next : Completion → Eval α} (ev : Evaluator)
    (scope : ScopeId) (stmts : List Stmt) (last last' : Value)
    (hnext : ∀ v v', next (.normal v) = next (.normal v')) :
    runHoisted ev scope stmts last >>= next = runHoisted ev scope stmts last' >>= next := by
  induction stmts with
  | nil => exact hnext last last'
  | cons s stmts ih =>
    cases s with
    | function f => exact ih
    | _ => rfl

/-- Cases run body by body leave the signal that their bodies leave as one list. -/
theorem runCases_signal (ev : Evaluator) (scope : ScopeId) (labels : List String)
    (cases : List Case) (last last' : Value) :
    Completion.signal? <$> runCases ev scope labels cases last
      = Completion.leaving? labels <$> runHoisted ev scope (cases.flatMap Case.body) last' := by
  induction cases generalizing last last' with
  | nil => rfl
  | cons c cases ih =>
    obtain ⟨test, body⟩ := c
    let bodies := cases.flatMap Case.body
    let next (c : Completion) : Eval (Option Completion) :=
      Completion.leaving? labels <$> c.andThen (runHoisted ev scope bodies)
    -- the value so far does not show in the signal
    have hnext (v v' : Value) : next (.normal v) = next (.normal v') :=
      (ih v v).symm.trans (ih v v')
    calc Completion.signal? <$> runCases ev scope labels (.mk test body :: cases) last
        = runHoisted ev scope body .undefined >>= next := by
          rw [runCases, map_bind]
          refine congrArg (runHoisted ev scope body .undefined >>= ·) (funext fun completion => ?_)
          cases completion with
          | normal value => exact ih value value
          | breaks label =>
            show Completion.signal? <$> (if addressed labels label then _ else _ : Eval _)
              = pure (if addressed labels label then none else _)
            split
            · rfl
            · rfl
          | _ => rfl
      _ = runHoisted ev scope body last' >>= next := runHoisted_bind_congr ev scope body _ _ hnext
      _ = Completion.leaving? labels <$> (runHoisted ev scope body last'
            >>= Completion.andThen (runHoisted ev scope bodies)) := (bind_assoc _ _ _).symm
      _ = _ := by
        rw [List.flatMap_cons, runHoisted_append]
        rfl

/-- A `switch` leaves the signal that its parts leave one after the other. -/
theorem switchStmt_signal (ev : Evaluator) (discriminant : Expr) (cases : List Case)
    (scope : ScopeId) (labels : List String) :
    Completion.signal? <$> switchStmt ev discriminant cases scope labels
      = switchParts ev discriminant cases scope labels := by
  unfold switchStmt switchParts
  simp only [map_bind, hoistCases_eq, hoist_eq, caseRounds_eq, findCase_eq, bind_map_left,
    runCases_signal ev _ labels _ _ .undefined, runHoisted_eq]
  rfl

/-! ### The value of a `switch` -/

/-- The bodies of some cases are run to their ends one after the other, the last with a value;
without any cases that is undefined. -/
inductive Finishes (ev : Evaluator) (scope : ScopeId) (s : State) : List Case → Value → State → Prop
  | nil : Finishes ev scope s [] .undefined s
  | snoc {cases : List Case} {c : Case} {v w : Value} {s₁ s₂ : State}
      (h : Finishes ev scope s cases v s₁)
      (hc : runHoisted ev scope c.body .undefined s₁ = .done (.normal w) s₂) :
      Finishes ev scope s (cases ++ [c]) w s₂

/-- Where a `switch` that completes normally stops: after its last case, or at a `break` in the next
of the cases that are left. -/
inductive StopsAt (ev : Evaluator) (scope : ScopeId) (labels : List String) :
    List Case → State → State → Prop
  | last {s : State} : StopsAt ev scope labels [] s s
  | broken {c : Case} {rest : List Case} {label : Option String} {s s' : State}
      (h : runHoisted ev scope c.body .undefined s = .done (.breaks label) s')
      (hl : addressed labels label = true) : StopsAt ev scope labels (c :: rest) s s'

/-- The value is that of the last body that was run to its end. -/
theorem finishes_of_runCases {cases finished : List Case} {v w : Value} {s s₁ s' : State}
    (hf : Finishes ev scope s finished v s₁)
    (h : runCases ev scope labels cases v s₁ = .done (.normal w) s') :
    ∃ more rest s₂, cases = more ++ rest ∧ Finishes ev scope s (finished ++ more) w s₂ ∧
      StopsAt ev scope labels rest s₂ s' := by
  induction cases generalizing finished v s₁ with
  | nil =>
    cases h
    exact ⟨[], [], s', rfl, by rwa [List.append_nil], .last⟩
  | cons c cases ih =>
    obtain ⟨test, body⟩ := c
    rw [runCases, Run.bind_apply] at h
    cases hb : runHoisted ev scope body .undefined s₁ with
    | failed e s₂ =>
      rw [hb] at h
      cases h
    | endless =>
      rw [hb] at h
      cases h
    | done completion s₂ =>
      rw [hb] at h
      cases completion with
      | normal value =>
        obtain ⟨more, rest, s₃, rfl, hfin, hstop⟩ := ih (.snoc (c := .mk test body) hf hb) h
        refine ⟨.mk test body :: more, rest, s₃, rfl, ?_, hstop⟩
        rwa [List.append_assoc] at hfin
      -- a `break` of the switch ends it normally, at this case
      | breaks label =>
        dsimp only at h
        split at h
        · cases h
          exact ⟨[], .mk test body :: cases, s₁, rfl, by rwa [List.append_nil], .broken hb ‹_›⟩
        · cases h
      | returns value => cases h
      | continues label => cases h

theorem casesFrom_suffix (cases : List Case) (chosen : Option (Case × Nat)) :
    casesFrom cases chosen <:+ cases := by
  cases chosen with
  | none => exact List.nil_suffix
  | some c => exact List.drop_suffix c.2 cases

/-- A `switch` that completes normally has the value of the last body that was run to its end. -/
theorem switchStmt_value {expr : Expr} {cases : List Case} {w : Value} {s s' : State}
    (h : switchStmt ev expr cases scope labels s = .done (.normal w) s') :
    ∃ inner finished rest s₁ s₂, finished ++ rest <:+ cases ∧
      Finishes ev inner s₁ finished w s₂ ∧ StopsAt ev inner labels rest s₂ s' := by
  unfold switchStmt at h
  obtain ⟨v, s₁, -, h⟩ := Run.of_bind_done h
  obtain ⟨inner, s₂, -, h⟩ := Run.of_bind_done h
  obtain ⟨-, s₃, -, h⟩ := Run.of_bind_done h
  rw [caseRounds_eq] at h
  obtain ⟨chosen, s₄, hchosen, h⟩ := Run.of_bind_done h
  have hsuffix : chosen <:+ cases := by
    rw [findCase_eq] at hchosen
    obtain ⟨first, s₅, -, hfirst⟩ := Run.of_bind_done hchosen
    cases hfirst
    exact casesFrom_suffix cases first
  obtain ⟨finished, rest, s₅, rfl, hfin, hstop⟩ := finishes_of_runCases .nil h
  exact ⟨inner, finished, rest, s₄, s₅, hsuffix, hfin, hstop⟩

end Eval

/-- **A `switch` equals its parts.**  Executing a `switch` evaluates the discriminant, declares the
functions of all cases in one new scope, finds the first case that is a default or whose test has
the value of the discriminant, and runs the other statements of the bodies from there on as one
list, up to the first signal.  A `break` that is addressed to the `switch` ends it normally, and
every other signal leaves it.  Both give the same signal or error and leave the same state, or
neither ends.  If the `switch` completes normally, its value is that of the last body that was run
to its end, which is that of the last case or comes before a `break`. -/
theorem switch_equals_its_parts (host : Host) (n : Nat) (discriminant : Expr) (cases : List Case)
    (scope : ScopeId) (labels : List String) :
    Completion.signal? <$> Machine.execStmt host (n + 1) (.switch discriminant cases) scope labels
      = Eval.switchParts (Machine.evaluator host n) discriminant cases scope labels ∧
    ∀ s w s', Machine.execStmt host (n + 1) (.switch discriminant cases) scope labels s
        = .done (.normal w) s' →
      ∃ inner finished rest s₁ s₂, finished ++ rest <:+ cases ∧
        Eval.Finishes (Machine.evaluator host n) inner s₁ finished w s₂ ∧
        Eval.StopsAt (Machine.evaluator host n) inner labels rest s₂ s' :=
  ⟨Eval.switchStmt_signal (Machine.evaluator host n) discriminant cases scope labels,
    fun _ _ _ h => Eval.switchStmt_value h⟩

/-- A default in the midst of the cases is chosen over a later match and falls through to a
`break`, which leaves the value of the body before. -/
theorem switch_from_a_default_to_a_break :
    let text (s : String) : Expr := .literal { value := .str s }
    let cases : List Case := [.mk (some (text "a")) [.expression (text "first")],
      .mk none [.expression (text "second")], .mk (some (text "b")) [.breaks none]]
    let ev := Machine.evaluator Host.none 4
    ∃ s, Machine.execStmt Host.none 5 (.switch (text "b") cases) rootScope [] default
        = .done (.normal (.str "second")) s ∧
      Eval.switchParts ev (text "b") cases rootScope [] default = .done none s ∧
      ∃ inner finished rest s₁ s₂, finished ++ rest <:+ cases ∧
        Eval.Finishes ev inner s₁ finished (.str "second") s₂ ∧
        Eval.StopsAt ev inner [] rest s₂ s := by
  intro text cases ev
  obtain ⟨s, h⟩ : ∃ s, Machine.execStmt Host.none 5 (.switch (text "b") cases) rootScope [] default
      = .done (.normal (.str "second")) s := by
    dsimp only [cases, text]
    exact ⟨_, rfl⟩
  obtain ⟨signal, value⟩ := switch_equals_its_parts Host.none 4 (text "b") cases rootScope []
  refine ⟨s, h, ?_, value _ _ _ h⟩
  rw [← signal]
  exact Run.bind_done h

end Estree
