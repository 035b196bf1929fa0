/-
Estree/Proofs/Discipline.lean

What one level of evaluation may do, said once.

A computation over a performer is composed of a few things (`Abides`): its own steps, each of
which touches the store, one binding or one new scope; tasks that it asks the performer for;
one thing after the other; and the two guards `Run.recover` and `Eval.framed`.
That every rule of the evaluator is composed in this way is shown in `Estree.Proofs.Level`.
What holds of all evaluations is then an induction over a dozen cases, none of them about
syntax (`Estree.Proofs.Law`, `Estree.Proofs.Asking`).

A `Discipline` restricts the parts: which expressions and statements are evaluated, which jumps
leave a statement, which functions are made, which causes are raised, which names are used.
The most permissive one is `{}`.  A `Reach` tells which scopes a computation may use, in which
of them it may declare names, and which it has opened itself.
-/
import Estree.Proofs.Routine

namespace Estree

/-! ### Jumps -/

/-- A jump on its way outward. -/
inductive Jump where
  | breaks (label : Option String)
  | continues (label : Option String)

namespace Jump

/-- The label it is addressed to. -/
def label : Jump → Option String
  | breaks label | continues label => label

/-- The cause of failure if nothing takes it up. -/
def stray : Jump → Cause
  | breaks label => .strayBreak label
  | continues label => .strayContinue label

end Jump

/-- Completions whose jump, if they are one, is among the given. -/
def Completion.Within (J : Jump → Prop) : Completion → Prop
  | .normal _ | .returns _ => True
  | .breaks label => J (.breaks label)
  | .continues label => J (.continues label)

/-- A completion within some jumps is within more of them. -/
theorem Completion.Within.mono {J J' : Jump → Prop} (h : ∀ j, J j → J' j) {c : Completion}
    (hc : c.Within J) : c.Within J' := by
  cases c with
  | normal _ => trivial
  | returns _ => trivial
  | breaks label => exact h _ hc
  | continues label => exact h _ hc

/-! ### Scopes in reach -/

/-- The scopes that a computation knows, those it may declare names in, and those it has opened
itself. -/
structure Reach where
  known : ScopeId → Prop
  own : ScopeId → Prop
  fresh : ScopeId → Prop
  own_known : ∀ {id}, own id → known id
  fresh_own : ∀ {id}, fresh id → own id

namespace Reach

/-- No scopes at all. -/
def none : Reach := ⟨fun _ => False, fun _ => False, fun _ => False, id, id⟩

/-- A scope that may be used, but not declared in. -/
def seeing (scope : ScopeId) : Reach :=
  ⟨fun id => id = scope, fun _ => False, fun _ => False, False.elim, id⟩

/-- A scope that may be declared in. -/
def owning (scope : ScopeId) : Reach :=
  ⟨fun id => id = scope, fun id => id = scope, fun _ => False, id, False.elim⟩

/-- With a scope that has just been opened. -/
def add (Γ : Reach) (scope : ScopeId) : Reach where
  known id := id = scope ∨ Γ.known id
  own id := id = scope ∨ Γ.own id
  fresh id := id = scope ∨ Γ.fresh id
  own_known h := h.imp_right Γ.own_known
  fresh_own h := h.imp_right Γ.fresh_own

/-- With a scope that a function was made in. -/
def learn (Γ : Reach) (scope : ScopeId) : Reach where
  known id := id = scope ∨ Γ.known id
  own := Γ.own
  fresh := Γ.fresh
  own_known h := .inr (Γ.own_known h)
  fresh_own := Γ.fresh_own

/-- The scopes that a task comes with. -/
def of : Task → Reach
  | .expr _ scope | .handler _ _ scope => seeing scope
  | .stmt _ scope _ | .body _ scope => owning scope
  | .invoke c _ _ => seeing c.scope
  | .program _ _ => owning rootScope
  | .call _ _ _ | .apply _ _ _ | .construct _ _ | .spent => none

/-- One reach within another. -/
structure Le (Γ' Γ : Reach) : Prop where
  known : ∀ {id}, Γ'.known id → Γ.known id
  own : ∀ {id}, Γ'.own id → Γ.own id
  fresh : ∀ {id}, Γ'.fresh id → Γ.fresh id

variable {Γ : Reach} {scope : ScopeId}

/-- Nothing at all is reached everywhere. -/
theorem none_le (Γ : Reach) : none.Le Γ := ⟨False.elim, False.elim, False.elim⟩

/-- To see one known scope is no more than is allowed already. -/
theorem seeing_le (h : Γ.known scope) : (seeing scope).Le Γ :=
  ⟨fun hid => hid ▸ h, False.elim, False.elim⟩

/-- To own one owned scope is no more than is allowed already. -/
theorem owning_le (h : Γ.own scope) : (owning scope).Le Γ :=
  ⟨fun hid => hid ▸ Γ.own_known h, fun hid => hid ▸ h, False.elim⟩

/-- No scope is fresh for a whole task: it may have been declared in before. -/
theorem not_fresh_of (t : Task) : ¬ (of t).fresh scope := by
  cases t <;> exact id

theorem fresh_add : (Γ.add scope).fresh scope := .inl rfl

theorem own_add : (Γ.add scope).own scope := .inl rfl

theorem known_add : (Γ.add scope).known scope := .inl rfl

theorem known.add {id : ScopeId} (h : Γ.known id) : (Γ.add scope).known id := .inr h

end Reach

/-! ### Own steps -/

/-- A step that a computation takes without asking for anything. -/
inductive Step (host : Host) : Type → Type 1 where
  | store {α : Type} (m : Run Store α) (h : Routine host m) : Step host α
  | closure (c : Closure) : Step host Value
  | query (scope : ScopeId) (name : String) : Step host Value
  | lookup (scope : ScopeId) (name : String) : Step host (Option Value)
  | declare (scope : ScopeId) (kind : VarKind) (name : String) (value : Option Value) :
      Step host Unit
  | assign (scope : ScopeId) (name : String) (value : Value) : Step host Unit
  | delete (scope : ScopeId) (name : String) : Step host Bool

/-- What a step does. -/
def Step.run {host : Host} {α : Type} : Step host α → Eval α
  | store m _ => Eval.onStore m
  | closure c => Eval.onStore (Store.newClosure c)
  | query scope name => Eval.query scope name
  | lookup scope name => Eval.lookup scope name
  | declare scope kind name value => Eval.declare scope kind name value
  | assign scope name value => Eval.assign scope name value
  | delete scope name => Eval.deleteName scope name

/-! ### Disciplines -/

/-- What evaluations are restricted to. -/
structure Discipline where
  /-- The expressions that are evaluated. -/
  expr : Expr → Prop := fun _ => True
  /-- The statements that are executed, with the labels in front of them. -/
  stmt : Stmt → List String → Prop := fun _ _ => True
  /-- The jumps that may leave a statement. -/
  jumps : Stmt → List String → Jump → Prop := fun _ _ _ => True
  /-- The jumps that may leave a list of statements. -/
  bodyJumps : List Stmt → Jump → Prop := fun _ _ => True
  /-- The functions that are made and called. -/
  function : Function → Prop := fun _ => True
  /-- The causes that are raised, apart from ordinary ones. -/
  fails : Cause → Prop := fun _ => True
  /-- The names that are used outside of freshly opened scopes. -/
  names : String → Prop := fun _ => True
  /-- The names that are deleted. -/
  deletes : String → Prop := fun _ => True
  /-- Whether there may be loops whose rounds only the budget bounds. -/
  loops : Prop := True
  /-- Whether functions may be entered. -/
  enters : Prop := True
  /-- Whether parts may be performed that spend nothing, apart from the insides of functions. -/
  parts : Prop := True

/-- Whether a discipline lets a computation take a step. -/
def Step.Allowed {host : Host} {α : Type} (D : Discipline) (Γ : Reach) : Step host α → Prop
  | store _ _ => True
  | closure c => D.function c.node ∧ Γ.known c.scope
  | query scope name => Γ.known scope ∧ D.names name
  | lookup scope name => Γ.known scope ∧ D.names name
  | declare scope _ name _ => Γ.own scope ∧ (Γ.fresh scope ∨ D.names name)
  | assign scope name _ => Γ.known scope ∧ D.names name
  | delete scope name => Γ.known scope ∧ D.names name ∧ D.deletes name

namespace Discipline

variable (D : Discipline)

/-- A function that is made. -/
def AdmitsFunction (f : Function) : Prop :=
  D.function f ∧ (f.generator = true ∨ f.async = true → ∀ kind, D.fails (.unsupported kind))

/-- A function that is declared under its own name. -/
def AdmitsDeclaration (f : Function) : Prop :=
  match f.id with
  | none => D.fails (.unsupported "FunctionDeclaration without a name")
  | some name => D.names name ∧ D.AdmitsFunction f

/-- A list of statements: first its functions are declared, then the others are run one after the
other. -/
def Body (stmts : List Stmt) : Prop :=
  ∀ s ∈ stmts, D.stmt s [] ∧ (∀ j, D.jumps s [] j → D.bodyJumps stmts j) ∧
    ∀ f, s = .function f → D.AdmitsDeclaration f

/-- Jumps that lead nowhere are raised as errors. -/
def Lands (J : Jump → Prop) : Prop := ∀ j, J j → D.fails j.stray

/-- A pattern that must stand for one name. -/
def Binds (p : Pattern) : Prop := (∃ name, p = .ident name) ∨ D.fails (.unsupported p.kind)

/-- A handler. -/
def Handles : Handler → Prop
  | .mk param body => (∀ p, param = some p → D.Binds p) ∧ D.Body body

/-- The tasks that may be asked for. -/
def asks : Task → Prop
  | .expr e _ => D.expr e
  | .stmt s _ labels => D.stmt s labels
  | .body stmts _ => D.Body stmts
  | .handler h _ _ => D.Handles h
  | .invoke c _ _ => D.function c.node
  | .program _ p => D.Body p.body ∧ D.Lands (D.bodyJumps p.body)
  | .call _ _ _ | .apply _ _ _ | .construct _ _ => True
  | .spent => D.loops

/-- Whether a task is of a kind that may be asked for. -/
def opens : Task → Prop
  | .expr _ _ | .stmt _ _ _ | .call _ _ _ | .spent => True
  | .invoke _ _ _ => D.enters
  | .body _ _ | .handler _ _ _ | .apply _ _ _ | .construct _ _ | .program _ _ => D.parts

/-- What a task may give. -/
def gives : (t : Task) → t.Result → Prop
  | .stmt s _ labels => Completion.Within (D.jumps s labels)
  | .body stmts _ => Completion.Within (D.bodyJumps stmts)
  | .handler (.mk _ body) _ _ => Completion.Within (D.bodyJumps body)
  | .expr _ _ | .call _ _ _ | .invoke _ _ _ | .apply _ _ _ | .construct _ _ | .program _ _
  | .spent => fun _ => True

end Discipline

/-! ### Computations under a discipline -/

/-- `Abides host D Γ Q F`: within the reach `Γ`, the computation `F` over a performer is composed
as the discipline `D` demands, and what it gives has the property `Q`. -/
inductive Abides (host : Host) (D : Discipline) :
    Reach → {α : Type} → (α → Prop) → (Performer → Eval α) → Prop
  | pure {Γ : Reach} {α : Type} {Q : α → Prop} {a : α} (h : Q a) :
      Abides host D Γ Q fun _ => pure a
  | endless {Γ : Reach} {α : Type} {Q : α → Prop} (h : D.loops) :
      Abides host D Γ Q fun _ => Run.endless
  | fail {Γ : Reach} {α : Type} {Q : α → Prop} {cause : Cause}
      (h : cause.isOrdinary = true ∨ D.fails cause) :
      Abides host D Γ Q fun _ => Run.failWith cause
  | step {Γ : Reach} {α : Type} (st : Step host α) (h : st.Allowed D Γ) :
      Abides host D Γ (fun _ => True) fun _ => st.run
  | ask {Γ : Reach} (t : Task) (h : D.asks t) (ho : D.opens t) (hΓ : (Reach.of t).Le Γ) :
      Abides host D Γ (D.gives t) fun p => p t
  | weaken {Γ : Reach} {α : Type} {Q Q' : α → Prop} {F : Performer → Eval α}
      (h : Abides host D Γ Q F) (hQ : ∀ a, Q a → Q' a) : Abides host D Γ Q' F
  | bind {Γ : Reach} {α β : Type} {Q : α → Prop} {Q' : β → Prop} {F : Performer → Eval α}
      {G : α → Performer → Eval β} (hF : Abides host D Γ Q F)
      (hG : ∀ a, Q a → Abides host D Γ Q' (G a)) :
      Abides host D Γ Q' fun p => F p >>= fun a => G a p
  | child {Γ : Reach} {α : Type} {Q : α → Prop} {G : ScopeId → Performer → Eval α}
      {parent : ScopeId} (hs : Γ.known parent)
      (hG : ∀ id, Abides host D (Γ.add id) Q (G id)) :
      Abides host D Γ Q fun p => Eval.newChild parent >>= fun id => G id p
  | fork {Γ : Reach} {α : Type} {Q : α → Prop} {G : ScopeId → Performer → Eval α}
      {source : ScopeId} (hs : Γ.fresh source)
      (hG : ∀ id, Abides host D (Γ.add id) Q (G id)) :
      Abides host D Γ Q fun p => Eval.newFork source >>= fun id => G id p
  | load {Γ : Reach} {α : Type} {Q : α → Prop} {G : Closure → Performer → Eval α}
      {id : ClosureId} (h : D.enters)
      (hG : ∀ c, D.function c.node → Abides host D (Γ.learn c.scope) Q (G c)) :
      Abides host D Γ Q fun p => Run.read (fun s => s.store.closure id) >>= fun c => G c p
  | recover {Γ : Reach} {α β : Type} {Q : α → Prop} {Q' : β → Prop} {F : Performer → Eval α}
      {G : α → Performer → Eval β} {H : EvalError → Performer → Eval β}
      (hF : Abides host D Γ Q F) (hG : ∀ a, Q a → Abides host D Γ Q' (G a))
      (hH : ∀ e, Abides host D Γ Q' (H e)) :
      Abides host D Γ Q' fun p => Run.recover (F p) (fun a => G a p) fun e => H e p
  | framed {Γ : Reach} {α : Type} {Q : α → Prop} {F : Performer → Eval α} {name : String}
      (h : D.enters) (hF : Abides host D Γ Q F) :
      Abides host D Γ Q fun p => Eval.framed name (F p)

namespace Abides

variable {host : Host} {D : Discipline} {Γ : Reach} {α : Type} {Q : α → Prop} {rounds : Nat}
variable {scope : ScopeId} {name : String}

/-! ### Single steps -/

/-- An action on the store needs no scope, so the discipline has nothing to say about it. -/
theorem store {m : Run Store α} (h : Scopeless host m) :
    Abides host D Γ (fun _ => True) fun _ => Eval.onStore m :=
  .step (.store m h.routine) trivial

theorem peek (f : Store → α) :
    Abides host D Γ (fun _ => True) fun _ => Run.read fun s => f s.store :=
  .step (.store _ (.read f)) trivial

/-- A question about an allowed name from a known scope abides. -/
theorem query (hs : Γ.known scope) (hn : D.names name) :
    Abides host D Γ (fun _ => True) fun _ => Eval.query scope name :=
  .step (.query scope name) ⟨hs, hn⟩

/-- Reading an allowed name from a known scope abides. -/
theorem lookup (hs : Γ.known scope) (hn : D.names name) :
    Abides host D Γ (fun _ => True) fun _ => Eval.lookup scope name :=
  .step (.lookup scope name) ⟨hs, hn⟩

/-- A declaration in an owned scope abides if the scope is fresh or the name is allowed. -/
theorem declare {kind : VarKind} {value : Option Value} (hs : Γ.own scope)
    (hn : Γ.fresh scope ∨ D.names name) :
    Abides host D Γ (fun _ => True) fun _ => Eval.declare scope kind name value :=
  .step (.declare scope kind name value) ⟨hs, hn⟩

/-- An assignment to an allowed name from a known scope abides. -/
theorem assign {value : Value} (hs : Γ.known scope) (hn : D.names name) :
    Abides host D Γ (fun _ => True) fun _ => Eval.assign scope name value :=
  .step (.assign scope name value) ⟨hs, hn⟩

/-! ### Asking -/

/-- An expression under the discipline, at a known scope. -/
theorem expr {e : Expr} (h : D.expr e) (hs : Γ.known scope) :
    Abides host D Γ (fun _ => True) fun p => (p.evaluator rounds).expr e scope :=
  .ask (.expr e scope) h trivial (Reach.seeing_le hs)

/-- A statement under the discipline, at an owned scope; it ends with one of its own jumps. -/
theorem stmt {s : Stmt} {labels : List String} (h : D.stmt s labels) (hs : Γ.own scope) :
    Abides host D Γ (Completion.Within (D.jumps s labels))
      fun p => (p.evaluator rounds).stmt s scope labels :=
  .ask (.stmt s scope labels) h trivial (Reach.owning_le hs)

/-- A call of a closure: its scopes are its own, so nothing has to be known of the caller. -/
theorem call {id : ClosureId} {this : Value} {args : List Value} :
    Abides host D Γ (fun _ => True) fun p => (p.evaluator rounds).call id this args :=
  .ask (.call id this args) trivial trivial (Reach.none_le Γ)

/-- A loop may run out of rounds where there may be unbounded loops. -/
theorem spent {Q : Completion → Prop} (h : D.loops) :
    Abides host D Γ Q fun p => (p.evaluator rounds).spent :=
  .bind (.ask .spent h trivial (Reach.none_le Γ)) nofun

end Abides

end Estree
