/-
Estree/Proofs/Level/Expression.lean

The rules for functions and expressions are composed as a discipline demands.

`Discipline.AdmitsExpr` says what a discipline must let through for the rule of an expression to
abide by it.  It looks at the expression itself and at its parts, but not inside of them: that
is up to `Discipline.expr`.  The main result is `Abides.exprRule`.

The proofs follow the rules of the evaluator line by line: a `bind` for every part that is
evaluated, with what the discipline admits of that part, and one step for whatever touches the
scopes or the store.  So they hold for every discipline, and what a particular claim needs to know
about expressions is only what its own discipline admits.
-/
import Estree.Proofs.Discipline

namespace Estree

namespace Discipline

variable (D : Discipline)

/-! ### What a discipline must admit -/

/-- An expression whose value may be given a name. -/
def AdmitsOperand (e : Expr) : Prop :=
  D.expr e ∧ ∀ f, e = .function f ∨ e = .arrow f → D.AdmitsFunction f

/-- A literal. -/
def AdmitsLiteral (l : Literal) : Prop :=
  l.isExotic = true → ∀ kind, D.fails (.unsupported kind)

/-- The property of a member expression. -/
def AdmitsKey (property : Expr) : (computed : Bool) → Prop
  | true => D.expr property
  | false => (∃ name, property = .ident name) ∨ D.fails (.unsupported property.kind)

/-- The key of a property. -/
def AdmitsPropertyKey : (key : Expr) → (computed : Bool) → Prop
  | .ident _, false => True
  | .literal l, false => D.AdmitsLiteral l
  | e, _ => D.expr e

/-- An entry of an object literal. -/
def AdmitsMember : Member → Prop
  | .spread => D.fails (.unsupported "SpreadElement")
  | .property key value kind computed _ _ =>
    (kind = .init → D.AdmitsPropertyKey key computed ∧ D.AdmitsOperand value) ∧
      (kind ≠ .init → D.fails (.unsupported "accessor Property"))

/-- A unary expression. -/
def AdmitsUnary : UnaryOp → Expr → Prop
  | .typeOf, .ident name => D.names name
  | .delete, .ident name => D.names name ∧ D.deletes name
  | .delete, .member object property computed => D.expr object ∧ D.AdmitsKey property computed
  | _, e => D.expr e

/-- What `++` and `--` work on. -/
def AdmitsUpdate : Expr → Prop
  | .ident name => D.names name
  | .member object property computed => D.expr object ∧ D.AdmitsKey property computed
  | e => D.fails (.unsupported e.kind)

/-- What an assignment works on. -/
def AdmitsTarget : Pattern → Prop
  | .ident name => D.names name
  | .member object property computed => D.expr object ∧ D.AdmitsKey property computed
  | p => D.fails (.unsupported p.kind)

/-- What is called. -/
def AdmitsCallee : Expr → Prop
  | .member object property computed => D.expr object ∧ D.AdmitsKey property computed
  | e => D.expr e ∧ D.names "this"

/-- An expression. -/
def AdmitsExpr : Expr → Prop
  | .ident name => D.names name
  | .literal l => D.AdmitsLiteral l
  | .this => D.names "this"
  | .array elements => ∀ e, some e ∈ elements → D.expr e
  | .object members => ∀ m ∈ members, D.AdmitsMember m
  | .function f | .arrow f => D.AdmitsFunction f
  | .template _ expressions => ∀ e ∈ expressions, D.expr e
  | .unary op argument => D.AdmitsUnary op argument
  | .update _ argument _ => D.AdmitsUpdate argument
  | .binary _ left right | .logical _ left right => D.expr left ∧ D.expr right
  | .assign _ target right => D.AdmitsTarget target ∧ D.AdmitsOperand right
  | .conditional test consequent alternate =>
    D.expr test ∧ D.expr consequent ∧ D.expr alternate
  | .call callee arguments => D.AdmitsCallee callee ∧ ∀ e ∈ arguments, D.expr e
  | .new callee arguments => D.expr callee ∧ ∀ e ∈ arguments, D.expr e
  | .member object property computed => D.expr object ∧ D.AdmitsKey property computed
  | .sequence expressions => ∀ e ∈ expressions, D.expr e
  | .inert node => D.fails (.unsupported node.kind)

end Discipline

namespace Abides

variable {host : Host} {D : Discipline} {Γ : Reach} {rounds : Nat} {scope : ScopeId}

/-! ### Functions -/

theorem makeClosure {f : Function} {name : Option String} {kind : ClosureKind}
    (hf : D.AdmitsFunction f) (hs : Γ.known scope) :
    Abides host D Γ (fun _ => True) fun _ => Eval.makeClosure f name scope kind := by
  unfold Eval.makeClosure
  split
  · exact .fail (.inr (hf.2 (.inl ‹_›) _))
  · split
    · exact .fail (.inr (hf.2 (.inr ‹_›) _))
    · exact .step (.closure { name, node := f, scope, kind }) ⟨hf.1, hs⟩

/-- A function without a name gets one from the place that it is put in; all else is evaluated. -/
theorem named {e : Expr} {name : String} (he : D.AdmitsOperand e) (hs : Γ.known scope) :
    Abides host D Γ (fun _ => True) fun p => Eval.named (p.evaluator rounds) e name scope := by
  cases e with
  | function f =>
    unfold Eval.named
    dsimp only
    split
    · exact makeClosure (he.2 f (.inl rfl)) hs
    · exact expr he.1 hs
  | arrow f => exact makeClosure (he.2 f (.inr rfl)) hs
  | _ => exact expr he.1 hs

theorem functionValue {f : Function} (hf : D.AdmitsFunction f) (hs : Γ.known scope) :
    Abides host D Γ (fun _ => True) fun _ => Eval.functionValue f scope := by
  unfold Eval.functionValue
  split
  · exact makeClosure hf hs
  · refine .child hs fun own => .bind (makeClosure hf Reach.known_add) fun v _ => ?_
    exact .bind (declare Reach.own_add (.inl Reach.fresh_add)) fun _ _ => .pure trivial

/-- A function of the program is a task of its own, a function of the host a routine, and nothing
else can be called. -/
theorem callValue {callee this : Value} {args : List Value} :
    Abides host D Γ (fun _ => True)
      fun p => Eval.callValue host (p.evaluator rounds) callee this args := by
  cases callee with
  | closure id => exact call
  | native id => exact store (.callNative id this args)
  | _ => exact .bind (store (.text _)) fun _ _ => .fail (.inl rfl)

/-- A new object is made for a function of the program and is its receiver; the host makes its own.
-/
theorem construct {callee : Value} {args : List Value} :
    Abides host D Γ (fun _ => True)
      fun p => Eval.construct host (p.evaluator rounds) callee args := by
  cases callee with
  | closure id =>
    refine .bind (peek fun s => s.closure id) fun c _ => ?_
    split
    · refine .bind (store (.newObject _)) fun made _ => .bind call fun result _ => ?_
      split <;> exact .pure trivial
    · exact .fail (.inl rfl)
  | native id =>
    refine .bind (peek fun s => s.native id) fun n _ => ?_
    split
    · exact store (.callNative id .undefined args)
    · exact .fail (.inl rfl)
  | _ => exact .bind (store (.text _)) fun _ _ => .fail (.inl rfl)

/-! ### Literals -/

/-- A literal is its value, unless it is one of those that are not supported. -/
theorem literalValue {l : Literal} (hl : D.AdmitsLiteral l) :
    Abides host D Γ (fun _ => True) fun _ => Eval.literalValue l := by
  unfold Eval.literalValue
  split
  · exact .fail (.inr (hl (by simp [Literal.isExotic, *]) _))
  · split
    · exact .fail (.inr (hl (by simp [Literal.isExotic, *]) _))
    · split <;> exact .pure trivial

/-- Expressions are evaluated one after the other, in the same scope. -/
theorem exprList {es : List Expr} (hes : ∀ e ∈ es, D.expr e) (hs : Γ.known scope) :
    Abides host D Γ (fun _ => True) fun p => Eval.exprList (p.evaluator rounds) scope es := by
  induction es with
  | nil => exact .pure trivial
  | cons e es ih =>
    rw [List.forall_mem_cons] at hes
    exact .bind (expr hes.1 hs) fun _ _ => .bind (ih hes.2) fun _ _ => .pure trivial

/-- A hole in an array literal is undefined, and nothing is evaluated for it. -/
theorem elementList {elements : List (Option Expr)} (he : ∀ e, some e ∈ elements → D.expr e)
    (hs : Γ.known scope) :
    Abides host D Γ (fun _ => True)
      fun p => Eval.elementList (p.evaluator rounds) scope elements := by
  induction elements with
  | nil => exact .pure trivial
  | cons element elements ih =>
    have rest := ih fun e h => he e (.tail _ h)
    cases element with
    | none => exact .bind rest fun _ _ => .pure trivial
    | some e =>
      exact .bind (expr (he e (.head _)) hs) fun _ _ => .bind rest fun _ _ => .pure trivial

/-- A key is a name, a literal or what an expression gives; what it gives is converted. -/
theorem propertyKey {key : Expr} {computed : Bool} (hk : D.AdmitsPropertyKey key computed)
    (hs : Γ.known scope) :
    Abides host D Γ (fun _ => True)
      fun p => Eval.propertyKey (p.evaluator rounds) scope key computed := by
  cases computed with
  | true => cases key <;> exact .bind (expr hk hs) fun _ _ => store (.text _)
  | false =>
    cases key with
    | ident name => exact .pure trivial
    | literal l => exact .bind (literalValue hk) fun _ _ => store (.text _)
    | _ => exact .bind (expr hk hs) fun _ _ => store (.text _)

/-- Entries are evaluated in order, the key in front of the value; a spread fails, and so does an
accessor. -/
theorem memberList {members : List Member} (hm : ∀ m ∈ members, D.AdmitsMember m)
    (hs : Γ.known scope) (props : Table Value) :
    Abides host D Γ (fun _ => True)
      fun p => Eval.memberList (p.evaluator rounds) scope members props := by
  induction members generalizing props with
  | nil => exact .pure trivial
  | cons m members ih =>
    rw [List.forall_mem_cons] at hm
    cases m with
    | spread => exact .fail (.inr hm.1)
    | property key value kind computed method shorthand =>
      unfold Eval.memberList
      split
      · obtain ⟨hk, hv⟩ := hm.1.1 ‹_›
        exact .bind (propertyKey hk hs) fun _ _ => .bind (named hv hs) fun _ _ => ih hm.2 _
      · exact .fail (.inr (hm.1.2 ‹_›))

/-- Each stretch of text is followed by the next expression, as long as there is one. -/
theorem templateText {expressions : List Expr} (he : ∀ e ∈ expressions, D.expr e)
    (hs : Γ.known scope) (quasis : List Quasi) (text : String) :
    Abides host D Γ (fun _ => True)
      fun p => Eval.templateText (p.evaluator rounds) scope quasis expressions text := by
  induction quasis generalizing expressions text with
  | nil => exact .pure trivial
  | cons q quasis ih =>
    cases expressions with
    | nil => exact ih he _
    | cons e rest =>
      rw [List.forall_mem_cons] at he
      exact .bind (expr he.1 hs) fun v _ => .bind (store (.text v)) fun _ _ => ih he.2 _

/-! ### References -/

/-- The key of a member is a name that is not looked up, or what an expression gives. -/
theorem memberKey {property : Expr} {computed : Bool} (hk : D.AdmitsKey property computed)
    (hs : Γ.known scope) :
    Abides host D Γ (fun _ => True)
      fun p => Eval.memberKey (p.evaluator rounds) scope property computed := by
  cases computed with
  | true => exact .bind (expr hk hs) fun _ _ => store (.text _)
  | false =>
    obtain ⟨name, rfl⟩ | hf := hk
    · exact .pure trivial
    · cases property with
      | ident name => exact .pure trivial
      | _ => exact .fail (.inr hf)

theorem memberParts {object property : Expr} {computed : Bool} (ho : D.expr object)
    (hk : D.AdmitsKey property computed) (hs : Γ.known scope) :
    Abides host D Γ (fun _ => True)
      fun p => Eval.memberParts (p.evaluator rounds) scope object property computed :=
  .bind (expr ho hs) fun _ _ => .bind (memberKey hk hs) fun _ _ => .pure trivial

/-- The references that a discipline lets be used. -/
def Usable (D : Discipline) : Eval.Reference → Prop
  | .variable name => D.names name
  | .property _ _ => True

/-- A name is looked up, a property is read. -/
theorem getReference {r : Eval.Reference} (hr : Usable D r) (hs : Γ.known scope) :
    Abides host D Γ (fun _ => True) fun _ => Eval.getReference scope r := by
  match r, hr with
  | .variable name, hn => exact query hs hn
  | .property base key, _ => exact store (.get base key)

/-- A name is assigned, a property is written. -/
theorem putReference {r : Eval.Reference} {value : Value} (hr : Usable D r) (hs : Γ.known scope) :
    Abides host D Γ (fun _ => True) fun _ => Eval.putReference scope r value := by
  match r, hr with
  | .variable name, hn => exact assign hs hn
  | .property base key, _ => exact store (.set base key value)

theorem memberReference {object property : Expr} {computed : Bool} (ho : D.expr object)
    (hk : D.AdmitsKey property computed) (hs : Γ.known scope) :
    Abides host D Γ (Usable D)
      fun p => Eval.memberReference (p.evaluator rounds) scope object property computed :=
  .bind (memberParts ho hk hs) fun _ _ => .pure trivial

/-! ### Operators -/

theorem thisValue (hs : Γ.known scope) (hn : D.names "this") :
    Abides host D Γ (fun _ => True) fun _ => Eval.thisValue scope :=
  .bind (lookup hs hn) fun _ _ => .pure trivial

/-- `typeof` and `delete` look at their argument before they evaluate it; all others only convert
its value. -/
theorem unaryExpr {op : UnaryOp} {argument : Expr} (h : D.AdmitsUnary op argument)
    (hs : Γ.known scope) :
    Abides host D Γ (fun _ => True)
      fun p => Eval.unaryExpr (p.evaluator rounds) scope op argument := by
  -- all but two of the operators evaluate their operand and apply themselves
  have plain (op : UnaryOp) (h : D.expr argument) : Abides host D Γ (fun _ => True) (fun p => do
      let v ← (p.evaluator rounds).expr argument scope
      Eval.onStore (Operator.unary op v)) :=
    .bind (expr h hs) fun v _ => store (.unary op v)
  cases op with
  -- `typeof` asks for a name without failing
  | typeOf =>
    cases argument with
    | ident name =>
      refine .bind (lookup hs h) fun found _ => ?_
      cases found <;> exact .pure trivial
    | _ => exact plain .typeOf h
  | delete =>
    cases argument with
    | ident name =>
      exact .bind (.step (.delete scope name) ⟨hs, h⟩) fun _ _ => .pure trivial
    | member object property computed =>
      refine .bind (memberParts h.1 h.2 hs) fun parts _ => ?_
      exact .bind (store (.delete parts.1 parts.2)) fun _ _ => .pure trivial
    | _ => exact .bind (expr h hs) fun _ _ => .pure trivial
  | _ => exact plain _ h

/-- What is neither a name nor a member cannot be updated. -/
theorem updateReference {argument : Expr} (h : D.AdmitsUpdate argument) (hs : Γ.known scope) :
    Abides host D Γ (Usable D)
      fun p => Eval.updateReference (p.evaluator rounds) scope argument := by
  cases argument with
  | ident name => exact .pure h
  | member object property computed => exact memberReference h.1 h.2 hs
  | _ => exact .fail (.inr h)

/-- The old value is converted first and written back last. -/
theorem updateExpr {op : UpdateOp} {argument : Expr} {leading : Bool}
    (h : D.AdmitsUpdate argument) (hs : Γ.known scope) :
    Abides host D Γ (fun _ => True)
      fun p => Eval.updateExpr (p.evaluator rounds) scope op argument leading := by
  refine .bind (updateReference h hs) fun r hr => ?_
  refine .bind (getReference hr hs) fun current _ => ?_
  refine .bind (store (.number current)) fun old _ => ?_
  refine .bind (store (.arith _ _ _)) fun new _ => ?_
  exact .bind (putReference hr hs) fun _ _ => .pure trivial

/-- What is neither a name nor a member cannot be assigned. -/
theorem assignReference {target : Pattern} (h : D.AdmitsTarget target) (hs : Γ.known scope) :
    Abides host D Γ (Usable D)
      fun p => Eval.assignReference (p.evaluator rounds) scope target := by
  cases target with
  | ident name => exact .pure h
  | member object property computed => exact memberReference h.1 h.2 hs
  | _ => exact .fail (.inr h)

theorem assignedValue {r : Eval.Reference} {right : Expr} (h : D.AdmitsOperand right)
    (hs : Γ.known scope) :
    Abides host D Γ (fun _ => True)
      fun p => Eval.assignedValue (p.evaluator rounds) scope r right := by
  match r with
  | .variable name => exact named h hs
  | .property base key => exact expr h.1 hs

/-- A logical assignment leaves its right side alone if the old value decides. -/
theorem assignExpr {op : AssignOp} {target : Pattern} {right : Expr} (ht : D.AdmitsTarget target)
    (hr : D.AdmitsOperand right) (hs : Γ.known scope) :
    Abides host D Γ (fun _ => True)
      fun p => Eval.assignExpr (p.evaluator rounds) scope op target right := by
  refine .bind (assignReference ht hs) fun r hu => ?_
  cases op.combining with
  | replace =>
    refine .bind (assignedValue hr hs) fun value _ => ?_
    exact .bind (putReference hu hs) fun _ _ => .pure trivial
  | arith op =>
    refine .bind (getReference hu hs) fun current _ => .bind (expr hr.1 hs) fun v _ => ?_
    refine .bind (store (.arith op current v)) fun value _ => ?_
    exact .bind (putReference hu hs) fun _ _ => .pure trivial
  | logical op =>
    refine .bind (getReference hu hs) fun current _ => ?_
    split
    · refine .bind (expr hr.1 hs) fun value _ => ?_
      exact .bind (putReference hu hs) fun _ _ => .pure trivial
    · exact .pure trivial

/-! ### Calls -/

/-- The object of a member call is its receiver; any other call has none. -/
theorem callTarget {callee : Expr} (h : D.AdmitsCallee callee) (hs : Γ.known scope) :
    Abides host D Γ (fun _ => True)
      fun p => Eval.callTarget (p.evaluator rounds) scope callee := by
  cases callee with
  | member object property computed =>
    refine .bind (memberParts h.1 h.2 hs) fun parts _ => ?_
    exact .bind (store (.get parts.1 parts.2)) fun _ _ => .pure trivial
  | _ => exact .bind (thisValue hs h.2) fun _ _ => .bind (expr h.1 hs) fun _ _ => .pure trivial

theorem callExpr {callee : Expr} {arguments : List Expr} (hc : D.AdmitsCallee callee)
    (ha : ∀ e ∈ arguments, D.expr e) (hs : Γ.known scope) :
    Abides host D Γ (fun _ => True)
      fun p => Eval.callExpr host (p.evaluator rounds) scope callee arguments := by
  refine .bind (callTarget hc hs) fun target _ => .bind (exprList ha hs) fun args _ => ?_
  split
  · exact callValue
  · exact .fail (.inl rfl)

theorem newExpr {callee : Expr} {arguments : List Expr} (hc : D.expr callee)
    (ha : ∀ e ∈ arguments, D.expr e) (hs : Γ.known scope) :
    Abides host D Γ (fun _ => True)
      fun p => Eval.newExpr host (p.evaluator rounds) scope callee arguments := by
  refine .bind (expr hc hs) fun f _ => .bind (exprList ha hs) fun args _ => ?_
  refine .bind (peek fun s => Eval.isConstructor s f) fun isConstructor _ => ?_
  split
  · exact construct
  · exact .fail (.inl rfl)

/-! ### All expressions -/

/-- All are evaluated, and the last one is the value. -/
theorem sequenceValue {es : List Expr} (he : ∀ e ∈ es, D.expr e) (hs : Γ.known scope)
    (last : Value) :
    Abides host D Γ (fun _ => True)
      fun p => Eval.sequenceValue (p.evaluator rounds) scope es last := by
  induction es generalizing last with
  | nil => exact .pure trivial
  | cons e es ih =>
    rw [List.forall_mem_cons] at he
    exact .bind (expr he.1 hs) fun v _ => ih he.2 v

/-- The rule of an expression abides by every discipline that admits the expression. -/
theorem exprRule {e : Expr} (h : D.AdmitsExpr e) (hs : Γ.known scope) :
    Abides host D Γ (fun _ => True) fun p => Eval.expr host (p.evaluator rounds) e scope := by
  cases e with
  | ident name => exact query hs h
  | literal l => exact literalValue h
  | this => exact thisValue hs h
  | array elements => exact .bind (elementList h hs) fun _ _ => store (.newArray _)
  | object members => exact .bind (memberList h hs _) fun _ _ => store (.newObject _)
  | function f => exact functionValue h hs
  | arrow f => exact makeClosure h hs
  | template quasis es => exact .bind (templateText h hs quasis "") fun _ _ => .pure trivial
  | unary op argument => exact unaryExpr h hs
  | update op argument leading => exact updateExpr h hs
  | binary op left right =>
    exact .bind (expr h.1 hs) fun _ _ => .bind (expr h.2 hs) fun _ _ => store (.binary op _ _)
  | logical op left right =>
    refine .bind (expr h.1 hs) fun l _ => ?_
    split
    · exact expr h.2 hs
    · exact .pure trivial
  | assign op target right => exact assignExpr h.1 h.2 hs
  | conditional test consequent alternate =>
    refine .bind (expr h.1 hs) fun t _ => ?_
    split
    · exact expr h.2.1 hs
    · exact expr h.2.2 hs
  | call callee arguments => exact callExpr h.1 h.2 hs
  | new callee arguments => exact newExpr h.1 h.2 hs
  | member object property computed =>
    exact .bind (memberParts h.1 h.2 hs) fun parts _ => store (.get parts.1 parts.2)
  | sequence es => exact sequenceValue h hs _
  -- a node that is not supported
  | inert node => exact .fail (.inr h)

end Abides

/-! ### Restricting nothing but deletion -/

namespace Discipline

/-- The discipline that lets everything be done, except that only some names may be deleted. -/
abbrev deleting (d : String → Prop) : Discipline := { deletes := d }

variable {d : String → Prop}

theorem deleting_function (f : Function) : (deleting d).AdmitsFunction f :=
  ⟨trivial, fun _ _ => trivial⟩

theorem deleting_operand (e : Expr) : (deleting d).AdmitsOperand e :=
  ⟨trivial, fun f _ => deleting_function f⟩

theorem deleting_literal (l : Literal) : (deleting d).AdmitsLiteral l := fun _ _ => trivial

/-- Failures are allowed, so every key is admitted. -/
theorem deleting_key (e : Expr) (computed : Bool) : (deleting d).AdmitsKey e computed := by
  cases computed with
  | false => exact .inr trivial
  | true => trivial

theorem deleting_propertyKey (e : Expr) (computed : Bool) :
    (deleting d).AdmitsPropertyKey e computed := by
  unfold AdmitsPropertyKey
  split
  · trivial
  · exact deleting_literal _
  · trivial

theorem deleting_member (m : Member) : (deleting d).AdmitsMember m := by
  cases m with
  | spread => trivial
  | property key value kind computed method shorthand =>
    exact ⟨fun _ => ⟨deleting_propertyKey key computed, deleting_operand value⟩, fun _ => trivial⟩

theorem deleting_update (e : Expr) : (deleting d).AdmitsUpdate e := by
  unfold AdmitsUpdate
  split
  · trivial
  · exact ⟨trivial, deleting_key _ _⟩
  · trivial

theorem deleting_target (p : Pattern) : (deleting d).AdmitsTarget p := by
  unfold AdmitsTarget
  split
  · trivial
  · exact ⟨trivial, deleting_key _ _⟩
  · trivial

theorem deleting_callee (e : Expr) : (deleting d).AdmitsCallee e := by
  unfold AdmitsCallee
  split
  · exact ⟨trivial, deleting_key _ _⟩
  · exact ⟨trivial, trivial⟩

/-- Deletions are admitted of the names that may be deleted. -/
theorem deleting_unary (op : UnaryOp) (e : Expr)
    (h : ∀ name, op = .delete → e = .ident name → d name) : (deleting d).AdmitsUnary op e := by
  unfold AdmitsUnary
  split
  · trivial
  · exact ⟨trivial, h _ rfl rfl⟩
  · exact ⟨trivial, deleting_key _ _⟩
  · trivial

/-- All expressions are admitted apart from the deletion of another name. -/
theorem deleting_expr (e : Expr) (h : ∀ name, e = .unary .delete (.ident name) → d name) :
    (deleting d).AdmitsExpr e := by
  cases e with
  | unary op argument =>
    refine deleting_unary op argument fun name hop hname => ?_
    subst hop hname
    exact h name rfl
  | literal l => exact deleting_literal l
  | object members => exact fun m _ => deleting_member m
  | function f => exact deleting_function f
  | arrow f => exact deleting_function f
  | update op argument leading => exact deleting_update argument
  | assign op target right => exact ⟨deleting_target target, deleting_operand right⟩
  | call callee arguments => exact ⟨deleting_callee callee, fun _ _ => trivial⟩
  | member object property computed => exact ⟨trivial, deleting_key property computed⟩
  | _ => simp [AdmitsExpr]

end Discipline

end Estree
