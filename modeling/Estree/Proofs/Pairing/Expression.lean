/-
Estree/Proofs/Pairing/Expression.lean

Functions and expressions in paired states.

What the evaluator does for an expression in two scopes that stand for each other is the same, over
an evaluator that does the same for its parts.

The lemmas follow the definitions: one for each that an expression is evaluated by, and for lists an
induction on the list.  Nothing is said about the values themselves.  Both sides compute the same
ones, since the pairing lets every name be read alike, and since the store, which they share up to
the scopes of its functions, does not look at scopes (`Scopeless`).
-/
import Estree.Proofs.Pairing.Step

namespace Estree

namespace Pairing.Mirrors

variable {host : Host} {ev : Evaluator} (hev : ev.Faithful host) {w : Pairing} {i j : ScopeId}

/-! ### Functions -/

/-- The same function is made over both scopes, which are seen alike from then on. -/
theorem makeClosure (h : w.known i j) (f : Function) (name : Option String) (kind : ClosureKind) :
    w.Mirrors (Eval.makeClosure f name i kind) (Eval.makeClosure f name j kind) := by
  unfold Eval.makeClosure
  split
  · exact .fail _
  · split
    · exact .fail _
    · exact .closure rfl h

theorem functionValue (h : w.known i j) (f : Function) :
    w.Mirrors (Eval.functionValue f i) (Eval.functionValue f j) := by
  unfold Eval.functionValue
  split
  · exact makeClosure h f none .normal
  · refine .child h fun {w₁ i' j'} _ h' => .bind (makeClosure (w₁.own_known h') f _ _) fun v => ?_
    exact .bind (declare h' _ _ _) fun _ => .pure v

include hev in
/-- A function is named by the place that it is put in, on both sides. -/
theorem named (h : w.known i j) (e : Expr) (name : String) :
    w.Mirrors (Eval.named ev e name i) (Eval.named ev e name j) := by
  cases e with
  | function f =>
    unfold Eval.named
    dsimp only
    split
    · exact makeClosure h f _ _
    · exact hev.expr h _
  | arrow f => exact makeClosure h f _ _
  | _ => exact hev.expr h _

include hev in
/-- The same value is called with the same arguments. -/
theorem callValue (callee this : Value) (args : List Value) :
    w.Mirrors (Eval.callValue host ev callee this args)
      (Eval.callValue host ev callee this args) := by
  cases callee with
  | closure id => exact hev.call w id this args
  | native id => exact hev.store (.callNative id this args)
  | _ => exact .bind (hev.store (.text _)) fun _ => .fail _

include hev in
/-- The new objects are at the same place and have been made by the same function. -/
theorem construct (callee : Value) (args : List Value) :
    w.Mirrors (Eval.construct host ev callee args) (Eval.construct host ev callee args) := by
  cases callee with
  | closure id =>
    refine .load fun {w₁ c c'} _ hc _ => ?_
    have hkind : c'.kind = c.kind := (congrArg Closure.kind hc :)
    have hname : c'.displayName = c.displayName := (congrArg Closure.displayName hc :)
    rw [hkind, hname]
    split
    · refine .bind (hev.store (.newObject _)) fun made => ?_
      refine .bind (hev.call w₁ id made args) fun result => ?_
      split <;> exact .pure _
    · exact .fail _
  | native id =>
    refine .bind (.read (fun s => s.native id) fun _ => rfl) fun n => ?_
    split
    · exact hev.store (.callNative id .undefined args)
    · exact .fail _
  | _ => exact .bind (hev.store (.text _)) fun _ => .fail _

/-! ### Literals -/

theorem literalValue (l : Literal) :
    w.Mirrors (Eval.literalValue l) (Eval.literalValue l) := by
  unfold Eval.literalValue
  split
  · exact .fail _
  · split
    · exact .fail _
    · split <;> exact .pure _

section

include hev

theorem exprList (h : w.known i j) (es : List Expr) :
    w.Mirrors (Eval.exprList ev i es) (Eval.exprList ev j es) := by
  induction es with
  | nil => exact .pure _
  | cons e es ih => exact .bind (hev.expr h e) fun _ => .bind ih fun _ => .pure _

theorem elementList (h : w.known i j) (elements : List (Option Expr)) :
    w.Mirrors (Eval.elementList ev i elements) (Eval.elementList ev j elements) := by
  induction elements with
  | nil => exact .pure _
  | cons element elements ih =>
    cases element with
    | none => exact .bind ih fun _ => .pure _
    | some e => exact .bind (hev.expr h e) fun _ => .bind ih fun _ => .pure _

theorem propertyKey (h : w.known i j) (key : Expr) (computed : Bool) :
    w.Mirrors (Eval.propertyKey ev i key computed) (Eval.propertyKey ev j key computed) := by
  cases computed with
  | true => cases key <;> exact .bind (hev.expr h _) fun _ => hev.store (.text _)
  | false =>
    cases key with
    | ident name => exact .pure name
    | literal l => exact .bind (literalValue l) fun _ => hev.store (.text _)
    | _ => exact .bind (hev.expr h _) fun _ => hev.store (.text _)

/-- Entries are evaluated on both sides in the same order, into the same table. -/
theorem memberList (h : w.known i j) (members : List Member) (props : Table Value) :
    w.Mirrors (Eval.memberList ev i members props) (Eval.memberList ev j members props) := by
  induction members generalizing props with
  | nil => exact .pure props
  | cons m members ih =>
    cases m with
    | spread => exact .fail _
    | property key value kind computed method shorthand =>
      unfold Eval.memberList
      split
      · refine .bind (propertyKey hev h key computed) fun name => ?_
        exact .bind (named hev h value name) fun _ => ih _
      · exact .fail _

theorem templateText (h : w.known i j) (quasis : List Quasi) (es : List Expr) (text : String) :
    w.Mirrors (Eval.templateText ev i quasis es text) (Eval.templateText ev j quasis es text) := by
  induction quasis generalizing es text with
  | nil => exact .pure text
  | cons q quasis ih =>
    cases es with
    | nil => exact ih [] _
    | cons e es =>
      exact .bind (hev.expr h e) fun v => .bind (hev.store (.text v)) fun _ => ih es _

/-! ### References -/

theorem memberKey (h : w.known i j) (property : Expr) (computed : Bool) :
    w.Mirrors (Eval.memberKey ev i property computed) (Eval.memberKey ev j property computed) := by
  cases computed with
  | true => exact .bind (hev.expr h property) fun _ => hev.store (.text _)
  | false =>
    cases property with
    | ident name => exact .pure name
    | _ => exact .fail _

theorem memberParts (h : w.known i j) (object property : Expr) (computed : Bool) :
    w.Mirrors (Eval.memberParts ev i object property computed)
      (Eval.memberParts ev j object property computed) :=
  .bind (hev.expr h object) fun _ => .bind (memberKey hev h property computed) fun _ => .pure _

theorem memberReference (h : w.known i j) (object property : Expr) (computed : Bool) :
    w.Mirrors (Eval.memberReference ev i object property computed)
      (Eval.memberReference ev j object property computed) :=
  .bind (memberParts hev h object property computed) fun _ => .pure _

theorem getReference (h : w.known i j) (r : Eval.Reference) :
    w.Mirrors (Eval.getReference i r) (Eval.getReference j r) := by
  cases r with
  | «variable» name => exact query h name
  | property base key => exact hev.store (.get base key)

theorem putReference (h : w.known i j) (r : Eval.Reference) (value : Value) :
    w.Mirrors (Eval.putReference i r value) (Eval.putReference j r value) := by
  cases r with
  | «variable» name => exact assign h name value
  | property base key => exact hev.store (.set base key value)

/-! ### Operators -/

/-- `typeof` and `delete` look at the same name or part on both sides. -/
theorem unaryExpr (h : w.known i j) (op : UnaryOp) (argument : Expr) :
    w.Mirrors (Eval.unaryExpr ev i op argument) (Eval.unaryExpr ev j op argument) := by
  -- all but two of the operators evaluate their operand and apply themselves
  have plain (op : UnaryOp) : w.Mirrors
      (do
        let v ← ev.expr argument i
        Eval.onStore (Operator.unary op v))
      (do
        let v ← ev.expr argument j
        Eval.onStore (Operator.unary op v)) :=
    .bind (hev.expr h argument) fun v => hev.store (.unary op v)
  cases op with
  | typeOf =>
    cases argument with
    | ident name =>
      refine .bind (lookup h name) fun found => ?_
      cases found <;> exact .pure _
    | _ => exact plain .typeOf
  -- a name is deleted in the paired scopes, a member in the store they share
  | delete =>
    cases argument with
    | ident name => exact .bind (deleteName h name) fun _ => .pure _
    | member object property computed =>
      refine .bind (memberParts hev h object property computed) fun parts => ?_
      exact .bind (hev.store (.delete parts.1 parts.2)) fun _ => .pure _
    | _ => exact .bind (hev.expr h _) fun _ => .pure _
  | _ => exact plain _

theorem updateReference (h : w.known i j) (argument : Expr) :
    w.Mirrors (Eval.updateReference ev i argument) (Eval.updateReference ev j argument) := by
  cases argument with
  | ident name => exact .pure _
  | member object property computed => exact memberReference hev h object property computed
  | _ => exact .fail _

/-- Both sides read the old value, compute and write at the same place. -/
theorem updateExpr (h : w.known i j) (op : UpdateOp) (argument : Expr) (leading : Bool) :
    w.Mirrors (Eval.updateExpr ev i op argument leading)
      (Eval.updateExpr ev j op argument leading) := by
  refine .bind (updateReference hev h argument) fun r => ?_
  refine .bind (getReference hev h r) fun current => ?_
  refine .bind (hev.store (.number current)) fun old => ?_
  refine .bind (hev.store (.arith _ _ _)) fun new => ?_
  exact .bind (putReference hev h r new) fun _ => .pure _

theorem assignReference (h : w.known i j) (target : Pattern) :
    w.Mirrors (Eval.assignReference ev i target) (Eval.assignReference ev j target) := by
  cases target with
  | ident name => exact .pure _
  | member object property computed => exact memberReference hev h object property computed
  | _ => exact .fail _

/-- A function on the right is named by the same target. -/
theorem assignedValue (h : w.known i j) (r : Eval.Reference) (right : Expr) :
    w.Mirrors (Eval.assignedValue ev i r right) (Eval.assignedValue ev j r right) := by
  cases r with
  | «variable» name => exact named hev h right name
  | property base key => exact hev.expr h right

/-- Both sides evaluate the right side under the same condition. -/
theorem assignExpr (h : w.known i j) (op : AssignOp) (target : Pattern) (right : Expr) :
    w.Mirrors (Eval.assignExpr ev i op target right) (Eval.assignExpr ev j op target right) := by
  refine .bind (assignReference hev h target) fun r => ?_
  cases op.combining with
  | replace =>
    refine .bind (assignedValue hev h r right) fun value => ?_
    exact .bind (putReference hev h r value) fun _ => .pure value
  | arith op =>
    refine .bind (getReference hev h r) fun current => .bind (hev.expr h right) fun v => ?_
    refine .bind (hev.store (.arith op current v)) fun value => ?_
    exact .bind (putReference hev h r value) fun _ => .pure value
  | logical op =>
    refine .bind (getReference hev h r) fun current => ?_
    split
    · refine .bind (hev.expr h right) fun value => ?_
      exact .bind (putReference hev h r value) fun _ => .pure value
    · exact .pure current

/-! ### Calls -/

theorem callTarget (h : w.known i j) (callee : Expr) :
    w.Mirrors (Eval.callTarget ev i callee) (Eval.callTarget ev j callee) := by
  cases callee with
  | member object property computed =>
    refine .bind (memberParts hev h object property computed) fun parts => ?_
    exact .bind (hev.store (.get parts.1 parts.2)) fun _ => .pure _
  | _ => exact .bind (thisValue h) fun _ => .bind (hev.expr h _) fun _ => .pure _

theorem callExpr (h : w.known i j) (callee : Expr) (arguments : List Expr) :
    w.Mirrors (Eval.callExpr host ev i callee arguments)
      (Eval.callExpr host ev j callee arguments) := by
  refine .bind (callTarget hev h callee) fun target => ?_
  refine .bind (exprList hev h arguments) fun args => ?_
  split
  · exact callValue hev _ _ args
  · exact .fail _

theorem newExpr (h : w.known i j) (callee : Expr) (arguments : List Expr) :
    w.Mirrors (Eval.newExpr host ev i callee arguments)
      (Eval.newExpr host ev j callee arguments) := by
  refine .bind (hev.expr h callee) fun f => .bind (exprList hev h arguments) fun args => ?_
  refine .bind (.read (fun s => Eval.isConstructor s f) fun s => ?_) fun isConstructor => ?_
  · exact Eval.isConstructor_unscoped s f
  · split
    · exact construct hev f args
    · exact .fail _

/-! ### All expressions -/

/-- Both sides evaluate all of them, and the last value is the same. -/
theorem sequenceValue (h : w.known i j) (es : List Expr) (last : Value) :
    w.Mirrors (Eval.sequenceValue ev i es last) (Eval.sequenceValue ev j es last) := by
  induction es generalizing last with
  | nil => exact .pure last
  | cons e es ih => exact .bind (hev.expr h e) fun v => ih v

/-- An expression does the same in scopes that stand for each other. -/
theorem expr (h : w.known i j) (e : Expr) :
    w.Mirrors (Eval.expr host ev e i) (Eval.expr host ev e j) := by
  cases e with
  | ident name => exact query h name
  | literal l => exact literalValue l
  | this => exact thisValue h
  | array elements => exact .bind (elementList hev h elements) fun _ => hev.store (.newArray _)
  | object members =>
    exact .bind (memberList hev h members .empty) fun _ => hev.store (.newObject _)
  | function f => exact functionValue h f
  | arrow f => exact makeClosure h f none .arrow
  | template quasis es => exact .bind (templateText hev h quasis es "") fun _ => .pure _
  | unary op argument => exact unaryExpr hev h op argument
  | update op argument leading => exact updateExpr hev h op argument leading
  -- the operands are evaluated in paired scopes, the operator works on the store alone
  | binary op left right =>
    refine .bind (hev.expr h left) fun l => .bind (hev.expr h right) fun r => ?_
    exact hev.store (.binary op l r)
  | logical op left right =>
    refine .bind (hev.expr h left) fun l => ?_
    split
    · exact hev.expr h right
    · exact .pure l
  | assign op target right => exact assignExpr hev h op target right
  | conditional test consequent alternate =>
    refine .bind (hev.expr h test) fun t => ?_
    split
    · exact hev.expr h consequent
    · exact hev.expr h alternate
  | call callee arguments => exact callExpr hev h callee arguments
  | new callee arguments => exact newExpr hev h callee arguments
  | member object property computed =>
    refine .bind (memberParts hev h object property computed) fun parts => ?_
    exact hev.store (.get parts.1 parts.2)
  | sequence es => exact sequenceValue hev h es .undefined
  | inert node => exact .fail _

end

end Pairing.Mirrors

end Estree
