/-
Estree/Proofs/Routine.lean

Computations on the store.

Conversions, property access, operators and the functions of the host all work on the store
and on nothing else.  `Routine` says what they are made of: reading, allocating, changing items
and properties, writing lines, ordinary failures, and the embedder's own functions.  Two
things follow from the list.  No routine makes a function of the program or replaces one, and
none fails for a reason that lies in the tree.

`StoreLaw` packages the induction: a relation between stores that every basic step respects is
respected by every routine (`Routine.sound`).

The routines of the evaluator also read nothing of the scopes in which functions were made
(`Scopeless`), so that they do the same without them (`Scopeless.unscoped`).  The main result of
this module is `Scopeless.call`: every function of the host is such a routine.
-/
import Estree.Proofs.Loose
import Estree.Proofs.Task
import Estree.Proofs.Unscoped

namespace Estree

/-- Causes that lie in the values a program works with: neither in its tree nor in the number of
running functions. -/
def Cause.isOrdinary : Cause → Bool
  | declaredTwice _ | unsupported _ | strayBreak _ | strayContinue _ | tooDeep _ => false
  | unbound _ | constant _ | notCallable _ | notConstructor _ | cannotRead _ _ | cannotSet _ _
  | typeError _ | rangeError _ | thrown _ => true

/-- The conversions to text that may not return: the text of a value, and the line that is written
for values on the console. -/
inductive Conversion : (Store → Option String) → Prop
  | text (v : Value) : Conversion fun s => s.text? v
  | line (args : List Value) : Conversion fun s => Console.line? s args

/-- Computations on the store made of basic steps. -/
inductive Routine (host : Host) : {α : Type} → Run Store α → Prop
  | pure {α : Type} (a : α) : Routine host (pure a)
  | bind {α β : Type} {m : Run Store α} {f : α → Run Store β} (hm : Routine host m)
      (hf : ∀ a, Routine host (f a)) : Routine host (m >>= f)
  | read {α : Type} (f : Store → α) : Routine host (Run.read f)
  | ofOption {f : Store → Option String} (h : Conversion f) : Routine host (Run.ofOption f)
  | fail {α : Type} {cause : Cause} (h : cause.isOrdinary = true) :
      Routine host (Run.failWith cause : Run Store α)
  | newArray (items : Array Value) : Routine host (Store.newArray items)
  | newObject (o : Object) : Routine host (Store.newObject o)
  | newNative (n : Native) : Routine host (Store.newNative n)
  | modifyItems (id : ArrayId) (f : Array Value → Array Value) :
      Routine host (Store.modifyItems id f)
  | modifyObject (id : ObjectId) (f : Table Value → Table Value) :
      Routine host (Store.modifyObject id f)
  | modifyClosure (id : ClosureId) (f : Table Value → Table Value) :
      Routine host (Store.modifyClosure id f)
  | modifyNative (id : NativeId) (f : Table Value → Table Value) :
      Routine host (Store.modifyNative id f)
  | writeLine (level : Level) (text : String) : Routine host (Store.writeLine level text)
  | host (id : Nat) (this : Value) (args : List Value) : Routine host (host.call id this args)

/-! ### Laws of the store -/

/-- A relation between the store before and after, and what is known of errors. -/
structure StoreLaw (host : Host) where
  rel : Store → Store → Prop
  err : Cause → Prop
  refl : ∀ s, rel s s
  trans : ∀ {s₁ s₂ s₃}, rel s₁ s₂ → rel s₂ s₃ → rel s₁ s₃
  ordinary : ∀ {cause}, Cause.isOrdinary cause = true → err cause
  newArray : ∀ s items, rel s { s with arrays := s.arrays.push items }
  modifyItems : ∀ s id (f : Array Value → Array Value),
    rel s { s with arrays := s.arrays.modify id f }
  newObject : ∀ s o, rel s { s with objects := s.objects.push o }
  newNative : ∀ s n, rel s { s with natives := s.natives.push n }
  modifyObject : ∀ s id (f : Table Value → Table Value),
    rel s { s with objects := s.objects.modify id fun o => { o with props := f o.props } }
  modifyClosure : ∀ s id (f : Table Value → Table Value),
    rel s { s with closures := s.closures.modify id fun c => { c with props := f c.props } }
  modifyNative : ∀ s id (f : Table Value → Table Value),
    rel s { s with natives := s.natives.modify id fun n => { n with props := f n.props } }
  console : ∀ s console, rel s { s with console }
  hostDone : ∀ {id this args s v s'}, host.call id this args s = .done v s' → rel s s'
  hostFailed : ∀ {id this args s e s'}, host.call id this args s = .failed e s' →
    rel s s' ∧ err e.cause

/-- What a law promises of an outcome. -/
def StoreLaw.Ensures {host : Host} (L : StoreLaw host) {α : Type} (s : Store) :
    Outcome Store α → Prop
  | .done _ s' => L.rel s s'
  | .failed e s' => L.rel s s' ∧ L.err e.cause
  | .endless => True

namespace Routine

variable {host : Host} {α β : Type}

/-- Every routine keeps every law. -/
theorem sound {m : Run Store α} (h : Routine host m) (L : StoreLaw host) :
    ∀ s, L.Ensures s (m s) := by
  induction h with
  | pure a => exact fun s => L.refl s
  -- what one part does and then the other
  | @bind α β m f _ _ ihm ihf =>
    intro s
    have hm := ihm s
    rw [Run.bind_apply]
    generalize m s = o at hm ⊢
    rcases o with ⟨a, s₁⟩ | ⟨e, s₁⟩ | -
    · have hf := ihf a s₁
      dsimp only
      generalize f a s₁ = o at hf ⊢
      rcases o with ⟨b, s₂⟩ | ⟨e, s₂⟩ | -
      · exact L.trans hm hf
      · exact ⟨L.trans hm hf.1, hf.2⟩
      · trivial
    · exact hm
    · trivial
  | read f => exact fun s => L.refl s
  | ofOption _ =>
    intro s
    rw [Run.ofOption]
    split
    · exact L.refl s
    · trivial
  | fail h => exact fun s => ⟨L.refl s, L.ordinary h⟩
  | newArray items => exact fun s => L.newArray s items
  | newObject o => exact fun s => L.newObject s o
  | newNative n => exact fun s => L.newNative s n
  | modifyItems id f => exact fun s => L.modifyItems s id f
  | modifyObject id f => exact fun s => L.modifyObject s id f
  | modifyClosure id f => exact fun s => L.modifyClosure s id f
  | modifyNative id f => exact fun s => L.modifyNative s id f
  -- a silent console keeps the store, any other one adds a line
  | writeLine level text =>
    intro s
    show L.rel s (if s.console.silent then s else _)
    split
    · exact L.refl s
    · exact L.console s _
  | host id this args =>
    intro s
    rcases h : host.call id this args s with ⟨v, s'⟩ | ⟨e, s'⟩ | -
    · exact L.hostDone h
    · exact L.hostFailed h
    · trivial

end Routine

/-! ### Scopes of functions -/

/-- Routines that do not read in which scopes the functions of the program were made. -/
inductive Scopeless (host : Host) : {α : Type} → Run Store α → Prop
  | pure {α : Type} (a : α) : Scopeless host (pure a)
  | bind {α β : Type} {m : Run Store α} {f : α → Run Store β} (hm : Scopeless host m)
      (hf : ∀ a, Scopeless host (f a)) : Scopeless host (m >>= f)
  | read {α : Type} (f : Store → α) (h : ∀ s, f (Store.unscoped s) = f s) :
      Scopeless host (Run.read f)
  | ofOption {f : Store → Option String} (h : Conversion f) : Scopeless host (Run.ofOption f)
  | fail {α : Type} {cause : Cause} (h : cause.isOrdinary = true) :
      Scopeless host (Run.failWith cause : Run Store α)
  | newArray (items : Array Value) : Scopeless host (Store.newArray items)
  | newObject (o : Object) : Scopeless host (Store.newObject o)
  | newNative (n : Native) : Scopeless host (Store.newNative n)
  | modifyItems (id : ArrayId) (f : Array Value → Array Value) :
      Scopeless host (Store.modifyItems id f)
  | modifyObject (id : ObjectId) (f : Table Value → Table Value) :
      Scopeless host (Store.modifyObject id f)
  | modifyClosure (id : ClosureId) (f : Table Value → Table Value) :
      Scopeless host (Store.modifyClosure id f)
  | modifyNative (id : NativeId) (f : Table Value → Table Value) :
      Scopeless host (Store.modifyNative id f)
  | writeLine (level : Level) (text : String) : Scopeless host (Store.writeLine level text)
  | host (id : Nat) (this : Value) (args : List Value) : Scopeless host (host.call id this args)
  | isInstance (maker : NativeId) (v : Value) :
      Scopeless host (Run.read fun s => Operator.nativeInstance host s (s.native maker) v)

namespace Scopeless

variable {host : Host} {α β : Type}

theorem routine {m : Run Store α} (h : Scopeless host m) : Routine host m := by
  induction h with
  | pure a => exact .pure a
  | bind _ _ ihm ihf => exact .bind ihm ihf
  | read f _ => exact .read f
  | ofOption h => exact .ofOption h
  | fail h => exact .fail h
  | newArray items => exact .newArray items
  | newObject o => exact .newObject o
  | newNative n => exact .newNative n
  | modifyItems id f => exact .modifyItems id f
  | modifyObject id f => exact .modifyObject id f
  | modifyClosure id f => exact .modifyClosure id f
  | modifyNative id f => exact .modifyNative id f
  | writeLine level text => exact .writeLine level text
  | host id this args => exact .host id this args
  | isInstance maker v => exact .read _

/-- What such a routine does it also does where the scopes have been forgotten. -/
theorem unscoped (hh : host.IgnoresScopes) {m : Run Store α} (h : Scopeless host m) (s : Store) :
    m s.unscoped = (m s).mapState Store.unscoped := by
  induction h generalizing s with
  | pure a => rfl
  | @bind α β m f _ _ ihm ihf =>
    rw [Run.bind_apply, Run.bind_apply, ihm]
    cases m s with
    | done a s' => exact ihf a s'
    | failed e s' => rfl
    | endless => rfl
  | read f h => exact congrArg (Outcome.done · s.unscoped) (h s)
  | ofOption h =>
    rw [Run.ofOption, Run.ofOption]
    cases h with
    | text v =>
      dsimp only
      rw [Store.text?_unscoped]
      cases s.text? v <;> rfl
    | line args =>
      dsimp only
      rw [Console.line?_unscoped]
      cases Console.line? s args <;> rfl
  | fail h => rfl
  | newArray items => rfl
  | newObject o => rfl
  | newNative n => rfl
  | modifyItems id f => rfl
  | modifyObject id f => rfl
  -- the change does not look at the scope, so it commutes with forgetting it
  | modifyClosure id f =>
    refine congrArg (fun closures => Outcome.done () { s with closures }) ?_
    dsimp only [Store.unscoped]
    refine Array.ext_getElem? fun i => ?_
    rw [Array.getElem?_modify, Array.getElem?_map, Array.getElem?_map, Array.getElem?_modify]
    split
    · rw [Option.map_map, Option.map_map]
      rfl
    · rfl
  | modifyNative id f => rfl
  | writeLine level text =>
    show Outcome.done () (if s.console.silent then _ else _) = .done () (Store.unscoped (ite ..))
    split <;> rfl
  | host id this args => exact hh.call id this args s
  | isInstance maker v =>
    have same := Operator.nativeInstance_unscoped s v hh.isInstance (s.native maker)
    exact congrArg (Outcome.done · s.unscoped) same

/-! ### Conversions -/

/-- The routines of a list, one after the other. -/
theorem mapM {f : α → Run Store β} (hf : ∀ a, Scopeless host (f a)) (as : List α) :
    Scopeless host (as.mapM f) := by
  -- the loop collects results, so these are arbitrary in the induction
  suffices h : ∀ as bs, Scopeless host (List.mapM.loop f as bs) from h as []
  intro as
  induction as with
  | nil => exact fun bs => .pure _
  | cons a as ih => exact fun bs => .bind (hf a) fun b => ih (b :: bs)

theorem text (v : Value) : Scopeless host (Convert.text v) := .ofOption (.text v)

/-- A reference is a number by its text, and all else at once. -/
theorem number (v : Value) : Scopeless host (Convert.number v) := by
  cases v with
  | array id =>
    -- the number of an array is that of its text
    have hn : Convert.number (.array id) = do
        return numberOfText (← Convert.text (.array id)) := by
      funext s
      show Run.ofOption (fun s => (s.text? (.array id)).map numberOfText) s = _
      rw [Run.bind_apply, Convert.text, Run.ofOption, Run.ofOption]
      cases s.text? (.array id) <;> rfl
    rw [hn]
    exact .bind (text _) fun _ => .pure _
  | _ => exact .pure _

theorem uint32 (v : Value) : Scopeless host (Convert.uint32 v) :=
  .bind (number v) fun _ => .pure _

theorem int32 (v : Value) : Scopeless host (Convert.int32 v) :=
  .bind (number v) fun _ => .pure _

theorem primitive (v : Value) : Scopeless host (Convert.primitive v) := by
  unfold Convert.primitive
  split
  · exact .bind (text v) fun _ => .pure _
  · exact .pure _

/-- A handler is given the value that was thrown, or a new error object. -/
theorem caught (e : EvalError) : Scopeless host (Convert.caught e) := by
  unfold Convert.caught
  split
  · exact .pure _
  · exact .newObject _

/-! ### Properties -/

theorem arrayMember (key : String) : Scopeless host (Property.arrayMember key) := by
  unfold Property.arrayMember
  split
  · exact .newNative _
  · exact .pure _

theorem stringMember (key : String) : Scopeless host (Property.stringMember key) := by
  unfold Property.stringMember
  split
  · exact .newNative _
  · exact .pure _

theorem numberMember (key : String) : Scopeless host (Property.numberMember key) := by
  unfold Property.numberMember
  split
  · exact .newNative _
  · exact .pure _

theorem objectMember (key : String) : Scopeless host (Property.objectMember key) := by
  unfold Property.objectMember
  split
  · exact .newNative _
  · exact .pure _

/-- Every way to read a property: of an array, a text, a number, an object or a function, and the
failure for what has none. -/
theorem get (base : Value) (key : String) : Scopeless host (Property.get base key) := by
  cases base with
  | undefined => exact .fail rfl
  | null => exact .fail rfl
  | bool b => exact .pure _
  | num x => exact numberMember key
  | str text =>
    unfold Property.get
    dsimp only
    split
    · split <;> exact .pure _
    · split
      · exact .pure _
      · exact stringMember key
  -- an item, the length, or a method
  | array id =>
    unfold Property.get
    dsimp only
    split
    · exact .read _ fun _ => rfl
    · split
      · exact .read _ fun _ => rfl
      · exact arrayMember key
  | object id =>
    refine .bind (.read _ fun _ => rfl) fun found => ?_
    cases found with
    | none => exact objectMember key
    | some v => exact .pure _
  | closure id =>
    refine .read _ fun s => ?_
    rw [Store.closure_unscoped]
    rfl
  | native id => exact .read _ fun _ => rfl

/-- A write behind the end fills up with what is undefined first. -/
theorem setItem (id : ArrayId) (i : Nat) (value : Value) :
    Scopeless host (Property.setItem id i value) := by
  refine .bind (.read _ fun _ => rfl) fun size => ?_
  split
  · exact .modifyItems _ _
  · split
    · exact .fail rfl
    · exact .modifyItems _ _

/-- A length is taken or refused, and the store is not looked at. -/
theorem denseLength (x : Float) : Scopeless host (Estree.denseLength x) := by
  unfold Estree.denseLength
  split
  · split
    · exact .pure _
    · exact .fail rfl
  · exact .fail rfl

/-- Every way to write a property; a primitive value drops it. -/
theorem set (base : Value) (key : String) (value : Value) :
    Scopeless host (Property.set base key value) := by
  cases base with
  | undefined => exact .fail rfl
  | null => exact .fail rfl
  | bool b => exact .pure _
  | num x => exact .pure _
  | str text => exact .pure _
  | array id =>
    unfold Property.set
    dsimp only
    split
    · exact setItem id _ value
    · split
      · exact .bind (number value) fun x => .bind (denseLength x) fun _ => .modifyItems _ _
      · exact .fail rfl
  | object id => exact .modifyObject id fun props => props.insert key value
  | closure id => exact .modifyClosure id fun props => props.insert key value
  | native id => exact .modifyNative id fun props => props.insert key value

/-- Every way to delete a property. -/
theorem delete (base : Value) (key : String) : Scopeless host (Property.delete base key) := by
  cases base with
  | undefined => exact .fail rfl
  | null => exact .fail rfl
  | bool b => exact .pure _
  | num x => exact .pure _
  | str text => exact .pure _
  | array id =>
    unfold Property.delete
    dsimp only
    split
    · exact .bind (.modifyItems _ _) fun _ => .pure _
    · exact .pure _
  | object id => exact .bind (.modifyObject _ _) fun _ => .pure _
  | closure id => exact .bind (.modifyClosure _ _) fun _ => .pure _
  | native id => exact .bind (.modifyNative _ _) fun _ => .pure _

theorem keys (v : Value) : Scopeless host (Run.read fun s => Property.keys s v) :=
  .read _ fun s => Property.keys_unscoped s v

/-! ### Operators -/

/-- The comparison follows its arms, and converts at most the two sides. -/
theorem looseEq (l r : Value) : Scopeless host (Operator.looseEq l r) := by
  rw [Operator.looseEq_eq_atOnce]
  unfold Operator.looseEqAtOnce
  split
  · exact .pure _
  · split
    · exact .pure _
    · dsimp only
      split
      · exact .pure _
      · exact .bind (primitive _) fun _ => .bind (primitive _) fun _ => .pure _

theorem compare (l r : Value) : Scopeless host (Operator.compare l r) := by
  refine .bind (primitive l) fun a => .bind (primitive r) fun b => ?_
  split
  · exact .pure _
  · exact .bind (number _) fun _ => .bind (number _) fun _ => .pure _

theorem add (l r : Value) : Scopeless host (Operator.add l r) := by
  refine .bind (primitive l) fun a => .bind (primitive r) fun b => ?_
  split
  · exact .bind (text _) fun _ => .pure _
  · exact .bind (text _) fun _ => .pure _
  · exact .bind (number _) fun _ => .bind (number _) fun _ => .pure _

theorem onNumbers (f : Float → Float → Float) (l r : Value) :
    Scopeless host (Operator.onNumbers f l r) :=
  .bind (number l) fun _ => .bind (number r) fun _ => .pure _

theorem shift {f : Value → Nat → Run Store Value} (hf : ∀ v n, Scopeless host (f v n))
    (l r : Value) : Scopeless host (Operator.shift f l r) :=
  .bind (uint32 r) fun _ => hf _ _

theorem onBits (f : BitVec 32 → BitVec 32 → BitVec 32) (l r : Value) :
    Scopeless host (Operator.onBits f l r) :=
  .bind (uint32 l) fun _ => .bind (uint32 r) fun _ => .pure _

/-- Each operator converts both sides before it computes. -/
theorem arith (op : ArithOp) (l r : Value) : Scopeless host (Operator.arith op l r) := by
  cases op with
  | add => exact add l r
  | sub | mul | div | mod | exp => exact onNumbers _ l r
  | shl | ushr =>
    unfold Operator.arith
    exact shift (fun v n => .bind (uint32 v) fun _ => .pure _) l r
  | shr =>
    unfold Operator.arith
    exact shift (fun v n => .bind (int32 v) fun _ => .pure _) l r
  | bitAnd | bitOr | bitXor => exact onBits _ l r

/-- An object is compared by what has made it, and nothing is followed. -/
theorem instanceOf (v maker : Value) : Scopeless host (Operator.instanceOf host v maker) := by
  cases maker with
  | closure id => exact .read _ fun _ => rfl
  | native id => exact .isInstance id v
  | _ => exact .fail rfl

theorem isIn (l r : Value) : Scopeless host (Operator.isIn l r) := by
  unfold Operator.isIn
  split
  · exact .bind (text l) fun _ => .read _ fun s => Property.has_unscoped s r _
  · exact .bind (text l) fun _ => .bind (text r) fun _ => .fail rfl

theorem binary (op : BinaryOp) (l r : Value) : Scopeless host (Operator.binary host op l r) := by
  cases op with
  | looseEq | looseNe => exact .bind (looseEq l r) fun _ => .pure _
  | strictEq | strictNe => exact .pure _
  | lt | gt | le | ge => exact .bind (compare l r) fun _ => .pure _
  | isIn => exact .bind (isIn l r) fun _ => .pure _
  | instanceOf => exact .bind (instanceOf l r) fun _ => .pure _
  | arith op => exact arith op l r

theorem unary (op : UnaryOp) (v : Value) : Scopeless host (Operator.unary op v) := by
  cases op with
  | neg | plus => exact .bind (number v) fun _ => .pure _
  | not | typeOf | void => exact .pure _
  | bitNot => exact .bind (uint32 v) fun _ => .pure _
  | delete => exact .fail rfl

/-! ### Functions of the host -/

/-- A position is a number between zero and the length, whatever the argument is. -/
theorem positionOf (length : Nat) (arg : Option Value) (default : Nat) :
    Scopeless host (Estree.positionOf length arg default) := by
  unfold Estree.positionOf
  split
  · exact .pure _
  · exact .pure _
  · exact .bind (number _) fun _ => .pure _

theorem relativeRange (length : Nat) (args : List Value) :
    Scopeless host (Estree.relativeRange length args) :=
  .bind (positionOf _ _ _) fun _ => .bind (positionOf _ _ _) fun _ => .pure _

/-- Items are written one after the other; each may fail. -/
theorem joinItems (items : List Value) (separator : String) :
    Scopeless host (Builtin.joinItems items separator) := by
  refine .bind (mapM (fun item => ?_) items) fun _ => .pure _
  split
  · exact .pure _
  · exact text item

/-- Each method reads or changes its own array and makes at most one more. -/
theorem arrayMethod (method : ArrayMethod) (id : ArrayId) (args : List Value) :
    Scopeless host (Builtin.arrayMethod method id args) := by
  cases method with
  | push | unshift => exact .bind (.modifyItems id _) fun _ => .read _ fun _ => rfl
  | pop | shift =>
    exact .bind (.read _ fun _ => rfl) fun _ => .bind (.modifyItems id _) fun _ => .pure _
  -- the separator is the only argument that is converted
  | join =>
    have joined : ∀ separator, Scopeless host do
        let items ← Run.read fun s => (s.items id).toList
        return Value.str (← Builtin.joinItems items separator) := fun separator =>
      .bind (.read _ fun _ => rfl) fun items => .bind (joinItems items separator) fun _ => .pure _
    unfold Builtin.arrayMethod
    dsimp only
    split
    · exact .bind (.pure _) joined
    · exact .bind (.pure _) joined
    · exact .bind (text _) joined
  | indexOf =>
    refine .bind (.read _ fun _ => rfl) fun found => ?_
    cases found <;> exact .pure _
  | includes => exact .read _ fun _ => rfl
  | slice =>
    refine .bind (.read _ fun _ => rfl) fun items => ?_
    exact .bind (relativeRange items.size args) fun _ => .newArray _
  | concat => exact .bind (.read _ fun _ => rfl) fun _ => .newArray _
  | reverse => exact .bind (.modifyItems id _) fun _ => .pure _

theorem callArrayMethod (method : ArrayMethod) (this : Value) (args : List Value) :
    Scopeless host (Builtin.callArrayMethod method this args) := by
  cases this with
  | array id => exact arrayMethod method id args
  | _ => exact .bind (text _) fun _ => .fail rfl

theorem firstNumber (args : List Value) : Scopeless host (Builtin.firstNumber args) := by
  unfold Builtin.firstNumber
  split
  · exact number _
  · exact .pure _

theorem firstText (args : List Value) : Scopeless host (Builtin.firstText args) := by
  unfold Builtin.firstText
  split
  · exact .bind (text _) fun _ => .pure _
  · exact .pure _

/-- A method of texts makes a text, a number, a truth value or an array of texts. -/
theorem stringMethod (method : StringMethod) (receiver : String) (args : List Value) :
    Scopeless host (Builtin.stringMethod method receiver args) := by
  cases method with
  | charAt => exact .bind (firstNumber args) fun _ => .pure _
  | charCodeAt =>
    refine .bind (firstNumber args) fun index => ?_
    split <;> exact .pure _
  | indexOf =>
    refine .bind (firstText args) fun needle => ?_
    split <;> exact .pure _
  | includes | startsWith | endsWith => exact .bind (firstText args) fun _ => .pure _
  | slice => exact .bind (relativeRange _ args) fun _ => .pure _
  | toUpperCase | toLowerCase | trim | toString => exact .pure _
  | split =>
    unfold Builtin.stringMethod
    dsimp only
    split
    · exact .newArray _
    · exact .newArray _
    · exact .bind (text _) fun _ => .newArray _

theorem callStringMethod (method : StringMethod) (this : Value) (args : List Value) :
    Scopeless host (Builtin.callStringMethod method this args) := by
  cases this with
  | str receiver => exact stringMethod method receiver args
  | _ => exact .bind (text _) fun _ => .fail rfl

theorem toRadix (x radix : Float) : Scopeless host (Builtin.toRadix x radix) := by
  unfold Builtin.toRadix
  split
  · exact .pure _
  · exact .fail rfl

/-- A method of numbers checks its receiver and its argument first. -/
theorem callNumberMethod (method : NumberMethod) (this : Value) (args : List Value) :
    Scopeless host (Builtin.callNumberMethod method this args) := by
  cases method with
  | toString =>
    refine .bind (number this) fun x => ?_
    split
    · exact .pure _
    · refine .bind (number _) fun radix => ?_
      split
      · exact .pure _
      · exact .bind (toRadix x radix) fun _ => .pure _
  | toFixed =>
    refine .bind (firstNumber args) fun places => ?_
    split
    · exact .bind (number this) fun _ => .pure _
    · exact .fail rfl

theorem callObjectMethod (method : ObjectMethod) (this : Value) (args : List Value) :
    Scopeless host (Builtin.callObjectMethod method this args) := by
  cases method with
  | hasOwnProperty =>
    refine .bind (text _) fun key => .read _ fun s => ?_
    exact congrArg Value.bool (Property.has_unscoped s this key)
  | toString => exact .bind (text this) fun _ => .pure _

theorem write (level : Level) (args : List Value) : Scopeless host (Console.write level args) :=
  .bind (.ofOption (.line args)) fun _ => .bind (.writeLine level _) fun _ => .pure _

/-- The document is searched for cycles before it is written. -/
theorem stringify (v : Value) (indent : Option Value) :
    Scopeless host (Builtin.stringify v indent) := by
  refine .bind (.read _ fun s => Builtin.toJson_unscoped s v) fun j => ?_
  match j with
  | none => exact .fail rfl
  | some none => exact .pure _
  | some (some j) =>
    dsimp only
    split <;> exact .pure _

mutual

/-- A document becomes arrays and objects, from the innermost on. -/
theorem ofJson : (j : Json) → Scopeless host (Builtin.ofJson j)
  | .null => .pure _
  | .bool _ => .pure _
  | .num _ => .pure _
  | .str _ => .pure _
  | .arr items => .bind (ofJsonItems items) fun _ => .newArray _
  | .obj members => .bind (ofJsonMembers members) fun _ => .newObject _

theorem ofJsonItems : (items : List Json) → Scopeless host (Builtin.ofJsonItems items)
  | [] => .pure _
  | j :: rest => .bind (ofJson j) fun _ => .bind (ofJsonItems rest) fun _ => .pure _

theorem ofJsonMembers :
    (members : List (String × Json)) → Scopeless host (Builtin.ofJsonMembers members)
  | [] => .pure _
  | (_, j) :: rest => .bind (ofJson j) fun _ => .bind (ofJsonMembers rest) fun _ => .pure _

end

theorem parse (text : String) : Scopeless host (Builtin.parse text) := by
  unfold Builtin.parse
  split
  · exact ofJson _
  · exact .bind (.newObject _) fun _ => .fail rfl

theorem foldNumbers (start : Float) (pick : Float → Float → Float) (args : List Value) :
    Scopeless host (Builtin.foldNumbers start pick args) :=
  .bind (mapM number args) fun _ => .pure _

theorem copyProperties (target source : Value) (keys : List String) :
    Scopeless host (Builtin.copyProperties target source keys) := by
  induction keys with
  | nil => exact .pure _
  | cons key rest ih => exact .bind (get source key) fun v => .bind (set target key v) fun _ => ih

/-- Sources are copied one after the other, each with the keys that it has by then. -/
theorem assignAll (target : Value) (sources : List Value) :
    Scopeless host (Builtin.assignAll target sources) := by
  induction sources with
  | nil => exact .pure _
  | cons source rest ih =>
    refine .bind (keys source) fun keys => ?_
    exact .bind (copyProperties target source keys) fun _ => ih

theorem makeArray (args : List Value) : Scopeless host (Builtin.makeArray args) := by
  unfold Builtin.makeArray
  split
  · exact .bind (denseLength _) fun _ => .newArray _
  · exact .newArray _

/-- An error takes its message from its first argument. -/
theorem makeError (cls : ErrorClass) (args : List Value) :
    Scopeless host (Builtin.makeError cls args) := by
  unfold Builtin.makeError
  split
  · exact .newObject _
  · exact .bind (text _) fun _ => .newObject _

theorem radixArg (v : Value) : Scopeless host (Builtin.radixArg v) := by
  unfold Builtin.radixArg
  split
  · exact .pure _
  · exact .bind (number v) fun _ => .pure _

/-- Every function of the host is such a routine. -/
theorem call (code : Code) (this : Value) (args : List Value) :
    Scopeless host (Builtin.call host code this args) := by
  cases code with
  | array method => exact callArrayMethod method this args
  | string method => exact callStringMethod method this args
  | number method => exact callNumberMethod method this args
  | object method => exact callObjectMethod method this args
  | console level => exact write level args
  | jsonStringify => exact stringify _ _
  | jsonParse => exact .bind (text _) fun _ => parse _
  | math | isNaN | isFinite => exact .bind (number _) fun _ => .pure _
  | mathPow => exact .bind (number _) fun _ => .bind (number _) fun _ => .pure _
  | mathMax | mathMin => exact foldNumbers _ _ args
  | newObject =>
    unfold Builtin.call
    dsimp only
    split
    · exact .pure _
    · exact .newObject _
  | objectAssign =>
    unfold Builtin.call
    dsimp only
    split
    · exact .fail rfl
    · exact .bind (assignAll _ _) fun _ => .pure _
  | objectKeys => exact .bind (keys _) fun _ => .newArray _
  | objectValues =>
    exact .bind (keys _) fun keys => .bind (mapM (fun key => get _ key) keys) fun _ => .newArray _
  | newArray => exact makeArray args
  | isArray =>
    unfold Builtin.call
    dsimp only
    split <;> exact .pure _
  | parseInt => exact .bind (radixArg _) fun _ => .bind (text _) fun _ => .pure _
  | parseFloat => exact .bind (text _) fun _ => .pure _
  | toStr =>
    unfold Builtin.call
    dsimp only
    split
    · exact .pure _
    · exact .bind (text _) fun _ => .pure _
  | toNumber => exact .bind (firstNumber args) fun _ => .pure _
  | toBoolean => exact .pure _
  | newError cls => exact makeError cls args
  | host id => exact .host id this args

/-- Code of the language's own objects and code of the embedder alike. -/
theorem callNative (id : NativeId) (this : Value) (args : List Value) :
    Scopeless host (Eval.callNative host id this args) :=
  .bind (.read _ fun _ => rfl) fun _ => call _ this args

end Scopeless

end Estree
