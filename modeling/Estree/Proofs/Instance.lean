/-
Estree/Proofs/Instance.lean

What made an object is settled when it is made.

No step of an evaluation changes the brand of an object, the code of a function of the host or the
place of a function of the program; new ones only come after those there are (`SameMakers`).  Both
sides of `instanceof` look at nothing else, so its answer for an object stays what it is
(`SameMakers.instanceOf_closure`, `SameMakers.instanceOf_error`), through everything that may happen
to an interpreter (`Session.sameMakers`).  And `new` on a function of the program marks the object
that it makes with the place of this very function, which no other function has.

Of the embedder's functions it is assumed that they rebrand nothing, `Host.KeepsMakers`.
-/
import Estree.Proofs.CallBalance

namespace Estree

/-! ### Stores with the same makers -/

/-- A later store in which all objects have been made by what they had been made by, all functions
of the host do what they did, and no function of the program has gone. -/
structure SameMakers (s s' : Store) : Prop where
  objects : s.objects.size ≤ s'.objects.size
  natives : s.natives.size ≤ s'.natives.size
  closures : s.closures.size ≤ s'.closures.size
  brand : ∀ id, id < s.objects.size → (s'.object id).brand = (s.object id).brand
  code : ∀ id, id < s.natives.size → (s'.native id).code = (s.native id).code

namespace SameMakers

variable {s s' s₁ s₂ s₃ : Store}

theorem refl (s : Store) : SameMakers s s :=
  ⟨Nat.le_refl _, Nat.le_refl _, Nat.le_refl _, fun _ _ => rfl, fun _ _ => rfl⟩

theorem trans (h : SameMakers s₁ s₂) (h' : SameMakers s₂ s₃) : SameMakers s₁ s₃ where
  objects := Nat.le_trans h.objects h'.objects
  natives := Nat.le_trans h.natives h'.natives
  closures := Nat.le_trans h.closures h'.closures
  brand id hid := (h'.brand id (Nat.lt_of_lt_of_le hid h.objects)).trans (h.brand id hid)
  code id hid := (h'.code id (Nat.lt_of_lt_of_le hid h.natives)).trans (h.code id hid)

/-- Where objects and functions are what they were, so are their makers. -/
theorem of_eq (ho : s'.objects = s.objects) (hn : s'.natives = s.natives)
    (hc : s.closures.size ≤ s'.closures.size) : SameMakers s s' where
  objects := Nat.le_of_eq (by rw [ho])
  natives := Nat.le_of_eq (by rw [hn])
  closures := hc
  brand id _ := by rw [Store.object, Store.object, ho]
  code id _ := by rw [Store.native, Store.native, hn]

/-- A new object comes after all others. -/
theorem newObject (s : Store) (o : Object) :
    SameMakers s { s with objects := s.objects.push o } where
  objects := by simp
  natives := Nat.le_refl _
  closures := Nat.le_refl _
  brand id hid := by simp [Store.object, Array.getD_eq_getD_getElem?, Array.getElem?_push,
    Nat.ne_of_lt hid]
  code id _ := rfl

theorem newNative (s : Store) (n : Native) :
    SameMakers s { s with natives := s.natives.push n } where
  objects := Nat.le_refl _
  natives := by simp
  closures := Nat.le_refl _
  brand id _ := rfl
  code id hid := by simp [Store.native, Array.getD_eq_getD_getElem?, Array.getElem?_push,
    Nat.ne_of_lt hid]

/-- To change the properties of an object is not to change what made it. -/
theorem modifyObject (s : Store) (id : ObjectId) (f : Table Value → Table Value) :
    SameMakers s
      { s with objects := s.objects.modify id fun o => { o with props := f o.props } } where
  objects := by simp
  natives := Nat.le_refl _
  closures := Nat.le_refl _
  brand i hi := by
    simp only [Store.object, Array.getD_eq_getD_getElem?, Array.getElem?_modify]
    split
    · cases s.objects[i]? <;> rfl
    · rfl
  code i _ := rfl

theorem modifyNative (s : Store) (id : NativeId) (f : Table Value → Table Value) :
    SameMakers s
      { s with natives := s.natives.modify id fun n => { n with props := f n.props } } where
  objects := Nat.le_refl _
  natives := by simp
  closures := Nat.le_refl _
  brand i _ := rfl
  code i hi := by
    simp only [Store.native, Array.getD_eq_getD_getElem?, Array.getElem?_modify]
    split
    · cases s.natives[i]? <;> rfl
    · rfl

/-! ### Answers -/

variable {host : Host}

/-- Whether an object was made by a function of the program does not change. -/
theorem instanceOf_closure (h : SameMakers s s') {id : ObjectId} (hid : id < s.objects.size)
    {maker : ClosureId} {b : Bool}
    (hb : Operator.instanceOf host (.object id) (.closure maker) s = .done b s) :
    Operator.instanceOf host (.object id) (.closure maker) s' = .done b s' := by
  have hs : ((s.object id).brand == .instance maker) = b := by
    simpa [Operator.instanceOf, Run.read] using hb
  simp [Operator.instanceOf, Run.read, h.brand id hid, hs]

/-- Neither does whether it is an error of a standard class. -/
theorem instanceOf_error (h : SameMakers s s') {id : ObjectId} (hid : id < s.objects.size)
    {maker : NativeId} (hm : maker < s.natives.size) {cls : ErrorClass}
    (hc : (s.native maker).code = .newError cls) {b : Bool}
    (hb : Operator.instanceOf host (.object id) (.native maker) s = .done b s) :
    Operator.instanceOf host (.object id) (.native maker) s' = .done b s' := by
  have hc' : (s'.native maker).code = .newError cls := (h.code maker hm).trans hc
  have same (expected : Option String) :
      Operator.isError s' expected (.object id) = Operator.isError s expected (.object id) := by
    simp only [Operator.isError, h.brand id hid]
  have hs : Operator.nativeInstance host s' (s'.native maker) (.object id)
      = Operator.nativeInstance host s (s.native maker) (.object id) := by
    simp only [Operator.nativeInstance, hc, hc']
    cases cls <;> exact same _
  have hb' : Operator.nativeInstance host s (s.native maker) (.object id) = b := by
    simpa [Operator.instanceOf, Run.read] using hb
  simp [Operator.instanceOf, Run.read, hs, hb']

end SameMakers

/-! ### The law -/

/-- The embedder's functions rebrand no object, replace no function of the host and take away no
function of the program. -/
def Host.KeepsMakers (host : Host) : Prop :=
  ∀ id this args s s', (host.call id this args s).Ends s' → SameMakers s s'

theorem Host.none_keepsMakers : Host.none.KeepsMakers := by
  rintro id this args s s' (⟨v, h⟩ | ⟨e, h⟩)
  · cases h
    exact .refl s
  · cases h

section law

variable {host : Host} {n : Nat} {s s' : State}

/-- The law of stores that all makers are kept. -/
def StoreLaw.makers (hk : host.KeepsMakers) : StoreLaw host where
  rel := SameMakers
  err _ := True
  refl := .refl
  trans := .trans
  ordinary _ := trivial
  newArray _ _ := .of_eq rfl rfl (Nat.le_refl _)
  modifyItems _ _ _ := .of_eq rfl rfl (Nat.le_refl _)
  newObject := .newObject
  newNative := .newNative
  modifyObject := .modifyObject
  modifyClosure _ _ _ := .of_eq rfl rfl (Nat.le_of_eq Array.size_modify.symm)
  modifyNative := .modifyNative
  console _ _ := .of_eq rfl rfl (Nat.le_refl _)
  hostDone h := hk _ _ _ _ _ (.inl ⟨_, h⟩)
  hostFailed h := ⟨hk _ _ _ _ _ (.inr ⟨_, h⟩), trivial⟩

/-- The law that all makers are those of some earlier moment. -/
def Law.makers (hk : host.KeepsMakers) (earlier : Store) : Law host {} :=
  .ofStore SameMakers .refl .trans (fun hm s => hm.leaves (StoreLaw.makers hk) s)
    (fun _ _ => .of_eq rfl rfl (Nat.le_of_lt (Array.size_push _ ▸ Nat.lt_succ_self _))) earlier

/-- Whatever comes out of an evaluation, all makers are kept. -/
theorem makers_kept (hk : host.KeepsMakers) (n : Nat) (t : Task) (s : State) :
    (Machine.perform host n t s).Leaves fun s' => SameMakers s.store s'.store := by
  have h := (Law.makers hk s.store).perform n t s (fun _ _ => Discipline.admits_all _)
    (Discipline.asks_all t) (SameMakers.refl s.store)
  exact h.leaves.mono fun s' hs => hs.1

/-- Whatever happens to an interpreter, all makers are kept. -/
theorem Session.sameMakers (hk : host.KeepsMakers)
    (h : Session host (fun _ _ _ => True) s s') : SameMakers s.store s'.store :=
  (Law.makers hk s.store).session (fun {_ t _} _ hi =>
    ⟨Discipline.asks_all t, hi, fun _ _ => Discipline.admits_all _⟩) h (SameMakers.refl s.store)

/-! ### New instances -/

/-- The object that `new` makes with a function of the program is an instance of this function and
of no other. -/
theorem construct_brands (hk : host.KeepsMakers) {F : ClosureId} {args : List Value} {v : Value}
    (hF : (s.store.closure F).kind = .normal)
    (h : Machine.perform host n (.construct (.closure F) args) s = .done v s') :
    ∃ r, Machine.perform host n (.call F (.object s.store.objects.size) args) (s.preparing F)
        = .done r s' ∧
      (r.isReference = false → v = .object s.store.objects.size ∧
        s.store.objects.size < s'.store.objects.size ∧
        ∀ G, Operator.instanceOf host v (.closure G) s'.store
          = .done (decide (G = F)) s'.store) := by
  rw [Machine.perform_construct host n hF] at h
  split at h
  · rename_i r s₁ ho
    cases h
    refine ⟨r, ho, fun hr => ?_⟩
    -- the object was branded before the call, and no call changes a brand
    have hm : SameMakers (s.preparing F).store s'.store :=
      (makers_kept hk n _ _).ends (.inl ⟨r, ho⟩)
    have hlt : s.store.objects.size < (s.preparing F).store.objects.size := by
      simp [State.preparing]
    have hb : ((s.preparing F).store.object s.store.objects.size).brand = .instance F := by
      simp [State.preparing, Store.object]
    rw [if_neg (by simp [hr])]
    refine ⟨rfl, Nat.lt_of_lt_of_le hlt hm.objects, fun G => ?_⟩
    refine hm.instanceOf_closure hlt ?_
    have hG : (Brand.instance F == .instance G) = decide (G = F) := by
      rw [Bool.eq_iff_iff, beq_iff_eq, decide_eq_true_iff, Brand.instance.injEq, eq_comm]
    simp [Operator.instanceOf, Run.read, hb, hG]
  · cases h
  · cases h

/-- A function of the program that is made comes after all that there are. -/
theorem Eval.makeClosure_fresh {f : Function} {name : Option String} {scope : ScopeId}
    {kind : ClosureKind} {v : Value} (h : makeClosure f name scope kind s = .done v s') :
    v = .closure s.store.closures.size := by
  unfold makeClosure at h
  split at h
  · cases h
  · split at h
    · cases h
    · cases h
      rfl

/-- The functions that `instanceof` is claimed to answer for once and for all: those of the program,
and the standard constructors of errors. -/
inductive Lasting (s : Store) : Value → Prop
  | closure (id : ClosureId) : Lasting s (.closure id)
  | error {id : NativeId} {cls : ErrorClass} (hid : id < s.natives.size)
      (hc : (s.native id).code = .newError cls) : Lasting s (.native id)

/-- **Instances stay what they are.**  If `new` on a function of the program succeeds and the
function itself gave back a primitive value, the result is an object that did not exist before, and
it is an instance of this function and of no other function of the program.  Whatever happens after
that, a function that is made is another one.  And for any object that exists, nothing that happens
later changes the answer of `instanceof`, for a function of the program or for a standard
constructor of errors. -/
theorem instances_stay_what_they_are (hk : host.KeepsMakers) :
    (∀ n s s' F args v, (s.store.closure F).kind = .normal →
      Machine.perform host n (.construct (.closure F) args) s = .done v s' →
      ∃ r, Machine.perform host n (.call F (.object s.store.objects.size) args) (s.preparing F)
          = .done r s' ∧
        (r.isReference = false → v = .object s.store.objects.size ∧
          s.store.objects.size < s'.store.objects.size ∧
          ∀ G, Operator.instanceOf host v (.closure G) s'.store
            = .done (decide (G = F)) s'.store)) ∧
    ∀ s s', Session host (fun _ _ _ => True) s s' →
      (∀ F, F < s.store.closures.size → ∀ f name scope kind G s'',
        Eval.makeClosure f name scope kind s' = .done (.closure G) s'' → G ≠ F) ∧
      ∀ id, id < s.store.objects.size → ∀ maker, Lasting s.store maker → ∀ b,
        Operator.instanceOf host (.object id) maker s.store = .done b s.store →
        Operator.instanceOf host (.object id) maker s'.store = .done b s'.store := by
  refine ⟨fun n s s' F args v hF h => construct_brands hk hF h, fun s s' hs => ?_⟩
  have hm : SameMakers s.store s'.store := hs.sameMakers hk
  refine ⟨fun F hF f name scope kind G s'' h => ?_, fun id hid maker hl b hb => ?_⟩
  · cases Eval.makeClosure_fresh h
    exact Nat.ne_of_gt (Nat.lt_of_lt_of_le hF hm.closures)
  -- a closure is compared by its number, an error constructor by its name
  · cases hl with
    | closure G => exact hm.instanceOf_closure hid hb
    | error hlt hc => exact hm.instanceOf_error hid hlt hc hb

/-- Two functions of one and the same node, and an object made with the first: it is an instance of
the first only, also after another object has been made with the second. -/
theorem object_is_instance_of_its_own_maker :
    let f : Function := .mk (some "F") [] (.block []) false false
    let program : Program := ⟨[.function f, .function f], .script⟩
    ∃ i s₀ s s₁ s₂ v, Interpreter.build {} {} = .done i s₀ ∧
      Machine.perform Host.none 9 (.program none program) s₀ = .done v s ∧
      Machine.perform Host.none 9 (.construct (.closure 0) []) s = .done (.object 0) s₁ ∧
      Machine.perform Host.none 9 (.construct (.closure 1) []) s₁ = .done (.object 1) s₂ ∧
      Operator.instanceOf Host.none (.object 0) (.closure 0) s₂.store = .done true s₂.store ∧
      Operator.instanceOf Host.none (.object 0) (.closure 1) s₂.store = .done false s₂.store := by
  intro f program
  obtain ⟨i, s₀, s, s₁, s₂, v, hb, hp, h₁, h₂, hF, r, hr, hc⟩ : ∃ i s₀ s s₁ s₂ v,
      Interpreter.build {} {} = .done i s₀ ∧
      Machine.perform Host.none 9 (.program none program) s₀ = .done v s ∧
      Machine.perform Host.none 9 (.construct (.closure 0) []) s = .done (.object 0) s₁ ∧
      Machine.perform Host.none 9 (.construct (.closure 1) []) s₁ = .done (.object 1) s₂ ∧
      (s.store.closure 0).kind = .normal ∧ ∃ r, r.isReference = false ∧
      Machine.perform Host.none 9 (.call 0 (.object s.store.objects.size) []) (s.preparing 0)
        = .done r s₁ := by
    dsimp only [program, f]
    exact ⟨_, _, _, _, _, _, rfl, rfl, rfl, rfl, rfl, _, rfl, rfl⟩
  obtain ⟨made, kept⟩ := instances_stay_what_they_are Host.none_keepsMakers
  -- branded when it was made, the object keeps its answers over the second construction
  obtain ⟨r', hc', hmade⟩ := made 9 s s₁ 0 [] (.object 0) hF h₁
  cases hc.symm.trans hc'
  obtain ⟨hv, hlt, hi⟩ := hmade hr
  obtain ⟨-, kept⟩ := kept s₁ s₂ (.perform .start trivial (.inl ⟨_, h₂⟩))
  have hid : 0 < s₁.store.objects.size := Nat.lt_of_le_of_lt (Nat.zero_le _) hlt
  exact ⟨i, s₀, s, s₁, s₂, v, hb, hp, h₁, h₂, kept 0 hid _ (.closure 0) true (hi 0),
    kept 0 hid _ (.closure 1) false (hi 1)⟩

end law

end Estree
