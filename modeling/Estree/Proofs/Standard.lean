/-
Estree/Proofs/Standard.lean

What the standard names stand for.

`Catalog.meanings` says it name by name, apart from the computation that makes the values: a
constant, a function with its number of parameters and what it does, an object of such things, or a
constructor.  A value has a meaning in a store (`Catalog.Meaning.Stands`) if the functions and
objects that it is made of are found there, and are not in the store from before; since a store
only gets more things while the table is made (`Store.AddedTo`), it keeps the meaning.

A computation *makes* something (`Catalog.Makes`) if it ends in every store, adds to it, and what it
gives has a property from then on, in whatever store comes out of adding more.  Put in this way the
property needs no side condition in order to last, so that one computation after the other is one
lemma (`Makes.bind`), and each object of the table is the list of its members.  The whole table goes
entry by entry as `Catalog.meanings` has it (`Catalog.makes_standard`).
-/
import Mathlib.Data.List.Forall2
import Estree.Catalog
import Estree.Proofs.Table
import Estree.Proofs.Task

namespace Estree

/-! ### Stores with more in them -/

/-- Objects and functions of the host have been added to a store, behind those it had, and nothing
else has changed. -/
structure Store.AddedTo (s s' : Store) : Prop where
  arrays : s'.arrays = s.arrays
  closures : s'.closures = s.closures
  console : s'.console = s.console
  objects : ∃ more, s'.objects = s.objects ++ more
  natives : ∃ more, s'.natives = s.natives ++ more

namespace Store.AddedTo

variable {s s' s₁ s₂ s₃ : Store} {id : Nat} {o : Object} {n : Native}

theorem refl (s : Store) : AddedTo s s :=
  ⟨rfl, rfl, rfl, ⟨#[], Array.append_empty.symm⟩, ⟨#[], Array.append_empty.symm⟩⟩

/-- What was added in two steps was added. -/
theorem trans (h : AddedTo s₁ s₂) (h' : AddedTo s₂ s₃) : AddedTo s₁ s₃ where
  arrays := h'.arrays.trans h.arrays
  closures := h'.closures.trans h.closures
  console := h'.console.trans h.console
  objects := by
    obtain ⟨more, hmore⟩ := h.objects
    obtain ⟨more', hmore'⟩ := h'.objects
    exact ⟨more ++ more', by rw [hmore', hmore, Array.append_assoc]⟩
  natives := by
    obtain ⟨more, hmore⟩ := h.natives
    obtain ⟨more', hmore'⟩ := h'.natives
    exact ⟨more ++ more', by rw [hmore', hmore, Array.append_assoc]⟩

theorem newObject (s : Store) (o : Object) :
    AddedTo s { s with objects := s.objects.push o } :=
  ⟨rfl, rfl, rfl, ⟨#[o], Array.push_eq_append⟩, ⟨#[], Array.append_empty.symm⟩⟩

theorem newNative (s : Store) (n : Native) :
    AddedTo s { s with natives := s.natives.push n } :=
  ⟨rfl, rfl, rfl, ⟨#[], Array.append_empty.symm⟩, ⟨#[n], Array.push_eq_append⟩⟩

/-- The places of new objects are behind those of the old ones. -/
theorem objects_size_le (h : AddedTo s s') : s.objects.size ≤ s'.objects.size := by
  obtain ⟨more, hmore⟩ := h.objects
  rw [hmore, Array.size_append]
  exact Nat.le_add_right _ _

/-- Adding functions only lengthens the list of native functions. -/
theorem natives_size_le (h : AddedTo s s') : s.natives.size ≤ s'.natives.size := by
  obtain ⟨more, hmore⟩ := h.natives
  rw [hmore, Array.size_append]
  exact Nat.le_add_right _ _

/-- What is found in a store is found when more has been added. -/
theorem object (h : AddedTo s s') (ho : s.objects[id]? = some o) : s'.objects[id]? = some o := by
  obtain ⟨hid, -⟩ := Array.getElem?_eq_some_iff.1 ho
  obtain ⟨more, hmore⟩ := h.objects
  rw [hmore, Array.getElem?_append_left hid, ho]

/-- A native function that is there stays the same one under its number. -/
theorem native (h : AddedTo s s') (hn : s.natives[id]? = some n) : s'.natives[id]? = some n := by
  obtain ⟨hid, -⟩ := Array.getElem?_eq_some_iff.1 hn
  obtain ⟨more, hmore⟩ := h.natives
  rw [hmore, Array.getElem?_append_left hid, hn]

end Store.AddedTo

namespace Catalog

/-! ### Meanings -/

/-- What a member of an object stands for. -/
inductive Member where
  | constant (value : Value)
  /-- A function under the name of the member. -/
  | function (arity : Nat) (code : Code)

/-- What a standard name stands for. -/
inductive Meaning where
  | member (m : Member)
  /-- A plain object with members. -/
  | object (members : List (String × Member))
  /-- A function of one parameter that may be used with `new`, with members of its own. -/
  | constructor (code : Code) (members : List (String × Member))

/-- All standard names, in order, with what they stand for. -/
def meanings : List (String × Meaning) :=
  [("undefined", .member (.constant .undefined)),
    ("NaN", .member (.constant (.num (0.0 / 0.0)))),
    ("Infinity", .member (.constant (.num (1.0 / 0.0)))),
    ("console", .object
      [("log", .function 0 (.console .log)), ("info", .function 0 (.console .info)),
        ("warn", .function 0 (.console .warn)), ("error", .function 0 (.console .error))]),
    ("JSON", .object
      [("stringify", .function 3 .jsonStringify), ("parse", .function 2 .jsonParse)]),
    ("Math", .object
      [("PI", .constant (.num 3.141592653589793)), ("E", .constant (.num 2.718281828459045)),
        ("abs", .function 1 (.math .abs)), ("floor", .function 1 (.math .floor)),
        ("ceil", .function 1 (.math .ceil)), ("sqrt", .function 1 (.math .sqrt)),
        ("trunc", .function 1 (.math .trunc)), ("sign", .function 1 (.math .sign)),
        ("round", .function 1 (.math .round)), ("pow", .function 2 .mathPow),
        ("max", .function 2 .mathMax), ("min", .function 2 .mathMin)]),
    ("Object", .constructor .newObject
      [("assign", .function 2 .objectAssign), ("keys", .function 1 .objectKeys),
        ("values", .function 1 .objectValues)]),
    ("Array", .constructor .newArray [("isArray", .function 1 .isArray)]),
    ("isNaN", .member (.function 1 .isNaN)),
    ("isFinite", .member (.function 1 .isFinite)),
    ("parseInt", .member (.function 2 .parseInt)),
    ("parseFloat", .member (.function 1 .parseFloat)),
    ("String", .member (.function 1 .toStr)),
    ("Number", .member (.function 1 .toNumber)),
    ("Boolean", .member (.function 1 .toBoolean)),
    ("Error", .constructor (.newError .error) []),
    ("TypeError", .constructor (.newError .typeError) []),
    ("ReferenceError", .constructor (.newError .referenceError) []),
    ("RangeError", .constructor (.newError .rangeError) []),
    ("SyntaxError", .constructor (.newError .syntaxError) [])]

section

variable (old s : Store)

/-- A value is what a member stands for; a function is found in a store and is not an old one. -/
def Member.Stands (name : String) : Member → Value → Prop
  | .constant value, v => v = value
  | .function arity code, v => ∃ id, v = .native id ∧ old.natives.size ≤ id ∧
      s.natives[id]? = some { name, arity, code }

/-- A pair of a name and a value is what a member stands for, under the name of the member. -/
def Member.Answers (m : String × Member) (p : String × Value) : Prop :=
  p.1 = m.1 ∧ m.2.Stands old s m.1 p.2

/-- The properties of an object or function are members, in order. -/
def HasMembers (members : List (String × Member)) (props : Table Value) : Prop :=
  List.Forall₂ (Member.Answers old s) members props.entries

/-- A value is what a standard name stands for, and made of new things only. -/
def Meaning.Stands (name : String) : Meaning → Value → Prop
  | .member m, v => m.Stands old s name v
  | .object members, v => ∃ id props, v = .object id ∧ old.objects.size ≤ id ∧
      s.objects[id]? = some { props } ∧ HasMembers old s members props
  | .constructor code members, v => ∃ id props, v = .native id ∧ old.natives.size ≤ id ∧
      s.natives[id]? = some { name, arity := 1, code, constructs := true, props } ∧
      HasMembers old s members props

/-- A pair of a name and a value is what a standard name stands for, under this name. -/
def Meaning.Answers (m : String × Meaning) (p : String × Value) : Prop :=
  p.1 = m.1 ∧ m.2.Stands old s m.1 p.2

end

section

variable {old s : Store} {name : String} {meaning : Meaning}
variable {members : List (String × Member)} {ms : List (String × Meaning)}
variable {pairs : List (String × Value)}

/-- Members that are entered one after the other, each under a name of its own, stay like that. -/
theorem hasMembers_ofList (hnames : (members.map Prod.fst).Nodup)
    (h : List.Forall₂ (Member.Answers old s) members pairs) :
    HasMembers old s members (Table.ofList pairs) := by
  have hpairs : pairs.map Prod.fst = members.map Prod.fst := by
    clear hnames
    induction h with
    | nil => rfl
    | cons hmp _ ih => rw [List.map_cons, List.map_cons, hmp.1, ih]
  rw [HasMembers, Table.entries_ofList (hpairs ▸ hnames)]
  exact h

/-- Pairs for meanings have the same names. -/
theorem map_fst_of_answers (h : List.Forall₂ (Meaning.Answers old s) ms pairs) :
    pairs.map Prod.fst = ms.map Prod.fst := by
  induction h with
  | nil => rfl
  | cons hmp _ ih => rw [List.map_cons, List.map_cons, hmp.1, ih]

/-- Each meaning has its pair. -/
theorem exists_of_answers (h : List.Forall₂ (Meaning.Answers old s) ms pairs)
    (hm : (name, meaning) ∈ ms) : ∃ v, (name, v) ∈ pairs ∧ meaning.Stands old s name v := by
  induction h with
  | nil => cases hm
  | @cons m p _ _ hmp _ ih =>
    cases hm with
    | head =>
      refine ⟨p.2, ?_, hmp.2⟩
      rw [show p = (name, p.2) from Prod.ext hmp.1 rfl]
      exact List.mem_cons_self
    | tail _ hm =>
      obtain ⟨v, hv, hstands⟩ := ih hm
      exact ⟨v, List.mem_cons_of_mem _ hv, hstands⟩

end

/-! ### Making -/

/-- A computation ends in every store to which something has been added, adds to it, and gives what
has a property from then on. -/
def Makes (old : Store) {α : Type} (m : Run Store α) (P : Store → α → Prop) : Prop :=
  ∀ s, old.AddedTo s → ∃ a s', m s = .done a s' ∧ s.AddedTo s' ∧ ∀ t, s'.AddedTo t → P t a

namespace Makes

variable {old : Store} {α β γ δ : Type} {m : Run Store α} {f : α → Run Store β}
variable {P P' : Store → α → Prop} {Q : Store → β → Prop} {a : α}

theorem pure (h : ∀ t, P t a) : Makes old (Pure.pure a) P :=
  fun s _ => ⟨a, s, rfl, .refl s, fun t _ => h t⟩

/-- A weaker description holds of whatever makes the stronger one true. -/
theorem mono (hm : Makes old m P) (h : ∀ t a, P t a → P' t a) : Makes old m P' := by
  intro s hs
  obtain ⟨a, s', ha, hadded, hP⟩ := hm s hs
  exact ⟨a, s', ha, hadded, fun t ht => h t a (hP t ht)⟩

/-- What has been made first is still there when what comes after it is made. -/
theorem bind (hm : Makes old m P) (hf : ∀ a, Makes old (f a) fun t b => P t a → Q t b) :
    Makes old (m >>= f) Q := by
  intro s hs
  obtain ⟨a, s₁, ha, hs₁, hP⟩ := hm s hs
  obtain ⟨b, s₂, hb, hs₂, hQ⟩ := hf a s₁ (hs.trans hs₁)
  refine ⟨b, s₂, (Run.bind_done ha).trans hb, hs₁.trans hs₂, fun t ht => ?_⟩
  exact hQ t ht (hP t (hs₂.trans ht))

/-- A list of things that are made one after the other. -/
theorem mapM {g : γ → Run Store β} {h : γ → δ} {R : Store → δ → β → Prop}
    (hg : ∀ c, Makes old (g c) fun t b => R t (h c) b) (cs : List γ) :
    Makes old (cs.mapM g) fun t bs => List.Forall₂ (R t) (cs.map h) bs := by
  induction cs with
  | nil => exact .pure fun _ => .nil
  | cons c cs ih =>
    rw [List.mapM_cons]
    exact .bind (hg c) fun b => .bind ih fun bs => .pure fun t hbs hb => .cons hb hbs

end Makes

/-! ### One name -/

section

variable (old : Store) (name : String)

/-- A function under a name is a member. -/
theorem makes_entry (arity : Nat) (code : Code) :
    Makes old (entry name arity code) fun t =>
      Member.Answers old t (name, .function arity code) := by
  intro s hs
  refine ⟨(name, .native s.natives.size), _, rfl, .newNative s _, fun t ht => ⟨rfl, ?_⟩⟩
  exact ⟨s.natives.size, rfl, hs.natives_size_le, ht.native Array.getElem?_push_size⟩

/-- A group is one new object with exactly these members. -/
theorem makes_group (members : List (String × Value)) :
    Makes old (group name members) fun t p => p.1 = name ∧ ∃ id, p.2 = .object id ∧
      old.objects.size ≤ id ∧ t.objects[id]? = some { props := Table.ofList members } := by
  intro s hs
  refine ⟨(name, .object s.objects.size), _, rfl, .newObject s _, fun t ht => ⟨rfl, ?_⟩⟩
  exact ⟨s.objects.size, rfl, hs.objects_size_le, ht.object Array.getElem?_push_size⟩

/-- A constructor is one new native function with exactly these members. -/
theorem makes_constructor (code : Code) (props : List (String × Value)) :
    Makes old (constructor name code props) fun t p => p.1 = name ∧ ∃ id, p.2 = .native id ∧
      old.natives.size ≤ id ∧ t.natives[id]? = some
        { name, arity := 1, code, constructs := true, props := Table.ofList props } := by
  intro s hs
  refine ⟨(name, .native s.natives.size), _, rfl, .newNative s _, fun t ht => ⟨rfl, ?_⟩⟩
  exact ⟨s.natives.size, rfl, hs.natives_size_le, ht.native Array.getElem?_push_size⟩

variable {old name}
variable {s : Store} {members : List (String × Member)} {values : List (String × Value)}
variable {p : String × Value} {code : Code}

/-- An object of members that have been made, under different names. -/
theorem answers_object (hnames : (members.map Prod.fst).Nodup)
    (hp : p.1 = name ∧ ∃ id, p.2 = .object id ∧ old.objects.size ≤ id ∧
      s.objects[id]? = some { props := Table.ofList values })
    (h : List.Forall₂ (Member.Answers old s) members values) :
    Meaning.Answers old s (name, .object members) p := by
  obtain ⟨hname, id, hid, hnew, hprops⟩ := hp
  exact ⟨hname, id, _, hid, hnew, hprops, hasMembers_ofList hnames h⟩

/-- A constructor whose members answer to their meanings answers to its own. -/
theorem answers_constructor (hnames : (members.map Prod.fst).Nodup)
    (hp : p.1 = name ∧ ∃ id, p.2 = .native id ∧ old.natives.size ≤ id ∧ s.natives[id]? = some
      { name, arity := 1, code, constructs := true, props := Table.ofList values })
    (h : List.Forall₂ (Member.Answers old s) members values) :
    Meaning.Answers old s (name, .constructor code members) p := by
  obtain ⟨hname, id, hid, hnew, hprops⟩ := hp
  exact ⟨hname, id, _, hid, hnew, hprops, hasMembers_ofList hnames h⟩

end

/-! ### The table -/

section

variable (old : Store)

/-- The members of a list of functions that are made by one rule, each under its own name. -/
theorem makes_entries {ι : Type} (name : ι → String) (arity : Nat) (code : ι → Code)
    (is : List ι) : Makes old (is.mapM fun i => entry (name i) arity (code i)) fun t =>
      List.Forall₂ (Member.Answers old t)
        (is.map fun i => (name i, .function arity (code i))) :=
  .mapM (R := Member.Answers old) (fun i => makes_entry old (name i) arity (code i)) is

/-- The console object has its four printing members. -/
theorem makes_console : Makes old console fun t => Meaning.Answers old t ("console", .object
    [("log", .function 0 (.console .log)), ("info", .function 0 (.console .info)),
      ("warn", .function 0 (.console .warn)), ("error", .function 0 (.console .error))]) :=
  .bind (makes_entries old Level.name 0 .console Level.all) fun _ =>
    (makes_group old _ _).mono fun _ _ hp hlevels => answers_object (by decide) hp hlevels

/-- The JSON object has its writer and its reader. -/
theorem makes_json : Makes old json fun t => Meaning.Answers old t ("JSON", .object
    [("stringify", .function 3 .jsonStringify), ("parse", .function 2 .jsonParse)]) :=
  .bind (makes_entry old _ _ _) fun _ => .bind (makes_entry old _ _ _) fun _ =>
    (makes_group old _ _).mono fun _ _ hp hparse hstringify =>
      answers_object (by decide) hp (.cons hstringify (.cons hparse .nil))

/-- The arithmetic object has its two constants and all of its functions. -/
theorem makes_math : Makes old math fun t => Meaning.Answers old t ("Math", .object
    [("PI", .constant (.num 3.141592653589793)), ("E", .constant (.num 2.718281828459045)),
      ("abs", .function 1 (.math .abs)), ("floor", .function 1 (.math .floor)),
      ("ceil", .function 1 (.math .ceil)), ("sqrt", .function 1 (.math .sqrt)),
      ("trunc", .function 1 (.math .trunc)), ("sign", .function 1 (.math .sign)),
      ("round", .function 1 (.math .round)), ("pow", .function 2 .mathPow),
      ("max", .function 2 .mathMax), ("min", .function 2 .mathMin)]) := by
  refine .bind (makes_entries old MathFunction.name 1 .math MathFunction.all) fun _ => ?_
  refine .bind (makes_entry old _ _ _) fun _ => .bind (makes_entry old _ _ _) fun _ => ?_
  refine .bind (makes_entry old _ _ _) fun _ => (makes_group old _ _).mono ?_
  intro t p hp hmin hmax hpow hfunctions
  refine answers_object (by decide) hp (.cons ⟨rfl, rfl⟩ (.cons ⟨rfl, rfl⟩ ?_))
  -- the functions of one number stand in front of the other three
  exact List.rel_append hfunctions (.cons hpow (.cons hmax (.cons hmin .nil)))

/-- The object constructor has its three members. -/
theorem makes_object : Makes old object fun t => Meaning.Answers old t
    ("Object", .constructor .newObject
      [("assign", .function 2 .objectAssign), ("keys", .function 1 .objectKeys),
        ("values", .function 1 .objectValues)]) := by
  refine .bind (makes_entry old _ _ _) fun _ => .bind (makes_entry old _ _ _) fun _ => ?_
  refine .bind (makes_entry old _ _ _) fun _ => (makes_constructor old _ _ _).mono ?_
  intro t p hp hvalues hkeys hassign
  exact answers_constructor (by decide) hp (.cons hassign (.cons hkeys (.cons hvalues .nil)))

/-- The array constructor has its one member. -/
theorem makes_array : Makes old array fun t => Meaning.Answers old t
    ("Array", .constructor .newArray [("isArray", .function 1 .isArray)]) :=
  .bind (makes_entry old _ _ _) fun _ => (makes_constructor old _ _ _).mono
    fun _ _ hp hisArray => answers_constructor (by decide) hp (.cons hisArray .nil)

/-- A function that stands alone. -/
theorem makes_function (name : String) (arity : Nat) (code : Code) :
    Makes old (entry name arity code) fun t =>
      Meaning.Answers old t (name, .member (.function arity code)) :=
  makes_entry old name arity code

/-- The plain functions of the table, in their order. -/
theorem makes_functions : Makes old functions fun t => List.Forall₂ (Meaning.Answers old t)
    [("isNaN", .member (.function 1 .isNaN)), ("isFinite", .member (.function 1 .isFinite)),
      ("parseInt", .member (.function 2 .parseInt)),
      ("parseFloat", .member (.function 1 .parseFloat)), ("String", .member (.function 1 .toStr)),
      ("Number", .member (.function 1 .toNumber)),
      ("Boolean", .member (.function 1 .toBoolean))] := by
  refine .bind (makes_function old _ _ _) fun _ => .bind (makes_function old _ _ _) fun _ => ?_
  refine .bind (makes_function old _ _ _) fun _ => .bind (makes_function old _ _ _) fun _ => ?_
  refine .bind (makes_function old _ _ _) fun _ => .bind (makes_function old _ _ _) fun _ => ?_
  refine .bind (makes_function old _ _ _) fun _ => .pure ?_
  intro t hboolean hnumber hstring hparseFloat hparseInt hisFinite hisNaN
  exact .cons hisNaN (.cons hisFinite (.cons hparseInt (.cons hparseFloat
    (.cons hstring (.cons hnumber (.cons hboolean .nil))))))

/-- The error constructors of the table, in their order. -/
theorem makes_errors : Makes old errors fun t => List.Forall₂ (Meaning.Answers old t)
    [("Error", .constructor (.newError .error) []),
      ("TypeError", .constructor (.newError .typeError) []),
      ("ReferenceError", .constructor (.newError .referenceError) []),
      ("RangeError", .constructor (.newError .rangeError) []),
      ("SyntaxError", .constructor (.newError .syntaxError) [])] := by
  have hclass (cls : ErrorClass) : Makes old (constructor cls.name (.newError cls) []) fun t =>
      Meaning.Answers old t (cls.name, .constructor (.newError cls) []) :=
    (makes_constructor old _ _ _).mono fun _ _ hp => answers_constructor (by decide) hp .nil
  exact .mapM (R := Meaning.Answers old) hclass ErrorClass.all

/-- **The standard table.**  In every store it can be made, and its entries are, from then on and in
order, what the standard names stand for. -/
theorem makes_standard : Makes old standard fun t table =>
    List.Forall₂ (Meaning.Answers old t) meanings table.entries := by
  refine .bind (makes_console old) fun console => .bind (makes_json old) fun json => ?_
  refine .bind (makes_math old) fun math => .bind (makes_object old) fun object => ?_
  refine .bind (makes_array old) fun array => .bind (makes_functions old) fun functions => ?_
  refine .bind (makes_errors old) fun errors => .pure ?_
  intro t herrors hfunctions harray hobject hmath hjson hconsole
  have hobjects : List.Forall₂ (Meaning.Answers old t) (meanings.take 8)
      [("undefined", .undefined), ("NaN", .nan), ("Infinity", .num (1.0 / 0.0)), console, json,
        math, object, array] :=
    .cons ⟨rfl, rfl⟩ (.cons ⟨rfl, rfl⟩ (.cons ⟨rfl, rfl⟩ (.cons hconsole (.cons hjson
      (.cons hmath (.cons hobject (.cons harray .nil)))))))
  have hall := List.rel_append (List.rel_append hobjects hfunctions) herrors
  have hnames : (meanings.map Prod.fst).Nodup := by decide
  rw [Table.entries_ofList (map_fst_of_answers hall ▸ hnames)]
  exact hall

end

end Catalog

end Estree
