/-
Estree/Proofs/Load/Document.lean

Documents that differ in ways the loader must not see.

An edit (`Edited`) changes one object somewhere inside of a document: its members change
places, or a member comes that is no part of the schema (`Rearranged`); or the object says the
same thing in another way (`Respelled`).  What any number of edits lead to, forward or backward,
is the equivalence that edits generate (`Relation.EqvGen`).

One sort of object must be left alone.  A word of the schema (an operator, a keyword, a role, a
source type) may also be written as an object whose only member has the word for its name, and
one member more or less makes or breaks such an object.  It matters only where a word is looked
for: in a field for words, or in an array, where an item may be the field of a node.  So an edit
is told whether it happens in such a place.

`Near.alike` says what the loader sees of an edit: two arrays whose items are pairwise near, or
two objects with, for each name of the schema, the same values except for one edit.
-/
import Estree.Load.Tree
import Mathlib.Data.List.Forall2
import Mathlib.Data.List.Perm.Basic
import Mathlib.Logic.Relation

namespace Estree

/-! ### Names of the schema -/

namespace Load

/-- The names of all fields of the schema. -/
def fieldNames : List String :=
  ["body", "sourceType", "name", "value", "regex", "bigint", "raw", "cooked", "tail", "elements",
    "properties", "key", "kind", "computed", "method", "shorthand", "id", "params", "generator",
    "async", "quasis", "expressions", "operator", "argument", "prefix", "left", "right", "test",
    "consequent", "alternate", "callee", "arguments", "object", "property", "expression",
    "declarations", "init", "label", "discriminant", "cases", "update", "block", "handler",
    "finalizer", "param"]

/-- The fields whose value is a word. -/
def wordFields : List String := ["operator", "kind", "sourceType"]

/-- The fields that read the same when they are null as when they are missing. -/
def nullableFields : List String :=
  ["value", "regex", "bigint", "cooked", "id", "init", "argument", "label", "alternate", "test",
    "update", "handler", "finalizer", "param"]

/-- The words of the schema: operators, keywords of declarations, roles of properties and source
types. -/
def words : List String :=
  BinaryOp.all.map BinaryOp.symbol ++ LogicalOp.all.map LogicalOp.symbol
    ++ UnaryOp.all.map UnaryOp.symbol ++ UpdateOp.all.map UpdateOp.symbol
    ++ AssignOp.all.map AssignOp.symbol ++ VarKind.all.map VarKind.keyword
    ++ PropertyKind.all.map PropertyKind.word ++ SourceType.all.map SourceType.word

end Load

open Load (fieldNames wordFields nullableFields words)

namespace Json

/-- An object that spells a word by the name of its only member. -/
def spellsWord : Json → Bool
  | .obj [(s, .null)] | .obj [(s, .obj [])] => words.contains s
  | _ => false

/-! ### Edits -/

/-- Members of one object change places, or a member joins that is no part of the schema. -/
inductive Rearranged : Json → Json → Prop
  | moved {ms ms' : List (String × Json)} : ms.Perm ms' → Rearranged (.obj ms) (.obj ms')
  | joined {name : String} {ms : List (String × Json)} (j : Json) :
    name ∉ "type" :: fieldNames → Rearranged (.obj ms) (.obj ((name, j) :: ms))

/-- Beside such a change, one object may say the same thing in another way: an absent part is
left out instead of written as null, and the number of a literal is written as an integer or with
a point. -/
inductive Respelled : Json → Json → Prop
  | rearranged {j j' : Json} : Rearranged j j' → Respelled j j'
  | omitted {name : String} {ms : List (String × Json)} :
    name ∈ nullableFields → ms.lookup name = none →
    Respelled (.obj ((name, .null) :: ms)) (.obj ms)
  | number {a b : JsonNumber} {ms : List (String × Json)} : a.toFloat = b.toFloat →
    Respelled (.obj (("value", .num a) :: ms)) (.obj (("value", .num b) :: ms))

/-- One edit somewhere in a document.  Of the documents that stand in the place of a word (in a
field for words, or as an item of an array), those that are `fixed` stay as they are, and none
becomes one. -/
inductive Edited (edit : Json → Json → Prop) (fixed : Json → Prop) : Bool → Json → Json → Prop
  | here {atWord : Bool} {j j' : Json} : edit j j' →
    (atWord = true → ¬ fixed j ∧ ¬ fixed j') → Edited edit fixed atWord j j'
  | item {atWord : Bool} {j j' : Json} (before after : List Json) :
    Edited edit fixed true j j' →
    Edited edit fixed atWord (.arr (before ++ j :: after)) (.arr (before ++ j' :: after))
  | member {atWord : Bool} {name : String} {j j' : Json}
    (before after : List (String × Json)) : Edited edit fixed (wordFields.contains name) j j' →
    (atWord = true → ¬ fixed (.obj (before ++ (name, j) :: after)) ∧
      ¬ fixed (.obj (before ++ (name, j') :: after))) →
    Edited edit fixed atWord (.obj (before ++ (name, j) :: after))
      (.obj (before ++ (name, j') :: after))

theorem Edited.mono {edit edit' : Json → Json → Prop} {fixed : Json → Prop}
    (hedit : ∀ {j j'}, edit j j' → edit' j j') {atWord : Bool} {j j' : Json}
    (h : Edited edit fixed atWord j j') : Edited edit' fixed atWord j j' := by
  induction h with
  | here h hfixed => exact .here (hedit h) hfixed
  | item before after _ ih => exact .item before after ih
  | member before after _ hfixed ih => exact .member before after ih hfixed

/-- The same document, or one edit apart. -/
def Near (atWord : Bool) (j j' : Json) : Prop :=
  j = j' ∨ Edited Respelled (fun j => j.spellsWord = true) atWord j j'

/-- What is an edit in the place of a word is one everywhere. -/
theorem Near.at {j j' : Json} (h : Near true j j') (atWord : Bool) : Near atWord j j' := by
  rcases h with rfl | h
  · exact .inl rfl
  cases h with
  | here h hfixed => exact .inr (.here h fun _ => hfixed rfl)
  | item before after h => exact .inr (.item before after h)
  | member before after h hfixed => exact .inr (.member before after h fun _ => hfixed rfl)

/-! ### Members by name -/

/-- The values of the members with a name. -/
def valuesOf (name : String) (members : List (String × Json)) : List Json :=
  (members.filter fun m => m.1 == name).map Prod.snd

section valuesOf

variable {name other : String} {j : Json} {ms ms' : List (String × Json)}

theorem valuesOf_cons_self : valuesOf name ((name, j) :: ms) = j :: valuesOf name ms := by
  simp [valuesOf]

theorem valuesOf_cons_of_ne (h : other ≠ name) :
    valuesOf name ((other, j) :: ms) = valuesOf name ms := by
  simp [valuesOf, h]

theorem valuesOf_append : valuesOf name (ms ++ ms') = valuesOf name ms ++ valuesOf name ms' := by
  simp [valuesOf]

/-- Rearranging members rearranges the values of each name. -/
theorem valuesOf_perm (h : ms.Perm ms') : (valuesOf name ms).Perm (valuesOf name ms') :=
  (h.filter _).map _

theorem length_valuesOf :
    (valuesOf name ms).length = (ms.filter fun m => m.1 == name).length :=
  List.length_map _

/-- The first member with a name is the one that is looked up. -/
theorem lookup_eq_head? (ms : List (String × Json)) :
    ms.lookup name = (valuesOf name ms).head? := by
  induction ms with
  | nil => rfl
  | cons m rest ih =>
    obtain ⟨other, j⟩ := m
    by_cases h : other = name
    · subst h
      rw [valuesOf_cons_self, List.lookup_cons_self, List.head?_cons]
    · have hne : (name == other) = false := by simpa using Ne.symm h
      rw [valuesOf_cons_of_ne h, List.lookup_cons, hne, ih]

theorem valuesOf_filter_self : valuesOf name (ms.filter fun m => m.1 != name) = [] := by
  simp [valuesOf]

theorem valuesOf_filter_of_ne (h : name ≠ other) :
    valuesOf name (ms.filter fun m => m.1 != other) = valuesOf name ms := by
  rw [valuesOf, List.filter_filter, valuesOf]
  refine congrArg (List.map Prod.snd) (List.filter_congr fun m _ => ?_)
  by_cases hm : m.1 = name
  · simp [hm, h]
  · simp [hm]

end valuesOf

/-! ### What an edit leaves alike -/

/-- The values of a field before and after an edit. -/
inductive ValuesAlike (name : String) : List Json → List Json → Prop
  | moved {vs vs' : List Json} : vs.Perm vs' → ValuesAlike name vs vs'
  | edited {j j' : Json} (before after : List Json) : Near (wordFields.contains name) j j' →
    ValuesAlike name (before ++ j :: after) (before ++ j' :: after)
  | omitted : name ∈ nullableFields → ValuesAlike name [.null] []
  | number {a b : JsonNumber} (rest : List Json) : name = "value" → a.toFloat = b.toFloat →
    ValuesAlike name (.num a :: rest) (.num b :: rest)

/-- Two documents that look alike from outside. -/
inductive Alike : Json → Json → Prop
  | same (j : Json) : Alike j j
  | arr {items items' : List Json} : List.Forall₂ (Near true) items items' →
    Alike (.arr items) (.arr items')
  | obj {ms ms' : List (String × Json)} :
    (∀ name ∈ "type" :: fieldNames, ValuesAlike name (valuesOf name ms) (valuesOf name ms')) →
    Alike (.obj ms) (.obj ms')

/-- Rearranged documents are alike in what loading looks at. -/
theorem Rearranged.alike {j j' : Json} (h : Rearranged j j') : Alike j j' := by
  cases h with
  | moved h => exact .obj fun _ _ => .moved (valuesOf_perm h)
  | joined j hforeign =>
    refine .obj fun name hname => ?_
    rw [valuesOf_cons_of_ne (by rintro rfl; exact hforeign hname)]
    exact .moved (.refl _)

/-- Respelt documents are alike in what loading looks at. -/
theorem Respelled.alike {j j' : Json} (h : Respelled j j') : Alike j j' := by
  cases h with
  | rearranged h => exact h.alike
  | @omitted other ms hnullable hmissing =>
    refine .obj fun name _ => ?_
    by_cases h : other = name
    · subst h
      rw [lookup_eq_head?, List.head?_eq_none_iff] at hmissing
      rw [valuesOf_cons_self, hmissing]
      exact .omitted hnullable
    · rw [valuesOf_cons_of_ne h]
      exact .moved (.refl _)
  | @number a b ms hab =>
    refine .obj fun name _ => ?_
    by_cases h : "value" = name
    · subst h
      rw [valuesOf_cons_self, valuesOf_cons_self]
      exact .number _ rfl hab
    · rw [valuesOf_cons_of_ne h, valuesOf_cons_of_ne h]
      exact .moved (.refl _)

/-- Near documents are alike in what loading looks at. -/
theorem Near.alike {atWord : Bool} {j j' : Json} (h : Near atWord j j') : Alike j j' := by
  rcases h with rfl | h
  · exact .same j
  cases h with
  | here h _ => exact h.alike
  | item before after h =>
    have same : ∀ items, List.Forall₂ (Near true) items items := fun items =>
      List.forall₂_same.2 fun j _ => .inl rfl
    exact .arr (List.rel_append (same before) (.cons (.inr h) (same after)))
  | @member _ other j j' before after h _ =>
    refine .obj fun name _ => ?_
    rw [valuesOf_append, valuesOf_append]
    by_cases hname : other = name
    · subst hname
      rw [valuesOf_cons_self, valuesOf_cons_self]
      exact .edited _ _ (.inr h)
    · rw [valuesOf_cons_of_ne hname, valuesOf_cons_of_ne hname]
      exact .moved (.refl _)

end Json

end Estree
