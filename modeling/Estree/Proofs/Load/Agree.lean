/-
Estree/Proofs/Load/Agree.lean

Readers that agree on documents that look alike.

The reader for a whole document is built with as many levels as the document has, so the
readers of two documents differ although the documents are one edit apart.  `Agree R n m d d'`
is the notion for both differences at once: `d` on documents at most `n` levels deep and `d'` on
documents at most `m` levels deep give the same whenever the documents are related by `R`.

The lemmas here are about the ways to take a document apart, one lemma for each: fields that
must be there, that may be missing or null, that have a default (`FieldsAlike`); whole records
(`agree_record`); nodes of one of several kinds (`agree_tagged`); words (`agree_word`).
-/
import Estree.Proofs.Load.Document

namespace Estree

open Json (Alike Near ValuesAlike valuesOf)

/-! ### Depth of parts -/

namespace Json

/-- The value of a member is no deeper than the deepest one. -/
theorem depth_le_depthMembers {m : String × Json} {members : List (String × Json)}
    (h : m ∈ members) : m.2.depth ≤ depthMembers members := by
  induction members with
  | nil => cases h
  | cons i rest ih =>
    rcases List.mem_cons.1 h with rfl | h
    · exact Nat.le_max_left _ _
    · exact Nat.le_trans (ih h) (Nat.le_max_right _ _)

/-- Fewer members are no deeper. -/
theorem depthMembers_filter (p : String × Json → Bool) (members : List (String × Json)) :
    depthMembers (members.filter p) ≤ depthMembers members := by
  induction members with
  | nil => exact Nat.le_refl _
  | cons m rest ih =>
    rw [List.filter_cons]
    split
    · exact Nat.max_le.2 ⟨Nat.le_max_left _ _, Nat.le_trans ih (Nat.le_max_right _ _)⟩
    · exact Nat.le_trans ih (Nat.le_max_right _ _)

end Json

namespace Load

variable {α β : Type} {n m : Nat}

/-! ### Agreement -/

/-- Two readers give the same for related documents, the one up to a depth of `n` and the other up
to a depth of `m`. -/
def Agree (R : Json → Json → Prop) (n m : Nat) (d d' : Json → Option α) : Prop :=
  ∀ ⦃j j' : Json⦄, R j j' → j.depth ≤ n → j'.depth ≤ m → d j = d' j'

/-- A reader that takes neither null nor numbers. -/
structure Strict (d : Json → Option α) : Prop where
  null : d .null = none
  num : ∀ a, d (.num a) = none

/-- Two readers that agree and take neither null nor numbers. -/
structure AgreeStrictly (R : Json → Json → Prop) (n m : Nat) (d d' : Json → Option α) :
    Prop where
  agree : Agree R n m d d'
  strict : Strict d
  strict' : Strict d'

/-- A difference at a word is one of documents that look alike. -/
theorem Agree.near {d d' : Json → Option α} (h : Agree Alike n m d d') (atWord : Bool) :
    Agree (Near atWord) n m d d' :=
  fun _ _ hj => h hj.alike

theorem AgreeStrictly.near {d d' : Json → Option α} (h : AgreeStrictly Alike n m d d')
    (atWord : Bool) : AgreeStrictly (Near atWord) n m d d' :=
  ⟨h.agree.near atWord, h.strict, h.strict'⟩

/-- Readers that agree on deeper documents agree on these. -/
theorem Agree.of_succ {R : Json → Json → Prop} {d d' : Json → Option α}
    (h : Agree R (n + 1) (m + 1) d d') : Agree R n m d d' :=
  fun _ _ hj hn hm => h hj (Nat.le_succ_of_le hn) (Nat.le_succ_of_le hm)

theorem Agree.map {R : Json → Json → Prop} {d d' : Json → Option α} (h : Agree R n m d d')
    (f : α → β) : Agree R n m (fun j => (d j).map f) (fun j => (d' j).map f) :=
  fun _ _ hj hn hm => congrArg _ (h hj hn hm)

/-- A reader that takes neither arrays nor objects. -/
theorem agree_leaf {d : Json → Option α} (arr : ∀ items, d (.arr items) = none)
    (obj : ∀ ms, d (.obj ms) = none) : Agree Alike n m d d := by
  intro j j' hj _ _
  cases hj with
  | same => rfl
  | arr _ => rw [arr, arr]
  | obj _ => rw [obj, obj]

theorem agree_string : Agree Alike n m string string :=
  agree_leaf (fun _ => rfl) fun _ => rfl

theorem agree_bool : Agree Alike n m bool bool :=
  agree_leaf (fun _ => rfl) fun _ => rfl

/-- The value of a literal is null for arrays and objects, in whatever order they are. -/
theorem agree_literalValue :
    Agree Alike n m (fun j => some (literalValue j)) (fun j => some (literalValue j)) := by
  intro j j' hj _ _
  cases hj <;> rfl

/-- Of a record of which nothing is kept it matters only whether it is one. -/
theorem agree_present : Agree Alike n m present present := by
  intro j j' hj _ _
  cases hj with
  | same => rfl
  | obj _ => rfl
  | arr h => cases h <;> rfl

/-- Null stays null under every edit. -/
theorem Agree.nullable {d d' : Json → Option α} (h : Agree Alike n m d d') :
    Agree Alike n m (nullable d) (nullable d') := by
  intro j j' hj hn hm
  cases hj with
  | same =>
    cases j <;> first | rfl | exact congrArg (Option.map some) (h (.same _) hn hm)
  | arr hj => exact congrArg (Option.map some) (h (.arr hj) hn hm)
  | obj hj => exact congrArg (Option.map some) (h (.obj hj) hn hm)

/-- Item by item the same is the same. -/
theorem mapM_congr {d d' : Json → Option α} {items items' : List Json}
    (h : List.Forall₂ (fun j j' => d j = d' j') items items') :
    items.mapM d = items'.mapM d' := by
  induction h with
  | nil => rfl
  | cons hj _ ih => rw [List.mapM_cons, List.mapM_cons, hj, ih]

/-- The items of a list are edited in their places. -/
theorem Agree.listOf {d d' : Json → Option α} (h : Agree Alike n m d d') :
    Agree Alike n m (listOf d) (listOf d') := by
  intro j j' hj hn hm
  -- the budgets of a list bound those of every item
  have items : ∀ {xs ys}, List.Forall₂ (Near true) xs ys → Json.depthItems xs ≤ n →
      Json.depthItems ys ≤ m → xs.mapM d = ys.mapM d' := by
    intro xs ys hxs hn hm
    refine mapM_congr ?_
    induction hxs with
    | nil => exact .nil
    | cons hj _ ih =>
      have hn := Nat.max_le.1 hn
      have hm := Nat.max_le.1 hm
      exact .cons (h hj.alike hn.1 hm.1) (ih hn.2 hm.2)
  cases hj with
  | same =>
    cases j with
    | arr xs =>
      exact items (List.forall₂_same.2 fun _ _ => .inl rfl) (Nat.le_of_succ_le hn)
        (Nat.le_of_succ_le hm)
    | _ => rfl
  | arr hxs => exact items hxs (Nat.le_of_succ_le hn) (Nat.le_of_succ_le hm)
  | obj _ => rfl

/-- The words that a table holds are words of the schema. -/
theorem contains_of_lookup {table : List (String × α)} {s : String}
    (hall : ∀ entry ∈ table, words.contains entry.1 = true) (h : table.lookup s ≠ none) :
    words.contains s = true := by
  obtain ⟨a, ha⟩ := Option.ne_none_iff_exists'.1 h
  obtain ⟨before, after, rfl, -⟩ := List.lookup_eq_some_iff.1 ha
  exact hall (s, a) (List.mem_append_right _ List.mem_cons_self)

/-- A reader for the place of a word that takes, of all arrays and objects, at most those that spell
a word: no edit makes or changes one of these. -/
theorem agree_at_word {d : Json → Option α} (arr : ∀ items, d (.arr items) = none)
    (obj : ∀ ms, ¬ (Json.obj ms).spellsWord = true → d (.obj ms) = none) :
    Agree (Near true) n m d d := by
  intro j j' hj _ _
  rcases hj with rfl | hj
  · rfl
  cases hj with
  | here hedit hfixed =>
    obtain ⟨hj, hj'⟩ := hfixed rfl
    cases hedit.alike with
    | same => rfl
    | arr _ => rw [arr, arr]
    | obj _ => rw [obj _ hj, obj _ hj']
  | item _ _ _ => rw [arr, arr]
  | member _ _ _ hfixed =>
    obtain ⟨hj, hj'⟩ := hfixed rfl
    rw [obj _ hj, obj _ hj']

/-- A word may stand as a string or as the name of an object's only member. -/
theorem agree_word {ofWord? : String → Option α}
    (hwords : ∀ s, ofWord? s ≠ none → words.contains s = true) :
    Agree (Near true) n m (word ofWord?) (word ofWord?) := by
  refine agree_at_word (fun _ => rfl) fun ms hms => ?_
  by_contra hne
  unfold word at hne
  split at hne
  · contradiction
  · next s heq => cases heq; exact hms (hwords s hne)
  · next s heq => cases heq; exact hms (hwords s hne)
  · exact hne rfl

/-- So may a source type, but only beside null. -/
theorem agree_sourceType : Agree (Near true) n m sourceType sourceType := by
  refine agree_at_word (fun _ => rfl) fun ms hms => ?_
  by_contra hne
  unfold sourceType at hne
  split at hne
  · contradiction
  · next s heq =>
    cases heq
    have hall : ∀ entry ∈ SourceType.byWord, words.contains entry.1 = true := by decide
    exact hms (contains_of_lookup hall hne)
  · exact hne rfl

/-! ### Fields -/

/-- A field that may be missing or null: where it is there, it is read as a value or null. -/
theorem Fields.optional_eq (fields : Fields) (name : String) (decode : Json → Option α) :
    fields.optional name decode
      = (fields.lookup name).elim (some none) (Load.nullable decode) := by
  unfold Fields.optional
  split
  · next h => rw [h]; rfl
  · next h => rw [h]; rfl
  · next j hj h => rw [h]; cases j <;> first | rfl | exact absurd rfl hj

/-- A field before and after an edit, with its value at most `n` and `m` levels deep. -/
inductive FieldAlike (n m : Nat) (name : String) : Option Json → Option Json → Prop
  | missing : FieldAlike n m name none none
  | near {j j' : Json} : Near (wordFields.contains name) j j' → j.depth ≤ n → j'.depth ≤ m →
    FieldAlike n m name (some j) (some j')
  | omitted : name ∈ nullableFields → FieldAlike n m name (some .null) none
  | number {a b : JsonNumber} : name = "value" → a.toFloat = b.toFloat →
    FieldAlike n m name (some (.num a)) (some (.num b))

/-- Each field of a record before and after an edit. -/
def FieldsAlike (n m : Nat) (schema : List String) (f f' : Fields) : Prop :=
  ∀ name ∈ schema, FieldAlike n m name (f.lookup name) (f'.lookup name)

namespace FieldsAlike

variable {schema : List String} {f f' : Fields} (h : FieldsAlike n m schema f f')
variable {name : String} {d d' : Json → Option α}
include h

/-- A field that must be there: it is missing on both sides or on none. -/
theorem required (hname : name ∈ schema)
    (hd : AgreeStrictly (Near (wordFields.contains name)) n m d d') :
    f.required name d = f'.required name d' := by
  unfold Fields.required
  have field := h name hname
  generalize f.lookup name = o at field
  generalize f'.lookup name = o' at field
  cases field with
  | missing => rfl
  | near hj hn hm => exact hd.agree hj hn hm
  | omitted => exact hd.strict.null
  | @number a b => exact (hd.strict.num a).trans (hd.strict'.num b).symm

/-- A field that may be missing or null. -/
theorem optional (hname : name ∈ schema) (hvalue : name ≠ "value") (hd : Agree Alike n m d d') :
    f.optional name d = f'.optional name d' := by
  rw [Fields.optional_eq, Fields.optional_eq]
  have field := h name hname
  generalize f.lookup name = o at field
  generalize f'.lookup name = o' at field
  cases field with
  | missing => rfl
  | near hj hn hm => exact hd.nullable hj.alike hn hm
  | omitted => rfl
  | number hname => exact absurd hname hvalue

/-- A field with a default: a field that may not be null is not left out by an edit. -/
theorem orElse (hname : name ∈ schema) (hnull : name ∉ nullableFields) (value : α)
    (hd : Agree (Near (wordFields.contains name)) n m d d') :
    f.orElse name value d = f'.orElse name value d' := by
  unfold Fields.orElse
  have field := h name hname
  generalize f.lookup name = o at field
  generalize f'.lookup name = o' at field
  cases field with
  | missing => rfl
  | near hj hn hm => exact hd hj hn hm
  | omitted hname => exact absurd hname hnull
  | number hname => exact absurd (hname ▸ by decide) hnull

end FieldsAlike

/-- A value that is found by its name is no deeper than the deepest one. -/
theorem lookup_depth {name : String} {j : Json} {ms : List (String × Json)}
    (h : ms.lookup name = some j) : j.depth ≤ Json.depthMembers ms := by
  obtain ⟨l₁, l₂, hms, _⟩ := List.lookup_eq_some_iff.1 h
  have hmem : (name, j) ∈ ms := by
    rw [hms]
    exact List.mem_append_right _ List.mem_cons_self
  exact Json.depth_le_depthMembers hmem

/-- A field of which there is at most one before an edit. -/
theorem field_of_valuesAlike {name : String} {vs vs' : List Json} (h : ValuesAlike name vs vs')
    (hn : ∀ {j}, vs.head? = some j → j.depth ≤ n) (hm : ∀ {j}, vs'.head? = some j → j.depth ≤ m) :
    (vs.length ≤ 1 ↔ vs'.length ≤ 1) ∧
      (vs.length ≤ 1 → FieldAlike n m name vs.head? vs'.head?) := by
  cases h with
  | moved h =>
    refine ⟨by rw [h.length_eq], fun hlen => ?_⟩
    -- a rearrangement of at most one value is no change
    match vs, vs', h with
    | [], vs', h =>
      obtain rfl := h.nil_eq
      exact .missing
    | [j], vs', h =>
      rw [List.perm_singleton.1 h.symm] at hm ⊢
      exact .near (.inl rfl) (hn rfl) (hm rfl)
    | _ :: _ :: _, _, _ => simp at hlen
  | edited before after hj =>
    refine ⟨by simp, fun hlen => ?_⟩
    -- the edited value is the only one, or there are too many
    match before, after with
    | [], [] => exact .near hj (hn rfl) (hm rfl)
    | [], _ :: _ => simp at hlen
    | _ :: _, _ => simp at hlen
  | omitted hname => exact ⟨by simp, fun _ => .omitted hname⟩
  | number rest hname hab => exact ⟨by simp, fun _ => .number hname hab⟩

/-! ### Records -/

/-- An object as a record: its fields are its members, if none of them stands there twice. -/
theorem record_obj (schema : List String) (ms : List (String × Json)) :
    record schema (.obj ms)
      = if ∀ name ∈ schema, (valuesOf name ms).length ≤ 1 then some ms else none := by
  simp [record, Json.length_valuesOf]

/-- As objects: each field stands there equally often and with like values. -/
theorem record_alike_obj {schema : List String} {ms ms' : List (String × Json)}
    (h : ∀ name ∈ schema, ValuesAlike name (valuesOf name ms) (valuesOf name ms'))
    (hn : Json.depthMembers ms ≤ n) (hm : Json.depthMembers ms' ≤ m) :
    (record schema (.obj ms) = none ∧ record schema (.obj ms') = none) ∨
      ∃ f f', record schema (.obj ms) = some f ∧ record schema (.obj ms') = some f' ∧
        FieldsAlike n m schema f f' := by
  have field : ∀ name ∈ schema,
      ((valuesOf name ms).length ≤ 1 ↔ (valuesOf name ms').length ≤ 1) ∧
      ((valuesOf name ms).length ≤ 1 → FieldAlike n m name (ms.lookup name) (ms'.lookup name)) := by
    intro name hname
    rw [Json.lookup_eq_head?, Json.lookup_eq_head?]
    refine field_of_valuesAlike (h name hname) (fun hj => ?_) fun hj => ?_
    · exact Nat.le_trans (lookup_depth (Json.lookup_eq_head? ms ▸ hj)) hn
    · exact Nat.le_trans (lookup_depth (Json.lookup_eq_head? ms' ▸ hj)) hm
  -- a repeated name is refused on both sides
  have unique : (∀ name ∈ schema, (valuesOf name ms).length ≤ 1) ↔
      ∀ name ∈ schema, (valuesOf name ms').length ≤ 1 :=
    forall₂_congr fun name hname => (field name hname).1
  rw [record_obj, record_obj]
  by_cases hms : ∀ name ∈ schema, (valuesOf name ms).length ≤ 1
  · rw [if_pos hms, if_pos (unique.1 hms)]
    exact .inr ⟨ms, ms', rfl, rfl, fun name hname => (field name hname).2 (hms name hname)⟩
  · rw [if_neg hms, if_neg fun h => hms (unique.2 h)]
    exact .inl ⟨rfl, rfl⟩

/-- As arrays: the fields stand in the order of the schema. -/
theorem lookup_zip_alike {items items' : List Json} (h : List.Forall₂ (Near true) items items')
    (hn : Json.depthItems items ≤ n) (hm : Json.depthItems items' ≤ m) (schema : List String)
    (name : String) :
    FieldAlike n m name ((schema.zip items).lookup name) ((schema.zip items').lookup name) := by
  induction h generalizing schema with
  | nil =>
    rw [List.zip_nil_right]
    exact .missing
  | cons hj _ ih =>
    have hn := Nat.max_le.1 hn
    have hm := Nat.max_le.1 hm
    cases schema with
    | nil => exact .missing
    | cons field schema =>
      rw [List.zip_cons_cons, List.zip_cons_cons, List.lookup_cons, List.lookup_cons]
      cases name == field with
      | true => exact .near (hj.at _) hn.1 hm.1
      | false => exact ih hn.2 hm.2 schema

/-- So arrays have as many fields before an edit as after it. -/
theorem record_alike_arr {schema : List String} {items items' : List Json}
    (h : List.Forall₂ (Near true) items items') (hn : Json.depthItems items ≤ n)
    (hm : Json.depthItems items' ≤ m) :
    (record schema (.arr items) = none ∧ record schema (.arr items') = none) ∨
      ∃ f f', record schema (.arr items) = some f ∧ record schema (.arr items') = some f' ∧
        FieldsAlike n m schema f f' := by
  have hlen := h.length_eq
  unfold record
  dsimp only
  rw [← hlen]
  split
  · exact .inr ⟨_, _, rfl, rfl, fun name _ => lookup_zip_alike h hn hm schema name⟩
  · exact .inl ⟨rfl, rfl⟩

/-- Of two documents that look alike, both are records or none is, and the fields are alike. -/
theorem record_alike {schema : List String} (hschema : ∀ name ∈ schema, name ∈ fieldNames)
    {j j' : Json} (h : Alike j j') (hn : j.depth ≤ n + 1) (hm : j'.depth ≤ m + 1) :
    (record schema j = none ∧ record schema j' = none) ∨
      ∃ f f', record schema j = some f ∧ record schema j' = some f' ∧
        FieldsAlike n m schema f f' := by
  cases h with
  | obj h =>
    exact record_alike_obj (fun name hname => h name (.tail _ (hschema name hname)))
      (Nat.le_of_succ_le_succ hn) (Nat.le_of_succ_le_succ hm)
  | arr h =>
    exact record_alike_arr h (Nat.le_of_succ_le_succ hn) (Nat.le_of_succ_le_succ hm)
  | same =>
    cases j with
    | obj ms =>
      exact record_alike_obj (fun _ _ => .moved (.refl _)) (Nat.le_of_succ_le_succ hn)
        (Nat.le_of_succ_le_succ hm)
    | arr items =>
      exact record_alike_arr (List.forall₂_same.2 fun _ _ => .inl rfl)
        (Nat.le_of_succ_le_succ hn) (Nat.le_of_succ_le_succ hm)
    | _ => exact .inl ⟨rfl, rfl⟩

/-- A reader of a record need only agree on its fields. -/
theorem agree_record {schema : List String} {g g' : Fields → Option α}
    (hschema : ∀ name ∈ schema, name ∈ fieldNames)
    (h : ∀ {f f'}, FieldsAlike n m schema f f' → g f = g' f') :
    Agree Alike (n + 1) (m + 1) (fun j => record schema j >>= g)
      (fun j => record schema j >>= g') := by
  intro j j' hj hn hm
  show record schema j >>= g = record schema j' >>= g'
  rcases record_alike hschema hj hn hm with ⟨hf, hf'⟩ | ⟨f, f', hf, hf', hfields⟩
  · rw [hf, hf']
    rfl
  · rw [hf, hf']
    exact h hfields

/-! ### Nodes -/

/-- An object as a node: its kind is the value of its only member `type`, and all other members
are its fields. -/
theorem tagged_obj (form : KindForm) (kinds : List String) (ms : List (String × Json)) :
    tagged form kinds (.obj ms) = match valuesOf "type" ms with
      | [tag] => (kindOfTag form kinds tag).map fun kind =>
        (kind, .obj (ms.filter fun m => m.1 != "type"))
      | _ => none := by
  unfold tagged valuesOf
  dsimp only
  generalize (ms.filter fun m => m.1 == "type") = types
  match types with
  | [] => rfl
  | [_] => rfl
  | _ :: _ :: _ => rfl

theorem agree_kindOfTag (form : KindForm) (kinds : List String) :
    Agree Alike n m (kindOfTag form kinds) (kindOfTag form kinds) :=
  agree_leaf (fun _ => rfl) fun _ => rfl

/-- There is one member `type` before and after an edit, or there is not one. -/
theorem type_of_valuesAlike {vs vs' : List Json} (h : ValuesAlike "type" vs vs') :
    (∃ tag tag', vs = [tag] ∧ vs' = [tag'] ∧ Alike tag tag') ∨
      (vs.length ≠ 1 ∧ vs'.length ≠ 1) := by
  cases h with
  | moved h =>
    by_cases hlen : vs.length = 1
    · obtain ⟨tag, rfl⟩ := List.length_eq_one_iff.1 hlen
      exact .inl ⟨tag, tag, rfl, List.perm_singleton.1 h.symm, .same tag⟩
    · exact .inr ⟨hlen, h.length_eq ▸ hlen⟩
  | @edited tag tag' before after hj =>
    match before, after with
    | [], [] => exact .inl ⟨tag, tag', rfl, rfl, hj.alike⟩
    | [], _ :: _ => exact .inr (by simp)
    | _ :: _, _ => exact .inr (by simp)
  | omitted hname => exact absurd hname (by decide)
  | number _ hname => exact absurd hname (by decide)

/-- The kind of an object is that of its one member `type`, and the other members are edited on
their own. -/
theorem tagged_alike_obj (form : KindForm) (kinds : List String) {ms ms' : List (String × Json)}
    (h : ∀ name ∈ "type" :: fieldNames,
      ValuesAlike name (valuesOf name ms) (valuesOf name ms')) :
    (tagged form kinds (.obj ms) = none ∧ tagged form kinds (.obj ms') = none) ∨
      ∃ kind rest rest', tagged form kinds (.obj ms) = some (kind, rest) ∧
        tagged form kinds (.obj ms') = some (kind, rest') ∧ Alike rest rest' ∧
        rest.depth ≤ (Json.obj ms).depth ∧ rest'.depth ≤ (Json.obj ms').depth := by
  rw [tagged_obj, tagged_obj]
  rcases type_of_valuesAlike (h "type" (.head _)) with ⟨tag, tag', hvs, hvs', htag⟩ | ⟨hvs, hvs'⟩
  · rw [hvs, hvs']
    dsimp only
    rw [agree_kindOfTag form kinds htag (Nat.le_refl _) (Nat.le_refl _)]
    cases kindOfTag form kinds tag' with
    | none => exact .inl ⟨rfl, rfl⟩
    | some kind =>
      refine .inr ⟨kind, _, _, rfl, rfl, .obj fun name hname => ?_,
        Nat.succ_le_succ (Json.depthMembers_filter _ ms),
        Nat.succ_le_succ (Json.depthMembers_filter _ ms')⟩
      -- the member with the kind is taken out on both sides
      by_cases htype : name = "type"
      · rw [htype, Json.valuesOf_filter_self, Json.valuesOf_filter_self]
        exact .moved (.refl _)
      · rw [Json.valuesOf_filter_of_ne htype, Json.valuesOf_filter_of_ne htype]
        exact h name hname
  -- no kind, or two of them
  · have none_of_length {ms : List (String × Json)} (hlen : (valuesOf "type" ms).length ≠ 1) :
        (match valuesOf "type" ms with
          | [tag] => (kindOfTag form kinds tag).map fun kind =>
            (kind, Json.obj (ms.filter fun m => m.1 != "type"))
          | _ => none) = none := by
      split
      · next heq => rw [heq] at hlen; exact absurd rfl hlen
      · rfl
    exact .inl ⟨none_of_length hvs, none_of_length hvs'⟩

/-- The kind of an array is its first item. -/
theorem tagged_alike_arr (form : KindForm) (kinds : List String) {items items' : List Json}
    (h : List.Forall₂ (Near true) items items') :
    (tagged form kinds (.arr items) = none ∧ tagged form kinds (.arr items') = none) ∨
      ∃ kind rest rest', tagged form kinds (.arr items) = some (kind, rest) ∧
        tagged form kinds (.arr items') = some (kind, rest') ∧ Alike rest rest' ∧
        rest.depth ≤ (Json.arr items).depth ∧ rest'.depth ≤ (Json.arr items').depth := by
  cases h with
  | nil => exact .inl ⟨rfl, rfl⟩
  | @cons tag tag' rest rest' htag hrest =>
    unfold tagged
    dsimp only
    rw [agree_kindOfTag form kinds htag.alike (Nat.le_refl _) (Nat.le_refl _)]
    cases kindOfTag form kinds tag' with
    | none => exact .inl ⟨rfl, rfl⟩
    | some kind =>
      exact .inr ⟨kind, _, _, rfl, rfl, .arr hrest, Nat.succ_le_succ (Nat.le_max_right _ _),
        Nat.succ_le_succ (Nat.le_max_right _ _)⟩

/-- Of two documents that look alike, both are nodes of one kind or none is, and what else is in
the nodes looks alike. -/
theorem tagged_alike (form : KindForm) (kinds : List String) {j j' : Json} (h : Alike j j') :
    (tagged form kinds j = none ∧ tagged form kinds j' = none) ∨
      ∃ kind rest rest', tagged form kinds j = some (kind, rest) ∧
        tagged form kinds j' = some (kind, rest') ∧ Alike rest rest' ∧
        rest.depth ≤ j.depth ∧ rest'.depth ≤ j'.depth := by
  cases h with
  | obj h => exact tagged_alike_obj form kinds h
  | arr h => exact tagged_alike_arr form kinds h
  | same =>
    cases j with
    | obj ms => exact tagged_alike_obj form kinds fun _ _ => .moved (.refl _)
    | arr items => exact tagged_alike_arr form kinds (List.forall₂_same.2 fun _ _ => .inl rfl)
    | _ => exact .inl ⟨rfl, rfl⟩

/-- A reader of nodes need only agree on the fields of each kind. -/
theorem agree_tagged {form : KindForm} {kinds : List String} {k k' : String × Json → Option α}
    (h : ∀ kind, Agree Alike n m (fun rest => k (kind, rest)) fun rest => k' (kind, rest)) :
    Agree Alike n m (fun j => tagged form kinds j >>= k) (fun j => tagged form kinds j >>= k') := by
  intro j j' hj hn hm
  show tagged form kinds j >>= k = tagged form kinds j' >>= k'
  rcases tagged_alike form kinds hj with ⟨ht, ht'⟩ | ⟨kind, rest, rest', ht, ht', hrest, hd, hd'⟩
  · rw [ht, ht']
    rfl
  · rw [ht, ht']
    exact h kind hrest (Nat.le_trans hd hn) (Nat.le_trans hd' hm)

end Load

end Estree
