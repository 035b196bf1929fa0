/-
Estree/Proofs/Conversion.lean

Which values have a text.

The text of an array leaves out an array that is being spelt already, but the name and the message
of an error object are spelt afresh.  So arrays may lie in themselves, while an error object that
its own name or message leads back to (`Store.LeadsBack`) has no text however far one searches: from
a search of it in so many steps one finds a search of the same object in fewer (`descend`).  It is
the only reason for a value to have no text: above an error object there can only be other ones, and
between two of them an array at most once, which is what `textBound` counts (`isSome_textWithin`).

All conversions, operators and listings that go by texts have their results under the same
condition.
-/
import Estree.Console
import Estree.Operator
import Estree.Builtin.Array
import Estree.Proofs.Inside
import Estree.Proofs.Loose
import Estree.Proofs.Task
import Estree.Proofs.Table

namespace Estree

open Relation

namespace Store

variable {s : Store} {v w : Value} {o : ObjectId}

/-! ### Parts of a text -/

/-- What the text of a value is made of: the items of an array, the name and the message of an error
object. -/
inductive Part (s : Store) : Value → Value → Prop where
  | item {id : ArrayId} {v : Value} : v ∈ s.items id → Part s (.array id) v
  | name {id : ObjectId} {cls : String} {v : Value} : (s.object id).brand = .error cls →
      (s.object id).props.get? "name" = some v → Part s (.object id) v
  | message {id : ObjectId} {cls : String} {v : Value} : (s.object id).brand = .error cls →
      (s.object id).props.get? "message" = some v → Part s (.object id) v

/-- An object whose text would contain the text of itself; only an error object can be one. -/
def LeadsBack (s : Store) (o : ObjectId) : Prop :=
  TransGen (Part s) (.object o) (.object o)

/-- A value whose text contains the text of no error object that leads back to itself. -/
def Grounded (s : Store) (v : Value) : Prop :=
  ∀ o, ReflTransGen (Part s) v (.object o) → ¬ s.LeadsBack o

/-- A value inside of which, at any depth, no error object leads back to itself. -/
def GroundedInside (s : Store) (v : Value) : Prop :=
  ∀ w, ReflTransGen (Inside s) v w → s.Grounded w

theorem Part.inside (h : Part s v w) : Inside s v w := by
  cases h with
  | item h => exact .item h
  | name _ h => exact .entry (Table.mem_of_get? h)
  | message _ h => exact .entry (Table.mem_of_get? h)

/-- Of the objects only errors are written by means of what they hold. -/
theorem Part.isError (h : Part s (.object o) v) : ∃ cls, (s.object o).brand = .error cls := by
  cases h with
  | name hb _ => exact ⟨_, hb⟩
  | message hb _ => exact ⟨_, hb⟩

theorem Grounded.part (h : s.Grounded v) (hp : Part s v w) : s.Grounded w :=
  fun o ho => h o (.head hp ho)

theorem GroundedInside.grounded (h : s.GroundedInside v) : s.Grounded v :=
  h v .refl

/-- What is inside of a value that is grounded at every depth is so, too. -/
theorem GroundedInside.inside (h : s.GroundedInside v) (hi : Inside s v w) :
    s.GroundedInside w :=
  fun u hu => h u (.head hi hu)

/-! ### One step of the search -/

variable {n : Nat} {seen : List ArrayId} {id : Nat}

/-- An array has a text if each of its items, apart from null and what is undefined, has one while
the array itself is being written. -/
theorem isSome_textWithin_array (h : id ∉ seen) :
    (textWithin s (n + 1) seen (.array id)).isSome = true ↔
      ∀ item ∈ s.items id,
        item.isNullish = true ∨ (textWithin s n (id :: seen) item).isSome = true := by
  have hc : seen.contains id = false := by simpa using h
  simp only [textWithin, hc, Bool.false_eq_true, if_false, Option.isSome_map,
    isSome_mapM_iff, Array.mem_toList_iff]
  refine forall₂_congr fun item _ => ?_
  rcases item.isNullish with - | -
  · simp
  · simp

/-- The text of a property, or the one given if there is no such property. -/
def fieldText (s : Store) (n : Nat) (id : ObjectId) (key missing : String) : Option String :=
  match (s.object id).props.get? key with
  | some v => textWithin s n [] v
  | none => some missing

/-- A field of an error has a text if it is missing or its value has one; of what is being written
nothing is remembered. -/
theorem isSome_fieldText {key missing : String} :
    (fieldText s n id key missing).isSome = true ↔
      ∀ v, (s.object id).props.get? key = some v → (textWithin s n [] v).isSome = true := by
  rcases e : (s.object id).props.get? key with - | v <;> simp [fieldText, e]

/-- The arrays around an error object do not matter to its text. -/
theorem textWithin_error {cls : String} (h : (s.object id).brand = .error cls) :
    textWithin s (n + 1) seen (.object id) =
      (fieldText s n id "name" cls).bind fun name =>
        (fieldText s n id "message" "").bind fun message => some (errorText name message) := by
  simp only [textWithin, h, fieldText]
  rcases (s.object id).props.get? "name" with - | vn <;>
    rcases (s.object id).props.get? "message" with - | vm <;>
    simp [Option.bind_eq_bind]

/-- An error has a text if its name and its message have one. -/
theorem isSome_textWithin_error {cls : String} (h : (s.object id).brand = .error cls) :
    (textWithin s (n + 1) seen (.object id)).isSome = true ↔
      ∀ v, Part s (.object id) v → (textWithin s n [] v).isSome = true := by
  have hf : (textWithin s (n + 1) seen (.object id)).isSome = true ↔
      (fieldText s n id "name" cls).isSome = true ∧
        (fieldText s n id "message" "").isSome = true := by
    rw [textWithin_error h]
    rcases fieldText s n id "name" cls with - | name
    · simp
    · rcases fieldText s n id "message" "" with - | message <;> simp
  rw [hf, isSome_fieldText, isSome_fieldText]
  constructor
  · rintro ⟨hn, hm⟩ v (- | ⟨-, hv⟩ | ⟨-, hv⟩)
    · exact hn v hv
    · exact hm v hv
  · exact fun hp => ⟨fun v hv => hp v (.name h hv), fun v hv => hp v (.message h hv)⟩

/-- What is written without looking at other values has a text. -/
theorem isSome_textWithin_other (h : ∀ w, ¬ Part s v w) :
    (textWithin s (n + 1) seen v).isSome = true := by
  rcases v with - | - | b | x | t | id | id | id | id
  case array =>
    by_cases hid : id ∈ seen
    · simp [textWithin, hid]
    · exact (isSome_textWithin_array hid).mpr fun item hi => absurd (.item hi) (h item)
  case object =>
    rcases e : (s.object id).brand with - | cls | made
    · simp [textWithin, e]
    · exact (isSome_textWithin_error e).mpr fun w hw => absurd hw (h w)
    · simp [textWithin, e]
  all_goals rfl

/-! ### Values that have a text -/

/-- Error objects around the search are as many as there are at most, and so are the arrays around
it since the last of them. -/
structure Around (s : Store) (above : List ObjectId) (seen : List ArrayId) (v : Value) : Prop where
  objects : above.Nodup
  objects_lt : ∀ o ∈ above, o < s.objects.size
  leads : ∀ o ∈ above, TransGen (Part s) (.object o) v
  arrays : seen.Nodup
  arrays_lt : ∀ i ∈ seen, i < s.arrays.size

namespace Around

variable {above : List ObjectId}

theorem item (h : s.Around above seen (.array id)) (hid : id ∉ seen) {v : Value}
    (hv : v ∈ s.items id) : s.Around above (id :: seen) v where
  objects := h.objects
  objects_lt := h.objects_lt
  leads o ho := (h.leads o ho).tail (.item hv)
  arrays := List.nodup_cons.mpr ⟨hid, h.arrays⟩
  arrays_lt := List.forall_mem_cons.mpr ⟨lt_size_of_mem_items hv, h.arrays_lt⟩

/-- Inside of an error object the arrays around it are forgotten, but the object is not one of those
above it, since it would lead back to itself. -/
theorem part (h : s.Around above seen (.object o)) (hg : s.Grounded (.object o)) {v : Value}
    (hv : Part s (.object o) v) : s.Around (o :: above) [] v where
  objects := List.nodup_cons.mpr ⟨fun ho => hg o .refl (h.leads o ho), h.objects⟩
  objects_lt := by
    have ho : o < s.objects.size := by
      cases hv.inside with
      | entry he => exact lt_size_of_mem_entries he
    exact List.forall_mem_cons.mpr ⟨ho, h.objects_lt⟩
  leads := List.forall_mem_cons.mpr ⟨.single hv, fun p hp => (h.leads p hp).tail hv⟩
  arrays := List.nodup_nil
  arrays_lt := by simp

end Around

/-- The steps that are left when so many objects and arrays are around the search. -/
def stepsLeft (s : Store) (objects arrays : Nat) : Nat :=
  (s.arrays.size + 2) * (s.objects.size - objects) + (s.arrays.size + 2 - arrays)

/-- One array more that is being written is one step less. -/
theorem stepsLeft_item {objects arrays : Nat} (h : arrays + 1 ≤ s.arrays.size)
    (hn : s.stepsLeft objects arrays ≤ n + 1) : s.stepsLeft objects (arrays + 1) ≤ n := by
  unfold stepsLeft at *
  omega

/-- One error more that is being written is one step less, although all arrays may be written again
inside of it. -/
theorem stepsLeft_part {objects arrays : Nat} (h : objects + 1 ≤ s.objects.size)
    (ha : arrays ≤ s.arrays.size) (hn : s.stepsLeft objects arrays ≤ n + 1) :
    s.stepsLeft (objects + 1) 0 ≤ n := by
  have hsub : s.objects.size - objects = s.objects.size - (objects + 1) + 1 := by omega
  unfold stepsLeft at *
  rw [hsub, Nat.mul_succ] at hn
  omega

/-- A value whose errors do not lead back to themselves has a text, with as many steps as there are
arrays and errors left to go through. -/
theorem isSome_textWithin {above : List ObjectId} (hv : s.Grounded v)
    (h : s.Around above seen v) (hn : s.stepsLeft above.length seen.length ≤ n) :
    (textWithin s n seen v).isSome = true := by
  -- the arrays around the search begin anew in every error object, so the objects count for more
  induction n generalizing above seen v with
  | zero =>
    have hlen : seen.length ≤ s.arrays.size := length_le_of_forall_lt h.arrays h.arrays_lt
    unfold stepsLeft at hn
    omega
  | succ n ih =>
    by_cases hp : ∃ w, Part s v w
    case neg => exact isSome_textWithin_other fun w hw => hp ⟨w, hw⟩
    obtain ⟨w, hw⟩ := hp
    rcases v with - | - | b | x | t | id | id | id | id
    case array =>
      by_cases hid : id ∈ seen
      · simp [textWithin, hid]
      · refine (isSome_textWithin_array hid).mpr fun item hi => Or.inr ?_
        have hi' : s.Around above (id :: seen) item := h.item hid hi
        have hlen : (id :: seen).length ≤ s.arrays.size :=
          length_le_of_forall_lt hi'.arrays hi'.arrays_lt
        exact ih (hv.part (.item hi)) hi' (stepsLeft_item hlen hn)
    case object =>
      have hlen : seen.length ≤ s.arrays.size := length_le_of_forall_lt h.arrays h.arrays_lt
      obtain ⟨cls, hb⟩ := hw.isError
      refine (isSome_textWithin_error hb).mpr fun u hu => ?_
      have hu' : s.Around (id :: above) [] u := h.part hv hu
      have hlen' : (id :: above).length ≤ s.objects.size :=
        length_le_of_forall_lt hu'.objects hu'.objects_lt
      exact ih (hv.part hu) hu' (stepsLeft_part hlen' hlen hn)
    all_goals cases hw

/-- A grounded value has a text. -/
theorem isSome_text (hv : s.Grounded v) : (s.text? v).isSome = true := by
  have h : s.Around [] [] v := ⟨by simp, by simp, by simp, by simp, by simp⟩
  refine isSome_textWithin hv h ?_
  simp [stepsLeft, textBound, Nat.mul_succ]

/-! ### Values that have none -/

/-- A part of something else than one of the given arrays. -/
def PartOutside (s : Store) (seen : List ArrayId) (v w : Value) : Prop :=
  Part s v w ∧ ∀ id ∈ seen, v ≠ .array id

/-- Fewer arrays to keep out of leave more ways. -/
theorem PartOutside.mono {seen' : List ArrayId} (hs : ∀ id ∈ seen', id ∈ seen)
    (h : s.PartOutside seen v w) : s.PartOutside seen' v w :=
  ⟨h.1, fun id hid => h.2 id (hs id hid)⟩

/-- A way past an array either does not touch it, or from its last visit on leads on from an item
of it and does not return. -/
theorem outside_or_from_item (id : ArrayId)
    (h : ReflTransGen (s.PartOutside seen) v (.object o)) :
    ReflTransGen (s.PartOutside (id :: seen)) v (.object o) ∨
      ∃ w ∈ s.items id, ReflTransGen (s.PartOutside (id :: seen)) w (.object o) := by
  -- from the end of the way on, so that the array is met first where it is visited last
  induction h using ReflTransGen.head_induction_on with
  | refl => exact Or.inl .refl
  | head hp _ ih =>
    rcases ih with ih | ih
    · rename_i v w _
      by_cases hv : v = .array id
      · subst hv
        cases hp.1 with
        | item hw => exact Or.inr ⟨w, hw, ih⟩
      · exact Or.inl (.head ⟨hp.1, List.forall_mem_cons.mpr ⟨hv, hp.2⟩⟩ ih)
    · exact Or.inr ih

theorem from_item {id : ArrayId} (h : ReflTransGen (s.PartOutside seen) (.array id) (.object o)) :
    id ∉ seen ∧ ∃ w ∈ s.items id, ReflTransGen (s.PartOutside (id :: seen)) w (.object o) := by
  have hid : id ∉ seen := by
    rcases h.cases_head with h | ⟨w, hw, -⟩
    · cases h
    · exact fun hid => hw.2 id hid rfl
  refine ⟨hid, ?_⟩
  rcases outside_or_from_item id h with h' | h'
  · rcases h'.cases_head with h' | ⟨w, hw, -⟩
    · cases h'
    · exact absurd rfl (hw.2 id (by simp))
  · exact h'

/-- A search that succeeds has succeeded on every object it came to, in no more steps. -/
theorem descend (h : (textWithin s n seen v).isSome = true)
    (ho : ReflTransGen (s.PartOutside seen) v (.object o)) :
    ∃ m ≤ n, (textWithin s m [] (.object o)).isSome = true := by
  induction n generalizing seen v with
  | zero => simp [textWithin] at h
  | succ n ih =>
    rcases v with - | - | b | x | t | id | id | id | id
    case array =>
      obtain ⟨hid, w, hw, hwo⟩ := from_item ho
      have hsome : (textWithin s n (id :: seen) w).isSome = true := by
        -- an item that is left blank has no parts
        rcases (isSome_textWithin_array hid).mp h w hw with hnull | hsome
        · rcases hwo.cases_head with rfl | ⟨u, hu, -⟩
          · cases hnull
          · rcases hu.1 with - | - | - <;> cases hnull
        · exact hsome
      obtain ⟨m, hm, hmo⟩ := ih hsome hwo
      exact ⟨m, Nat.le_succ_of_le hm, hmo⟩
    case object =>
      rcases ho.cases_head with ho | ⟨w, hw, hwo⟩
      · cases ho
        exact ⟨n + 1, Nat.le_refl _, h⟩
      · obtain ⟨cls, hb⟩ := hw.1.isError
        have hsome : (textWithin s n [] w).isSome = true :=
          (isSome_textWithin_error hb).mp h w hw.1
        obtain ⟨m, hm, hmo⟩ :=
          ih hsome (ReflTransGen.mono (fun _ _ hp => hp.mono (by simp)) _ _ hwo)
        exact ⟨m, Nat.le_succ_of_le hm, hmo⟩
    all_goals
      rcases ho.cases_head with ho | ⟨w, hw, -⟩
      · cases ho
      · cases hw.1

theorem reaches_outside_nil (h : ReflTransGen (Part s) v w) :
    ReflTransGen (s.PartOutside []) v w :=
  ReflTransGen.mono (fun _ _ hp => ⟨hp, by simp⟩) _ _ h

/-- An error that leads back to itself has no text, however many steps are allowed: a text would
need the text of a smaller one. -/
theorem not_isSome_of_leadsBack (ho : s.LeadsBack o) (n : Nat) :
    ¬ (textWithin s n seen (.object o)).isSome = true := by
  induction n using Nat.strongRecOn generalizing seen with
  | _ n ih =>
    intro h
    obtain ⟨w, hw, hwo⟩ := TransGen.head'_iff.mp ho
    obtain ⟨cls, hb⟩ := hw.isError
    rcases n with - | n
    · simp [textWithin] at h
    · -- the object's text needs the part's, which needs the object's in fewer steps
      have hsome : (textWithin s n [] w).isSome = true := (isSome_textWithin_error hb).mp h w hw
      obtain ⟨m, hm, hmo⟩ := descend hsome (reaches_outside_nil hwo)
      exact ih m (Nat.lt_succ_of_le hm) hmo

/-- A value has a text exactly if its text contains none that contains itself. -/
theorem isSome_textWithin_iff : (∃ n, (textWithin s n [] v).isSome = true) ↔ s.Grounded v := by
  constructor
  · rintro ⟨n, hn⟩ o ho hback
    obtain ⟨m, -, hmo⟩ := descend hn (reaches_outside_nil ho)
    exact not_isSome_of_leadsBack hback m hmo
  · intro hv
    exact ⟨s.textBound, isSome_text hv⟩

theorem isSome_text_iff : (s.text? v).isSome = true ↔ s.Grounded v :=
  ⟨fun h => isSome_textWithin_iff.mp ⟨_, h⟩, isSome_text⟩

/-- More steps do not change a text that has been found. -/
theorem textWithin_succ {t : String} (h : textWithin s n seen v = some t) :
    textWithin s (n + 1) seen v = some t := by
  induction n generalizing seen v t with
  | zero => cases h
  | succ n ih =>
    rcases v with - | - | b | x | u | id | id | id | id
    case array =>
      -- an array on the path is empty text, so the bound does not matter
      by_cases hid : id ∈ seen
      · simpa [textWithin, hid] using h
      · have item (v : Value) (_ : v ∈ (s.items id).toList) (t : String)
            (hv : (if v.isNullish then some "" else textWithin s n (id :: seen) v) = some t) :
            (if v.isNullish then some "" else textWithin s (n + 1) (id :: seen) v) = some t := by
          rcases e : v.isNullish with - | -
          · rw [e] at hv
            exact ih hv
          · rw [e] at hv
            exact hv
        have hc : seen.contains id = false := by simpa using hid
        rw [textWithin, hc] at h ⊢
        obtain ⟨texts, ht, rfl⟩ := Option.map_eq_some_iff.mp h
        exact Option.map_eq_some_iff.mpr ⟨texts, mapM_mono item ht, rfl⟩
    case object =>
      rcases eb : (s.object id).brand with - | cls | made
      case error =>
        -- the two fields of an error are read one level further in
        have field {key missing t : String} (h : fieldText s n id key missing = some t) :
            fieldText s (n + 1) id key missing = some t := by
          rcases e : (s.object id).props.get? key with - | v
          · simpa [fieldText, e] using h
          · simp only [fieldText, e] at h ⊢
            exact ih h
        rw [textWithin_error eb] at h ⊢
        obtain ⟨name, hn, h⟩ := Option.bind_eq_some_iff.mp h
        obtain ⟨message, hm, ht⟩ := Option.bind_eq_some_iff.mp h
        simpa [field hn, field hm] using ht
      all_goals simpa [textWithin, eb] using h
    all_goals exact h

/-- The text is the one that is found with enough steps. -/
theorem text_eq_some_iff {t : String} :
    s.text? v = some t ↔ ∃ n, textWithin s n [] v = some t := by
  have mono {n m : Nat} {t : String} (hnm : n ≤ m) (h : textWithin s n [] v = some t) :
      textWithin s m [] v = some t := by
    induction hnm with
    | refl => exact h
    | step _ ih => exact textWithin_succ ih
  constructor
  · exact fun h => ⟨_, h⟩
  · rintro ⟨n, hn⟩
    have hs : (s.text? v).isSome = true :=
      isSome_text (isSome_textWithin_iff.mp ⟨n, by simp [hn]⟩)
    obtain ⟨u, hu⟩ := Option.isSome_iff_exists.mp hs
    -- both texts are found in the greater number of steps
    have hut : some u = some t :=
      (mono (Nat.le_max_right n _) hu).symm.trans (mono (Nat.le_max_left n s.textBound) hn)
    rw [hu, hut]

/-- Primitive values and functions have no parts. -/
theorem grounded_of_no_part (h : ∀ w, ¬ Part s v w) (ho : ∀ o, v ≠ .object o) : s.Grounded v := by
  intro o hvo
  rcases hvo.cases_head with hvo | ⟨w, hw, -⟩
  · exact absurd hvo (ho o)
  · exact absurd hw (h w)

/-- Primitive values hold nothing. -/
theorem grounded_of_not_reference (h : v.isReference = false) : s.Grounded v := by
  refine grounded_of_no_part (fun w hw => ?_) fun o ho => ?_
  · cases hw <;> cases h
  · rw [ho] at h
    cases h

end Store

/-! ### Conversions and operators -/

/-- A computation gives a value and leaves the state alone. -/
def Run.Returns {σ α : Type} (m : Run σ α) (s : σ) : Prop :=
  ∃ a, m s = .done a s

namespace Run.Returns

variable {σ α β : Type} {s : σ} {m : Run σ α} {f : α → Run σ β}

theorem pure (a : α) : Returns (pure a : Run σ α) s := ⟨a, rfl⟩

theorem read (f : σ → α) : Returns (Run.read f) s := ⟨f s, rfl⟩

/-- What comes after may use that the first part has given its result. -/
theorem bind_of (hm : m.Returns s) (hf : ∀ a, m s = .done a s → (f a).Returns s) :
    (m >>= f).Returns s := by
  obtain ⟨a, ha⟩ := hm
  obtain ⟨b, hb⟩ := hf a ha
  exact ⟨b, (Run.bind_done ha).trans hb⟩

theorem bind (hm : m.Returns s) (hf : ∀ a, (f a).Returns s) : (m >>= f).Returns s :=
  bind_of hm fun a _ => hf a

/-- A look at the store gives a result if there is one. -/
theorem ofOption {f : σ → Option α} (h : (f s).isSome = true) : (Run.ofOption f).Returns s := by
  obtain ⟨a, ha⟩ := Option.isSome_iff_exists.mp h
  exact ⟨a, by simp [Run.ofOption, ha]⟩

/-- One after the other, if each of them gives a result. -/
theorem mapM {f : α → Run σ β} {l : List α} (h : ∀ a ∈ l, (f a).Returns s) :
    (l.mapM f).Returns s := by
  induction l with
  | nil => exact pure []
  | cons a l ih =>
    have hl : (l.mapM f).Returns s := ih fun b hb => h b (List.mem_cons_of_mem a hb)
    rw [List.mapM_cons]
    exact bind (h a (by simp)) fun b => bind hl fun bs => pure (b :: bs)

end Run.Returns

namespace Convert

variable {s : Store} {v : Value}

/-- Text conversion gives a result where there is a text. -/
theorem returns_text (h : s.Grounded v) : (text v).Returns s :=
  .ofOption (Store.isSome_text h)

/-- A number is read from the text of a reference, and from all else at once. -/
theorem returns_number (h : s.Grounded v) : (number v).Returns s := by
  refine .ofOption ?_
  rcases v with - | - | b | x | t | id | id | id | id
  case array => simpa [Store.number?] using Store.isSome_text h
  all_goals rfl

theorem returns_uint32 (h : s.Grounded v) : (uint32 v).Returns s :=
  (returns_number h).bind fun _ => .pure _

theorem returns_int32 (h : s.Grounded v) : (int32 v).Returns s :=
  (returns_number h).bind fun _ => .pure _

theorem returns_primitive (h : s.Grounded v) : (primitive v).Returns s := by
  unfold primitive
  split
  · exact (returns_text h).bind fun _ => .pure _
  · exact .pure v

/-- What a value becomes as a primitive value is one. -/
theorem not_isReference_of_primitive {p : Value} (h : primitive v s = .done p s) :
    p.isReference = false := by
  unfold primitive at h
  split at h
  · rcases e : text v s with ⟨t, s'⟩ | ⟨e', s'⟩ | -
    · rw [Run.bind_done e] at h
      cases h
      rfl
    · rw [Run.bind_failed e] at h
      cases h
    · rw [Run.bind_endless e] at h
      cases h
  · rename_i hv
    cases h
    simpa using hv

end Convert

namespace Operator

variable {s : Store} {l r : Value}

open Estree.Convert

/-- An operation on the primitive values of both sides. -/
theorem returns_onPrimitives {α : Type} {f : Value → Value → Run Store α} (hl : s.Grounded l)
    (hr : s.Grounded r) (hf : ∀ p q, s.Grounded p → s.Grounded q → (f p q).Returns s) :
    (do f (← primitive l) (← primitive r)).Returns s := by
  refine (returns_primitive hl).bind_of fun p hp => (returns_primitive hr).bind_of fun q hq => ?_
  exact hf p q (Store.grounded_of_not_reference (not_isReference_of_primitive hp))
    (Store.grounded_of_not_reference (not_isReference_of_primitive hq))

theorem returns_onNumbers (f : Float → Float → Float) (hl : s.Grounded l) (hr : s.Grounded r) :
    (onNumbers f l r).Returns s :=
  (returns_number hl).bind fun _ => (returns_number hr).bind fun _ => .pure _

theorem returns_onBits (f : BitVec 32 → BitVec 32 → BitVec 32) (hl : s.Grounded l)
    (hr : s.Grounded r) : (onBits f l r).Returns s :=
  (returns_uint32 hl).bind fun _ => (returns_uint32 hr).bind fun _ => .pure _

theorem returns_shift {f : Value → Nat → Run Store Value} (hf : ∀ n, (f l n).Returns s)
    (hr : s.Grounded r) : (shift f l r).Returns s :=
  (returns_uint32 hr).bind fun _ => hf _

/-- Both sides become primitive first, and then texts or numbers. -/
theorem returns_add (hl : s.Grounded l) (hr : s.Grounded r) : (add l r).Returns s := by
  refine returns_onPrimitives hl hr fun p q hp hq => ?_
  split
  · exact (returns_text hq).bind fun _ => .pure _
  · exact (returns_text hp).bind fun _ => .pure _
  · exact (returns_number hp).bind fun _ => (returns_number hq).bind fun _ => .pure _

theorem returns_compare (hl : s.Grounded l) (hr : s.Grounded r) : (compare l r).Returns s := by
  refine returns_onPrimitives hl hr fun p q hp hq => ?_
  split
  · exact .pure _
  · exact (returns_number hp).bind fun _ => (returns_number hq).bind fun _ => .pure _

theorem grounded_boolAsNumber (h : s.Grounded l) : s.Grounded (boolAsNumber l) := by
  rcases l with - | - | b | x | t | id | id | id | id
  case bool => exact Store.grounded_of_not_reference rfl
  all_goals exact h

/-- Each arm of the comparison converts at most the two sides. -/
theorem returns_looseEq (hl : s.Grounded l) (hr : s.Grounded r) : (looseEq l r).Returns s := by
  rw [looseEq_eq_atOnce]
  unfold looseEqAtOnce
  split
  · exact .pure _
  · split
    · exact .pure _
    · dsimp only
      split
      · exact .pure _
      · exact returns_onPrimitives (grounded_boolAsNumber hl) (grounded_boolAsNumber hr)
          fun _ _ _ _ => .pure _

/-- Every operator gives a result if both sides can be converted. -/
theorem returns_arith (op : ArithOp) (hl : s.Grounded l) (hr : s.Grounded r) :
    (arith op l r).Returns s := by
  cases op with
  | add => exact returns_add hl hr
  | sub | mul | div | mod | exp => exact returns_onNumbers _ hl hr
  | shl | ushr =>
    simp only [arith]
    exact returns_shift (fun _ => .bind (returns_uint32 hl) fun _ => .pure _) hr
  | shr =>
    simp only [arith]
    exact returns_shift (fun _ => .bind (returns_int32 hl) fun _ => .pure _) hr
  | bitAnd | bitOr | bitXor => exact returns_onBits _ hl hr

/-- All operators but the two that ask for membership. -/
theorem returns_binary (host : Host) {op : BinaryOp} (hin : op ≠ .isIn) (hof : op ≠ .instanceOf)
    (hl : s.Grounded l) (hr : s.Grounded r) : (binary host op l r).Returns s := by
  cases op with
  | looseEq | looseNe => exact (returns_looseEq hl hr).bind fun _ => .pure _
  | strictEq | strictNe => exact .pure _
  | lt | gt | le | ge => exact (returns_compare hl hr).bind fun _ => .pure _
  | isIn => exact absurd rfl hin
  | instanceOf => exact absurd rfl hof
  | arith op => exact returns_arith op hl hr

end Operator

namespace Builtin

variable {s : Store}

theorem returns_joinItems {items : List Value} (h : ∀ v ∈ items, s.Grounded v)
    (separator : String) : (joinItems items separator).Returns s := by
  refine .bind (.mapM fun v hv => ?_) fun _ => .pure _
  split
  · exact .pure ""
  · exact Convert.returns_text (h v hv)

theorem returns_join {id : ArrayId} {args : List Value} (hi : ∀ v ∈ s.items id, s.Grounded v)
    (ha : ∀ v ∈ args, s.Grounded v) : (arrayMethod .join id args).Returns s := by
  have rest (separator : String) :
      (do
        let items ← Run.read fun s => (s.items id).toList
        return Value.str (← joinItems items separator) : Run Store Value).Returns s := by
    refine .bind_of (.read _) fun items hit => ?_
    cases hit
    exact (returns_joinItems (by simpa using hi) separator).bind fun _ => .pure _
  simp only [arrayMethod]
  split
  · exact rest ","
  · exact rest ","
  · rename_i v _ hv
    exact (Convert.returns_text (ha v (List.mem_of_getElem? hv))).bind rest

end Builtin

/-! ### Listings -/

namespace Console

variable {s : Store}

/-- A line of the console shows a value whose containers are grounded; containers inside themselves
are cut off, errors are written in full. -/
theorem isSome_lookWithin {left : Nat} {path : List Builtin.Container} {v : Value}
    (h : s.GroundedInside v) : (lookWithin s left path v).isSome = true := by
  induction left generalizing path v with
  -- no level is left: containers stand as placeholders, and only errors need their text
  | zero =>
    rcases v with - | - | b | x | t | id | id | id | id
    case array => by_cases hc : .array id ∈ path <;> simp [lookWithin, hc]
    case object =>
      have ht : (s.text? (.object id)).isSome = true := Store.isSome_text h.grounded
      by_cases hc : .object id ∈ path
      · simp [lookWithin, hc]
      · rcases hb : (s.object id).brand with - | cls | made <;> simp [lookWithin, hc, hb, ht]
    all_goals rfl
  | succ left ih =>
    rcases v with - | - | b | x | t | id | id | id | id
    case array =>
      -- what lies inside something grounded is grounded
      have items (path : List Builtin.Container) (v : Value) (hv : v ∈ s.items id) :
          (lookWithin s left path v).isSome = true := ih (h.inside (.item hv))
      by_cases hc : .array id ∈ path
      · simp [lookWithin, hc]
      · simpa [lookWithin, hc, isSome_mapM_iff] using items _
    case object =>
      have ht : (s.text? (.object id)).isSome = true := Store.isSome_text h.grounded
      have entries (path : List Builtin.Container) (e : String × Value)
          (he : e ∈ (s.object id).props.entries) :
          (lookWithin s left path e.2).isSome = true := ih (h.inside (.entry he))
      by_cases hc : .object id ∈ path
      · simp [lookWithin, hc]
      · rcases hb : (s.object id).brand with - | cls | made
        case error => simp [lookWithin, hc, hb, ht]
        all_goals simpa [lookWithin, hc, hb, isSome_mapM_iff] using fun k v => entries _ (k, v)
    all_goals rfl

theorem isSome_look {v : Value} (h : s.GroundedInside v) : (look? s v).isSome = true :=
  isSome_lookWithin h

theorem isSome_line {args : List Value} (h : ∀ v ∈ args, s.GroundedInside v) :
    (line? s args).isSome = true := by
  rw [line?, Option.isSome_map, isSome_mapM_iff]
  intro v hv
  split
  · rfl
  · exact isSome_look (h v hv)

end Console

/-! ### Every value -/

/-- **Texts are found unless an error leads back to itself.**  The text of a value is found unless
an error object within it leads back to itself, and so is all that is made of texts: its number, its
key as a property, the wording of an uncaught error, what the operators give, the items of an array
joined, and what the console shows. -/
theorem texts_are_found_unless_an_error_leads_back (host : Host) (s : Store) :
    (∀ v t, s.text? v = some t ↔ ∃ n, s.textWithin n [] v = some t) ∧
    (∀ v, (s.text? v).isSome = true ↔ s.Grounded v) ∧
    (∀ v, s.Grounded v → (Convert.number v).Returns s ∧ (Convert.key v).Returns s ∧
      (s.message? (.thrown v)).isSome = true) ∧
    (∀ op l r, op ≠ .isIn → op ≠ .instanceOf → s.Grounded l → s.Grounded r →
      (Operator.binary host op l r).Returns s) ∧
    (∀ id args, (∀ v ∈ s.items id, s.Grounded v) → (∀ v ∈ args, s.Grounded v) →
      (Builtin.arrayMethod .join id args).Returns s) ∧
    (∀ v, s.GroundedInside v → (Console.look? s v).isSome = true) ∧
    ∀ args, (∀ v ∈ args, s.GroundedInside v) → (Console.line? s args).isSome = true := by
  refine ⟨fun v t => Store.text_eq_some_iff, fun v => Store.isSome_text_iff, fun v hv => ?_,
    fun op l r hin hof hl hr => Operator.returns_binary host hin hof hl hr,
    fun id args => Builtin.returns_join, fun v => Console.isSome_look,
    fun args => Console.isSome_line⟩
  have hm : (s.message? (.thrown v)).isSome = true := by
    simpa [Store.message?] using Store.isSome_text hv
  exact ⟨Convert.returns_number hv, Convert.returns_text hv, hm⟩

/-- An array that contains itself has a text, and can be added to itself. -/
theorem array_in_itself_has_a_text :
    let s : Store := { arrays := #[#[.num 1, .array 0]] }
    s.Grounded (.array 0) ∧ (s.text? (.array 0)).isSome = true ∧
      (Operator.binary .none (.arith .add) (.array 0) (.array 0)).Returns s := by
  intro s
  have hg : s.Grounded (.array 0) := by
    intro o _ hback
    obtain ⟨w, hw, -⟩ := TransGen.head'_iff.mp hback
    obtain ⟨cls, hb⟩ := hw.isError
    simp [s, Store.object] at hb
  have h := texts_are_found_unless_an_error_leads_back .none s
  exact ⟨hg, (h.2.1 _).mpr hg, h.2.2.2.1 _ _ _ (by simp) (by simp) hg hg⟩

/-- The store of `var e = Error("m"); e.name = e`. -/
def selfNamedError : Store where
  objects :=
    #[{ props := .ofList [("name", .object 0), ("message", .str "m")], brand := .error "Error" }]

/-- The same does not hold of an error object that is its own name: its text is not found in any
number of steps, so no conversion of it ends. -/
theorem error_that_is_its_own_name_has_no_text :
    (do
      let e ← Store.newError "Error" "m"
      Store.modifyObject 0 fun props => props.insert "name" e : Run Store Unit) {} =
        .done () selfNamedError ∧
    (∀ n, selfNamedError.textWithin n [] (.object 0) = none) ∧
    Convert.text (.object 0) selfNamedError = .endless ∧
    Operator.binary .none (.arith .add) (.object 0) (.object 0) selfNamedError = .endless := by
  have hback : selfNamedError.LeadsBack 0 := .single (.name rfl rfl)
  have hn (n : Nat) : selfNamedError.textWithin n [] (.object 0) = none := by
    simpa using Store.not_isSome_of_leadsBack hback n
  have ht : Convert.text (.object 0) selfNamedError = .endless := by
    simp [Convert.text, Run.ofOption, Store.text?, hn]
  have hp : Convert.primitive (.object 0) selfNamedError = .endless := Run.bind_endless ht
  exact ⟨rfl, hn, ht, Run.bind_endless hp⟩

end Estree
