/-
Estree/Proofs/Json/RoundTrip.lean

A value that has been written as JSON text is read back as its normal form.

The text of a value is the spelling of the document of its normal form, whatever the indentation
(`exists_text`).  That document has only integers for numbers, so it is read back as it is unless it
is nested too deeply (`Json.parse_spell`), and from it the reader builds a value of its own that
shows the same tree (`done_ofJson`).  So `exact_values_survive_json` needs no more
of a value than that it has no cycles and that its numbers are those that are written exactly.

The depth is the only obstacle.  The reader allows 127 containers in one another, and the text of a
value that is nested more deeply is refused with a syntax error.
-/
import Estree.Proofs.Scope
import Estree.Proofs.Task
import Estree.Proofs.Json.Normal
import Estree.Proofs.Json.Reading

namespace Estree

open Relation

/-! ### Values that show a tree -/

mutual

/-- A value is built like a tree: arrays item by item, and plain objects with the same keys in the
same order. -/
def Shows (s : Store) : Tree → Value → Prop
  | .null, v => v = .null
  | .bool b, v => v = .bool b
  | .num x, v => v = .num x
  | .str text, v => v = .str text
  | .arr items, v => ∃ id vs, v = .array id ∧ s.arrays[id]? = some vs ∧ ShowsItems s items vs.toList
  | .obj members, v => ∃ id props, v = .object id ∧ s.objects[id]? = some ⟨props, .plain⟩ ∧
      ShowsMembers s members props.entries

/-- The same for the items of an array. -/
def ShowsItems (s : Store) : List Tree → List Value → Prop
  | [], vs => vs = []
  | t :: ts, vs => ∃ w ws, vs = w :: ws ∧ Shows s t w ∧ ShowsItems s ts ws

/-- The same for the properties of an object. -/
def ShowsMembers (s : Store) : List (String × Tree) → List (String × Value) → Prop
  | [], es => es = []
  | (name, t) :: ts, es => ∃ w ws, es = (name, w) :: ws ∧ Shows s t w ∧ ShowsMembers s ts ws

end

/-- A store in which all arrays and objects of another one are as they were. -/
structure Keeps (s s' : Store) : Prop where
  arrays : ∀ {id : ArrayId} {vs : Array Value}, s.arrays[id]? = some vs → s'.arrays[id]? = some vs
  objects : ∀ {id : ObjectId} {o : Object}, s.objects[id]? = some o → s'.objects[id]? = some o

section keeps

variable {s s' s₁ s₂ s₃ : Store}

theorem Keeps.refl (s : Store) : Keeps s s := ⟨id, id⟩

theorem Keeps.trans (h : Keeps s₁ s₂) (h' : Keeps s₂ s₃) : Keeps s₁ s₃ :=
  ⟨fun e => h'.arrays (h.arrays e), fun e => h'.objects (h.objects e)⟩

theorem getElem?_push_of_some {α : Type} {xs : Array α} {i : Nat} {x y : α} (h : xs[i]? = some x) :
    (xs.push y)[i]? = some x := by
  obtain ⟨hi, rfl⟩ := Array.getElem?_eq_some_iff.mp h
  rw [Array.getElem?_push_lt hi]

/-- A new array comes behind all others. -/
theorem Keeps.newArray (s : Store) (items : Array Value) :
    Keeps s { s with arrays := s.arrays.push items } :=
  ⟨getElem?_push_of_some, id⟩

/-- A new object comes behind all others. -/
theorem Keeps.newObject (s : Store) (o : Object) :
    Keeps s { s with objects := s.objects.push o } :=
  ⟨id, getElem?_push_of_some⟩

mutual

/-- What shows a tree goes on to show it. -/
theorem Shows.mono (h : Keeps s s') : ∀ {t : Tree} {v : Value}, Shows s t v → Shows s' t v
  | .null, _, hv | .bool _, _, hv | .num _, _, hv | .str _, _, hv => hv
  | .arr _, _, ⟨id, vs, hv, hid, hs⟩ => ⟨id, vs, hv, h.arrays hid, hs.mono h⟩
  | .obj _, _, ⟨id, props, hv, hid, hs⟩ => ⟨id, props, hv, h.objects hid, hs.mono h⟩

/-- Items that are shown are still shown when more has been made. -/
theorem ShowsItems.mono (h : Keeps s s') :
    ∀ {ts : List Tree} {vs : List Value}, ShowsItems s ts vs → ShowsItems s' ts vs
  | [], _, hv => hv
  | _ :: _, _, ⟨w, ws, hv, hw, hs⟩ => ⟨w, ws, hv, hw.mono h, hs.mono h⟩

/-- Members that are shown are still shown when more has been made. -/
theorem ShowsMembers.mono (h : Keeps s s') :
    ∀ {ts : List (String × Tree)} {es : List (String × Value)},
      ShowsMembers s ts es → ShowsMembers s' ts es
  | [], _, hv => hv
  | (_, _) :: _, _, ⟨w, ws, hv, hw, hs⟩ => ⟨w, ws, hv, hw.mono h, hs.mono h⟩

end

end keeps

/-! ### Trees that are kept whole -/

namespace Tree

mutual

/-- Every number is written as an integer that reads as the number, and no object has two members
of one name. -/
def Whole : Tree → Prop
  | .num x =>
    ∃ k : Int, k.natAbs < 2 ^ 53 ∧ Builtin.numberJson x = .num (.int k) ∧ Float.ofInt k = x
  | .arr items => WholeItems items
  | .obj members => (members.map Prod.fst).Nodup ∧ WholeMembers members
  | _ => True

/-- The same of all items. -/
def WholeItems : List Tree → Prop
  | [] => True
  | t :: rest => t.Whole ∧ WholeItems rest

/-- The same of the values of all members. -/
def WholeMembers : List (String × Tree) → Prop
  | [] => True
  | (_, t) :: rest => t.Whole ∧ WholeMembers rest

end

mutual

/-- A tree of whole numbers has a document of whole numbers. -/
theorem Whole.integral : ∀ {t : Tree}, t.Whole → t.json.Integral
  | .null, _ | .bool _, _ | .str _, _ => trivial
  | .num x, ⟨k, hk, hj, _⟩ => by
    rw [json, hj]
    show k.natAbs ≤ 2 ^ 63
    omega
  | .arr _, h => WholeItems.integral h
  | .obj _, h => WholeMembers.integral h.2

theorem WholeItems.integral : ∀ {ts : List Tree}, WholeItems ts → Json.IntegralItems (jsonItems ts)
  | [], _ => trivial
  | _ :: _, h => ⟨h.1.integral, h.2.integral⟩

theorem WholeMembers.integral :
    ∀ {ts : List (String × Tree)}, WholeMembers ts → Json.IntegralMembers (jsonMembers ts)
  | [], _ => trivial
  | (_, _) :: _, h => ⟨h.1.integral, h.2.integral⟩

end

/-- A number nests nothing, whether it is written as one or as null. -/
theorem nesting_numberJson (x : Float) : (Builtin.numberJson x).nesting = 0 := by
  unfold Builtin.numberJson
  split
  · split <;> rfl
  · rfl

mutual

/-- A document has as many containers in one another as its tree. -/
@[simp] theorem nesting_json : ∀ t : Tree, t.json.nesting = t.nesting
  | .null | .bool _ | .str _ => rfl
  | .num x => nesting_numberJson x
  | .arr items => congrArg (· + 1) (nesting_jsonItems items)
  | .obj members => congrArg (· + 1) (nesting_jsonMembers members)

theorem nesting_jsonItems : ∀ ts : List Tree, Json.nestingItems (jsonItems ts) = nestingItems ts
  | [] => rfl
  | t :: ts => by
    rw [jsonItems, Json.nestingItems, nestingItems, nesting_json t, nesting_jsonItems ts]

theorem nesting_jsonMembers :
    ∀ ts : List (String × Tree), Json.nestingMembers (jsonMembers ts) = nestingMembers ts
  | [] => rfl
  | (_, t) :: ts => by
    rw [jsonMembers, Json.nestingMembers, nestingMembers, nesting_json t, nesting_jsonMembers ts]

end

end Tree

/-! ### Reading a document as a value -/

namespace Builtin

/-- The entries have the names of the members, in order. -/
theorem map_fst_of_shows {s : Store} {ts : List (String × Tree)} {es : List (String × Value)}
    (h : ShowsMembers s ts es) : es.map Prod.fst = ts.map Prod.fst := by
  induction ts generalizing es with
  | nil => rw [show es = [] from h]; rfl
  | cons m ts ih =>
    obtain ⟨w, ws, rfl, -, hs⟩ := h
    simp [ih hs]

mutual

/-- A whole tree comes out of its document as a value that shows it, and nothing else is changed. -/
theorem done_ofJson : ∀ (t : Tree), t.Whole → ∀ s : Store,
    ∃ v s', ofJson t.json s = .done v s' ∧ Keeps s s' ∧ Shows s' t v
  | .null, _, s => ⟨.null, s, rfl, .refl s, rfl⟩
  | .bool b, _, s => ⟨.bool b, s, rfl, .refl s, rfl⟩
  | .str text, _, s => ⟨.str text, s, rfl, .refl s, rfl⟩
  | .num x, ⟨k, _, hj, hx⟩, s => by
    refine ⟨.num x, s, ?_, .refl s, rfl⟩
    rw [Tree.json, hj, ofJson, JsonNumber.toFloat, hx]
    rfl
  | .arr items, h, s => by
    obtain ⟨vs, s₁, hvs, hk, hs⟩ := done_ofJsonItems items h s
    have hk' : Keeps s₁ { s₁ with arrays := s₁.arrays.push vs.toArray } := .newArray s₁ _
    refine ⟨.array s₁.arrays.size, _, ?_, hk.trans hk', _, vs.toArray, rfl, by simp, ?_⟩
    · rw [Tree.json, ofJson, Run.bind_done hvs]
      rfl
    · exact hs.mono hk'
  | .obj members, ⟨hnodup, h⟩, s => by
    obtain ⟨es, s₁, hes, hk, hs⟩ := done_ofJsonMembers members h s
    -- the names are distinct, so the table keeps every member in its place
    have hprops : (Table.ofList es).entries = es :=
      Table.entries_ofList (by rwa [map_fst_of_shows hs])
    have hk' : Keeps s₁ { s₁ with objects := s₁.objects.push { props := Table.ofList es } } :=
      .newObject s₁ _
    refine ⟨.object s₁.objects.size, _, ?_, hk.trans hk', _, Table.ofList es, rfl, by simp, ?_⟩
    · rw [Tree.json, ofJson, Run.bind_done hes]
      rfl
    · rw [hprops]
      exact hs.mono hk'

/-- Items are made one after the other; making the later ones keeps the earlier ones. -/
theorem done_ofJsonItems : ∀ (ts : List Tree), Tree.WholeItems ts → ∀ s : Store,
    ∃ vs s', ofJsonItems (Tree.jsonItems ts) s = .done vs s' ∧ Keeps s s' ∧ ShowsItems s' ts vs
  | [], _, s => ⟨[], s, rfl, .refl s, rfl⟩
  | t :: ts, h, s => by
    obtain ⟨v, s₁, hv, hk, hs⟩ := done_ofJson t h.1 s
    obtain ⟨vs, s₂, hvs, hk', hs'⟩ := done_ofJsonItems ts h.2 s₁
    refine ⟨v :: vs, s₂, ?_, hk.trans hk', v, vs, rfl, hs.mono hk', hs'⟩
    rw [Tree.jsonItems, ofJsonItems, Run.bind_done hv, Run.bind_done hvs]
    rfl

/-- So are the values of members. -/
theorem done_ofJsonMembers : ∀ (ts : List (String × Tree)), Tree.WholeMembers ts → ∀ s : Store,
    ∃ es s', ofJsonMembers (Tree.jsonMembers ts) s = .done es s' ∧ Keeps s s' ∧
      ShowsMembers s' ts es
  | [], _, s => ⟨[], s, rfl, .refl s, rfl⟩
  | (name, t) :: ts, h, s => by
    obtain ⟨v, s₁, hv, hk, hs⟩ := done_ofJson t h.1 s
    obtain ⟨es, s₂, hes, hk', hs'⟩ := done_ofJsonMembers ts h.2 s₁
    refine ⟨(name, v) :: es, s₂, ?_, hk.trans hk', v, es, rfl, hs.mono hk', hs'⟩
    rw [Tree.jsonMembers, ofJsonMembers, Run.bind_done hv, Run.bind_done hes]
    rfl

end

end Builtin

/-! ### Values that are written exactly -/

/-- A value without cycles in which every number is either not finite or an integer of a magnitude
of at most 2^53 - 1. -/
structure Store.Exact (s : Store) (v : Value) : Prop where
  cycleFree : s.CycleFree v
  numbers : ∀ x, ReflTransGen s.Inside v (.num x) → Double.IsSafe x

/-- There are no more than so many containers in one another in a value. -/
def Store.NestsWithin (s : Store) : Nat → Value → Prop
  | 0, v => (∀ id, v ≠ .array id) ∧ ∀ id, v ≠ .object id
  | n + 1, v => ∀ w, s.Inside v w → s.NestsWithin n w

section exact

variable {s : Store} {v w : Value}

/-- Exactness is about all that is inside, so it goes down to the parts. -/
theorem Store.Exact.inside (h : s.Exact v) (hi : s.Inside v w) : s.Exact w where
  cycleFree := h.cycleFree.inside hi
  numbers x hx := h.numbers x (.head hi hx)

theorem Store.Exact.items {id : ArrayId} (h : s.Exact (.array id)) :
    ∀ v ∈ (s.items id).toList, s.Exact v :=
  fun _ hv => h.inside (.item (by simpa using hv))

theorem Store.Exact.entries {id : ObjectId} (h : s.Exact (.object id)) :
    ∀ e ∈ (s.object id).props.entries, s.Exact e.2 :=
  fun _ he => h.inside (.entry he)

/-- What is left of a safe integer is a whole number. -/
theorem Tree.whole_ofNumber {x : Float} (hx : Double.IsSafe x) : (Tree.ofNumber x).Whole := by
  rcases h : Double.normal? x with - | y
  · rw [Tree.ofNumber, h]
    trivial
  · rw [Tree.ofNumber, h]
    obtain ⟨k, hk, hj, hy⟩ := Double.exists_int hx h
    exact ⟨k, hk, by rw [Double.numberJson_normal h, hj], hy⟩

/-- Normal forms leave out members, but do not reorder them. -/
theorem NormalEntries.keys_sublist {es : List (String × Value)} {ts : List (String × Tree)}
    (h : NormalEntries s es ts) : (ts.map Prod.fst).Sublist (es.map Prod.fst) := by
  induction es generalizing ts with
  | nil => cases h; exact .slnil
  | cons e es ih =>
    cases h with
    | keep _ hs => exact (ih hs).cons_cons _
    | drop _ hs => exact (ih hs).cons _

mutual

/-- The normal form of an exact value is kept whole. -/
theorem Normal.whole {v : Value} {t : Tree} : Normal s v (some t) → s.Exact v → t.Whole
  | .null, _ | .bool _, _ | .str _, _ => trivial
  | .num x, h => Tree.whole_ofNumber (h.numbers x .refl)
  | .array hs, h => hs.whole h.items
  | .object hs, h => ⟨(s.object _).props.nodup.sublist hs.keys_sublist, hs.whole h.entries⟩

/-- Where all numbers are safe integers, so are those of the normal forms. -/
theorem NormalItems.whole {vs : List Value} {ts : List Tree} :
    NormalItems s vs ts → (∀ v ∈ vs, s.Exact v) → Tree.WholeItems ts
  | .nil, _ => trivial
  | .cons (t := none) _ hs, h => ⟨trivial, hs.whole fun v hv => h v (List.mem_cons_of_mem _ hv)⟩
  | .cons (t := some _) hv hs, h =>
    ⟨hv.whole (h _ (List.mem_cons_self)), hs.whole fun v hv => h v (List.mem_cons_of_mem _ hv)⟩

theorem NormalEntries.whole {es : List (String × Value)} {ts : List (String × Tree)} :
    NormalEntries s es ts → (∀ e ∈ es, s.Exact e.2) → Tree.WholeMembers ts
  | .nil, _ => trivial
  | .keep hv hs, h =>
    ⟨hv.whole (h _ (List.mem_cons_self)), hs.whole fun e he => h e (List.mem_cons_of_mem _ he)⟩
  | .drop _ hs, h => hs.whole fun e he => h e (List.mem_cons_of_mem _ he)

end

/-! ### Depth -/

/-- An array nests one container more than its items. -/
theorem nestsWithin_array {id : ArrayId} {n : Nat} :
    s.NestsWithin (n + 1) (.array id) ↔ ∀ v ∈ (s.items id).toList, s.NestsWithin n v := by
  constructor
  · exact fun h v hv => h v (.item (by simpa using hv))
  · rintro h w (hw | -)
    exact h w (by simpa using hw)

/-- An object nests one container more than the values of its properties. -/
theorem nestsWithin_object {id : ObjectId} {n : Nat} :
    s.NestsWithin (n + 1) (.object id) ↔
      ∀ e ∈ (s.object id).props.entries, s.NestsWithin n e.2 := by
  constructor
  · exact fun h e he => h e.2 (.entry he)
  · rintro h w (- | he)
    exact h _ he

/-- What is no container nests nothing. -/
theorem nestsWithin_of_not_inside (h : ∀ id, v ≠ .array id) (h' : ∀ id, v ≠ .object id) (n : Nat) :
    s.NestsWithin n v := by
  rcases n with - | n
  · exact ⟨h, h'⟩
  · intro w hw
    cases hw with
    | item _ => exact absurd rfl (h _)
    | entry _ => exact absurd rfl (h' _)

mutual

/-- A value nests as deeply as its normal form. -/
theorem Normal.nests {v : Value} {t : Option Tree} :
    Normal s v t → ∀ n, s.NestsWithin n v ↔ (t.getD .null).nesting ≤ n
  | .undefined, n | .closure _, n | .native _, n | .null, n | .bool _, n | .str _, n => by
    refine iff_of_true (nestsWithin_of_not_inside ?_ ?_ n) (Nat.zero_le n) <;> nofun
  | .num x, n => by
    have h0 : (Tree.ofNumber x).nesting = 0 := by
      unfold Tree.ofNumber
      split <;> rfl
    refine iff_of_true (nestsWithin_of_not_inside ?_ ?_ n) (by simp [h0]) <;> nofun
  | .array hs, 0 => iff_of_false (fun h => h.1 _ rfl) (Nat.not_succ_le_zero _)
  | .array hs, n + 1 => by
    rw [nestsWithin_array, hs.nests n]
    exact Nat.succ_le_succ_iff.symm
  | .object hs, 0 => iff_of_false (fun h => h.2 _ rfl) (Nat.not_succ_le_zero _)
  | .object hs, n + 1 => by
    rw [nestsWithin_object, hs.nests n]
    exact Nat.succ_le_succ_iff.symm

/-- Items nest as deep as their normal forms. -/
theorem NormalItems.nests {vs : List Value} {ts : List Tree} :
    NormalItems s vs ts → ∀ n, (∀ v ∈ vs, s.NestsWithin n v) ↔ Tree.nestingItems ts ≤ n
  | .nil, n => by simp [Tree.nestingItems]
  | .cons hv hs, n => by
    rw [List.forall_mem_cons, hv.nests n, hs.nests n, Tree.nestingItems, Nat.max_le]

/-- Entries nest as deep as the normal forms that are left of them; what is left out holds no
container. -/
theorem NormalEntries.nests {es : List (String × Value)} {ts : List (String × Tree)} :
    NormalEntries s es ts → ∀ n, (∀ e ∈ es, s.NestsWithin n e.2) ↔ Tree.nestingMembers ts ≤ n
  | .nil, n => by simp [Tree.nestingMembers]
  | .keep hv hs, n => by
    rw [List.forall_mem_cons, hv.nests n, hs.nests n, Tree.nestingMembers, Nat.max_le]
    rfl
  | .drop hv hs, n => by
    rw [List.forall_mem_cons, hv.nests n, hs.nests n]
    exact and_iff_right (Nat.zero_le n)

end

end exact

/-! ### The round trip -/

namespace Builtin

/-- Unless it is given as a text, the indentation is blanks. -/
theorem isGap_gapOf {indent : Option Value} (hi : ∀ text, indent ≠ some (.str text)) :
    Json.IsGap (gapOf indent).toList := by
  rcases indent with - | v
  · exact Json.isGap_nil
  · cases v
    case num x =>
      intro c hc
      simp only [gapOf, String.toList_ofList, List.mem_replicate] at hc
      rw [hc.2]
      rfl
    case str text => exact absurd rfl (hi text)
    all_goals exact Json.isGap_nil

/-- The text of a value that has a normal form is a spelling of its document. -/
theorem exists_text {s : Store} {v : Value} {t : Tree} {indent : Option Value}
    (h : toJson s v = some (some t.json)) (hi : ∀ text, indent ≠ some (.str text)) :
    ∃ text L, stringify v indent s = .done (.str text) s ∧ text.toList = Json.spell L 0 t.json := by
  have hj : (Run.read fun s => toJson s v) s = .done (some (some t.json)) s := by
    rw [← h]
    rfl
  by_cases hg : (gapOf indent).isEmpty = true
  · refine ⟨t.json.compact, .compact, ?_, Json.toList_compact _⟩
    rw [stringify, Run.bind_done hj]
    simp only [hg, if_true]
    rfl
  · refine ⟨t.json.indented (gapOf indent), _, ?_, Json.toList_indented (isGap_gapOf hi) _⟩
    rw [stringify, Run.bind_done hj]
    simp only [hg]
    rfl

/-- A spelt document is read as a value that shows its tree, or refused for its depth. -/
theorem parse_text {t : Tree} (ht : t.Whole) {text : String} {L : Json.Layout}
    (htext : text.toList = Json.spell L 0 t.json) (s : Store) :
    (t.nesting ≤ 127 → ∃ w s', parse text s = .done w s' ∧ Keeps s s' ∧ Shows s' t w) ∧
    (127 < t.nesting → ∃ e s', parse text s = .failed { cause := .thrown (.object e) } s' ∧
      (s'.object e).brand = .error "SyntaxError" ∧
      (s'.object e).props.get? "name" = some (.str "SyntaxError")) := by
  have hp : (t.json.nesting ≤ 127 → Json.parse .strict text = .ok t.json) ∧
      (127 < t.json.nesting → ∃ f, Json.parse .strict text = .error f) :=
    Json.parse_spell rfl L ht.integral htext
  rw [Tree.nesting_json] at hp
  constructor
  · intro hn
    obtain ⟨w, s', hw, hk, hs⟩ := done_ofJson t ht s
    refine ⟨w, s', ?_, hk, hs⟩
    rw [parse, hp.1 hn]
    exact hw
  · intro hn
    obtain ⟨f, hf⟩ := hp.2 hn
    -- the reader's complaint is thrown as an error of the language
    have hparse : parse text s = (do
        let e ← Store.newError "SyntaxError" ("JSON.parse: " ++ f.text)
        Run.failWith (.thrown e) : Run Store Value) s := by
      rw [parse, hf]
    refine ⟨_, _, hparse, ?_, ?_⟩
    · simp [Store.object]
    · simp [Store.object]
      rfl

/-- **Exact values survive JSON.**  An exact value is written, with any indentation that is not a
text, as a text that is read as its normal form if it nests at most 127 containers, and is refused
with a syntax error if the normal form nests more; undefined and functions have no text. -/
theorem exact_values_survive_json (s : Store) (v : Value) (indent : Option Value) (h : s.Exact v)
    (hi : ∀ text, indent ≠ some (.str text)) :
    (v.isUndefined = true ∨ v.isCallable = true → stringify v indent s = .done .undefined s) ∧
    (¬ (v.isUndefined = true ∨ v.isCallable = true) → ∃ t text,
      (∀ n, Normal s v n ↔ n = some t) ∧ stringify v indent s = .done (.str text) s ∧
      (s.NestsWithin 127 v → ∀ s₀, ∃ w s', parse text s₀ = .done w s' ∧ Shows s' t w) ∧
      (127 < t.nesting → ∀ s₀, ∃ e s', parse text s₀ = .failed { cause := .thrown (.object e) } s' ∧
        (s'.object e).brand = .error "SyntaxError" ∧
        (s'.object e).props.get? "name" = some (.str "SyntaxError"))) := by
  constructor
  · intro hv
    rcases v with - | - | b | x | text | id | id | id | id
    case undefined | closure | native => rfl
    all_goals simp [Value.isUndefined, Value.isCallable] at hv
  · intro hv
    obtain ⟨n, hn, hj⟩ := exists_normal h.cycleFree
    -- a value without a normal form is one of those that are left out
    rcases n with - | t
    · cases hn <;> simp [Value.isUndefined, Value.isCallable] at hv
    · obtain ⟨text, L, hs, htext⟩ := exists_text hj hi
      have hparse (s₀ : Store) := parse_text (hn.whole h) htext s₀
      refine ⟨t, text, fun n' => ⟨fun hn' => hn'.unique hn, fun e => e ▸ hn⟩, hs, ?_, ?_⟩
      · intro hnest s₀
        obtain ⟨w, s', hw, -, hshows⟩ := (hparse s₀).1 ((hn.nests 127).mp hnest)
        exact ⟨w, s', hw, hshows⟩
      · exact fun hdeep s₀ => (hparse s₀).2 hdeep

/-- An instance with a negative zero, a property that is undefined, and an empty array. -/
def smallInstance : Store where
  arrays := #[#[]]
  objects := #[{
    props := .ofList [("zero", .num (-0)), ("gone", .undefined), ("list", .array 0)]
    brand := .instance 0 }]

theorem inside_smallInstance {w : Value} (h : smallInstance.Inside (.object 0) w) :
    w = .num (-0) ∨ w = .undefined ∨ w = .array 0 := by
  cases h with
  | entry he =>
    have he' : w ∈ [Value.num (-0), .undefined, .array 0] := List.mem_map_of_mem (f := Prod.snd) he
    simpa using he'

theorem not_inside_part {v w : Value} (h : smallInstance.Inside (.object 0) v) :
    ¬ smallInstance.Inside v w := by
  rcases inside_smallInstance h with rfl | rfl | rfl
  · nofun
  · nofun
  · rintro (hm | -)
    exact absurd hm (Array.not_mem_empty w)

theorem reaches_smallInstance {w : Value} (h : ReflTransGen smallInstance.Inside (.object 0) w) :
    w = .object 0 ∨ smallInstance.Inside (.object 0) w := by
  induction h with
  | refl => exact .inl rfl
  | tail _ hi ih =>
    rcases ih with rfl | ih
    · exact .inr hi
    · exact absurd hi (not_inside_part ih)

/-- The instance fulfils all conditions of the theorem: it is finite, and its only number is zero.
-/
theorem exact_smallInstance : smallInstance.Exact (.object 0) where
  cycleFree := by
    intro w hw hcycle
    -- nothing lies inside of a part, and the whole is no part
    rcases reaches_smallInstance hw with rfl | hi
    · obtain ⟨u, hu, hlast⟩ := TransGen.tail'_iff.mp hcycle
      rcases reaches_smallInstance hu with rfl | hu
      · rcases inside_smallInstance hlast with h | h | h <;> cases h
      · exact not_inside_part hu hlast
    · obtain ⟨u, hfirst, -⟩ := TransGen.head'_iff.mp hcycle
      exact not_inside_part hi hfirst
  numbers := by
    intro x hx b hb
    rcases reaches_smallInstance hx with h | hi
    · cases h
    · rcases inside_smallInstance hi with h | h | h
      · cases h
        have hz : Binary.ofFloat? (-0) = some ⟨true, 0, -1074⟩ := rfl
        cases hz.symm.trans hb
        exact ⟨Double.isIntegral_zero rfl, by simp [Double.floorAbs_zero]⟩
      · cases h
      · cases h

/-- What is left of it: zero without its sign, no property that is undefined, no class. -/
def smallTree : Tree :=
  .obj [("zero", .num 0), ("list", .arr [])]

theorem normal_smallInstance : Normal smallInstance (.object 0) (some smallTree) :=
  .object (.keep (.num (-0)) (.drop .undefined (.keep (.array .nil) .nil)))

/-- An instance with a negative zero and a property that is undefined comes back without its class,
this sign and this property. -/
theorem small_instance_survives_json : smallInstance.Exact (.object 0) ∧
    (∀ text, some (Value.num 2) ≠ some (.str text)) ∧
    ∃ text, stringify (.object 0) (some (.num 2)) smallInstance = .done (.str text) smallInstance ∧
      ∀ s₀, ∃ w s', parse text s₀ = .done w s' ∧ Shows s' smallTree w := by
  have hi : ∀ text, some (Value.num 2) ≠ some (.str text) := nofun
  obtain ⟨t, text, ht, hs, hparse, -⟩ :=
    (exact_values_survive_json smallInstance (.object 0) (some (.num 2)) exact_smallInstance hi).2
      (by simp [Value.isUndefined, Value.isCallable])
  obtain rfl : smallTree = t := Option.some.inj ((ht _).mp normal_smallInstance)
  have hn : smallInstance.NestsWithin 127 (.object 0) :=
    (normal_smallInstance.nests 127).mpr (by decide)
  exact ⟨exact_smallInstance, hi, text, hs, hparse hn⟩

end Builtin

end Estree
