/-
Estree/Proofs/Json/Cycle.lean

The cycles that a JSON text cannot show.

`Search` is the search for the document of a value, without a bound on its steps.  It goes inward
from left to right with the containers around it as its path, and it is given up as soon as it comes
to a container that is on the path.  A search is a finite tree, so to have one is to come to an end,
and every value has one: the steps that `toJson` is given suffice (`search_toJson`).

Both directions of the main result are read off such a tree.  If the search is given up, then it has
come to a container on its path or to one that lies inside itself, and at the start there is no path
(`Search.cycle`).  If it is not, then everything inside of the value has been searched on
its own way, so that no way inward goes on for ever (`Search.acc`), and a cycle would.  That a
container is met again on another way is no obstacle to either.
-/
import Estree.Proofs.Json.Normal

namespace Estree

open Relation

namespace Builtin

/-! ### The search without bound -/

/-- What stands immediately inside of a container, in order. -/
def Container.parts (s : Store) : Container → List Value
  | .array id => (s.items id).toList
  | .object id => (s.object id).props.entries.map Prod.snd

/-- The document of a container whose parts have the given documents: what has none is null in an
array and left out of an object. -/
def Container.document (s : Store) (parts : List (Option Json)) : Container → Json
  | .array _ => .arr (parts.map fun j => j.getD .null)
  | .object id => .obj ((((s.object id).props.entries.map Prod.fst).zip parts).filterMap
      fun member => member.2.map fun j => (member.1, j))

/-- The document of a value that is no container. -/
def plainJson? : Value → Option Json
  | .null => some .null
  | .bool b => some (.bool b)
  | .num x => some (numberJson x)
  | .str text => some (.str text)
  | _ => none

mutual

/-- The search for the document of a value, on a path of containers around it.  The result is
`none` if the search is given up, and `some none` if the value has no document. -/
inductive Search (s : Store) : List Container → Value → Option (Option Json) → Prop where
  | plain {path : List Container} {v : Value} (h : ∀ c : Container, v ≠ c.value) :
      Search s path v (some (plainJson? v))
  /-- The container is around itself. -/
  | circular {path : List Container} {v : Value} {c : Container} (hv : v = c.value)
      (h : c ∈ path) : Search s path v none
  /-- Something inside of the container is. -/
  | refused {path : List Container} {v : Value} {c : Container} (hv : v = c.value) (h : c ∉ path)
      (hp : SearchAll s (c :: path) (c.parts s) none) : Search s path v none
  | found {path : List Container} {v : Value} {c : Container} {js : List (Option Json)}
      (hv : v = c.value) (h : c ∉ path) (hp : SearchAll s (c :: path) (c.parts s) (some js)) :
      Search s path v (some (some (c.document s js)))

/-- The searches for the documents of several values, one after the other until one is given up. -/
inductive SearchAll (s : Store) :
    List Container → List Value → Option (List (Option Json)) → Prop where
  | nil {path : List Container} : SearchAll s path [] (some [])
  | refused {path : List Container} {v : Value} {vs : List Value} (h : Search s path v none) :
      SearchAll s path (v :: vs) none
  | later {path : List Container} {v : Value} {vs : List Value} {j : Option Json}
      (h : Search s path v (some j)) (hs : SearchAll s path vs none) :
      SearchAll s path (v :: vs) none
  | found {path : List Container} {v : Value} {vs : List Value} {j : Option Json}
      {js : List (Option Json)} (h : Search s path v (some j))
      (hs : SearchAll s path vs (some js)) : SearchAll s path (v :: vs) (some (j :: js))

end

variable {s : Store} {path : List Container} {v w : Value} {c : Container}

/-! ### Containers and their parts -/

theorem Container.value_injective {c c' : Container} (h : c.value = c'.value) : c = c' := by
  cases c <;> cases c' <;> cases h <;> rfl

theorem Container.inside_iff : s.Inside c.value w ↔ w ∈ c.parts s := by
  cases c with
  | array id =>
    constructor
    · rintro (hw | -)
      exact Array.mem_toList_iff.2 hw
    · exact fun hw => .item (Array.mem_toList_iff.1 hw)
  | object id =>
    constructor
    · rintro (- | he)
      exact List.mem_map_of_mem he
    · intro hw
      obtain ⟨e, he, rfl⟩ := List.mem_map.1 hw
      exact .entry he

/-- Only containers have anything inside. -/
theorem Container.of_inside (h : s.Inside v w) : ∃ c : Container, v = c.value := by
  cases h with
  | @item id => exact ⟨.array id, rfl⟩
  | @entry id => exact ⟨.object id, rfl⟩

/-! ### One step of the bounded search -/

theorem mapM_map_option {α β γ : Type} (f : α → Option β) (g : β → γ) (l : List α) :
    (l.mapM fun a => (f a).map g) = (l.mapM f).map fun bs => bs.map g := by
  induction l with
  | nil => rfl
  | cons a l ih =>
    rw [List.mapM_cons, List.mapM_cons, ih]
    cases f a <;> cases l.mapM f <;> rfl

theorem mapM_entries {α β : Type} (f : α → Option β) (es : List (String × α)) :
    (es.mapM fun e => (f e.2).map fun b => (e.1, b))
      = ((es.map Prod.snd).mapM f).map fun bs => (es.map Prod.fst).zip bs := by
  induction es with
  | nil => rfl
  | cons e es ih =>
    rw [List.map_cons, List.mapM_cons, List.map_cons, List.mapM_cons, ih]
    cases f e.2 <;> cases (es.map Prod.snd).mapM f <;> rfl

variable {n : Nat}

theorem jsonWithin_plain (h : ∀ c : Container, v ≠ c.value) :
    jsonWithin s (n + 1) path v = some (plainJson? v) := by
  cases v with
  | array id => exact absurd rfl (h (.array id))
  | object id => exact absurd rfl (h (.object id))
  | _ => rfl

theorem jsonWithin_circular (h : c ∈ path) : jsonWithin s (n + 1) path c.value = none := by
  cases c <;> simp [Container.value, jsonWithin, h]

/-- A container that is not around itself has the document of its parts, if these all have been
searched to the end. -/
theorem jsonWithin_entered (h : c ∉ path) :
    jsonWithin s (n + 1) path c.value
      = ((c.parts s).mapM (jsonWithin s n (c :: path))).map fun js => some (c.document s js) := by
  have hc : path.contains c = false := by simpa using h
  cases c with
  | array id =>
    simp only [Container.value, jsonWithin, hc, Bool.false_eq_true, if_false, mapM_map_option,
      Container.parts]
    cases (s.items id).toList.mapM (jsonWithin s n (.array id :: path)) with
    | none => rfl
    | some js => rfl
  | object id =>
    simp only [Container.value, jsonWithin, hc, Bool.false_eq_true, if_false, mapM_entries,
      Container.parts]
    cases ((s.object id).props.entries.map Prod.snd).mapM (jsonWithin s n (.object id :: path)) with
    | none => rfl
    | some js => rfl

/-! ### Every search comes to an end -/

/-- If each of some values is searched with a result, then so are all, and their results are those
up to the first search that is given up. -/
theorem searchAll_mapM {f : Value → Option (Option Json)} {vs : List Value}
    (h : ∀ v ∈ vs, Search s path v (f v)) : SearchAll s path vs (vs.mapM f) := by
  induction vs with
  | nil => exact .nil
  | cons v vs ih =>
    rw [List.forall_mem_cons] at h
    obtain ⟨hv, hvs⟩ := h
    have hvs := ih hvs
    rw [List.mapM_cons]
    -- the first part that is refused ends the search
    cases hf : f v with
    | none =>
      rw [hf] at hv
      exact .refused hv
    | some j =>
      rw [hf] at hv
      cases hm : vs.mapM f with
      | none =>
        rw [hm] at hvs
        exact .later hv hvs
      | some js =>
        rw [hm] at hvs
        exact .found hv hvs

/-- With enough steps left for the containers that are not on the path, the bounded search has the
result of the search. -/
theorem search_jsonWithin (h : PathTo s path v)
    (hn : s.arrays.size + s.objects.size < n + path.length) :
    Search s path v (jsonWithin s n path v) := by
  induction n generalizing path v with
  | zero =>
    have := h.length_le
    omega
  | succ n ih =>
    -- a container on the path is a cycle; any other one is searched with itself on the path
    by_cases hv : ∃ c : Container, v = c.value
    · obtain ⟨c, rfl⟩ := hv
      by_cases hc : c ∈ path
      · rw [jsonWithin_circular hc]
        exact .circular rfl hc
      · have parts : SearchAll s (c :: path) (c.parts s)
            ((c.parts s).mapM (jsonWithin s n (c :: path))) := by
          refine searchAll_mapM fun w hw => ih (h.inside hc (Container.inside_iff.2 hw)) ?_
          rw [List.length_cons]
          omega
        rw [jsonWithin_entered hc]
        cases hm : (c.parts s).mapM (jsonWithin s n (c :: path)) with
        | none =>
          rw [hm] at parts
          exact .refused rfl hc parts
        | some js =>
          rw [hm] at parts
          exact .found rfl hc parts
    · have hplain (c : Container) : v ≠ c.value := fun h => hv ⟨c, h⟩
      rw [jsonWithin_plain hplain]
      exact .plain hplain

/-- Every value is searched to an end, with the result that is computed. -/
theorem search_toJson (s : Store) (v : Value) : Search s [] v (toJson s v) := by
  have hp : PathTo s [] v := ⟨by simp, by simp, by simp⟩
  exact search_jsonWithin hp (by simp)

mutual

/-- A search has one result. -/
theorem Search.unique {path : List Container} {v : Value} {r r' : Option (Option Json)} :
    Search s path v r → Search s path v r' → r = r'
  -- the rules exclude each other, and the parts of a container are searched with one result
  | .plain _, .plain _ => rfl
  | .plain h, .circular hv _ | .plain h, .refused hv _ _ | .plain h, .found hv _ _ =>
    absurd hv (h _)
  | .circular hv _, .plain h | .refused hv _ _, .plain h | .found hv _ _, .plain h =>
    absurd hv (h _)
  | .circular _ _, .circular _ _ => rfl
  | .circular _ _, .refused _ _ _ => rfl
  | .refused _ _ _, .circular _ _ => rfl
  | .refused _ _ _, .refused _ _ _ => rfl
  | .circular hv h, .found hv' h' _ | .found hv' h' _, .circular hv h => by
    obtain rfl := Container.value_injective (hv.symm.trans hv')
    exact absurd h h'
  | .refused hv _ hp, .found hv' _ hp' => by
    obtain rfl := Container.value_injective (hv.symm.trans hv')
    cases hp.unique hp'
  | .found hv _ hp, .refused hv' _ hp' => by
    obtain rfl := Container.value_injective (hv.symm.trans hv')
    cases hp.unique hp'
  | .found hv _ hp, .found hv' _ hp' => by
    obtain rfl := Container.value_injective (hv.symm.trans hv')
    cases hp.unique hp'
    rfl

theorem SearchAll.unique {path : List Container} {vs : List Value}
    {r r' : Option (List (Option Json))} : SearchAll s path vs r → SearchAll s path vs r' → r = r'
  | .nil, .nil => rfl
  | .refused _, .refused _ => rfl
  | .refused _, .later _ _ => rfl
  | .refused h, .found h' _ => nomatch h.unique h'
  | .later _ _, .refused _ => rfl
  | .later _ _, .later _ _ => rfl
  | .later h hs, .found h' hs' => nomatch hs.unique hs'
  | .found h _, .refused h' => nomatch h.unique h'
  | .found _ hs, .later _ hs' => nomatch hs.unique hs'
  | .found h hs, .found h' hs' => by
    cases h.unique h'
    cases hs.unique hs'
    rfl

end

/-! ### Searches and cycles -/

mutual

/-- A search that is given up has come to a container that is on the path or lies inside itself. -/
theorem Search.cycle {path : List Container} {v : Value} {r : Option (Option Json)} :
    Search s path v r → r = none → ∃ c : Container, ReflTransGen s.Inside v c.value ∧
      (c ∈ path ∨ TransGen s.Inside c.value c.value)
  | .plain _, hr => nomatch hr
  | .circular (c := c) hv h, _ => ⟨c, hv ▸ .refl, .inl h⟩
  | .refused (c := c) hv _ hp, _ => by
    obtain ⟨w, hw, c', hreach, hc'⟩ := hp.cycle rfl
    have hi : s.Inside c.value w := Container.inside_iff.2 hw
    rw [hv]
    refine ⟨c', .head hi hreach, ?_⟩
    -- if it is this container that was met again, then it lies inside itself
    rcases hc' with hc' | hcycle
    · rcases List.mem_cons.1 hc' with rfl | hpath
      · exact .inr (.head' hi hreach)
      · exact .inl hpath
    · exact .inr hcycle
  | .found _ _ _, hr => nomatch hr

theorem SearchAll.cycle {path : List Container} {vs : List Value}
    {r : Option (List (Option Json))} :
    SearchAll s path vs r → r = none → ∃ w ∈ vs, ∃ c : Container,
      ReflTransGen s.Inside w c.value ∧ (c ∈ path ∨ TransGen s.Inside c.value c.value)
  | .nil, hr => nomatch hr
  | .refused h, _ => ⟨_, List.mem_cons_self, h.cycle rfl⟩
  | .later _ hs, _ => by
    obtain ⟨w, hw, h⟩ := hs.cycle rfl
    exact ⟨w, List.mem_cons_of_mem _ hw, h⟩
  | .found _ _, hr => nomatch hr

end

mutual

/-- From a value that is searched with a result, no way inward goes on for ever. -/
theorem Search.acc {path : List Container} {v : Value} {r : Option (Option Json)} :
    Search s path v r → r ≠ none → Acc (fun w v => s.Inside v w) v
  | .plain h, _ => .intro _ fun w hw => by
    obtain ⟨c, hc⟩ := Container.of_inside hw
    exact absurd hc (h c)
  | .circular _ _, hr => absurd rfl hr
  | .refused _ _ _, hr => absurd rfl hr
  | .found hv _ hp, _ => .intro _ fun w hw =>
    hp.acc nofun w (Container.inside_iff.1 (hv ▸ hw))

theorem SearchAll.acc {path : List Container} {vs : List Value}
    {r : Option (List (Option Json))} :
    SearchAll s path vs r → r ≠ none → ∀ w ∈ vs, Acc (fun w v => s.Inside v w) w
  | .nil, _ => nofun
  | .refused _, hr => absurd rfl hr
  | .later _ _, hr => absurd rfl hr
  | .found h hs, _ => List.forall_mem_cons.2 ⟨h.acc nofun, hs.acc nofun⟩

end

/-- A cycle would be a way that goes on for ever. -/
theorem cycleFree_of_acc (h : Acc (fun w v => s.Inside v w) v) : s.CycleFree v := by
  induction h with
  | intro v _ ih =>
    intro u hu hcycle
    rcases hu.cases_head with rfl | ⟨w, hi, hw⟩
    · -- a cycle through the value itself passes something inside of it
      obtain ⟨w, hi, hw⟩ := TransGen.head'_iff.1 hcycle
      exact ih w hi _ hw hcycle
    · exact ih w hi u hw hcycle

/-- A document is found exactly if no container in the value lies inside itself. -/
theorem toJson_eq_none_iff :
    toJson s v = none ↔ ∃ w, ReflTransGen s.Inside v w ∧ TransGen s.Inside w w := by
  constructor
  · intro h
    obtain ⟨c, hreach, hpath | hcycle⟩ := (search_toJson s v).cycle h
    · cases hpath
    · exact ⟨c.value, hreach, hcycle⟩
  · rintro ⟨w, hreach, hcycle⟩
    by_contra h
    exact cycleFree_of_acc ((search_toJson s v).acc h) w hreach hcycle

/-! ### The text -/

/-- Undefined and functions alone have no document. -/
theorem Search.eq_none_iff {j : Option Json} (h : Search s path v (some j)) :
    j = none ↔ v.isUndefined = true ∨ v.isCallable = true := by
  cases h with
  | plain h =>
    cases v with
    | array id => exact absurd rfl (h (.array id))
    | object id => exact absurd rfl (h (.object id))
    | _ => simp [plainJson?, Value.isUndefined, Value.isCallable]
  | @found _ _ c _ hv =>
    cases c <;> simp [hv, Container.value, Value.isUndefined, Value.isCallable]

/-- The value that `stringify` gives for the document of a value. -/
def textOf (indent : Option Value) : Option Json → Value
  | none => .undefined
  | some j => .str (if (gapOf indent).isEmpty then j.compact else j.indented (gapOf indent))

theorem stringify_apply (v : Value) (indent : Option Value) (s : Store) :
    stringify v indent s = match toJson s v with
      | none => .failed { cause := .typeError "Converting circular structure to JSON" } s
      | some j => .done (textOf indent j) s := by
  rcases h : toJson s v with - | - | j <;> simp only [stringify, bind, Run.bind, Run.read, h]
  · rfl
  · rfl
  · dsimp only [textOf]
    split
    · rfl
    · rfl

/-- Functions and the console play no part in the search. -/
theorem jsonWithin_of_containers (closures : Array Closure) (natives : Array Native)
    (console : Console) (n : Nat) (path : List Container) (v : Value) :
    jsonWithin { s with closures, natives, console } n path v = jsonWithin s n path v := by
  induction n generalizing path v with
  | zero => rfl
  | succ n ih =>
    unfold jsonWithin
    simp only [ih]
    rfl

end Builtin

/-- **`JSON.stringify` reports exactly the cycles.**  The search for the document of a value comes
to an end, with one result.  `stringify` fails, with a `TypeError` and without a change, exactly if
some array or object that the value is or contains lies inside itself, along items and own
properties.  Otherwise it gives a text, or undefined for undefined and functions.  So nothing stands
in the way of a value that is contained more than once, and what functions have as their own
properties does not matter. -/
theorem stringify_reports_exactly_the_cycles (s : Store) (v : Value) (indent : Option Value) :
    (∀ r, Builtin.Search s [] v r ↔ r = Builtin.toJson s v) ∧
    (Builtin.stringify v indent s
        = .failed { cause := .typeError "Converting circular structure to JSON" } s ↔
      ∃ w, ReflTransGen s.Inside v w ∧ TransGen s.Inside w w) ∧
    ((∀ w, ReflTransGen s.Inside v w → ¬ TransGen s.Inside w w) ↔
      ∃ j, Builtin.stringify v indent s = .done (Builtin.textOf indent j) s ∧
        (j = none ↔ v.isUndefined = true ∨ v.isCallable = true)) ∧
    ∀ closures natives console,
      Builtin.toJson { s with closures, natives, console } v = Builtin.toJson s v := by
  have search := Builtin.search_toJson s v
  have failed_iff : Builtin.stringify v indent s
        = .failed { cause := .typeError "Converting circular structure to JSON" } s ↔
      Builtin.toJson s v = none := by
    rw [Builtin.stringify_apply]
    cases Builtin.toJson s v <;> simp
  refine ⟨fun r => ⟨fun h => h.unique search, fun h => h ▸ search⟩, ?_, ?_, ?_⟩
  -- a failure is an empty answer, and that is a cycle in reach
  · rw [failed_iff, Builtin.toJson_eq_none_iff]
  · constructor
    · intro hv
      obtain ⟨j, hj⟩ := Option.ne_none_iff_exists'.1 fun h => by
        obtain ⟨w, hreach, hcycle⟩ := Builtin.toJson_eq_none_iff.1 h
        exact hv w hreach hcycle
      rw [hj] at search
      refine ⟨j, ?_, search.eq_none_iff⟩
      rw [Builtin.stringify_apply, hj]
    · rintro ⟨j, hdone, -⟩ w hreach hcycle
      rw [failed_iff.2 (Builtin.toJson_eq_none_iff.2 ⟨w, hreach, hcycle⟩)] at hdone
      cases hdone
  · exact fun closures natives console =>
      Builtin.jsonWithin_of_containers closures natives console _ [] v

/-- The same object twice in an array is no cycle. -/
example :
    let s : Store := { arrays := #[#[.object 0, .object 0]], objects := #[{}] }
    Builtin.stringify (.array 0) none s = .done (.str "[{},{}]") s := by
  rfl

end Estree
