/-
Estree/Proofs/Property/Index.lean

The keys of items.

That a key is the key of an item is said by what comes out, for all contents that an array or a text
of this length could have: this item is read (`ReadsItem`, `ReadsUnit`), or changed by a write
(`WritesItem`).  Such a key is the index of the item.  That no other key does the same rests on two
frames: what is read under a key depends on no item but the one at its index
(`result_get_withItems`, `get_text_congr`), and a write leaves all other items as they are
(`getElem?_of_set`).
-/
import Estree.Proofs.Property.Copy
import Estree.Proofs.Switch
import Estree.Proofs.Text.Position

namespace Estree

/-! ### Units of texts -/

namespace Text

variable {cs : List Char}

theorem unitAt?_of_length_le {t : String} {i : Nat} (h : unitLength t ≤ i) :
    unitAt? t i = none := by
  rw [← length_units] at h
  rw [unitAt?, List.getElem?_eq_none h]

/-- Characters of the basic plane are their own units. -/
theorem units_ofList (h : ∀ c ∈ cs, IsBasic c) : units (String.ofList cs) = cs.map Char.toNat := by
  rw [units, String.toList_ofList]
  induction cs with
  | nil => rfl
  | cons c cs ih =>
    obtain ⟨hc, hcs⟩ := List.forall_mem_cons.1 h
    rw [List.flatMap_cons, List.map_cons, ih hcs, unitsOfChar_of_lt hc, List.singleton_append]

theorem unitLength_ofList (h : ∀ c ∈ cs, IsBasic c) :
    unitLength (String.ofList cs) = cs.length := by
  rw [← length_units, units_ofList h, List.length_map]

theorem unitAt?_ofList (h : ∀ c ∈ cs, IsBasic c) (i : Nat) :
    unitAt? (String.ofList cs) i = cs[i]?.map Char.toNat := by
  rw [unitAt?, units_ofList h, List.getElem?_map]

/-- There are two texts of a length that differ in one unit alone. -/
theorem exists_differing {n i : Nat} (hi : i < n) : ∃ t u, unitLength t = n ∧ unitLength u = n ∧
    unitAt? t i = some 'a'.toNat ∧ unitAt? u i = some 'b'.toNat ∧
    ∀ j, j ≠ i → unitAt? u j = unitAt? t j := by
  have hcs : ∀ c ∈ List.replicate n 'a', IsBasic c := fun c hc => by
    rw [List.eq_of_mem_replicate hc]
    decide
  have hds : ∀ c ∈ (List.replicate n 'a').set i 'b', IsBasic c := fun c hc => by
    obtain h | rfl := List.mem_or_eq_of_mem_set hc
    · exact hcs c h
    · decide
  refine ⟨String.ofList (List.replicate n 'a'), String.ofList ((List.replicate n 'a').set i 'b'),
    ?_, ?_, ?_, ?_, fun j hj => ?_⟩
  · rw [unitLength_ofList hcs, List.length_replicate]
  · rw [unitLength_ofList hds, List.length_set, List.length_replicate]
  · rw [unitAt?_ofList hcs, List.getElem?_replicate_of_lt hi, Option.map_some]
  · rw [unitAt?_ofList hds, List.getElem?_set_self (by simpa using hi), Option.map_some]
  · rw [unitAt?_ofList hds, unitAt?_ofList hcs, List.getElem?_set_ne hj.symm]

end Text

/-! ### Other items in an array -/

namespace Store

variable {s : Store} {id : ArrayId} {i : Nat}

/-- The store with other items in an array. -/
def withItems (s : Store) (id : ArrayId) (items : Array Value) : Store :=
  { s with arrays := s.arrays.modify id fun _ => items }

theorem items_withItems (hid : id < s.arrays.size) (items : Array Value) :
    (s.withItems id items).items id = items :=
  (getD_modify ..).trans (if_pos ⟨rfl, hid⟩)

theorem modify_items_self (s : Store) (id : ArrayId) :
    s.arrays.modify id (fun _ => s.items id) = s.arrays :=
  modify_eq_self (d := #[]) rfl

theorem withItems_self (s : Store) (id : ArrayId) : s.withItems id (s.items id) = s := by
  rw [withItems, modify_items_self]

/-- Changed items are other items. -/
theorem mapItems_eq_withItems (s : Store) (id : ArrayId) (f : Array Value → Array Value) :
    { s with arrays := s.arrays.modify id f } = s.withItems id (f (s.items id)) := by
  have hsame : s.arrays.modify id f = s.arrays.modify id fun _ => f (s.items id) := calc
    s.arrays.modify id f = (s.arrays.modify id fun _ => s.items id).modify id f := by
      rw [modify_items_self]
    _ = s.arrays.modify id fun _ => f (s.items id) := modify_modify ..
  rw [withItems, ← hsame]

/-- What is not in the store has no items. -/
theorem items_of_size_le (h : s.arrays.size ≤ id) : s.items id = #[] := by
  rw [items, Array.getD_eq_getD_getElem?, Array.getElem?_eq_none h, Option.getD_none]

theorem lt_size_of_lt_items (h : i < (s.items id).size) : id < s.arrays.size := by
  by_contra hid
  rw [items_of_size_le (Nat.not_lt.1 hid)] at h
  exact Nat.not_lt_zero i h

end Store

namespace Property

variable {s s' : Store} {id : ArrayId} {key : String} {value : Value} {i n : Nat}
variable {items items' : Array Value} {text text' : String}

/-! ### Listing -/

/-- The keys that are listed for a length are the indices below it, in order. -/
theorem getElem?_indexKeys (hn : n < Nat.pow 2 32 - 1) :
    (indexKeys n)[i]? = some key ↔ i < n ∧ arrayIndex? key = some i := by
  rw [indexKeys, List.getElem?_map, Option.map_eq_some_iff]
  constructor
  · rintro ⟨j, hj, rfl⟩
    obtain ⟨hi, rfl⟩ := List.getElem?_eq_some_iff.1 hj
    rw [List.length_range] at hi
    rw [List.getElem_range]
    exact ⟨hi, arrayIndex?_indexKey (hi.trans hn)⟩
  · rintro ⟨hi, hk⟩
    exact ⟨i, List.getElem?_range hi, (arrayIndex?_eq_some_iff.1 hk).2.symm⟩

/-- The listed indices are the canonical spellings of the positions. -/
theorem mem_indexKeys (hn : n < Nat.pow 2 32 - 1) :
    key ∈ indexKeys n ↔ ∃ i < n, arrayIndex? key = some i := by
  rw [List.mem_iff_getElem?]
  simp only [getElem?_indexKeys hn]

/-! ### Reading -/

/-- Under a key an item of an array is read, whatever the items are. -/
def ReadsItem (s : Store) (id : ArrayId) (key : String) (i : Nat) : Prop :=
  i < (s.items id).size ∧ ∀ items : Array Value, items.size = (s.items id).size →
    get (.array id) key (s.withItems id items)
      = .done (.orUndefined items[i]?) (s.withItems id items)

/-- What is read under a key depends on the number of items, and on the item at its index. -/
theorem result_get_withItems (hid : id < s.arrays.size) (hsize : items'.size = items.size)
    (hk : ∀ i, arrayIndex? key = some i → items'[i]? = items[i]?) :
    (get (.array id) key (s.withItems id items')).result
      = (get (.array id) key (s.withItems id items)).result := by
  cases hindex : arrayIndex? key with
  | some i =>
    rw [get_item hindex, get_item hindex, Store.items_withItems hid, Store.items_withItems hid,
      hk i hindex]
    rfl
  | none =>
    by_cases hl : key = "length"
    · subst hl
      rw [get_length, get_length, Store.items_withItems hid, Store.items_withItems hid, hsize]
      rfl
    · rw [get_array_member hindex hl]
      exact (readsMember_array key).result rfl

/-- Exactly the canonical spelling of a position inside reads the item there. -/
theorem readsItem_iff :
    ReadsItem s id key i ↔ i < (s.items id).size ∧ arrayIndex? key = some i := by
  constructor
  · rintro ⟨hi, hread⟩
    refine ⟨hi, ?_⟩
    by_contra hk
    -- a key of nothing else than this item would not tell these two contents apart
    let items := Array.replicate (s.items id).size Value.undefined
    have hsize : items.size = (s.items id).size := Array.size_replicate
    have hnull : (items.setIfInBounds i .null)[i]? = some .null := by
      simp [items, hi]
    have hundefined : items[i]? = some .undefined := by
      simp [items, hi]
    have hsize' : (items.setIfInBounds i .null).size = items.size := Array.size_setIfInBounds
    have hothers (j : Nat) (hj : arrayIndex? key = some j) :
        (items.setIfInBounds i .null)[j]? = items[j]? := by
      refine Array.getElem?_setIfInBounds_ne ?_
      rintro rfl
      exact hk hj
    have hresult := result_get_withItems (Store.lt_size_of_lt_items hi) hsize' hothers
    rw [hread _ hsize, hread _ (hsize'.trans hsize), hnull, hundefined] at hresult
    cases hresult
  · rintro ⟨hi, hk⟩
    refine ⟨hi, fun items _ => ?_⟩
    rw [get_item hk, Store.items_withItems (Store.lt_size_of_lt_items hi)]

/-! ### Writing -/

/-- A write under a key changes an item of an array, and nothing else. -/
def WritesItem (s : Store) (id : ArrayId) (key : String) (i : Nat) : Prop :=
  i < (s.items id).size ∧ ∀ value, set (.array id) key value s
    = .done () (s.withItems id ((s.items id).setIfInBounds i value))

theorem getElem?_resize (hi : i < items.size) (hn : i < n) : (resize items n)[i]? = items[i]? := by
  unfold resize
  split
  · rw [Array.getElem?_extract, if_pos (by omega), Nat.zero_add]
  · rw [Array.getElem?_append_left hi]

/-- Asking for a length changes nothing. -/
theorem state_of_denseLength {x : Float} (h : denseLength x s = .done n s') : s' = s := by
  rw [denseLength_eq] at h
  split at h
  · split at h <;> cases h
    rfl
  · cases h

/-- Under a key that is no index, nothing but the number of items is written. -/
theorem resize_of_set (hk : arrayIndex? key = none)
    (h : set (.array id) key value s = .done () s') :
    ∃ n, s' = { s with arrays := s.arrays.modify id fun items => resize items n } := by
  by_cases hl : key = "length"
  · subst hl
    cases hx : s.number? value with
    | none =>
      obtain ⟨x, s₁, hnumber, -⟩ := Run.of_bind_done (m := Convert.number value) h
      rw [Convert.number, Run.ofOption, hx] at hnumber
      cases hnumber
    | some x =>
      rw [Growth.set_length hx] at h
      obtain ⟨n, s₁, hn, h⟩ := Run.of_bind_done h
      cases state_of_denseLength hn
      cases h
      exact ⟨n, rfl⟩
  · simp only [set, hk, if_neg hl] at h
    cases h

/-- A write leaves all items as they are, as far as they are still there, except for the one at the
index of the key. -/
theorem getElem?_of_set (hid : id < s.arrays.size) (hk : arrayIndex? key ≠ some i)
    (h : set (.array id) key value s = .done () s') (hi : i < (s.items id).size)
    (hi' : i < (s'.items id).size) : (s'.items id)[i]? = (s.items id)[i]? := by
  cases hindex : arrayIndex? key with
  | some j =>
    -- another item is written, or the array grows up to it
    obtain ⟨_, hset⟩ | hset | ⟨f, hset, hf⟩ := set_array_cases id key value s <;>
      cases hset.symm.trans h
    have hitem := (hf j hindex).item i
    have hne : i ≠ j := by
      rintro rfl
      exact hk hindex
    rw [Store.mapItems_eq_withItems, Store.items_withItems hid] at hi' ⊢
    rw [if_neg hne] at hitem
    simpa [Value.orUndefined, hi, hi'] using hitem
  | none =>
    obtain ⟨n, rfl⟩ := resize_of_set hindex h
    rw [Store.mapItems_eq_withItems, Store.items_withItems hid] at hi' ⊢
    rw [size_resize] at hi'
    exact getElem?_resize hi hi'

/-- Exactly the canonical spelling of a position inside writes the item there. -/
theorem writesItem_iff :
    WritesItem s id key i ↔ i < (s.items id).size ∧ arrayIndex? key = some i := by
  constructor
  · rintro ⟨hi, hwrite⟩
    refine ⟨hi, ?_⟩
    by_contra hk
    have hid := Store.lt_size_of_lt_items hi
    -- a key of nothing else than this item would leave it as it is, whatever is written
    have hsame (value : Value) : (s.items id)[i]? = some value := by
      have hitems := Store.items_withItems hid ((s.items id).setIfInBounds i value)
      have hold := getElem?_of_set hid hk (hwrite value) hi (by simpa [hitems] using hi)
      rw [← hold, hitems]
      simp [hi]
    cases (hsame .null).symm.trans (hsame .undefined)
  · rintro ⟨hi, hk⟩
    refine ⟨hi, fun value => ?_⟩
    rw [Growth.set_item hk, Growth.setItem_apply, if_pos hi]
    exact congrArg (Outcome.done ()) (Store.mapItems_eq_withItems s id _)

/-! ### Arrays -/

/-- A key has nothing to do with the items of an array: it reads the same whatever they are, and
they are left as they are by a write and by a deletion. -/
structure MissesItems (s : Store) (id : ArrayId) (key : String) : Prop where
  read : ∀ items : Array Value, items.size = (s.items id).size →
    (get (.array id) key (s.withItems id items)).result = (get (.array id) key s).result
  written : ∀ value s', set (.array id) key value s = .done () s' →
    ∀ i, i < (s.items id).size → i < (s'.items id).size → (s'.items id)[i]? = (s.items id)[i]?
  deleted : ∃ gone, delete (.array id) key s = .done gone s

/-- An array has its items and its length. -/
theorem has_item_iff : has s (.array id) key = true ∧ key ≠ "length" ↔
    ∃ i < (s.items id).size, arrayIndex? key = some i := by
  have hlength : arrayIndex? "length" = none := by decide
  rw [has, Bool.or_eq_true, beq_iff_eq]
  constructor
  · rintro ⟨rfl | h, hl⟩
    · exact absurd rfl hl
    · split at h
      · next i hk => exact ⟨i, of_decide_eq_true h, hk⟩
      · cases h
  · rintro ⟨i, hi, hk⟩
    refine ⟨.inr ?_, ?_⟩
    · rw [hk]
      exact decide_eq_true hi
    · rintro rfl
      cases hlength.symm.trans hk

/-- No key but those of its items has anything to do with them. -/
theorem missesItems (hkey : ∀ i < (s.items id).size, arrayIndex? key ≠ some i) :
    MissesItems s id key := by
  constructor
  case read =>
    intro items hsize
    -- an index behind the end has no item, whatever the others are
    by_cases hid : id < s.arrays.size
    · have hothers (i : Nat) (hk : arrayIndex? key = some i) : items[i]? = (s.items id)[i]? := by
        have hi : (s.items id).size ≤ i := Nat.not_lt.1 fun hi => hkey i hi hk
        rw [Array.getElem?_eq_none hi, Array.getElem?_eq_none (hsize ▸ hi)]
      rw [result_get_withItems hid hsize hothers, Store.withItems_self]
    · have hitems : s.items id = #[] := Store.items_of_size_le (Nat.not_lt.1 hid)
      rw [hitems] at hsize
      rw [Array.eq_empty_of_size_eq_zero hsize, ← hitems, Store.withItems_self]
  case written =>
    intro value s' h i hi
    exact getElem?_of_set (Store.lt_size_of_lt_items hi) (hkey i hi) h hi
  case deleted =>
    simp only [delete]
    cases hk : arrayIndex? key with
    | none => exact ⟨_, rfl⟩
    | some i =>
      have hi : (s.items id).size ≤ i := Nat.not_lt.1 fun hi => hkey i hi hk
      refine ⟨true, congrArg (Outcome.done true) ((Store.mapItems_eq_withItems ..).trans ?_)⟩
      rw [Array.setIfInBounds_eq_of_size_le hi, Store.withItems_self]

/-! ### Texts -/

/-- Under a key a unit of a text is read, as a text of its own, whatever the units are. -/
def ReadsUnit (text : String) (key : String) (i : Nat) : Prop :=
  i < Text.unitLength text ∧ ∀ (other : String) (unit : Nat) (s : Store),
    Text.unitLength other = Text.unitLength text → Text.unitAt? other i = some unit →
      get (.str other) key s = .done (.str (String.ofList [Text.charOfUnit unit])) s

/-- What is read under a key depends on the number of units, and on the unit at its index. -/
theorem get_text_congr (hlength : Text.unitLength text' = Text.unitLength text)
    (hk : ∀ i, arrayIndex? key = some i → Text.unitAt? text' i = Text.unitAt? text i) :
    get (.str text') key = get (.str text) key := by
  simp only [get]
  cases hindex : arrayIndex? key with
  | some i => simp only [hk i hindex]
  | none => simp only [hlength]

/-- Exactly the canonical spelling of a position inside reads the unit there. -/
theorem readsUnit_iff :
    ReadsUnit text key i ↔ i < Text.unitLength text ∧ arrayIndex? key = some i := by
  constructor
  · rintro ⟨hi, hread⟩
    refine ⟨hi, ?_⟩
    by_contra hk
    -- a key of nothing else than this unit would not tell these two texts apart
    obtain ⟨t, u, ht, hu, hta, hub, hothers⟩ := Text.exists_differing hi
    have hsame (j : Nat) (hj : arrayIndex? key = some j) :
        Text.unitAt? u j = Text.unitAt? t j := by
      refine hothers j ?_
      rintro rfl
      exact hk hj
    have hget := congrFun (get_text_congr (hu.trans ht.symm) hsame) {}
    rw [hread t _ {} ht hta, hread u _ {} hu hub] at hget
    exact absurd (Value.str.inj (Outcome.done.inj hget).1) (by decide)
  · rintro ⟨hi, hk⟩
    refine ⟨hi, fun other unit s _ hunit => ?_⟩
    simp only [get, hk, hunit]
    rfl

/-! ### Keys and items -/

/-- **Index keys are canonical.**  A key is an index if it is the numeral, the only one, of a number
below `2 ^ 32 - 1`; so no two keys are the same index.

For shorter arrays and texts, the keys that are listed are those indices that are below the length,
in order.  In an array they are just the keys under which the item at the index is read, is written
and, but for the length, is there; and no other key has anything to do with the items.  In a text
they are just the keys under which the unit at the index is read, and no other key depends on the
units; but nothing is written to a text, and there is nothing in it. -/
theorem index_keys_are_canonical :
    (∀ key n, arrayIndex? key = some n ↔ n < Nat.pow 2 32 - 1 ∧ IsNumeral key n) ∧
    (∀ key n, IsNumeral key n ↔ key = toString n) ∧
    (∀ key other n, arrayIndex? key = some n → arrayIndex? other = some n → key = other) ∧
    (∀ s id, (s.items id).size < Nat.pow 2 32 - 1 →
      (∀ (i : Nat) key, (keys s (.array id))[i]? = some key ↔
        i < (s.items id).size ∧ arrayIndex? key = some i) ∧
      (∀ (i : Nat) key, ReadsItem s id key i ↔ (keys s (.array id))[i]? = some key) ∧
      (∀ (i : Nat) key, WritesItem s id key i ↔ (keys s (.array id))[i]? = some key) ∧
      (∀ key, has s (.array id) key = true ∧ key ≠ "length" ↔ key ∈ keys s (.array id)) ∧
      ∀ key, key ∉ keys s (.array id) → MissesItems s id key) ∧
    ∀ text s, Text.unitLength text < Nat.pow 2 32 - 1 →
      (∀ (i : Nat) key, (keys s (.str text))[i]? = some key ↔
        i < Text.unitLength text ∧ arrayIndex? key = some i) ∧
      (∀ (i : Nat) key, ReadsUnit text key i ↔ (keys s (.str text))[i]? = some key) ∧
      (∀ key, key ∉ keys s (.str text) → ∀ other,
        Text.unitLength other = Text.unitLength text → get (.str other) key = get (.str text) key) ∧
      ∀ key, (∀ value, set (.str text) key value s = .done () s) ∧
        has s (.str text) key = false := by
  refine ⟨fun _ _ => arrayIndex?_eq_some_iff_numeral, fun _ _ => isNumeral_iff_indexKey,
    fun _ _ _ => arrayIndex?_inj, ?_, ?_⟩
  · intro s id hsize
    refine ⟨?_, ?_, ?_, ?_, ?_⟩
    · intro i key
      exact getElem?_indexKeys hsize
    · intro i key
      exact readsItem_iff.trans (getElem?_indexKeys hsize).symm
    · intro i key
      exact writesItem_iff.trans (getElem?_indexKeys hsize).symm
    · intro key
      exact has_item_iff.trans (mem_indexKeys hsize).symm
    · intro key hkey
      apply missesItems
      intro i hi hk
      exact hkey ((mem_indexKeys hsize).2 ⟨i, hi, hk⟩)
  · intro text s hlength
    refine ⟨?_, ?_, ?_, ?_⟩
    · intro i key
      exact getElem?_indexKeys hlength
    · intro i key
      exact readsUnit_iff.trans (getElem?_indexKeys hlength).symm
    · intro key hkey other hother
      apply get_text_congr hother
      intro i hk
      -- the index is behind the end of both texts, and there is nothing there
      have hi : Text.unitLength text ≤ i := by
        by_contra hi
        exact hkey ((mem_indexKeys hlength).2 ⟨i, Nat.not_le.1 hi, hk⟩)
      rw [Text.unitAt?_of_length_le hi, Text.unitAt?_of_length_le (hother ▸ hi)]
    · intro key
      exact ⟨fun _ => rfl, rfl⟩

/-- A store with an array of two items. -/
def twoItems : Store where
  arrays := #[#[.null, .bool true]]

theorem unitLength_two_letters : Text.unitLength "ab" = 2 := by
  rw [← Text.length_units]
  decide

theorem keys_two_letters (s : Store) : keys s (.str "ab") = ["0", "1"] := by
  rw [keys, unitLength_two_letters]
  decide

/-- The second key of an array and of a text reads an item and a unit, and `01` and `+1` do not,
though they are numerals of the same number. -/
theorem two_items_and_two_letters_have_two_keys :
    (keys twoItems (.array 0) = ["0", "1"] ∧ ReadsItem twoItems 0 "1" 1 ∧
      WritesItem twoItems 0 "1" 1 ∧ has twoItems (.array 0) "1" = true ∧
      MissesItems twoItems 0 "01") ∧
    keys {} (.str "ab") = ["0", "1"] ∧ ReadsUnit "ab" "1" 1 ∧
      ∀ other, Text.unitLength other = 2 → get (.str other) "+1" = get (.str "ab") "+1" := by
  have hkeys : keys twoItems (.array 0) = ["0", "1"] := by decide
  have hkeys' := keys_two_letters {}
  have hlength : Text.unitLength "ab" < Nat.pow 2 32 - 1 := by
    rw [unitLength_two_letters]
    decide
  obtain ⟨-, -, -, harray, htext⟩ := index_keys_are_canonical
  -- the general statement at two items, and at two letters
  obtain ⟨-, hread, hwrite, hhas, hmiss⟩ := harray twoItems 0 (by decide)
  obtain ⟨-, hunit, hsame, -⟩ := htext "ab" {} hlength
  rw [hkeys] at hread hwrite hmiss
  rw [hkeys'] at hunit hsame
  refine ⟨⟨hkeys, (hread 1 "1").2 rfl, (hwrite 1 "1").2 rfl, ?_, hmiss "01" (by decide)⟩, hkeys',
    (hunit 1 "1").2 rfl, ?_⟩
  · refine ((hhas "1").2 ?_).1
    rw [hkeys]
    decide
  · rw [unitLength_two_letters] at hsame
    exact hsame "+1" (by decide)

/-- A key that is listed for a text, and under which a letter is read, is not there, and nothing is
written under it. -/
theorem letter_is_read_but_is_not_there :
    Text.unitLength "ab" < Nat.pow 2 32 - 1 ∧ "0" ∈ keys {} (.str "ab") ∧
      get (.str "ab") "0" {} = .done (.str "a") {} ∧ has {} (.str "ab") "0" = false ∧
      set (.str "ab") "0" (.str "c") {} = .done () {} := by
  rw [unitLength_two_letters, keys_two_letters]
  exact ⟨by decide, by decide, rfl, rfl, rfl⟩

end Property

end Estree
