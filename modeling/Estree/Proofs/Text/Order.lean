/-
Estree/Proofs/Text/Order.lean

The relational operators on texts.

A text is compared as itself, and an array, an object or a function as its text (`ReadsAs`).  So for
two such values all four operators look at one comparison, that of the units of their texts
(`binary_lt_iff` and the lemmas after it), and what is known of the lexicographic order of lists is
known of them.  That equality is not one of units but of texts does not matter, since a text can be
told from its units.

The laws are stated together, since a maintainer who changes one operator would want to know that it
still fits the others.
-/
import Estree.Proofs.Equality
import Estree.Proofs.Text.Units

namespace Estree

namespace Operator

variable {host : Host} {s : Store} {op : BinaryOp} {l r x y z : Value} {a b c : String}

/-! ### Answers -/

/-- An operator says yes to two values, and does nothing else. -/
def Holds (host : Host) (s : Store) (op : BinaryOp) (l r : Value) : Prop :=
  binary host op l r s = .done (.bool true) s

/-- An operator says no to two values, and does nothing else. -/
def Fails (host : Host) (s : Store) (op : BinaryOp) (l r : Value) : Prop :=
  binary host op l r s = .done (.bool false) s

theorem strictEq_text_iff : Holds host s .strictEq (.str a) (.str b) ↔ a = b := by
  have h : binary host .strictEq (.str a) (.str b) s = .done (.bool (a == b)) s := rfl
  rw [Holds, h]
  simp

/-! ### What is compared -/

/-- The text that a value is compared as with other values that have one. -/
inductive ReadsAs (s : Store) : Value → String → Prop where
  | text (a : String) : ReadsAs s (.str a) a
  | reference {v : Value} {a : String} (hv : v.isReference = true) (ha : s.text? v = some a) :
      ReadsAs s v a

theorem ReadsAs.primitive (h : ReadsAs s x a) : Convert.primitive x s = .done (.str a) s := by
  cases h with
  | text => rfl
  | reference hv ha =>
    rw [primitive_of_isReference hv]
    exact Run.bind_done (by rw [Convert.text, Run.ofOption, ha])

/-- Two values with texts are compared by their units. -/
theorem compare_of_texts (hx : ReadsAs s x a) (hy : ReadsAs s y b) :
    compare x y s = .done (some (Text.compareUnits (Text.units a) (Text.units b))) s := by
  rw [compare, Run.bind_done hx.primitive, Run.bind_done hy.primitive]
  rfl

/-! ### The four operators -/

/-- For which orders of its sides a relational operator says yes. -/
def relation? : BinaryOp → Option (Ordering → Bool)
  | .lt => some Ordering.isLT
  | .gt => some Ordering.isGT
  | .le => some Ordering.isLE
  | .ge => some Ordering.isGE
  | _ => none

/-- A relational operator looks at the order of the units, and nowhere else. -/
theorem binary_of_texts {yes : Ordering → Bool} (hop : relation? op = some yes)
    (hx : ReadsAs s x a) (hy : ReadsAs s y b) :
    binary host op x y s
      = .done (.bool (yes (Text.compareUnits (Text.units a) (Text.units b)))) s := by
  have h := compare_of_texts hx hy
  generalize Text.compareUnits (Text.units a) (Text.units b) = o at h ⊢
  cases op <;> cases hop <;> rw [binary, Run.bind_done h] <;> cases o <;> rfl

theorem holds_iff {yes : Ordering → Bool} (hop : relation? op = some yes)
    (hx : ReadsAs s x a) (hy : ReadsAs s y b) :
    Holds host s op x y ↔ yes (Text.compareUnits (Text.units a) (Text.units b)) = true := by
  rw [Holds, binary_of_texts hop hx hy]
  simp

/-- It says yes or no. -/
theorem holds_or_fails {yes : Ordering → Bool} (hop : relation? op = some yes)
    (hx : ReadsAs s x a) (hy : ReadsAs s y b) : Holds host s op x y ∨ Fails host s op x y := by
  rw [Holds, Fails, binary_of_texts hop hx hy]
  cases yes (Text.compareUnits (Text.units a) (Text.units b)) <;> simp

theorem lt_iff_units (hx : ReadsAs s x a) (hy : ReadsAs s y b) :
    Holds host s .lt x y ↔ Text.units a < Text.units b := by
  rw [holds_iff rfl hx hy, Ordering.isLT_iff_eq_lt, Text.compareUnits_eq_lt_iff]

theorem gt_iff_units (hx : ReadsAs s x a) (hy : ReadsAs s y b) :
    Holds host s .gt x y ↔ Text.units b < Text.units a := by
  rw [holds_iff rfl hx hy, Ordering.isGT_iff_eq_gt, Text.compareUnits_eq_gt_iff]

/-- Texts are equal where their units are. -/
theorem eq_iff_units : Holds host s .strictEq (.str a) (.str b) ↔ Text.units a = Text.units b := by
  rw [strictEq_text_iff, Text.units_injective.eq_iff]

theorem le_iff_units (hx : ReadsAs s x a) (hy : ReadsAs s y b) :
    Holds host s .le x y ↔ Text.units a < Text.units b ∨ Text.units a = Text.units b := by
  rw [holds_iff rfl hx hy, ← Text.compareUnits_eq_lt_iff, ← Text.compareUnits_eq_eq_iff]
  cases Text.compareUnits (Text.units a) (Text.units b) <;> simp

theorem ge_iff_units (hx : ReadsAs s x a) (hy : ReadsAs s y b) :
    Holds host s .ge x y ↔ Text.units b < Text.units a ∨ Text.units b = Text.units a := by
  rw [holds_iff rfl hx hy, ← Text.compareUnits_eq_gt_iff, eq_comm (a := Text.units b),
    ← Text.compareUnits_eq_eq_iff]
  cases Text.compareUnits (Text.units a) (Text.units b) <;> simp

end Operator

open Operator in
/-- **The relational operators order texts.**  Of values that are read as texts (texts themselves,
and references by the text they have), each relational operator says yes or no.  Exactly one of
`<`, `===` on the texts, and `>` says yes; `>` is `<` with the sides changed; `<=` is `<` or
`===`, and `>=` is `<=` with the sides changed; `<` is transitive; and it is the lexicographic
order of the units. -/
theorem relational_operators_order_texts (host : Host) {s : Store} {x y z : Value} {a b c : String}
    (hx : ReadsAs s x a) (hy : ReadsAs s y b) (hz : ReadsAs s z c) :
    (∀ op ∈ [BinaryOp.lt, .gt, .le, .ge], Holds host s op x y ∨ Fails host s op x y) ∧
    ((Holds host s .lt x y ∧ ¬ Holds host s .strictEq (.str a) (.str b) ∧
        ¬ Holds host s .gt x y) ∨
      (¬ Holds host s .lt x y ∧ Holds host s .strictEq (.str a) (.str b) ∧
        ¬ Holds host s .gt x y) ∨
      (¬ Holds host s .lt x y ∧ ¬ Holds host s .strictEq (.str a) (.str b) ∧
        Holds host s .gt x y)) ∧
    (Holds host s .lt x y ↔ Holds host s .gt y x) ∧
    (Holds host s .le x y ↔
      Holds host s .lt x y ∨ Holds host s .strictEq (.str a) (.str b)) ∧
    (Holds host s .ge x y ↔ Holds host s .le y x) ∧
    (Holds host s .lt x y → Holds host s .lt y z → Holds host s .lt x z) ∧
    (Holds host s .lt x y ↔ Text.units a < Text.units b) := by
  refine ⟨fun op hop => ?_, ?_, ?_, ?_, ?_, ?_, lt_iff_units hx hy⟩
  -- the four operators are those with a relation
  · have hrel : ∃ yes, relation? op = some yes := by
      obtain rfl | rfl | rfl | rfl : op = .lt ∨ op = .gt ∨ op = .le ∨ op = .ge := by
        simpa using hop
      all_goals exact ⟨_, rfl⟩
    obtain ⟨yes, hyes⟩ := hrel
    exact holds_or_fails hyes hx hy
  -- the units of a text determine it, so the order of the units is total on texts
  · rw [lt_iff_units hx hy, gt_iff_units hx hy, eq_iff_units]
    obtain h | h | h := lt_trichotomy (Text.units a) (Text.units b)
    · exact .inl ⟨h, h.ne, h.asymm⟩
    · exact .inr (.inl ⟨h.not_lt, h, h.not_gt⟩)
    · exact .inr (.inr ⟨h.asymm, h.ne', h⟩)
  · rw [lt_iff_units hx hy, gt_iff_units hy hx]
  · rw [le_iff_units hx hy, lt_iff_units hx hy, eq_iff_units]
  · rw [ge_iff_units hx hy, le_iff_units hy hx]
  · rw [lt_iff_units hx hy, lt_iff_units hy hz, lt_iff_units hx hz]
    exact lt_trans

/-- Between the last character of one unit and a character of two units, the order of the units is
not that of the characters: the array of the one comes before the text of the other. -/
theorem pair_of_surrogates_comes_first :
    let s : Store := { arrays := #[#[.str "😀"]] }
    s.text? (.array 0) = some "😀" ∧
      Operator.Holds .none s .lt (.array 0) (.str "\uFFFF") ∧ "\uFFFF" < "😀" := by
  intro s
  have ht : s.text? (.array 0) = some "😀" := rfl
  have h := relational_operators_order_texts .none (.reference rfl ht) (.text "\uFFFF") (.text "")
  exact ⟨ht, h.2.2.2.2.2.2.mpr (by decide), by decide⟩

end Estree
