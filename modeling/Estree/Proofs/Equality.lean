/-
Estree/Proofs/Equality.lean

Loose and strict equality.

Loose equality converts until it has two values of one sort, and strict equality has the last
word.  What is converted is said by the rules of `LooseRule`, each of which looks at one side:
a truth value counts as a number, a reference next to a primitive value as its text, a text next to
a number as a number; undefined and null equal each other and nothing else.  What the program
computes is exactly what the rules say (`Operator.looseEq_iff`).

The rules may be taken on either side.  That the program gives the same answer on whatever side it
begins (`Operator.looseEq_comm`) rests on the symmetry of the comparison of doubles, which is read
off their model (`Double.beq_comm`).
-/
import Estree.Proofs.Conversion
import Estree.Proofs.Loose

namespace Estree

/-! ### Doubles -/

namespace Double

open Float.Model

/-- The order of two signs, seen from the other side. -/
theorem swap_compare_sign (a b : UnpackedFloat.Sign) : (compare a b).swap = compare b a := by
  cases a <;> cases b <;> rfl

/-- The order of two doubles, seen from the other side. -/
theorem swap_compare (x y : UnpackedFloat) :
    (x.compare y).map Ordering.swap = y.compare x := by
  cases x with
  | notANumber => cases y <;> rfl
  | infinity a =>
    cases y with
    | infinity b => exact congrArg some (swap_compare_sign a b)
    | notANumber | zero | finite => cases a <;> rfl
  | zero a =>
    cases y with
    | infinity b | finite b => cases b <;> rfl
    | notANumber | zero => rfl
  | finite a m e hm =>
    cases y with
    | infinity b => cases a <;> cases b <;> rfl
    | notANumber | zero => cases a <;> rfl
    | finite b n f hn =>
      have h : ((compare e f).then (compare m n)).swap = (compare f e).then (compare n m) := by
        rw [Ordering.swap_then, ← Std.OrientedOrd.eq_swap, ← Std.OrientedOrd.eq_swap]
      -- magnitudes are compared only under one sign, and the other way around if it is negative
      cases a <;> cases b
      · exact congrArg (fun o => some (Ordering.swap o)) h
      · rfl
      · rfl
      · exact congrArg some h

theorem beq_comm (x y : Float) : (x == y) = (y == x) := by
  show (x.toModel.unpack.compare y.toModel.unpack == some .eq)
    = (y.toModel.unpack.compare x.toModel.unpack == some .eq)
  rw [← swap_compare x.toModel.unpack]
  rcases x.toModel.unpack.compare y.toModel.unpack with - | (- | - | -) <;> rfl

end Double

/-! ### Strict equality -/

namespace Value

variable {l r : Value}

/-- Two texts, two numbers, two truth values or two references. -/
inductive OfOneSort : Value → Value → Prop where
  | bool (a b : Bool) : OfOneSort (.bool a) (.bool b)
  | num (x y : Float) : OfOneSort (.num x) (.num y)
  | str (a b : String) : OfOneSort (.str a) (.str b)
  | reference {l r : Value} (hl : l.isReference = true) (hr : r.isReference = true) :
      OfOneSort l r

theorem strictEq_comm (l r : Value) : l.strictEq r = r.strictEq l := by
  cases l with
  | undefined | null => cases r <;> rfl
  | num x =>
    cases r with
    | num y => exact Double.beq_comm x y
    | _ => rfl
  | bool | str | array | object | closure | native =>
    cases r <;> first | rfl | exact BEq.comm

/-- What is strictly equal is undefined or null on both sides, or of one sort. -/
theorem isNullish_or_oneSort_of_strictEq (h : l.strictEq r = true) :
    (l.isNullish = true ∧ r.isNullish = true) ∨ OfOneSort l r := by
  cases l <;> cases r <;> first
    | exact .inl ⟨rfl, rfl⟩
    | exact .inr (.bool _ _)
    | exact .inr (.num _ _)
    | exact .inr (.str _ _)
    | exact .inr (.reference rfl rfl)
    | exact nomatch h

end Value

/-! ### Loose equality -/

namespace Operator

open Value

variable {s s' : Store} {l r : Value} {b : Bool} {t : String}

/-- How two values are found to be loosely equal, or not to be. -/
inductive LooseRule (s : Store) : Value → Value → Bool → Prop where
  /-- Undefined and null equal each other. -/
  | nullish {l r : Value} (hl : l.isNullish = true) (hr : r.isNullish = true) :
      LooseRule s l r true
  /-- They equal nothing else. -/
  | notNullish {l r : Value} (hl : l.isNullish = true) (hr : r.isNullish = false) :
      LooseRule s l r false
  /-- Values of one sort are compared as strict equality does. -/
  | strict {l r : Value} (h : OfOneSort l r) : LooseRule s l r (l.strictEq r)
  /-- A text next to a number counts as a number. -/
  | number (x : Float) (t : String) : LooseRule s (.num x) (.str t) (x == numberOfText t)
  /-- A truth value counts as a number. -/
  | bool {a : Bool} {r : Value} {b : Bool} (h : LooseRule s (.num (if a then 1 else 0)) r b) :
      LooseRule s (.bool a) r b
  /-- A reference next to a primitive value counts as its text. -/
  | text {l r : Value} {t : String} {b : Bool} (hl : l.isReference = true)
      (hr : r.isReference = false) (ht : s.text? l = some t) (h : LooseRule s (.str t) r b) :
      LooseRule s l r b
  /-- It does not matter on which side. -/
  | swap {l r : Value} {b : Bool} (h : LooseRule s l r b) : LooseRule s r l b

/-! #### What the program computes -/

theorem looseEqPrimitive_comm (l r : Value) : looseEqPrimitive l r = looseEqPrimitive r l := by
  cases l <;> cases r <;> simp only [looseEqPrimitive] <;>
    first | exact Double.beq_comm _ _ | exact strictEq_comm _ _

theorem looseEqPrimitive_of_isReference (hl : l.isReference = true) :
    looseEqPrimitive l r = l.strictEq r := by
  cases l <;> first | rfl | cases hl

theorem looseEq_of_nullish (h : (l.isNullish || r.isNullish) = true) :
    looseEq l r s = .done (l.isNullish && r.isNullish) s := by
  rw [looseEq_eq_atOnce, looseEqAtOnce_of_nullish h]

theorem looseEq_of_eq_isReference (hl : l.isNullish = false) (hr : r.isNullish = false)
    (h : l.isReference = r.isReference) :
    looseEq l r s = .done (looseEqPrimitive (boolAsNumber l) (boolAsNumber r)) s := by
  rw [looseEq_eq_atOnce, looseEqAtOnce_of_eq_isReference hl hr h]

theorem looseEq_of_ne_isReference (hl : l.isNullish = false) (hr : r.isNullish = false)
    (h : l.isReference ≠ r.isReference) :
    looseEq l r = do
      return looseEqPrimitive (← Convert.primitive (boolAsNumber l))
        (← Convert.primitive (boolAsNumber r)) := by
  rw [looseEq_eq_atOnce, looseEqAtOnce_of_ne_isReference hl hr h]

/-- A reference is compared by its text with a primitive value. -/
theorem looseEq_reference (hl : l.isReference = true) (hr : r.isReference = false)
    (hn : r.isNullish = false) :
    looseEq l r = do return looseEqPrimitive (.str (← Convert.text l)) (boolAsNumber r) := by
  have hr' : (boolAsNumber r).isReference = false := by rwa [isReference_boolAsNumber]
  rw [looseEq_of_ne_isReference (isNullish_of_isReference hl) hn (by simp [hl, hr]),
    boolAsNumber_of_isReference hl, primitive_of_isReference hl, primitive_of_not_isReference hr']
  simp only [bind_assoc, pure_bind]

/-- Where the reference stands does not matter. -/
theorem looseEq_reference_comm (hl : l.isReference = true) (hr : r.isReference = false)
    (hn : r.isNullish = false) : looseEq r l = looseEq l r := by
  have hr' : (boolAsNumber r).isReference = false := by rwa [isReference_boolAsNumber]
  rw [looseEq_reference hl hr hn,
    looseEq_of_ne_isReference hn (isNullish_of_isReference hl) (by simp [hl, hr]),
    boolAsNumber_of_isReference hl, primitive_of_isReference hl, primitive_of_not_isReference hr']
  simp only [bind_assoc, pure_bind, looseEqPrimitive_comm (boolAsNumber r)]

theorem looseEq_comm (l r : Value) : looseEq l r = looseEq r l := by
  cases hn : (l.isNullish || r.isNullish) with
  | true =>
    funext s
    rw [looseEq_of_nullish hn, looseEq_of_nullish (by rwa [Bool.or_comm]), Bool.and_comm]
  | false =>
    obtain ⟨hl, hr⟩ := Bool.or_eq_false_iff.1 hn
    cases el : l.isReference <;> cases er : r.isReference
    case true.false => exact (looseEq_reference_comm el er hr).symm
    case false.true => exact looseEq_reference_comm er el hl
    all_goals
      funext s
      rw [looseEq_of_eq_isReference hl hr (el.trans er.symm),
        looseEq_of_eq_isReference hr hl (er.trans el.symm), looseEqPrimitive_comm]

/-! #### The rules -/

/-- Strict equality is loose equality between values of one sort. -/
theorem looseEq_of_oneSort (h : OfOneSort l r) : looseEq l r s = .done (l.strictEq r) s := by
  cases h with
  | bool a b =>
    -- zero and one differ as doubles too
    rw [looseEq_eq_atOnce]
    cases a <;> cases b <;> rfl
  | num | str =>
    rw [looseEq_eq_atOnce]
    rfl
  | reference hl hr =>
    rw [looseEq_of_eq_isReference (isNullish_of_isReference hl) (isNullish_of_isReference hr)
      (hl.trans hr.symm), boolAsNumber_of_isReference hl, boolAsNumber_of_isReference hr,
      looseEqPrimitive_of_isReference hl]

/-- A reference counts as its text. -/
theorem looseEq_text (hl : l.isReference = true) (hr : r.isReference = false)
    (ht : s.text? l = some t) : looseEq l r s = looseEq (.str t) r s := by
  cases hn : r.isNullish with
  | true =>
    have hl' : l.isNullish = false := isNullish_of_isReference hl
    rw [looseEq_of_nullish (by simp [hn]), looseEq_of_nullish (by simp [hn]), hl']
    rfl
  | false =>
    have htext : Convert.text l s = .done t s := by rw [Convert.text, Run.ofOption, ht]
    rw [looseEq_reference hl hr hn, Run.bind_done htext,
      looseEq_of_eq_isReference (l := .str t) rfl hn hr.symm]
    rfl

theorem LooseRule.sound (h : LooseRule s l r b) : looseEq l r s = .done b s := by
  induction h with
  | nullish hl hr => rw [looseEq_of_nullish (by simp [hl]), hl, hr, Bool.and_self]
  | notNullish hl hr => rw [looseEq_of_nullish (by simp [hl]), hr, Bool.and_false]
  | strict h => exact looseEq_of_oneSort h
  | number x t =>
    rw [looseEq_eq_atOnce]
    rfl
  | bool _ ih =>
    rw [looseEq_eq_atOnce] at ih ⊢
    exact ih
  | text hl hr ht _ ih => rw [looseEq_text hl hr ht, ih]
  | swap _ ih => rw [looseEq_comm, ih]

/-- A truth value counts as a number. -/
theorem LooseRule.of_boolAsNumber (h : LooseRule s (boolAsNumber l) r b) : LooseRule s l r b := by
  cases l with
  | bool a => exact .bool h
  | _ => exact h

theorem boolAsNumber_cases (hl : l.isNullish = false) (hl' : l.isReference = false) :
    (∃ x, boolAsNumber l = .num x) ∨ ∃ t, boolAsNumber l = .str t := by
  cases l with
  | bool | num => exact .inl ⟨_, rfl⟩
  | str t => exact .inr ⟨t, rfl⟩
  | undefined | null => cases hl
  | array | object | closure | native => cases hl'

/-- The rules settle the comparison of two primitive values. -/
theorem LooseRule.primitive (hl : l.isNullish = false) (hr : r.isNullish = false)
    (hl' : l.isReference = false) (hr' : r.isReference = false) :
    LooseRule s l r (looseEqPrimitive (boolAsNumber l) (boolAsNumber r)) := by
  refine .of_boolAsNumber (.swap (.of_boolAsNumber (.swap ?_)))
  obtain ⟨x, el⟩ | ⟨t, el⟩ := boolAsNumber_cases hl hl' <;>
    obtain ⟨y, er⟩ | ⟨u, er⟩ := boolAsNumber_cases hr hr' <;> rw [el, er]
  · exact .strict (.num x y)
  · exact .number x u
  · rw [looseEqPrimitive_comm]
    exact .swap (.number y t)
  · exact .strict (.str t u)

/-- What the program computes follows from the rules. -/
theorem LooseRule.complete (h : looseEq l r s = .done b s') : s' = s ∧ LooseRule s l r b := by
  cases hl : l.isNullish with
  | true =>
    rw [looseEq_of_nullish (by simp [hl]), hl, Bool.true_and] at h
    cases h
    cases hr : r.isNullish with
    | true => exact ⟨rfl, .nullish hl hr⟩
    | false => exact ⟨rfl, .notNullish hl hr⟩
  | false =>
    cases hr : r.isNullish with
    | true =>
      rw [looseEq_of_nullish (by simp [hr]), hl, Bool.false_and] at h
      cases h
      exact ⟨rfl, .swap (.notNullish hr hl)⟩
    | false =>
      -- of a reference next to a primitive value, on whatever side
      have mixed {l r : Value} (el : l.isReference = true) (er : r.isReference = false)
          (hr : r.isNullish = false) (h : looseEq l r s = .done b s') :
          s' = s ∧ LooseRule s l r b := by
        cases ht : s.text? l with
        | none =>
          rw [looseEq_reference el er hr, Run.bind_endless (by rw [Convert.text, Run.ofOption, ht])]
            at h
          cases h
        | some t =>
          rw [looseEq_text el er ht, looseEq_of_eq_isReference (l := .str t) rfl hr er.symm] at h
          cases h
          exact ⟨rfl, .text el er ht (.primitive rfl hr rfl er)⟩
      cases el : l.isReference <;> cases er : r.isReference
      case true.false => exact mixed el er hr h
      case false.true =>
        rw [looseEq_comm] at h
        exact (mixed er el hl h).imp id .swap
      case false.false =>
        rw [looseEq_of_eq_isReference hl hr (el.trans er.symm)] at h
        cases h
        exact ⟨rfl, .primitive hl hr el er⟩
      case true.true =>
        rw [looseEq_of_oneSort (.reference el er)] at h
        cases h
        exact ⟨rfl, .strict (.reference el er)⟩

/-- The program computes what the rules say. -/
theorem looseEq_iff : looseEq l r s = .done b s' ↔ s' = s ∧ LooseRule s l r b := by
  refine ⟨LooseRule.complete, ?_⟩
  rintro ⟨rfl, h⟩
  exact h.sound

/-- What is strictly equal is loosely equal. -/
theorem looseEq_of_strictEq (h : l.strictEq r = true) : looseEq l r s = .done true s := by
  obtain ⟨hl, hr⟩ | hs := isNullish_or_oneSort_of_strictEq h
  · exact (LooseRule.nullish hl hr).sound
  · rw [looseEq_of_oneSort hs, h]

end Operator

/-- **Loose equality is symmetric and extends strict equality.**  Of two values that have
texts, in whatever order, loose equality gives one answer, and leaves the store alone; it is true if
they are strictly equal; and it is the answer of strict equality if both are texts, both numbers,
both truth values or both references.  The operators `==` and `!=` give this answer and its
opposite, and it is the one that the rules of conversion lead to. -/
theorem loose_equality_is_symmetric_and_extends_strict (host : Host) {s : Store}
    {l r : Value} (hl : (s.text? l).isSome = true) (hr : (s.text? r).isSome = true) :
    ∃ b, Operator.looseEq l r s = .done b s ∧ Operator.looseEq r l s = .done b s ∧
      (l.strictEq r = true → b = true) ∧ (l.OfOneSort r → b = l.strictEq r) ∧
      Operator.binary host .looseEq l r s = .done (.bool b) s ∧
      Operator.binary host .looseNe l r s = .done (.bool !b) s ∧
      ∀ b', Operator.LooseRule s l r b' ↔ b' = b := by
  obtain ⟨b, hb⟩ := Operator.returns_looseEq (Store.isSome_text_iff.mp hl)
    (Store.isSome_text_iff.mp hr)
  have same {b' : Bool} (h : Operator.looseEq l r s = .done b' s) : b' = b := by
    rw [hb] at h
    cases h
    rfl
  refine ⟨b, hb, by rwa [Operator.looseEq_comm], fun h => ?_, fun h => ?_, Run.bind_done hb,
    Run.bind_done hb, fun b' => ⟨fun h => same h.sound, ?_⟩⟩
  · exact (same (Operator.looseEq_of_strictEq h)).symm
  · exact (same (Operator.looseEq_of_oneSort h)).symm
  · rintro rfl
    exact (Operator.looseEq_iff.mp hb).2

/-- An array of one text, and a truth value: the array counts as its text, and both as numbers. -/
theorem array_of_a_numeral_equals_true :
    let s : Store := { arrays := #[#[.str "1"]] }
    s.text? (.array 0) = some "1" ∧
      Operator.looseEq (.array 0) (.bool true) s = .done true s ∧
      Operator.looseEq (.bool true) (.array 0) s = .done true s := by
  intro s
  have ht : s.text? (.array 0) = some "1" := rfl
  obtain ⟨b, h, h', -, -, -, -, hrule⟩ :=
    loose_equality_is_symmetric_and_extends_strict .none (r := .bool true)
      (Option.isSome_of_eq_some ht) rfl
  have hb : true = b := (hrule true).mp
    (.text rfl rfl ht (.swap (.bool (.number 1 "1"))))
  subst hb
  exact ⟨ht, h, h'⟩

end Estree
