/-
Estree/Proofs/Loose.lean

Loose equality with both sides converted at once.

The program converts one side after the other, in a fixed order of cases, and begins again after
each conversion.  No value is converted to one that has to be converted again (`conversions` counts
down), so that this is the same as to convert what has to be converted on both sides, and to compare
the two values that come out (`Operator.looseEqAtOnce`).

The two forms are shown to be equal by induction along the cases of the program
(`Operator.looseEq_eq_atOnce`): a case that begins again has the hypothesis for what it begins again
with, and the others have nothing left to convert.  What else is known of loose equality is read off
the second form.
-/
import Estree.Operator
import Estree.Proofs.Task

namespace Estree

theorem Value.isNullish_of_isReference {l : Value} (h : l.isReference = true) :
    l.isNullish = false := by
  cases l <;> first | rfl | cases h

namespace Operator

open Value

variable {s : Store} {l r : Value}

/-! ### Both sides at once -/

/-- Loose equality of values of which neither is nullish, a truth value or a reference. -/
def looseEqPrimitive : Value → Value → Bool
  | .num a, .str b => a == numberOfText b
  | .str a, .num b => numberOfText a == b
  | a, b => a.strictEq b

/-- A truth value as a number, any other value as it is. -/
def boolAsNumber : Value → Value
  | .bool b => .num (if b then 1 else 0)
  | v => v

/-- Loose equality with both sides converted before they are compared. -/
def looseEqAtOnce (l r : Value) : Run Store Bool := do
  if l.isNullish && r.isNullish then return true
  else if l.isNullish || r.isNullish then return false
  else
    let l := boolAsNumber l
    let r := boolAsNumber r
    if l.isReference == r.isReference then return looseEqPrimitive l r
    else return looseEqPrimitive (← Convert.primitive l) (← Convert.primitive r)

@[simp]
theorem isReference_boolAsNumber (v : Value) : (boolAsNumber v).isReference = v.isReference := by
  cases v <;> rfl

theorem boolAsNumber_of_isReference (h : l.isReference = true) : boolAsNumber l = l := by
  cases l <;> first | rfl | cases h

theorem isNullish_of_ne (h : l = .undefined → False) (h' : l = .null → False) :
    l.isNullish = false := by
  cases l <;> first | rfl | exact absurd rfl h | exact absurd rfl h'

theorem primitive_of_not_isReference (h : l.isReference = false) :
    Convert.primitive l = pure l := by
  simp only [Convert.primitive, h, Bool.false_eq_true, if_false]

theorem primitive_of_isReference (h : l.isReference = true) :
    Convert.primitive l = do return .str (← Convert.text l) := by
  simp only [Convert.primitive, h, if_true]

theorem looseEqAtOnce_of_nullish (h : (l.isNullish || r.isNullish) = true) :
    looseEqAtOnce l r s = .done (l.isNullish && r.isNullish) s := by
  unfold looseEqAtOnce
  cases hl : l.isNullish <;> cases hr : r.isNullish
  · rw [hl, hr] at h
    cases h
  all_goals rfl

/-- Neither side is converted to a text. -/
theorem looseEqAtOnce_of_eq_isReference (hl : l.isNullish = false) (hr : r.isNullish = false)
    (h : l.isReference = r.isReference) :
    looseEqAtOnce l r s = .done (looseEqPrimitive (boolAsNumber l) (boolAsNumber r)) s := by
  simp only [looseEqAtOnce, hl, hr, isReference_boolAsNumber, h, beq_self_eq_true, if_true]
  rfl

/-- One side is converted to a text. -/
theorem looseEqAtOnce_of_ne_isReference (hl : l.isNullish = false) (hr : r.isNullish = false)
    (h : l.isReference ≠ r.isReference) :
    looseEqAtOnce l r = do
      return looseEqPrimitive (← Convert.primitive (boolAsNumber l))
        (← Convert.primitive (boolAsNumber r)) := by
  have h' : (l.isReference == r.isReference) = false := beq_false_of_ne h
  simp only [looseEqAtOnce, hl, hr, isReference_boolAsNumber, h']
  rfl

/-! ### One side after the other -/

/-- It makes no difference whether the sides are converted one after the other or at once. -/
theorem looseEq_eq_atOnce (l r : Value) : looseEq l r = looseEqAtOnce l r := by
  fun_induction looseEq l r with
  | case1 | case2 | case3 | case4 | case9 | case10 => rfl
  | case5 r h h' | case6 r h h' =>
    -- undefined or null next to something else
    cases r <;> first | rfl | exact absurd rfl h | exact absurd rfl h'
  | case7 l h h' | case8 l h h' =>
    cases l <;> first | rfl | exact absurd rfl h | exact absurd rfl h'
  | case11 a r _ _ ih =>
    -- a truth value on the left, and then on the right
    simp only [ih]
    rfl
  | case12 l b _ _ _ ih =>
    simp only [ih]
    cases l <;> rfl
  | case13 l r _ _ _ _ _ _ h h' _ _ _ _ hr ih =>
    -- a reference on the left, and then on the right
    obtain ⟨hl, hr⟩ := Bool.and_eq_true_iff.1 hr
    rw [Bool.not_eq_true'] at hr
    have hn : r.isNullish = false := isNullish_of_ne h h'
    have hr' : (boolAsNumber r).isReference = false := by rwa [isReference_boolAsNumber]
    rw [looseEqAtOnce_of_ne_isReference (isNullish_of_isReference hl) hn (by simp [hl, hr]),
      primitive_of_not_isReference hr', boolAsNumber_of_isReference hl,
      primitive_of_isReference hl]
    simp only [ih, bind_assoc, pure_bind]
    refine congrArg _ (funext fun t => funext fun s => ?_)
    exact looseEqAtOnce_of_eq_isReference (l := .str t) rfl hn hr.symm
  | case14 l r _ _ _ _ h h' _ _ _ _ _ _ _ hr ih =>
    obtain ⟨hl, hr⟩ := Bool.and_eq_true_iff.1 hr
    rw [Bool.not_eq_true'] at hl
    have hn : l.isNullish = false := isNullish_of_ne h h'
    have hl' : (boolAsNumber l).isReference = false := by rwa [isReference_boolAsNumber]
    rw [looseEqAtOnce_of_ne_isReference hn (isNullish_of_isReference hr) (by simp [hl, hr]),
      primitive_of_not_isReference hl', boolAsNumber_of_isReference hr,
      primitive_of_isReference hr]
    simp only [ih, bind_assoc, pure_bind]
    refine congrArg _ (funext fun t => funext fun s => ?_)
    exact looseEqAtOnce_of_eq_isReference (r := .str t) hn rfl hl
  | case15 l r _ _ _ _ hu hn hu' hn' hnum hstr hb hb' hl hr =>
    -- nothing is left to be converted
    have href : l.isReference = r.isReference := by
      cases el : l.isReference <;> cases er : r.isReference <;> simp [el, er] at hl hr ⊢
    have hprimitive : looseEqPrimitive (boolAsNumber l) (boolAsNumber r) = l.strictEq r := by
      have hl' : boolAsNumber l = l := by cases l <;> first | rfl | exact absurd rfl (hb _)
      have hr' : boolAsNumber r = r := by cases r <;> first | rfl | exact absurd rfl (hb' _)
      rw [hl', hr']
      unfold looseEqPrimitive
      split
      · exact absurd rfl (hnum _ _ rfl)
      · exact absurd rfl (hstr _ _ rfl)
      · rfl
    funext s
    rw [looseEqAtOnce_of_eq_isReference (isNullish_of_ne hu hn) (isNullish_of_ne hu' hn') href,
      hprimitive]
    rfl

end Operator

end Estree
