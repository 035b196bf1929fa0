/-
Estree/Proofs/Enclosed.lean

Evaluations within evaluations.

A task that is performed in a state asks for other tasks in other states (`Asks`); `Encloses`
is the closure, from an evaluation to all evaluations that happen within it.  To prove something
of every evaluation it is enough to prove it of one from those that it asks for
(`Machine.induction`).

In this way the laws of one level become laws of the evaluator: `Law.perform` says that every
evaluation keeps a law, whatever its budget, and `Law.enclosed` that its contract holds wherever
an evaluation begins within another.
-/
import Estree.Proofs.Asking

namespace Estree

variable {host : Host} {n m : Nat} {t t' : Task} {s s' : State}

/-! ### Asking -/

/-- Whether performing a task in a state asks for another task in another state. -/
def Asks (host : Host) (n : Nat) (t : Task) (s : State) (t' : Task) (s' : State) : Prop :=
  Needs (fun p => rule host n p t s) (Machine.perform host n) t' s'

/-- Whether an evaluation happens within another, or is that evaluation itself. -/
inductive Encloses (host : Host) : Nat → Task → State → Nat → Task → State → Prop
  | self {n : Nat} {t : Task} {s : State} : Encloses host n t s n t s
  | step {n m : Nat} {t t₁ t' : Task} {s s₁ s' : State} (h : Asks host n t s t₁ s₁)
      (h' : Encloses host n t₁ s₁ m t' s') : Encloses host (n + t.cost) t s m t' s'

/-- What cannot come out before a task does asks for it. -/
theorem Asks.of_endless (h : ∀ q : Performer, q t' s' = .endless → rule host n q t s = .endless)
    (hp : Machine.perform host (n + t.cost) t s ≠ .endless) : Asks host n t s t' s' := by
  rw [Machine.perform_eq_rule] at hp
  exact ⟨.endless, fun he => hp (he.symm.trans (h _ Performer.answering_self))⟩

/-- One level of evaluation comes to its tasks one after the other. -/
theorem rule_sequential (host : Host) (n : Nat) (t : Task) (s : State) :
    Sequential fun p => rule host n p t s := by
  intro X p
  have hp : (Law.idle host (D := {}) fun _ => trivial).Keeps p := Law.idle_keeps rfl rfl p
  exact (Abides.rule (Discipline.admits_all t)).decided hp trivial X

/-- What spends nothing of a budget is performed alike by performers that agree on what does. -/
theorem rule_congr (ht : t.cost = 0) {p q : Performer} (h : ∀ u : Task, u.cost = 1 → p u = q u) :
    rule host n p t = rule host n q t := by
  have evaluator (rounds : Nat) : p.evaluator rounds = q.evaluator rounds := by
    simp only [Performer.evaluator, h (.expr _ _) rfl, h (.stmt _ _ _) rfl, h (.call _ _ _) rfl,
      h .spent rfl]
  cases t with
  | expr _ _ => cases ht
  | stmt _ _ _ => cases ht
  | call _ _ _ => cases ht
  | spent => cases ht
  | program module q =>
    simp only [rule, Rule.runProgram, evaluator]
  | _ => simp only [rule, evaluator]

/-- What spends nothing of a budget asks only for what does. -/
theorem asks_cost (ht : t.cost = 0) (h : Asks host n t s t' s') : t'.cost = 1 := by
  refine Classical.byContradiction fun hc => ?_
  obtain ⟨o, ho⟩ := h
  refine ho (congrFun (rule_congr ht fun u hu => ?_) s)
  refine funext fun v => Performer.answering_of_ne fun ⟨h, _⟩ => hc ?_
  rw [← h, hu]

theorem Task.cost_cases (t : Task) : t.cost = 0 ∨ t.cost = 1 := by
  cases t <;> first | exact .inl rfl | exact .inr rfl

/-- What holds of a task in a state if it holds of all that it asks for holds of everything. -/
theorem Machine.induction (host : Host) {S : Nat → Task → State → Prop}
    (zero : ∀ t s, t.cost = 1 → S 0 t s)
    (step : ∀ n t s, (∀ t' s', Asks host n t s t' s' → S n t' s') → S (n + t.cost) t s)
    (n : Nat) (t : Task) (s : State) : S n t s := by
  -- what spends nothing asks only for what spends, so a level takes `step` at most twice
  have free (n : Nat) (h : ∀ t s, t.cost = 1 → S n t s) (t : Task) (s : State) : S n t s := by
    obtain ht | ht := t.cost_cases
    · have hs := step n t s fun t' s' ha => h t' s' (asks_cost ht ha)
      rwa [ht] at hs
    · exact h t s ht
  induction n generalizing t s with
  | zero => exact free 0 zero t s
  | succ n ih =>
    refine free (n + 1) (fun t s ht => ?_) t s
    have hs := step n t s fun t' s' _ => ih t' s'
    rwa [ht] at hs

/-- What holds of a computation that does not end, and is handed on by each level, holds of every
task. -/
theorem Machine.levels (host : Host) {C : (t : Task) → Eval t.Result → Prop}
    (endless : ∀ t, C t Run.endless)
    (level : ∀ n (p : Performer), (∀ t, C t (p t)) → ∀ t, C t (rule host n p t)) (n : Nat)
    (t : Task) : C t (Machine.perform host n t) := by
  -- a task that spends nothing is settled by the tasks of the same level that spend
  have free (n : Nat) (h : ∀ t : Task, t.cost = 1 → C t (Machine.perform host n t)) (t : Task) :
      C t (Machine.perform host n t) := by
    obtain ht | ht := t.cost_cases
    · -- for what spends nothing, only those tasks count that spend
      let p : Performer := fun u => if u.cost = 1 then Machine.perform host n u else Run.endless
      have hp (u : Task) : C u (p u) := by
        by_cases hu : u.cost = 1
        · rw [show p u = _ from if_pos hu]
          exact h u hu
        · rw [show p u = _ from if_neg hu]
          exact endless u
      have hr := Machine.perform_eq_rule host n t
      rw [ht, Nat.add_zero, ← rule_congr (p := p) ht fun u hu => if_pos hu] at hr
      rw [hr]
      exact level n p hp t
    · exact h t ht
  -- the induction is on the budget; a task that spends asks only below its level
  induction n generalizing t with
  | zero =>
    refine free 0 (fun t ht => ?_) t
    rw [show Machine.perform host 0 t = _ from Machine.perform_zero host ht]
    exact endless t
  | succ n ih =>
    refine free (n + 1) (fun t ht => ?_) t
    have hr := Machine.perform_eq_rule host n t
    rw [ht] at hr
    rw [hr]
    exact level n _ (fun t => ih t) t

/-! ### Laws -/

namespace Law

variable {D : Discipline} (L : Law host D)

open Classical in
/-- A computation keeps a law if all that it needs does, and where it needs something the contract
of the law holds. -/
theorem composed {α : Type} {Γ : Reach} {Q : α → Prop} {F : Performer → Eval α}
    (h : Abides host D Γ Q F) (hs : Sequential fun p => F p s)
    (ih : ∀ t' s', Needs (fun p => F p s) (Machine.perform host n) t' s' → D.asks t' →
      L.inv (Reach.of t') s' →
      L.Ensures (Reach.of t') (D.gives t') s' (Machine.perform host n t' s'))
    (hi : L.inv Γ s) :
    L.Ensures Γ Q s (F (Machine.perform host n) s) ∧
      ∀ t' s', Needs (fun p => F p s) (Machine.perform host n) t' s' →
        D.asks t' ∧ L.inv (Reach.of t') s' := by
  -- outside of what is needed nothing is known, so let it not return
  let p : Performer := fun t' s' =>
    if Needs (fun p => F p s) (Machine.perform host n) t' s' then Machine.perform host n t' s'
    else .endless
  have agree (t' s') (hn : Needs (fun p => F p s) (Machine.perform host n) t' s') :
      p t' s' = Machine.perform host n t' s' := if_pos hn
  have hp : L.Keeps p := by
    intro t' s' ha hi'
    by_cases hn : Needs (fun p => F p s) (Machine.perform host n) t' s'
    · rw [agree t' s' hn]
      exact ih t' s' hn ha hi'
    · rw [show p t' s' = _ from if_neg hn]
      trivial
  have hl := h.sound hp hi
  refine ⟨hs.congr agree ▸ hl.1, fun t' s' hn => ?_⟩
  obtain ⟨o, ho⟩ := hs.needs_congr agree hn
  exact Classical.byContradiction fun hX => ho (hl.2 _ (Performer.answering_agreeOff hX))

/-- Every evaluation keeps a law whose discipline admits all that happens within it. -/
theorem perform (n : Nat) (t : Task) (s : State)
    (hD : ∀ {m t' s'}, Encloses host n t s m t' s' → D.asks t' → D.Admits t')
    (ht : D.asks t) (hi : L.inv (Reach.of t) s) :
    L.Ensures (Reach.of t) (D.gives t) s (Machine.perform host n t s) := by
  induction n, t, s using Machine.induction host with
  | zero t s h =>
    rw [Machine.perform_zero host h]
    trivial
  | step n t s ih =>
    rw [Machine.perform_eq_rule]
    exact (L.composed (Abides.rule (hD .self ht)) (rule_sequential host n t s)
      (fun t' s' h => ih t' s' h fun he => hD (.step h he)) hi).1

/-- The evaluator keeps every law of the discipline without restrictions. -/
theorem keeps (L : Law host {}) (n : Nat) : L.Keeps (Machine.perform host n) :=
  fun t s ht hi => L.perform n t s (fun _ _ => Discipline.admits_all _) ht hi

/-- Where an evaluation asks for another, the contract of a law holds. -/
theorem asked (hD : ∀ {m t' s'}, Encloses host (n + t.cost) t s m t' s' → D.asks t' → D.Admits t')
    (ht : D.asks t) (hi : L.inv (Reach.of t) s) (h : Asks host n t s t' s') :
    D.asks t' ∧ L.inv (Reach.of t') s' :=
  (L.composed (Abides.rule (hD .self ht)) (rule_sequential host n t s)
    (fun t' s' h => L.perform n t' s' fun he => hD (.step h he)) hi).2 t' s' h

/-- Wherever an evaluation begins within another, the contract of a law holds. -/
theorem enclosed (h : Encloses host n t s m t' s')
    (hD : ∀ {m t' s'}, Encloses host n t s m t' s' → D.asks t' → D.Admits t')
    (ht : D.asks t) (hi : L.inv (Reach.of t) s) : D.asks t' ∧ L.inv (Reach.of t') s' := by
  induction h with
  | self => exact ⟨ht, hi⟩
  | step h _ ih =>
    obtain ⟨ht₁, hi₁⟩ := L.asked hD ht hi h
    exact ih (fun he => hD (.step h he)) ht₁ hi₁

end Law

end Estree
