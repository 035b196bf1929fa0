/-
Estree/Proofs/Hang.lean

Computations that hang.

An evaluation may fail to return because its budget is used up, because a loop goes on, or because
it has come to something that does not return by itself: a function of the embedder, or the
conversion to text of a value that has none.  `Hangs` is about the last of these.  It says where on
its way a computation has come to such a place: everything before it has come out, and whatever
surrounds it is waiting.

Nothing hangs because a budget is used up.  What comes before the place must be settled by what
returns (`Pending`), so that no task which does not return can be taken for the reason; and to go on
with a loop that has run all its rounds is not to hang (`Task.spent`).  What hangs does not return
(`Hangs.endless`).

The main result is `Abides.hangs`: where there are no unbounded loops, a computation that does not
return hangs, if all tasks do that it asks for and that do not return.
-/
import Estree.Proofs.Enclosed

namespace Estree

/-! ### Store -/

theorem Eval.onStore_done {α : Type} {m : Run Store α} {s : State} {a : α} {store : Store}
    (h : m s.store = .done a store) : onStore m s = .done a { s with store } := by
  unfold onStore
  dsimp only
  rw [h]

theorem Eval.onStore_endless {α : Type} {m : Run Store α} {s : State} :
    onStore m s = .endless ↔ m s.store = .endless := by
  unfold onStore
  dsimp only
  cases m s.store <;> simp

/-! ### Hanging -/

/-- The tasks and states from which the evaluator does not return. -/
def Pending (host : Host) (n : Nat) (t : Task) (s : State) : Prop :=
  Machine.perform host n t s = .endless

/-- A computation over the evaluator that has come to a conversion, or to a function of the
embedder, that does not return.  What has come out on the way there does not depend on pending
tasks. -/
inductive Hangs (host : Host) : Nat → {α : Type} → (Performer → Eval α) → State → Prop
  | convert {n : Nat} {s : State} {f : Store → Option String} (hf : Conversion f)
      (h : f s.store = none) : Hangs host n (fun _ => Eval.onStore (Run.ofOption f)) s
  | native {n : Nat} {s : State} {id : Nat} {this : Value} {args : List Value}
      (h : host.call id this args s.store = .endless) :
      Hangs host n (fun _ => Eval.onStore (host.call id this args)) s
  /-- In the first of two computations. -/
  | first {n : Nat} {s : State} {α β : Type} {F : Performer → Eval α} {G : α → Performer → Eval β}
      (h : Hangs host n F s) : Hangs host n (fun p => F p >>= fun a => G a p) s
  /-- In the second, after the first has given a value. -/
  | next {n : Nat} {s s' : State} {α β : Type} {F : Performer → Eval α}
      {G : α → Performer → Eval β} {a : α}
      (hF : Settled (Pending host n) (fun p => F p s) (Machine.perform host n))
      (ho : F (Machine.perform host n) s = .done a s') (h : Hangs host n (G a) s') :
      Hangs host n (fun p => F p >>= fun a => G a p) s
  /-- Inside of a guard. -/
  | tried {n : Nat} {s : State} {α β : Type} {F : Performer → Eval α} {G : α → Performer → Eval β}
      {H : EvalError → Performer → Eval β} (h : Hangs host n F s) :
      Hangs host n (fun p => Run.recover (F p) (fun a => G a p) fun e => H e p) s
  /-- Behind a guard, after the inside has given a value. -/
  | passed {n : Nat} {s s' : State} {α β : Type} {F : Performer → Eval α}
      {G : α → Performer → Eval β} {H : EvalError → Performer → Eval β} {a : α}
      (hF : Settled (Pending host n) (fun p => F p s) (Machine.perform host n))
      (ho : F (Machine.perform host n) s = .done a s') (h : Hangs host n (G a) s') :
      Hangs host n (fun p => Run.recover (F p) (fun a => G a p) fun e => H e p) s
  /-- In a guard, after the inside has failed. -/
  | handled {n : Nat} {s s' : State} {α β : Type} {F : Performer → Eval α}
      {G : α → Performer → Eval β} {H : EvalError → Performer → Eval β} {e : EvalError}
      (hF : Settled (Pending host n) (fun p => F p s) (Machine.perform host n))
      (ho : F (Machine.perform host n) s = .failed e s') (he : e.isCatchable = true)
      (h : Hangs host n (H e) s') :
      Hangs host n (fun p => Run.recover (F p) (fun a => G a p) fun e => H e p) s
  /-- Inside of a function that has been entered. -/
  | inside {n : Nat} {s : State} {α : Type} {F : Performer → Eval α} {name : String}
      (hs : s.calls.isFull = false) (h : Hangs host n F (s.entered name)) :
      Hangs host n (fun p => Eval.framed name (F p)) s
  /-- In a task that has been asked for. -/
  | task {n : Nat} {s : State} {t : Task} (ht : t ≠ .spent)
      (h : Hangs host n (fun p => rule host n p t) s) : Hangs host (n + t.cost) (fun p => p t) s

namespace Hangs

variable {host : Host} {n : Nat} {t : Task} {s : State} {α : Type} {F : Performer → Eval α}

/-- What hangs does not return. -/
theorem endless (h : Hangs host n F s) : F (Machine.perform host n) s = .endless := by
  induction h with
  | convert _ h =>
    refine Eval.onStore_endless.2 ?_
    rw [Run.ofOption, h]
  | native h => exact Eval.onStore_endless.2 h
  | first _ ih => exact Run.bind_endless ih
  | next _ ho _ ih => exact (Run.bind_done ho).trans ih
  | tried _ ih => exact Run.recover_endless ih
  | passed _ ho _ ih => exact (Run.recover_done ho).trans ih
  | handled _ ho he _ ih => exact (Run.recover_failed ho he).trans ih
  | inside hs _ ih => exact Eval.framed_endless hs ih
  | @task n s t _ _ ih => exact (congrFun (Machine.perform_eq_rule host n t) s).trans ih

end Hangs

/-! ### Computations that do not return -/

section

variable {host : Host} {n : Nat} {s : State} {α : Type}

/-- A routine that does not return has come to a conversion or to a function of the embedder. -/
theorem Routine.hangs {m : Run Store α} (h : Routine host m) (he : m s.store = .endless) :
    Hangs host n (fun _ => Eval.onStore m) s := by
  induction h generalizing s with
  -- either the first part hangs, or it ends and the second does
  | @bind α β m f _ _ ihm ihf =>
    rw [Eval.onStore_bind]
    cases ho : m s.store with
    | done a store =>
      rw [Run.bind_done ho] at he
      exact .next (fun _ _ => rfl) (Eval.onStore_done ho) (ihf a he)
    | failed e store =>
      rw [Run.bind_failed ho] at he
      cases he
    | endless => exact .first (ihm ho)
  -- no text or number was found
  | ofOption hf =>
    refine .convert hf ?_
    rw [Run.ofOption] at he
    split at he
    · cases he
    · assumption
  | host id this args => exact .native he
  | writeLine level text => cases he
  | _ => cases he

/-- A step that does not return has come to a conversion or to a function of the embedder. -/
theorem Step.hangs (st : Step host α) (he : st.run s = .endless) :
    Hangs host n (fun _ => st.run) s := by
  have scopes {β : Type} (f : Scopes → Except ScopeError β × Scopes) :
      Eval.onScopes f s ≠ .endless := by
    unfold Eval.onScopes
    dsimp only
    rcases f s.scopes with ⟨e | a, ss⟩
    · exact nofun
    · exact nofun
  cases st with
  | store m hm => exact hm.hangs (Eval.onStore_endless.1 he)
  | closure c => cases he
  | query scope name =>
    have hq : Eval.query scope name s = .endless := he
    unfold Eval.query at hq
    split at hq <;> cases hq
  | lookup scope name => cases he
  | declare scope kind name value =>
    exact absurd he (scopes fun ss => ss.create scope kind name value)
  | assign scope name value => exact absurd he (scopes fun ss => ss.update scope name value)
  | delete scope name => cases he

/-- Where the evaluator is asked for tasks one after the other, what returns settles what comes
out. -/
theorem Decided.settled {f : Performer → Outcome State α}
    (h : Decided (Pending host n) f (Machine.perform host n))
    (he : f (Machine.perform host n) ≠ .endless) :
    Settled (Pending host n) f (Machine.perform host n) := by
  obtain hs | ⟨t, s, hX, k, hr⟩ := h
  · exact hs
  · exact absurd ((hr _ fun _ _ _ => rfl).1 hX) he

variable {D : Discipline} {L : Law host D} {Γ : Reach} {Q : α → Prop} {F : Performer → Eval α}

/-- Without unbounded loops, a computation that does not return hangs, if every task that it may ask
for does so or returns. -/
theorem Abides.hangs (h : Abides host D Γ Q F) (hl : ¬ D.loops)
    (hp : L.Keeps (Machine.perform host n))
    (asked : ∀ t s, D.asks t → D.opens t → L.inv (Reach.of t) s →
      Machine.perform host n t s = .endless → Hangs host n (fun p => p t) s)
    (hi : L.inv Γ s) (he : F (Machine.perform host n) s = .endless) : Hangs host n F s := by
  -- what has come out is settled, since computations come to their tasks one after the other
  have settled {Γ : Reach} {α : Type} {Q : α → Prop} {F : Performer → Eval α} {s : State}
      (h : Abides host D Γ Q F) (hi : L.inv Γ s) (hne : F (Machine.perform host n) s ≠ .endless) :
      Settled (Pending host n) (fun p => F p s) (Machine.perform host n) :=
    (h.decided hp hi _).settled hne
  induction h generalizing s with
  | pure _ => cases he
  | endless h => exact absurd h hl
  | fail _ => cases he
  | step st _ => exact st.hangs he
  | ask t ha ho hΓ => exact asked t s ha ho (L.narrow hΓ hi) he
  | weaken _ _ ih => exact ih hi he
  | @bind _ _ _ _ _ F _ hF _ ihF ihG =>
    cases ho : F (Machine.perform host n) s with
    | done a s' =>
      obtain ⟨hQ, hi'⟩ := hF.done hp hi ho
      exact .next (settled hF hi (ho ▸ nofun)) ho (ihG a hQ hi' ((Run.bind_done ho).symm.trans he))
    | failed e s' => cases (Run.bind_failed ho).symm.trans he
    | endless => exact .first (ihF hi ho)
  | child hs _ ih => exact .next (fun _ _ => rfl) rfl (ih _ (L.child hs hi).1 he)
  | fork hs _ ih => exact .next (fun _ _ => rfl) rfl (ih _ (L.fork hs hi).1 he)
  | @load _ _ _ _ id hen _ ih =>
    obtain ⟨hf, hi'⟩ := L.load id hen hi
    exact .next (fun _ _ => rfl) rfl (ih _ hf hi' he)
  | @recover _ _ _ _ _ F _ _ hF _ _ ihF ihG ihH =>
    cases ho : F (Machine.perform host n) s with
    | done a s' =>
      obtain ⟨hQ, hi'⟩ := hF.done hp hi ho
      exact .passed (settled hF hi (ho ▸ nofun)) ho
        (ihG a hQ hi' ((Run.recover_done ho).symm.trans he))
    | failed e s' =>
      cases hc : e.isCatchable with
      | true =>
        exact .handled (settled hF hi (ho ▸ nofun)) ho hc
          (ihH e (hF.failed hp hi ho) ((Run.recover_failed ho hc).symm.trans he))
      | false => cases (Run.recover_fatal ho hc).symm.trans he
    | endless => exact .tried (ihF hi ho)
  | framed hn _ ih =>
    obtain ⟨hs, ho⟩ := Eval.of_framed_endless he
    exact .inside hs (ih (L.enter hn hi hs) ho)

end

end Estree
