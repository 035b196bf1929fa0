/-
Estree/Proofs/Asking.lean

What an evaluation asks for.

An evaluation needs a task in a state (`Needs`) if its outcome depends on how that task comes out
in that state.  Computations over a performer come to their tasks one after the other: of any
set of tasks and states they either use none, or there is one that they come to before all
others of the set, and then they end if that one does not return, and fail if it fails for
a fatal reason (`Abides.decided`).  All that is said here follows from this:

* an evaluation is determined by what it needs (`Sequential.congr`);
* if what it needs does not return or fails for a fatal reason, then so does the evaluation
  (`Sequential.reaches`);
* once a task has failed for a fatal reason, nothing more is needed (`Sequential.not_after`).
-/
import Estree.Proofs.Law

namespace Estree

/-! ### Unwinding -/

/-- The error and the state after the given number of functions has been left on the way out.
What is left behind is only the list of running functions; an error without a backtrace is
given one. -/
def unwind (e : EvalError) (s : State) : Nat → EvalError × State
  | 0 => (e, s)
  | k + 1 => ((unwind e s k).2.calls.attach (unwind e s k).1, (unwind e s k).2.left)

section unwind

variable (e : EvalError) (s : State) (k : Nat)

theorem CallStack.attach_cause (c : CallStack) (e : EvalError) : (c.attach e).cause = e.cause := by
  unfold CallStack.attach
  split <;> rfl

/-- Unwinding frames adds to the backtrace only. -/
theorem unwind_cause : (unwind e s k).1.cause = e.cause := by
  induction k with
  | zero => rfl
  | succ k ih => exact (CallStack.attach_cause _ _).trans ih

theorem unwind_store : (unwind e s k).2.store = s.store := by
  induction k with
  | zero => rfl
  | succ k ih => exact ih

theorem unwind_scopes : (unwind e s k).2.scopes = s.scopes := by
  induction k with
  | zero => rfl
  | succ k ih => exact ih

/-- Unwinding in two parts is unwinding at once. -/
theorem unwind_add (j : Nat) :
    unwind (unwind e s k).1 (unwind e s k).2 j = unwind e s (k + j) := by
  induction j with
  | zero => rfl
  | succ j ih => rw [unwind, ih, ← Nat.add_assoc, unwind]

end unwind

/-! ### Points -/

namespace Performer

open Classical in
/-- The performer that gives a certain outcome to one task in one state. -/
noncomputable def answering (p : Performer) (t : Task) (s : State)
    (o : Outcome State t.Result) : Performer :=
  fun t' s' => if h : t' = t ∧ s' = s then h.1 ▸ o else p t' s'

variable {p : Performer} {t t' : Task} {s s' : State} {o : Outcome State t.Result}

@[simp]
theorem answering_self : p.answering t s o t s = o :=
  dif_pos ⟨rfl, rfl⟩

theorem answering_of_ne (h : ¬ (t' = t ∧ s' = s)) : p.answering t s o t' s' = p t' s' :=
  dif_neg h

/-- Another answer for one question of `X` makes no difference outside `X`. -/
theorem answering_agreeOff {X : Task → State → Prop} (h : X t s) :
    AgreeOff X (p.answering t s o) p := by
  intro t' s' hX
  refine answering_of_ne fun ⟨ht, hs⟩ => hX ?_
  rw [ht, hs]
  exact h

end Performer

open Performer

/-! ### What comes first -/

section first

variable {α β : Type} {X : Task → State → Prop} {p : Performer} {t : Task} {s : State}
variable {f g : Performer → Outcome State α}

/-- An outcome that does not depend on the performer at the given points. -/
def Settled (X : Task → State → Prop) (f : Performer → Outcome State α) (p : Performer) : Prop :=
  ∀ q, AgreeOff X q p → f q = f p

/-- An outcome that depends on a point whatever the performer does at the other given points.
Without an answer there is no outcome, and a fatal error is passed on. -/
def Reaches (X : Task → State → Prop) (f : Performer → Outcome State α) (p : Performer)
    (t : Task) (s : State) : Prop :=
  ∃ k, ∀ q, AgreeOff X q p →
    (q t s = .endless → f q = .endless) ∧
      ∀ e s', q t s = .failed e s' → e.isCatchable = false →
        f q = .failed (unwind e s' k).1 (unwind e s' k).2

/-- Either none of the given points matters, or one of them comes first. -/
def Decided (X : Task → State → Prop) (f : Performer → Outcome State α) (p : Performer) : Prop :=
  Settled X f p ∨ ∃ t s, X t s ∧ Reaches X f p t s

/-- Whatever passes on fatal errors reaches what its first part reaches. -/
theorem Reaches.pass {f : Performer → Outcome State α} {g : Performer → Outcome State β}
    (h : Reaches X f p t s) (endless : ∀ q, f q = .endless → g q = .endless)
    (fatal : ∀ q e s', f q = .failed e s' → e.isCatchable = false → g q = .failed e s') :
    Reaches X g p t s := by
  obtain ⟨k, h⟩ := h
  refine ⟨k, fun q hq => ⟨fun hn => endless q ((h q hq).1 hn), fun e s' hf he => ?_⟩⟩
  refine fatal q _ _ ((h q hq).2 e s' hf he) ?_
  rw [EvalError.isCatchable, unwind_cause]
  exact he

/-- What is reached does not depend on the performer at the given points. -/
theorem Reaches.transfer (h : Reaches X f p t s) {q : Performer} (hq : AgreeOff X q p) :
    Reaches X f q t s := by
  obtain ⟨k, h⟩ := h
  exact ⟨k, fun r hr => h r fun t s hX => (hr t s hX).trans (hq t s hX)⟩

namespace Decided

variable {F : Performer → Eval α} {G : α → Performer → Eval β}
variable {H : EvalError → Performer → Eval β}

theorem const (o : Outcome State α) : Decided X (fun _ => o) p :=
  .inl fun _ _ => rfl

theorem congr (hg : Decided X g p) (h : ∀ q, AgreeOff X q p → f q = g q) : Decided X f p := by
  obtain hg | ⟨t, s, hX, k, hg⟩ := hg
  · refine .inl fun q hq => ?_
    rw [h q hq, hg q hq, h p fun _ _ _ => rfl]
  · refine .inr ⟨t, s, hX, k, fun q hq => ?_⟩
    rw [h q hq]
    exact hg q hq

/-- A sequence asks nothing of `X` if neither step does. -/
theorem bind (hF : Decided X (fun q => F q s) p)
    (hG : ∀ a s', F p s = .done a s' → Decided X (fun q => G a q s') p) :
    Decided X (fun q => (F q >>= fun a => G a q) s) p := by
  obtain hF | ⟨t, s', hX, hF⟩ := hF
  · -- the first part does not depend on the points: what follows decides
    dsimp only [Settled] at hF
    cases h : F p s with
    | done a s' =>
      rw [h] at hF
      exact (hG a s' h).congr fun q hq => Run.bind_done (hF q hq)
    | failed e s' =>
      rw [h] at hF
      exact (const _).congr fun q hq => Run.bind_failed (hF q hq)
    | endless =>
      rw [h] at hF
      exact (const _).congr fun q hq => Run.bind_endless (hF q hq)
  · -- the first part comes to a point, before anything that follows
    refine .inr ⟨t, s', hX, hF.pass (fun q => Run.bind_endless) fun q e s' h _ => ?_⟩
    exact Run.bind_failed h

/-- A recovery asks nothing of `X` if no step does, the handler included. -/
theorem recover (hF : Decided X (fun q => F q s) p)
    (hG : ∀ a s', F p s = .done a s' → Decided X (fun q => G a q s') p)
    (hH : ∀ e s', F p s = .failed e s' → Decided X (fun q => H e q s') p) :
    Decided X (fun q => Run.recover (F q) (fun a => G a q) (fun e => H e q) s) p := by
  obtain hF | ⟨t, s', hX, hF⟩ := hF
  · dsimp only [Settled] at hF
    cases h : F p s with
    | done a s' =>
      rw [h] at hF
      exact (hG a s' h).congr fun q hq => Run.recover_done (hF q hq)
    | failed e s' =>
      rw [h] at hF
      cases he : e.isCatchable with
      | true => exact (hH e s' h).congr fun q hq => Run.recover_failed (hF q hq) he
      | false => exact (const _).congr fun q hq => Run.recover_fatal (hF q hq) he
    | endless =>
      rw [h] at hF
      exact (const _).congr fun q hq => Run.recover_endless (hF q hq)
  · refine .inr ⟨t, s', hX, hF.pass (fun q => Run.recover_endless) fun q e s' h he => ?_⟩
    exact Run.recover_fatal h he

/-- A call asks nothing of `X` if its body, run behind the new frame, does not. -/
theorem framed {name : String}
    (hF : s.calls.isFull = false → Decided X (fun q => F q (s.entered name)) p) :
    Decided X (fun q => Eval.framed name (F q) s) p := by
  cases hs : s.calls.isFull with
  | true => exact (const _).congr fun q _ => Eval.framed_of_full hs name _
  | false =>
    obtain hF | ⟨t, s', hX, k, hF⟩ := hF hs
    -- the body asks nothing of `X`: neither does the call, which only unwinds its outcome
    · dsimp only [Settled] at hF
      cases h : F p (s.entered name) with
      | done a s' =>
        rw [h] at hF
        exact (const _).congr fun q hq => Eval.framed_done hs (hF q hq)
      | failed e s' =>
        rw [h] at hF
        exact (const _).congr fun q hq => Eval.framed_failed hs (hF q hq)
      | endless =>
        rw [h] at hF
        exact (const _).congr fun q hq => Eval.framed_endless hs (hF q hq)
    · -- the error leaves one function more
      refine .inr ⟨t, s', hX, k + 1, fun q hq => ⟨fun hn => ?_, fun e s' hf he => ?_⟩⟩
      · exact Eval.framed_endless hs ((hF q hq).1 hn)
      · exact Eval.framed_failed hs ((hF q hq).2 e s' hf he)

end Decided

end first

/-! ### Computations come to their tasks one after the other -/

/-- The law that claims nothing, where all functions are allowed. -/
def Law.idle (host : Host) {D : Discipline} (hf : ∀ f, D.function f) : Law host D where
  inv _ _ := True
  rel _ _ := True
  err _ _ := True
  refl _ := trivial
  trans _ _ := trivial
  frame _ _ _ := trivial
  narrow _ _ := trivial
  fail _ _ := trivial
  step {_ s} _ st _ _ := by
    rcases st.run s with ⟨a, s'⟩ | ⟨e, s'⟩ | -
    · exact ⟨trivial, trivial, trivial⟩
    · exact ⟨trivial, trivial, trivial⟩
    · trivial
  child _ _ := ⟨trivial, trivial⟩
  fork _ _ := ⟨trivial, trivial⟩
  load _ _ _ := ⟨hf _, trivial⟩
  refused _ _ := trivial
  enter _ _ _ := trivial
  leave _ _ _ _ := ⟨trivial, trivial⟩
  carry _ := trivial

/-- Without restrictions every completion is allowed. -/
theorem Completion.within_all (c : Completion) : c.Within fun _ => True := by
  cases c <;> trivial

/-- Where all jumps may leave, a task may give anything. -/
theorem Discipline.gives_all {D : Discipline} (hj : D.jumps = fun _ _ _ => True)
    (hb : D.bodyJumps = fun _ _ => True) (t : Task) (a : t.Result) : D.gives t a := by
  cases t with
  | stmt st scope labels =>
    show Completion.Within (D.jumps st labels) a
    rw [hj]
    exact Completion.within_all a
  | body stmts scope =>
    show Completion.Within (D.bodyJumps stmts) a
    rw [hb]
    exact Completion.within_all a
  | handler h e scope =>
    obtain ⟨param, body⟩ := h
    show Completion.Within (D.bodyJumps body) a
    rw [hb]
    exact Completion.within_all a
  | _ => trivial

/-- Every performer keeps the law that claims nothing, where all jumps may leave. -/
theorem Law.idle_keeps {host : Host} {D : Discipline} {hf : ∀ f, D.function f}
    (hj : D.jumps = fun _ _ _ => True) (hb : D.bodyJumps = fun _ _ => True) (p : Performer) :
    (Law.idle host hf).Keeps p := by
  intro t s _ _
  rcases p t s with ⟨a, s'⟩ | ⟨e, s'⟩ | -
  · exact ⟨trivial, trivial, Discipline.gives_all hj hb t a⟩
  · exact ⟨trivial, trivial, trivial⟩
  · trivial

section sequential

variable {host : Host} {D : Discipline} {L : Law host D} {Γ : Reach} {α : Type} {Q : α → Prop}
variable {F : Performer → Eval α} {p : Performer} {s s' : State}

/-- What is known once a computation has given something. -/
theorem Abides.done (h : Abides host D Γ Q F) (hp : L.Keeps p) (hi : L.inv Γ s) {a : α}
    (ho : F p s = .done a s') : Q a ∧ L.inv Γ s' := by
  have hs := (h.sound hp hi).1
  dsimp only at hs
  rw [ho] at hs
  exact ⟨hs.2.2, hs.1⟩

/-- What is known once a computation has failed. -/
theorem Abides.failed (h : Abides host D Γ Q F) (hp : L.Keeps p) (hi : L.inv Γ s) {e : EvalError}
    (ho : F p s = .failed e s') : L.inv Γ s' := by
  have hs := (h.sound hp hi).1
  dsimp only at hs
  rw [ho] at hs
  exact hs.1

/-- A computation that abides by a discipline comes to its tasks one after the other. -/
theorem Abides.decided (h : Abides host D Γ Q F) (hp : L.Keeps p) (hi : L.inv Γ s)
    (X : Task → State → Prop) : Decided X (fun q => F q s) p := by
  induction h generalizing s with
  | pure _ => exact .const _
  | endless _ => exact .const _
  | fail _ => exact .const _
  | step _ _ => exact .const _
  | ask t _ _ _ =>
    -- the one place where a question is asked: either it is in `X`, or both performers agree on it
    by_cases hX : X t s
    · refine .inr ⟨t, s, hX, 0, fun q _ => ⟨id, fun e s' h _ => h⟩⟩
    · exact .inl fun q hq => hq t s hX
  | weaken _ _ ih => exact ih hi
  | bind hF _ ihF ihG =>
    refine (ihF hi).bind fun a s' ho => ?_
    obtain ⟨hQ, hi'⟩ := hF.done hp hi ho
    exact ihG a hQ hi'
  | child hs _ ih => exact ih _ (L.child hs hi).1
  | fork hs _ ih => exact ih _ (L.fork hs hi).1
  | @load _ _ _ _ id he _ ih =>
    obtain ⟨hf, hi'⟩ := L.load id he hi
    exact ih _ hf hi'
  | recover hF _ _ ihF ihG ihH =>
    refine (ihF hi).recover (fun a s' ho => ?_) fun e s' ho => ihH e (hF.failed hp hi ho)
    obtain ⟨hQ, hi'⟩ := hF.done hp hi ho
    exact ihG a hQ hi'
  | framed he _ ih => exact .framed fun hs => ih (L.enter he hi hs)

/-- An outcome that depends on how a task comes out in a state. -/
def Needs (f : Performer → Outcome State α) (p : Performer) (t : Task) (s : State) : Prop :=
  ∃ o, f (p.answering t s o) ≠ f p

/-- A function of performers that comes to its tasks one after the other. -/
def Sequential (f : Performer → Outcome State α) : Prop := ∀ X p, Decided X f p

namespace Sequential

variable {f : Performer → Outcome State α} {q : Performer} {t t' : Task}

/-- The points that consist of a task and a state only. -/
def Only (t : Task) (s : State) : Task → State → Prop := fun t' s' => t' = t ∧ s' = s

/-- What is not answered decides the outcome if it is needed. -/
theorem reaches (hf : Sequential f) (h : Needs f p t s) : Reaches (Only t s) f p t s := by
  obtain ⟨o, ho⟩ := h
  obtain hs | ⟨t', s', ⟨rfl, rfl⟩, hr⟩ := hf (Only t s) p
  · exact absurd (hs _ (answering_agreeOff ⟨rfl, rfl⟩)) ho
  · exact hr

/-- A point that is reached before others is needed. -/
theorem needs_of_reaches {X : Task → State → Prop} (h : Reaches X f p t s) (hX : X t s) :
    Needs f p t s := by
  obtain ⟨k, h⟩ := h
  have hn := (h (p.answering t s .endless) (answering_agreeOff hX)).1 answering_self
  have hf := (h (p.answering t s (.failed { cause := .strayBreak none } s))
    (answering_agreeOff hX)).2 _ _ answering_self rfl
  -- not to return and to fail are different answers, so one of them changes the outcome
  by_cases he : f p = .endless
  · refine ⟨.failed { cause := .strayBreak none } s, ?_⟩
    rw [hf, he]
    exact nofun
  · exact ⟨.endless, hn ▸ fun h => he h.symm⟩

/-- The outcome is determined by what is needed for it. -/
theorem congr (hf : Sequential f) (h : ∀ t s, Needs f p t s → q t s = p t s) : f q = f p := by
  obtain hs | ⟨t, s, hX, hr⟩ := hf (fun t s => q t s ≠ p t s) p
  · exact hs q fun t s hX => Classical.not_not.1 hX
  · exact absurd (h t s (needs_of_reaches hr hX)) hX

/-- Performers that agree on what is needed need the same. -/
theorem needs_congr (hf : Sequential f) (h : ∀ t s, Needs f p t s → q t s = p t s)
    (hn : Needs f p t s) : Needs f q t s := by
  obtain ⟨o, ho⟩ := hn
  let X := fun t₁ s₁ => q t₁ s₁ ≠ p t₁ s₁ ∨ Only t s t₁ s₁
  obtain hs | ⟨t₁, s₁, hX, hr⟩ := hf X p
  · exact absurd (hs _ (answering_agreeOff (.inr ⟨rfl, rfl⟩))) ho
  · obtain hne | ⟨rfl, rfl⟩ := hX
    · exact absurd (h t₁ s₁ (needs_of_reaches hr (.inl hne))) hne
    · refine needs_of_reaches (X := X) (hr.transfer fun t s hX => ?_) (.inr ⟨rfl, rfl⟩)
      exact Classical.not_not.1 fun hne => hX (.inl hne)

/-- A fatal error of a task that is needed is passed on. -/
theorem fatal (hf : Sequential f) (h : Needs f p t s) {e : EvalError} (hp : p t s = .failed e s')
    (he : e.isCatchable = false) : ∃ k, f p = .failed (unwind e s' k).1 (unwind e s' k).2 := by
  obtain ⟨k, hr⟩ := hf.reaches h
  exact ⟨k, (hr p fun _ _ _ => rfl).2 e s' hp he⟩

/-- After a fatal error of a task that is needed, nothing else is: what is needed is needed also
if that task does not return. -/
theorem not_after (hf : Sequential f) {e : EvalError} {s₁ : State}
    (hp : p t s = .failed e s₁) (he : e.isCatchable = false) (h' : Needs f p t' s')
    (hne : ¬ (t' = t ∧ s' = s)) : Needs f (p.answering t s .endless) t' s' := by
  obtain ⟨o, ho⟩ := h'
  let X := fun t₁ s₁ => Only t s t₁ s₁ ∨ Only t' s' t₁ s₁
  have hq : AgreeOff X (p.answering t' s' o) p := answering_agreeOff (.inr ⟨rfl, rfl⟩)
  obtain hs | ⟨t₁, s₂, ⟨rfl, rfl⟩ | ⟨rfl, rfl⟩, k, hr⟩ := hf X p
  · exact absurd (hs _ hq) ho
  · -- the failure comes first, so another answer at the other point changes nothing
    have hp' : p.answering t' s' o t₁ s₂ = .failed e s₁ := by
      rw [answering_of_ne fun h => hne ⟨h.1.symm, h.2.symm⟩, hp]
    have same := ((hr _ hq).2 e s₁ hp' he).trans ((hr p fun _ _ _ => rfl).2 e s₁ hp he).symm
    exact absurd same ho
  · have agree : AgreeOff X (p.answering t s .endless) p := answering_agreeOff (.inl ⟨rfl, rfl⟩)
    exact needs_of_reaches (X := X) (Reaches.transfer ⟨k, hr⟩ agree) (.inr ⟨rfl, rfl⟩)

end Sequential

end sequential

end Estree
