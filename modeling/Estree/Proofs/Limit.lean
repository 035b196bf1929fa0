/-
Estree/Proofs/Limit.lean

The limit on running functions.

An evaluation looks at the limit in one place only, where a function is about to be entered.  So
with another limit, which is no lower, it does the same as long as no call is refused
(`Machine.perform_withLimit`).  The two runs are in states that differ in the limit and in nothing
else (`LimitedTo`).

Below the guard around a called function no level enters one, so that two runs of a level can be
compared under the discipline that forbids it (`Simulation.limited`).  That no call is refused is
known of the calls that one of the runs asks for, and it is handed down with them.
-/
import Estree.Proofs.CallBalance
import Estree.Proofs.Session
import Estree.Proofs.Simulation

namespace Estree

variable {host : Host} {d : Nat} {limit : Option Nat} {s s' : State} {α : Type}

/-! ### States that differ in the limit -/

/-- The state with another limit on how many functions may run. -/
def State.withLimit (s : State) (limit : Option Nat) : State :=
  { s with calls := { s.calls with limit } }

/-- A state with one limit, beside the same state with another. -/
def LimitedTo (d : Nat) (limit : Option Nat) (s s' : State) : Prop :=
  s.calls.limit = some d ∧ s' = s.withLimit limit

namespace Outcome

/-- An outcome with a change to the state that is left behind. -/
def onState {σ : Type} (f : σ → σ) : Outcome σ α → Outcome σ α
  | .done a s => .done a (f s)
  | .failed e s => .failed e (f s)
  | .endless => .endless

/-- What leaves a state with a limit is like itself with another limit. -/
theorem onState_withLimit {o : Outcome State α} (h : o.Leaves fun s => s.calls.limit = limit) :
    (o.onState fun s => s.withLimit (some d)).Alike (LimitedTo d limit) (fun _ => True) o := by
  have back {s : State} (hs : s.calls.limit = limit) :
      LimitedTo d limit (s.withLimit (some d)) s := ⟨rfl, by subst hs; rfl⟩
  cases o with
  | done a s => exact .done trivial (back h)
  | failed e s => exact .failed (back h)
  | endless => exact .endless

end Outcome

/-! ### One level -/

/-- A step does the same with another limit. -/
theorem Step.withLimit (st : Step host α) (hs : LimitedTo d limit s s') :
    (st.run s).Alike (LimitedTo d limit) (fun _ => True) (st.run s') := by
  obtain ⟨hd, rfl⟩ := hs
  -- neither the store nor the scopes know of the limit, so both runs make the same step
  have store {β : Type} (m : Run Store β) :
      (Eval.onStore m s).Alike (LimitedTo d limit) (fun _ => True)
        (Eval.onStore m (s.withLimit limit)) := by
    unfold Eval.onStore State.withLimit
    dsimp only
    rcases m s.store with ⟨a, store⟩ | ⟨e, store⟩ | -
    · exact .done trivial ⟨hd, rfl⟩
    · exact .failed ⟨hd, rfl⟩
    · exact .endless
  have scopes {β : Type} (f : Scopes → Except ScopeError β × Scopes) :
      (Eval.onScopes f s).Alike (LimitedTo d limit) (fun _ => True)
        (Eval.onScopes f (s.withLimit limit)) := by
    unfold Eval.onScopes State.withLimit
    dsimp only
    rcases f s.scopes with ⟨e | a, ss⟩
    · exact .failed ⟨hd, rfl⟩
    · exact .done trivial ⟨hd, rfl⟩
  cases st with
  | store m _ => exact store m
  | closure c => exact store (Store.newClosure c)
  | query scope name =>
    show (Eval.query scope name s).Alike _ _ (Eval.query scope name (s.withLimit limit))
    unfold Eval.query State.withLimit
    dsimp only
    cases s.scopes.query scope name with
    | ok v => exact .done trivial ⟨hd, rfl⟩
    | error e => exact .failed ⟨hd, rfl⟩
  | lookup scope name => exact .done trivial ⟨hd, rfl⟩
  | declare scope kind name value => exact scopes fun ss => ss.create scope kind name value
  | assign scope name value => exact scopes fun ss => ss.update scope name value
  | delete scope name => exact .done trivial ⟨hd, rfl⟩

/-- Each step can be followed with another limit, as long as no function is entered. -/
def Simulation.limited (host : Host) (d : Nat) (limit : Option Nat) :
    Simulation host { enters := False } where
  rel := LimitedTo d limit
  reach _ := True
  reach_of _ := trivial
  learn _ _ := trivial
  step st _ _ hs := st.withLimit hs
  size hs := by
    rw [hs.2]
    rfl
  child _ _ hs := ⟨trivial, hs.1, by rw [hs.2]; rfl⟩
  fork _ _ hs := ⟨trivial, hs.1, by rw [hs.2]; rfl⟩
  load _ hs := ⟨trivial, by rw [hs.2]; rfl⟩
  calls h _ := h.elim
  withCalls _ h _ := h.elim

/-- A level that enters no function does the same with another limit, if all that it asks for
does. -/
theorem rule_withLimit {n : Nat} {t : Task} (hc : ∀ id this args, t ≠ .call id this args)
    (hd : s.calls.limit = some d)
    (asked : ∀ t' s', Asks host n t s t' s' →
      (Machine.perform host n t' s').Alike (LimitedTo d limit) (fun _ => True)
        (Machine.perform host n t' (s'.withLimit limit))) :
    (rule host n (Machine.perform host n) t s).Alike (LimitedTo d limit) (fun _ => True)
      (rule host n (Machine.perform host n) t (s.withLimit limit)) := by
  classical
  -- outside of what is asked for, let the one performer do what the other does
  let p : Performer := fun t' s' =>
    if Asks host n t s t' s' then Machine.perform host n t' s'
    else (Machine.perform host n t' (s'.withLimit limit)).onState fun s => s.withLimit (some d)
  have same : rule host n p t s = rule host n (Machine.perform host n) t s :=
    (rule_sequential host n t s).congr fun t' s' ha => if_pos ha
  have alike : (Simulation.limited host d limit).Matches p (Machine.perform host n) := by
    rintro t' r r' - ⟨hr, rfl⟩
    have known : (p t' r).Alike (LimitedTo d limit) (fun _ => True)
        (Machine.perform host n t' (r.withLimit limit)) := by
      by_cases ha : Asks host n t s t' r
      · rw [show p t' r = _ from if_pos ha]
        exact asked t' r ha
      · rw [show p t' r = _ from if_neg ha]
        refine Outcome.onState_withLimit ((calls_kept host n t' _).mono fun σ hσ => ?_)
        rw [hσ]
        rfl
    exact known.mono (fun _ _ => id) fun a _ => Discipline.gives_all rfl rfl t' a
  rw [← same]
  exact ((Abides.rule (Discipline.admits_unentered hc)).simulated alike trivial ⟨hd, rfl⟩).mono
    (fun _ _ => id) fun _ _ => trivial

/-- A function that may be entered does the same with another limit, if what is inside does. -/
theorem Eval.framed_withLimit {name : String} {m m' : Eval α} (hs : s.calls.isFull = false)
    (hs' : (s.withLimit limit).calls.isFull = false)
    (hm : (m (s.entered name)).Alike (LimitedTo d limit) (fun _ => True)
      (m' ((s.entered name).withLimit limit))) :
    (framed name m s).Alike (LimitedTo d limit) (fun _ => True)
      (framed name m' (s.withLimit limit)) := by
  have left {s s' : State} (h : LimitedTo d limit s s') : LimitedTo d limit s.left s'.left :=
    ⟨h.1, by rw [h.2]; rfl⟩
  generalize ho : m (s.entered name) = o at hm
  generalize ho' : m' ((s.entered name).withLimit limit) = o' at hm
  cases hm with
  | done _ h =>
    rw [framed_done hs ho, framed_done hs' ho']
    exact .done trivial (left h)
  | failed h =>
    rw [framed_failed hs ho, framed_failed hs' ho', h.2]
    exact .failed (left ⟨h.1, rfl⟩)
  | endless =>
    rw [framed_endless hs ho, framed_endless hs' ho']
    exact .endless

/-! ### All evaluations -/

/-- An evaluation in which no function is called while the given number of functions run. -/
def StaysBelow (host : Host) (d n : Nat) (t : Task) (s : State) : Prop :=
  ∀ {m id this args r}, Encloses host n t s m (.call id this args) r → r.calls.depth ≠ d

/-- Below a limit there is room for a function, and so there is with a limit that is no lower. -/
theorem CallStack.not_full_withLimit (hd : s.calls.depth < d) (hl : ∀ m, limit = some m → d ≤ m) :
    (s.withLimit limit).calls.isFull = false := by
  cases limit with
  | none => rfl
  | some m =>
    rw [Bool.eq_false_iff, Ne, CallStack.isFull_iff (m := m) rfl]
    exact Nat.not_le.2 (Nat.lt_of_lt_of_le hd (hl m rfl))

/-- What is never refused a call does the same with a limit that is no lower, or with none. -/
theorem Machine.perform_withLimit (hl : ∀ m, limit = some m → d ≤ m) (n : Nat) (t : Task)
    (s : State) (hs : s.calls.limit = some d ∧ s.calls.depth ≤ d) (hn : StaysBelow host d n t s) :
    (perform host n t s).Alike (LimitedTo d limit) (fun _ => True)
      (perform host n t (s.withLimit limit)) := by
  induction n, t, s using Machine.induction host with
  | zero t s h =>
    rw [perform_zero host h]
    exact .endless
  | step n t s ih =>
    -- the enclosed tasks stay below the limit as well
    have asked (t' : Task) (s' : State) (ha : Asks host n t s t' s') :
        (perform host n t' s').Alike (LimitedTo d limit) (fun _ => True)
          (perform host n t' (s'.withLimit limit)) :=
      ih t' s' ha
        (calls_enclosed (P := fun c => c.limit = some d ∧ c.depth ≤ d) entered_within
          (.step ha .self) hs)
        fun he => hn (.step ha he)
    by_cases hc : ∃ id this args, t = .call id this args
    · -- a call, and one that is not refused
      obtain ⟨id, this, args, rfl⟩ := hc
      have hlt : s.calls.depth < d := Nat.lt_of_le_of_ne hs.2 (hn .self)
      have hfull : s.calls.isFull = false := by
        rw [Bool.eq_false_iff, Ne, CallStack.isFull_iff hs.1]
        exact Nat.not_le.2 hlt
      rw [show n + (Task.call id this args).cost = n + 1 from rfl, perform_call, perform_call]
      exact Eval.framed_withLimit hfull (CallStack.not_full_withLimit hlt hl)
        (asked _ _ (call_asks hfull id this args))
    · rw [perform_eq_rule]
      exact rule_withLimit (fun id this args ht => hc ⟨id, this, args, ht⟩) hs.1 asked

/-- A budget that is too small for so many functions to run. -/
theorem StaysBelow.of_budget {n : Nat} {t : Task} (h : s.calls.depth + n < d) :
    StaysBelow host d n t s := by
  intro m id this args r he
  have hr := depth_enclosed he
  omega

/-! ### Programs -/

/-- Building an interpreter does the same with another limit. -/
theorem Interpreter.prepare_withLimit (host : Host) (d : Nat) (limit : Option Nat) (config : Config)
    (s : State) (hs : s.calls.limit = some d) :
    (prepare config s).Alike (LimitedTo d limit) (fun _ => True)
      (prepare config (s.withLimit limit)) := by
  have matched : (Simulation.limited host d limit).Matches (fun _ _ => .endless)
      (fun _ _ => .endless) := fun _ _ _ _ _ => .endless
  have h : Abides host { enters := False } (.owning rootScope) _ fun _ => prepare config :=
    Abides.prepare (fun _ => trivial) rfl config
  exact h.simulated matched trivial ⟨hs, rfl⟩

/-- **A limit that is never hit makes no difference.**  Take a program, and an interpreter built
with a limit such that in the run no function is called while as many run as the limit allows.
With a limit that is no lower, or with none, building the interpreter and running the program
gives the same value, or the same error with the same backtrace, or does not end; and the states
that are left behind have the same store, console included, the same scopes and the same running
functions. -/
theorem limit_is_transparent_unless_hit (host : Host) {d : Nat} {limit : Option Nat}
    (hl : ∀ m, limit = some m → d ≤ m) (config : Config) (store : Store) (p : Program) (n : Nat)
    (hn : ∀ i s₀, Interpreter.build { config with maxCallDepth := some d } store = .done i s₀ →
      StaysBelow host d n (.program i.module p) s₀) :
    (Interpreter.runOnce host n { config with maxCallDepth := some d } store p).Alike
      (LimitedTo d limit) (fun _ => True)
      (Interpreter.runOnce host n { config with maxCallDepth := limit } store p) := by
  have h : (Interpreter.prepare { config with maxCallDepth := some d }
      { store, scopes := #[{}], calls := { limit := some d } }).Alike (LimitedTo d limit)
      (fun _ => True) (Interpreter.prepare { config with maxCallDepth := limit }
        { store, scopes := #[{}], calls := { limit } }) :=
    Interpreter.prepare_withLimit host d limit config _ rfl
  -- building makes no call, so the run starts with an empty stack
  have calls {i : Interpreter} {s₀ : State} := @Interpreter.calls_of_build s₀
    { config with maxCallDepth := some d } store i
  unfold Interpreter.runOnce
  unfold Interpreter.build at hn calls ⊢
  dsimp only at hn calls ⊢
  generalize Interpreter.prepare { config with maxCallDepth := some d } _ = o at h hn calls ⊢
  generalize Interpreter.prepare { config with maxCallDepth := limit } _ = o' at h ⊢
  cases h with
  | @done module s₀ _ _ hs =>
    rw [hs.2]
    have hc : s₀.calls = { limit := some d } := calls rfl
    refine Machine.perform_withLimit hl n (.program module p) s₀ ?_ (hn _ s₀ rfl)
    rw [hc]
    exact ⟨rfl, Nat.zero_le d⟩
  | failed hs => exact .failed hs
  | endless => exact .endless

/-- A function is called under a limit and without one. -/
theorem call_below_limit_is_unlimited :
    let f : Function := .mk (some "f") [.ident "x"]
      (.block [.returns (some (.ident "x"))]) false false
    let p : Program := ⟨[.function f,
      .expression (.call (.ident "f") [.literal { value := .bool true }])], .script⟩
    (∃ s, Interpreter.runOnce Host.none 9 { maxCallDepth := some 12 } {} p
      = .done (.bool true) s) ∧
    (Interpreter.runOnce Host.none 9 { maxCallDepth := some 12 } {} p).Alike (LimitedTo 12 none)
      (fun _ => True) (Interpreter.runOnce Host.none 9 { maxCallDepth := none } {} p) := by
  intro f p
  have called : ∃ s, Interpreter.runOnce Host.none 9 { maxCallDepth := some 12 } {} p
      = .done (.bool true) s := by
    dsimp only [p, f]
    exact ⟨_, rfl⟩
  refine ⟨called, ?_⟩
  have hl : ∀ m, (none : Option Nat) = some m → 12 ≤ m := nofun
  refine limit_is_transparent_unless_hit Host.none hl {} {} p 9 fun i s₀ hb => ?_
  refine StaysBelow.of_budget ?_
  rw [Interpreter.calls_of_build hb]
  decide

end Estree
