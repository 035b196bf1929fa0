/-
Estree/Proofs/Fatal.lean

Fatal errors cannot be intercepted.

The causes that are fatal are listed (`Cause.Fatal`): a name that is declared twice, a node that is
not supported, and a jump that leads nowhere.  They are those that handlers and finalizers pass over
(`Cause.isCatchable_eq_false_iff`).

When a task fails for a fatal reason, the evaluation that asked for it fails for the same reason,
asks for nothing else, and leaves everything as it is; only functions are left on the way out
(`Asks.fatal`, `Asks.nothing_after`).  By induction the same goes for every evaluation around it
(`Encloses.fatal`), however many handlers and finalizers there are in between.
-/
import Estree.Proofs.Enclosed

namespace Estree

/-! ### Fatal causes -/

/-- The causes that lie in the tree itself. -/
inductive Cause.Fatal : Cause → Prop where
  | declaredTwice (name : String) : Fatal (.declaredTwice name)
  | unsupported (node : String) : Fatal (.unsupported node)
  | strayBreak (label : Option String) : Fatal (.strayBreak label)
  | strayContinue (label : Option String) : Fatal (.strayContinue label)

/-- Handlers and finalizers are passed over for these causes, and for no others. -/
theorem Cause.isCatchable_eq_false_iff (c : Cause) : c.isCatchable = false ↔ c.Fatal := by
  constructor
  · intro h
    cases c with
    | declaredTwice name => exact .declaredTwice name
    | unsupported node => exact .unsupported node
    | strayBreak label => exact .strayBreak label
    | strayContinue label => exact .strayContinue label
    | _ => cases h
  · rintro (_ | _ | _ | _) <;> rfl

/-! ### What fatal errors leave -/

variable {host : Host} {n m : Nat} {t t' : Task} {s s' σ : State} {e : EvalError}

/-- Whether a task is asked for only once another has come out: it is asked for, but would not be
if the other did not return. -/
def AsksAfter (host : Host) (n : Nat) (t : Task) (s : State) (t₁ : Task) (s₁ : State)
    (t₂ : Task) (s₂ : State) : Prop :=
  Asks host n t s t₂ s₂ ∧ ¬ (t₂ = t₁ ∧ s₂ = s₁) ∧
    ¬ Needs (fun p => rule host n p t s) ((Machine.perform host n).answering t₁ s₁ .endless) t₂ s₂

/-- A fatal error of a task leaves the evaluation that asked for it. -/
theorem Asks.fatal (h : Asks host n t s t' s')
    (hf : Machine.perform host n t' s' = .failed e σ) (he : e.isCatchable = false) :
    ∃ k, Machine.perform host (n + t.cost) t s = .failed (unwind e σ k).1 (unwind e σ k).2 := by
  rw [Machine.perform_eq_rule]
  exact (rule_sequential host n t s).fatal h hf he

/-- After it nothing else is asked for. -/
theorem Asks.nothing_after (hf : Machine.perform host n t' s' = .failed e σ)
    (he : e.isCatchable = false) (t₂ : Task) (s₂ : State) :
    ¬ AsksAfter host n t s t' s' t₂ s₂ :=
  fun ⟨h₂, hne, hn⟩ => hn ((rule_sequential host n t s).not_after hf he h₂ hne)

/-- A fatal error leaves every evaluation around it. -/
theorem Encloses.fatal (h : Encloses host n t s m t' s')
    (hf : Machine.perform host m t' s' = .failed e σ) (he : e.isCatchable = false) :
    ∃ k, Machine.perform host n t s = .failed (unwind e σ k).1 (unwind e σ k).2 := by
  induction h with
  | self => exact ⟨0, hf⟩
  | step h _ ih =>
    obtain ⟨k, hk⟩ := ih hf
    -- a backtrace does not make an error less fatal
    have he' : (unwind e σ k).1.isCatchable = false := by
      rw [EvalError.isCatchable, unwind_cause]
      exact he
    obtain ⟨j, hj⟩ := h.fatal hk he'
    rw [unwind_add] at hj
    exact ⟨k + j, hj⟩

/-- **Fatal errors cannot be intercepted.**  If a task fails for a fatal reason, so does every
evaluation that encloses it: the cause is the same, the store and the scopes are those at the
moment of failure, and only some functions have been left.  No evaluation on the way asks for
anything after the part that failed: neither a handler nor a finalizer nor anything else. -/
theorem fatal_errors_pass_through (h : Encloses host n t s m t' s')
    (hf : Machine.perform host m t' s' = .failed e σ) (he : e.cause.Fatal) :
    (∃ k e' σ', Machine.perform host n t s = .failed e' σ' ∧ (e', σ') = unwind e σ k ∧
      e'.cause = e.cause ∧ σ'.store = σ.store ∧ σ'.scopes = σ.scopes) ∧
    ∀ j u r u' r', Encloses host n t s (j + u.cost) u r → Asks host j u r u' r' →
      Encloses host j u' r' m t' s' → ∀ v w, ¬ AsksAfter host j u r u' r' v w := by
  have hfatal : e.isCatchable = false := e.cause.isCatchable_eq_false_iff.2 he
  refine ⟨?_, fun j u r u' r' _ _ hin v w => ?_⟩
  · obtain ⟨k, hk⟩ := h.fatal hf hfatal
    exact ⟨k, _, _, hk, rfl, unwind_cause e σ k, unwind_store e σ k, unwind_scopes e σ k⟩
  · obtain ⟨k, hk⟩ := hin.fatal hf hfatal
    refine Asks.nothing_after hk ?_ v w
    rw [EvalError.isCatchable, unwind_cause]
    exact hfatal

/-- A name is declared twice inside of a `try` with a handler and a finalizer, in a function that is
called: the call fails with that error, the name stays declared once, and no scope was opened after
the block's. -/
theorem fatal_leaves_try_and_call :
    let twice : Stmt := .variables .let [.mk (.ident "x") none, .mk (.ident "x") none]
    let guarded : Stmt := .tries [twice] (some (.mk none [])) (some [])
    let f : Closure := ⟨some "f", .mk none [] (.block [guarded]) false false, 0, .arrow, .empty⟩
    let s : State := { store := { closures := #[f] }, scopes := #[{}] }
    let called := (s.entered "f").opened { parent := some 0 }
    let tried := called.opened { parent := some 1 }
    let declared := called.opened { parent := some 1, lets := .ofList [("x", .undefined)] }
    Encloses Host.none 4 (.call 0 .undefined []) s 2 (.stmt twice 2 []) tried ∧
      ∃ e' σ', Machine.perform Host.none 4 (.call 0 .undefined []) s = .failed e' σ' ∧
        e'.cause = .declaredTwice "x" ∧ σ'.store = s.store ∧ σ'.scopes = declared.scopes := by
  intro twice guarded f s called tried declared
  -- the chain of questions from the call to the statement that fails
  have toInvoke : Asks Host.none 3 (.call 0 .undefined []) s (.invoke f .undefined [])
      (s.entered "f") :=
    .of_endless (fun q h => Eval.framed_endless rfl h) nofun
  have toStmt : Asks Host.none 3 (.invoke f .undefined []) (s.entered "f")
      (.stmt guarded 1 []) called := by
    refine .of_endless (fun q h => ?_) nofun
    show ((q (.stmt guarded 1 []) >>= _) >>= _) called = _
    exact Run.bind_endless (Run.bind_endless h)
  have toBlock : Asks Host.none 2 (.stmt guarded 1 []) called (.body [twice] 2) tried :=
    .of_endless (fun q h => Run.recover_endless (Run.recover_endless h)) nofun
  have toPart : Asks Host.none 2 (.body [twice] 2) tried (.stmt twice 2 []) tried := by
    refine .of_endless (fun q h => ?_) nofun
    show (q (.stmt twice 2 []) >>= _) tried = _
    exact Run.bind_endless h
  have inside : Encloses Host.none 4 (.call 0 .undefined []) s 2 (.stmt twice 2 []) tried :=
    .step toInvoke (.step toStmt (.step toBlock (.step toPart .self)))
  have fails : Machine.perform Host.none 2 (.stmt twice 2 []) tried
      = .failed { cause := .declaredTwice "x" } declared := rfl
  obtain ⟨⟨k, e', σ', h, -, hc, hs, hσ⟩, -⟩ :=
    fatal_errors_pass_through inside fails (.declaredTwice "x")
  exact ⟨inside, e', σ', h, hc, hs, hσ⟩

end Estree
