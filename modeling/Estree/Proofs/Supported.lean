/-
Estree/Proofs/Supported.lean

Supported programs run into nothing that is not supported.

Where the evaluator gives up on a node depends on where the node stands: a pattern with a default
is a parameter but no assignment target, a literal is a key unless its value cannot be
represented.  `Node.isSupported` states this once for each kind of node, and the condition is
exactly strong enough for the rules (`Grants.supported`).  That closures come from supported code
is the invariant of `Law.admitted`.

Where the causes of a run are concerned this is all: an evaluation fails as unsupported only at a
node that is not supported, and a supported program has none.
-/
import Estree.Proofs.Admitted
import Estree.Proofs.Tree.Admits

namespace Estree

/-- A program all of whose nodes are supported, in its functions and in what is never reached
too. -/
def Program.Supported (p : Program) : Prop := Every.stmtList Node.isSupported p.body = true

instance (p : Program) : Decidable p.Supported := inferInstanceAs (Decidable (_ = true))

/-- Failures for a node that is not supported. -/
def Cause.IsUnsupported : Cause → Prop
  | .unsupported _ => True
  | _ => False

/-- The embedder's functions do not fail for a node that is not supported. -/
def Host.NeverUnsupported (host : Host) : Prop :=
  ∀ id this args s e s', host.call id this args s = .failed e s' → ¬ e.cause.IsUnsupported

/-- Evaluating trees of supported nodes never takes one that is not. -/
theorem Grants.supported :
    Grants Node.isSupported (fun _ => True) fun cause => ¬ cause.IsUnsupported where
  receiver := trivial
  expr _ _ := trivial
  pattern _ _ := trivial
  function _ _ _ _ := trivial
  stray j := by
    cases j <;> exact id
  unsupported x hx hn := by
    rw [hx] at hn
    cases hn

theorem Grants.supported_covers {host : Host} (hf : host.NeverUnsupported) :
    Grants.supported.discipline.Covers host where
  ordinary cause h := by
    cases cause <;> first | exact id | cases h
  scope e := by
    cases e <;> exact id
  depth _ := id
  host := hf

/-- What an embedder may ask for: programs of supported nodes, and calls of any value. -/
def SupportedTask : Task → Prop
  | .program _ p => p.Supported
  | .apply _ _ _ | .construct _ _ => True
  | _ => False

theorem SupportedTask.asks {t : Task} (h : SupportedTask t) :
    Grants.supported.discipline.asks t := by
  cases t with
  | program module p => exact Grants.supported.asksProgram h module
  | apply callee this args => trivial
  | construct callee args => trivial
  | _ => cases h

/-- **Supported programs run into nothing that is not supported.**  On an interpreter that was built
over a store without functions of the program, and on which only supported programs have been run
and values have been called, nothing fails for an unsupported node: neither another such program or
call nor any evaluation within it. -/
theorem supported_programs_never_fail_as_unsupported {host : Host} (hk : host.KeepsFunctions)
    (hf : host.NeverUnsupported) {config : Config} {store : Store} (hc : store.closures = #[])
    {i : Interpreter} {s₀ s : State} (hb : Interpreter.build config store = .done i s₀)
    (hs : Session host (fun _ t _ => SupportedTask t) s₀ s) {n : Nat} {t : Task}
    (ht : SupportedTask t) {m : Nat} {t' : Task} {s' : State}
    (he : Encloses host n t s m t' s') :
    ∀ e σ, Machine.perform host m t' s' = .failed e σ → ∀ kind, e.cause ≠ .unsupported kind := by
  intro e σ hfail kind hkind
  refine Discipline.fails_of_enclosed hk (Grants.supported_covers hf)
    (fun _ => Grants.supported.admits) (fun _ => trivial) rfl (fun _ => SupportedTask.asks) hc hb
    hs ht he hfail ?_
  rw [hkind]
  trivial

/-- A function with a rest parameter that reads a property of the undefined. -/
theorem missing_argument_is_no_unsupported_node :
    let f : Function := .mk (some "f") [.ident "a", .rest (.ident "more")]
      (.block [.returns (some (.member (.ident "a") (.ident "x") false))]) false false
    let p : Program := ⟨[.expression (.call (.ident "f") []), .function f], .script⟩
    ∃ i s₀ e σ, Interpreter.build {} {} = .done i s₀ ∧
      Machine.perform Host.none 9 (.program none p) s₀ = .failed e σ ∧
      ∀ kind, e.cause ≠ .unsupported kind := by
  intro f p
  obtain ⟨i, s₀, e, σ, hbuild, hfail⟩ : ∃ i s₀ e σ, Interpreter.build {} {} = .done i s₀ ∧
      Machine.perform Host.none 9 (.program none p) s₀ = .failed e σ := by
    dsimp only [p, f]
    exact ⟨_, _, _, _, rfl, rfl⟩
  have hf : Host.none.NeverUnsupported := by
    intro id this args s e s' h
    cases h
  have hp : SupportedTask (.program none p) := by
    show p.Supported
    decide
  exact ⟨i, s₀, e, σ, hbuild, hfail,
    supported_programs_never_fail_as_unsupported Host.none_keepsFunctions hf rfl hbuild .start hp
      .self e σ hfail⟩

end Estree
