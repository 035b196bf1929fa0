/-
Estree/Proofs/Pairing/Loop.lean

A `while` as a `for` that has a test alone.

Such a `for` makes a scope for its header and copies it before each round, where a `while` makes
none: it tests in the scope of the loop itself.  These scopes are spare.  Nothing is ever declared
in them, since the body runs in another one below, so that they bind nothing, and whatever is
looked up, assigned or deleted from below is what it is from the scope of the loop.  Rounds of the
two loops therefore mirror each other (`Pairing.Mirrors.testedRounds`), although the chains of the
scopes that the bodies make differ in length.

The two runs begin in the same state, which is paired with itself (`WellScoped.paired`).  That what
there was before is the same afterwards and not merely paired takes more: both runs keep the chains
of scopes and the functions that there were (`PairedFrom.sameSince`).
-/
import Estree.Proofs.Iteration
import Estree.Proofs.Pairing.Statement

namespace Estree

/-! ### Rounds side by side -/

/-- A round of a `for` that has a test alone. -/
theorem Eval.forRounds_test (ev : Evaluator) (test : Expr) (body : Stmt) (labels : List String)
    (n : Nat) (round : ScopeId) (last : Value) :
    forRounds ev (some test) none body labels (n + 1) round last =
      (do
        let t ← ev.expr test round
        if t.truthy then
          let inner ← newChild round
          let completion ← loopBody ev body inner
          match LoopStep.of labels last completion with
          | .next last =>
            let next ← newFork round
            forRounds ev (some test) none body labels n next last
          | .stop => pure (.normal last)
          | .pass signal => pure signal
        else pure (.normal last)) :=
  -- the test is run first, and then it is asked for its truth
  bind_assoc (ev.expr test round) (fun t => pure t.truthy) _

namespace Pairing.Mirrors

variable {host : Host} {ev : Evaluator} (hev : ev.Faithful host) {w : Pairing} {i j k : ScopeId}

include hev

/-- Rounds of a `while` in a scope, and rounds of a `for` that tests in a spare scope below. -/
theorem testedRounds (ho : w.own i k) (h : w.known i j) (hj : j ≠ k) (test : Expr) (body : Stmt)
    (labels : List String) (n : Nat) (last : Value) :
    w.Mirrors (Eval.whileRounds ev test body i labels n last)
      (Eval.forRounds ev (some test) none body labels n j last) := by
  induction n generalizing w j last with
  | zero => exact hev.spent w
  | succ n ih =>
    rw [Eval.forRounds_test]
    refine .bind (hev.expr h test) fun t => ?_
    split
    · refine .child h fun {w₁ _ _} hw h' => .bind (loopBody hev h' body) fun c => ?_
      refine afterRound fun v => ?_
      -- the copy of a spare scope is spare
      exact .spareFork (hw.own ho) (hw.known h) hj fun hw₁ h hj => ih (hw₁.own (hw.own ho)) h hj v
    · exact .pure _

/-- A `while`, and a `for` that has a test alone. -/
theorem testedLoop (ho : w.own i k) (test : Expr) (body : Stmt) (labels : List String) :
    w.Mirrors (Eval.whileRounds ev test body i labels ev.rounds .undefined)
      (Eval.forLoop ev none (some test) none body k labels) := by
  refine .spareChild ho (w.own_known ho) fun {w₁ header} hw h hj => ?_
  -- the header is empty
  show w₁.Mirrors _ (Eval.newFork header >>= fun round =>
    Eval.forRounds ev (some test) none body labels ev.rounds round .undefined)
  refine .spareFork (hw.own ho) h hj fun hw₁ h hj => ?_
  exact testedRounds hev (hw₁.own (hw.own ho)) h hj test body labels _ _

end Pairing.Mirrors

/-! ### Two runs from one state -/

/-- Every scope stands for itself. -/
def Pairing.identity (n : Nat) : Pairing where
  known i j := i = j ∧ i < n
  own i j := i = j ∧ i < n
  own_known h := h

/-- A state is paired with itself. -/
theorem WellScoped.paired {Γ : Reach} {s : State} (h : WellScoped Γ s) :
    Paired (.identity s.scopes.size) s s where
  scopes :=
    -- every scope is paired with itself
    { founded := h.rooted.founded
      founded' := h.rooted.founded
      root := ⟨rfl, h.rooted.nonempty⟩
      lt := by
        rintro i _ ⟨rfl, hi⟩
        exact ⟨hi, hi⟩
      same := by
        rintro i _ ⟨rfl, -⟩
        rfl
      top := by
        rintro i _ ⟨rfl, -⟩ hi
        exact hi
      parent := by
        rintro i _ p ⟨rfl, hi⟩ hp
        exact ⟨p, hp, rfl, Nat.lt_trans (h.rooted.founded hp) hi⟩
      between := .inl
      left := by
        rintro i _ _ ⟨rfl, -⟩ ⟨rfl, -⟩
        rfl
      right := by
        rintro i _ _ ⟨rfl, -⟩ ⟨rfl, -⟩
        rfl }
  store := rfl
  made id := ⟨rfl, h.made id⟩
  calls := rfl

/-- What two runs from one state have left behind, if nothing tells it apart.  What there was before
is the same: scopes with their bindings and parents, functions, arrays and objects; and so is the
console.  Functions that are new are the same but for the scopes that they were made in.  These
stand for each other, where the chains of the second run may have spare scopes between. -/
structure SameSince (before s s' : State) : Prop where
  bindings : ∀ {id}, id < before.scopes.size → s'.scopes.scope id = s.scopes.scope id
  functions : ∀ {id}, id < before.store.closures.size → s'.store.closure id = s.store.closure id
  store : s'.store.unscoped = s.store.unscoped
  paired : ∃ w : Pairing, (∀ {id}, id < before.scopes.size → w.own id id) ∧ Paired w s s'

/-- Runs that keep the chains of scopes and the functions that there were. -/
theorem PairedFrom.sameSince {before s s' : State}
    (h : PairedFrom (.identity before.scopes.size) s s')
    (hs : before.scopes.KeepsChains s.scopes ∧ FunctionsKept before.store s.store)
    (hs' : before.scopes.KeepsChains s'.scopes ∧ FunctionsKept before.store s'.store) :
    SameSince before s s' := by
  obtain ⟨w, hw, h⟩ := h
  have own {id : ScopeId} (hid : id < before.scopes.size) : w.own id id := hw.own ⟨rfl, hid⟩
  refine ⟨fun {id} hid => ?_, fun {id} hid => ?_, h.store, w, own, h⟩
  · rw [h.scopes.same (own hid), hs'.1.parent hid, ← hs.1.parent hid]
    rfl
  · have hscope : (s'.store.closure id).scope = (s.store.closure id).scope :=
      (congrArg Closure.scope ((hs'.2.core hid).trans (hs.2.core hid).symm) :)
    refine Closure.eq_of_unscoped ?_ hscope
    rw [← Store.closure_unscoped, ← Store.closure_unscoped, h.store]

section loops

variable {host : Host} (hk : host.KeepsFunctions) (hh : host.IgnoresScopes)
variable {before s s' : State} {scope : ScopeId}

include hk hh

/-- **A `while` is a `for` with a test alone.**  A `while` does what a `for` with the same test and
body does that has neither header nor update.  With every budget both come to the same completion,
fail with the same error, or are both endless; and what they leave behind is the same. -/
theorem while_is_for_with_test (hr : Reachable host s) (hs : scope < s.scopes.size) (test : Expr)
    (body : Stmt) (labels : List String) (n : Nat) :
    (Machine.execStmt host n (.while test body) scope labels s).Alike (SameSince s) (fun _ => True)
      (Machine.execStmt host n (.for none (some test) none body) scope labels s) := by
  have hw : WellScoped (.owning scope) s :=
    (hr.wellScoped hk).task (t := .stmt .empty scope []) fun _ he => he ▸ hs
  have kept (stmt : Stmt) : (Machine.execStmt host n stmt scope labels s).Leaves fun s' =>
      s.scopes.KeepsChains s'.scopes ∧ FunctionsKept s.store s'.store :=
    ((hw.perform hk n (t := .stmt stmt scope labels)).mono fun _ h => h.2).and
      (functions_kept hk n (.stmt stmt scope labels) s)
  have hm : (Machine.execStmt host n (.while test body) scope labels s).Alike
      (PairedFrom (.identity s.scopes.size)) (fun _ => True)
      (Machine.execStmt host n (.for none (some test) none body) scope labels s) := by
    cases n with
    | zero => exact .endless
    | succ n =>
      exact Pairing.Mirrors.testedLoop (w := .identity s.scopes.size) (Machine.faithful hk hh n)
        ⟨rfl, hs⟩ test body labels _ s s (.refl _) hw.paired
  refine (hm.leaving (kept _) (kept _)).mono ?_ fun _ => id
  rintro t t' ⟨h, ht, ht'⟩
  exact h.sameSince ht ht'

end loops

/-- A loop whose round makes a function.  After the `for` there is a spare scope between that of the
function and the root, and the function finds the flag beyond it that has ended the loop. -/
theorem loop_that_makes_a_function :
    let flag : Expr := .ident "i"
    let define : Stmt :=
      .variables .let [.mk (.ident "i") (some (.literal { value := .bool true }))]
    let body : Stmt := .block [
      .expression (.assign .replace (.ident "f")
        (.arrow (.mk none [] (.concise flag) false false))),
      .expression (.assign .replace (.ident "i") (.literal { value := .bool false }))]
    ∃ i s₀ s c s₁ s₂, Interpreter.build {} {} = .done i s₀ ∧
      (Machine.perform Host.none 9 (.stmt define rootScope []) s₀).Ends s ∧
      Machine.execStmt Host.none 9 (.while flag body) rootScope [] s = .done c s₁ ∧
      Machine.execStmt Host.none 9 (.for none (some flag) none body) rootScope [] s = .done c s₂ ∧
      s₁.scopes.Parent (s₁.store.closure 0).scope rootScope ∧
      ¬ s₂.scopes.Parent (s₂.store.closure 0).scope rootScope ∧
      s₂.scopes.lookup (s₂.store.closure 0).scope "i" = some (.bool false) ∧
      SameSince s s₁ s₂ := by
  intro flag define body
  -- both loops run, and their closures hang at different depths
  obtain ⟨i, s₀, s, c, s₁, s₂, hbuild, hs, hwhile, hfor, hp, hp', hi⟩ : ∃ i s₀ s c s₁ s₂,
      Interpreter.build {} {} = .done i s₀ ∧
      (Machine.perform Host.none 9 (.stmt define rootScope []) s₀).Ends s ∧
      Machine.execStmt Host.none 9 (.while flag body) rootScope [] s = .done c s₁ ∧
      Machine.execStmt Host.none 9 (.for none (some flag) none body) rootScope [] s = .done c s₂ ∧
      s₁.scopes.Parent (s₁.store.closure 0).scope rootScope ∧
      s₂.scopes.Parent (s₂.store.closure 0).scope 2 ∧
      s₂.scopes.lookup (s₂.store.closure 0).scope "i" = some (.bool false) :=
    ⟨_, _, _, _, _, _, rfl, .inl ⟨_, rfl⟩, rfl, rfl, rfl, rfl, rfl⟩
  have hk := Host.none_keepsFunctions
  have built : Reachable Host.none s₀ := .of_build hbuild
  have hr : Reachable Host.none s := built.performed (built.existing hk fun _ => id) hs
  have h := while_is_for_with_test hk Host.none_ignoresScopes hr
    (hr.wellScoped hk).rooted.nonempty flag body [] 9
  rw [hwhile, hfor] at h
  refine ⟨i, s₀, s, c, s₁, s₂, hbuild, hs, hwhile, hfor, hp, fun h => ?_, hi, ?_⟩
  · exact nomatch hp'.symm.trans h
  · cases h with
    | done _ h => exact h

end Estree
