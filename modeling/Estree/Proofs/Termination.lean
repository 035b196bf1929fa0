/-
Estree/Proofs/Termination.lean

Programs without unbounded loops, under a limit on running functions.

Such a program may call functions from anywhere, and go on calling after a call has been refused.
Still two things go down.  As long as no function is entered, what is evaluated gets smaller from
a node to its parts (`Safe.nodes`).  A body may be larger than the call that runs it, but no
function is larger than the program, and each one that is entered leaves room for one less
(`Safe.calls`).  So there is a budget, determined by the size of the program and the limit, that
is never used up.

The sizes of what is evaluated are bounded by a discipline (`Discipline.bounded`); that a level
keeps within a smaller bound than the node it is the level of is `Discipline.Below.admits`.
-/
import Estree.Proofs.Admitted
import Estree.Proofs.CallBalance
import Estree.Proofs.Hang
import Estree.Proofs.Level.Part
import Estree.Proofs.Tree.Admits

namespace Estree

/-! ### Programs without unbounded loops -/

/-- Whether a node by itself is anything but a loop whose rounds nothing in it bounds. -/
def Node.isBounded : Node → Bool
  | .stmt s => !s.isUnbounded
  | _ => true

/-- A program without `while`, `do … while` and `for`, in its functions and in what is never reached
too. -/
def Program.LoopFree (p : Program) : Prop := Every.stmtList Node.isBounded p.body = true

instance (p : Program) : Decidable p.LoopFree := inferInstanceAs (Decidable (_ = true))

theorem Grants.bounded : Grants Node.isBounded (fun _ => True) (fun _ => True) where
  receiver := trivial
  expr _ _ := trivial
  pattern _ _ := trivial
  function _ _ _ _ := trivial
  stray _ := trivial
  unsupported _ _ _ _ := trivial

theorem Grants.bounded_loops : ¬ Grants.bounded.discipline.loops := by
  rintro ⟨s, hs, hb⟩
  have hc := Every.check_stmt hb
  rw [Node.isBounded, hs] at hc
  cases hc

/-! ### Bounds -/

/-- A function without unbounded loops that is smaller than `most`. -/
def Function.Within (most : Nat) (f : Function) : Prop :=
  Every.function Node.isBounded f = true ∧ sizeOf f < most

namespace Discipline

/-- Nodes without unbounded loops that are smaller than `n`, and functions that are smaller than
`most`. -/
def bounded (most n : Nat) (enters parts : Prop) : Discipline where
  expr e := Every.expr Node.isBounded e = true ∧ sizeOf e < n
  stmt s _ := Every.stmt Node.isBounded s = true ∧ sizeOf s < n
  function := Function.Within most
  loops := False
  enters := enters
  parts := parts

variable {most n k : Nat} {enters parts : Prop} {t : Task}

theorem bounded_covers (host : Host) : (bounded most n enters parts).Covers host :=
  ⟨fun _ _ => trivial, fun _ => trivial, fun _ => trivial, fun _ _ _ _ _ _ _ => trivial⟩

/-- What is small enough is within the bounds. -/
theorem below_bounded (hn : k ≤ n) (hm : k ≤ most) :
    Grants.bounded.discipline.Below k (bounded most n enters parts) where
  expr h he := ⟨he, Nat.lt_of_lt_of_le h hn⟩
  stmt h hs := ⟨hs, Nat.lt_of_lt_of_le h hn⟩
  function h hf := ⟨hf, Nat.lt_of_lt_of_le h hm⟩
  jumps := rfl
  bodyJumps := rfl
  fails _ _ := trivial
  names _ := trivial
  deletes _ := trivial
  loops h := Grants.bounded_loops h

theorem admits_bounded (hn : t.size ≤ n) (hm : t.size ≤ most)
    (hc : ∀ id this args, t ≠ .call id this args) (hp : t.cost = 1 → parts)
    (ht : Grants.bounded.discipline.Admits t) : (bounded most n enters parts).Admits t :=
  (below_bounded hn hm).admits hc (fun h _ => hp h) (Nat.le_refl _) ht

/-- With all that a run needs, what is within the bounds can be done within them. -/
theorem bounded_admits (ht : (bounded most most True True).asks t) :
    (bounded most most True True).Admits t := by
  cases t with
  | expr e scope =>
    have hm : sizeOf e ≤ most := Nat.le_of_lt ht.2
    exact admits_bounded hm hm nofun (fun _ => trivial) (Grants.bounded.admitsExpr ht.1)
  | stmt s scope labels =>
    have hm : sizeOf s ≤ most := Nat.le_of_lt ht.2
    exact admits_bounded hm hm nofun (fun _ => trivial) (Grants.bounded.admitsStmt ht.1 labels)
  | invoke c this args =>
    have hm : sizeOf c.node ≤ most := Nat.le_of_lt ht.2
    exact admits_bounded hm hm nofun (fun _ => trivial) (Grants.bounded.admitsCall ht.1)
  | call id this args => trivial
  | _ => exact ht

/-- Smaller bounds are within larger ones. -/
theorem bounded_asks (hn : n ≤ most) (ht : (bounded most n enters parts).asks t) :
    (bounded most most True True).asks t := by
  have below : (bounded most n enters parts).Below (t.size + 1) (bounded most most True True) :=
    ⟨fun _ h => ⟨h.1, Nat.lt_of_lt_of_le h.2 hn⟩, fun _ h => ⟨h.1, Nat.lt_of_lt_of_le h.2 hn⟩,
      fun _ => id, rfl, rfl, fun _ => id, id, id, id⟩
  exact below.asks (Nat.lt_succ_self _) ht

end Discipline

/-- Expressions and statements. -/
def Task.IsNode : Task → Prop
  | .expr _ _ | .stmt _ _ _ => True
  | _ => False

namespace Task.IsNode

variable {t : Task} (h : t.IsNode)

include h

theorem cost : t.cost = 1 := by
  cases t <;> first | rfl | cases h

theorem ne_spent : t ≠ .spent := by
  rintro rfl
  exact h

theorem ne_call (id : ClosureId) (this : Value) (args : List Value) : t ≠ .call id this args := by
  rintro rfl
  exact h

end Task.IsNode

/-! ### Safe tasks -/

section

variable {host : Host} (hk : host.KeepsFunctions) {most n d k m : Nat} {enters parts : Prop}
variable {t : Task}

/-- The law that only functions within the bound are made. -/
def Law.bounded (most n : Nat) (enters parts : Prop) : Law host (.bounded most n enters parts) :=
  .admitted hk (Discipline.bounded_covers host)

theorem Law.bounded_keeps (hn : n ≤ most) (m : Nat) :
    (Law.bounded hk most n enters parts).Keeps (Machine.perform host m) := by
  intro t s ha hi
  have h := (Law.bounded hk most most True True).perform m t s
    (fun _ => Discipline.bounded_admits) (Discipline.bounded_asks hn ha) hi
  exact h

/-- With a limit on running functions, at most `k` more may be entered. -/
def CallStack.HasRoom (d k : Nat) (c : CallStack) : Prop :=
  c.limit = some d ∧ d ≤ c.depth + k

/-- A task that does not use up its budget: where functions are within the bound, and at most `k`
more may be entered, it returns unless it hangs. -/
def Safe (host : Host) (most d k n : Nat) (t : Task) : Prop :=
  ∀ s : State, s.FunctionsIn (Function.Within most) → s.calls.HasRoom d k →
    Machine.perform host n t s = .endless → Hangs host n (fun p => p t) s

namespace Safe

/-- A call is safe if the inside is with room for one function less. -/
theorem call {id : ClosureId} {this : Value} {args : List Value}
    (inside : ∀ c : Closure, Function.Within most c.node → ∀ j, k = j + 1 →
      Safe host most d j m (.invoke c this args)) :
    Safe host most d k (m + 1) (.call id this args) := by
  intro s hf hc he
  rw [Machine.perform_call] at he
  obtain ⟨hs, ho⟩ := Eval.of_framed_endless he
  obtain ⟨hl, hd⟩ := hc
  have room : s.calls.depth < d := by
    rw [Bool.eq_false_iff, Ne, CallStack.isFull_iff hl] at hs
    omega
  obtain ⟨j, rfl⟩ : ∃ j, k = j + 1 := ⟨k - 1, by omega⟩
  let s₁ := s.entered (s.store.closure id).displayName
  have deeper : s₁.calls.depth = s.calls.depth + 1 := Array.size_push _
  have inner := inside (s.store.closure id) (hf id) j rfl s₁ hf ⟨hl, by omega⟩ ho
  exact .task (t := .call id this args) nofun (.next
    (F := fun _ => Run.read fun s => s.store.closure id)
    (G := fun c p => Eval.framed c.displayName (p (.invoke c this args)))
    (fun _ _ => rfl) rfl (.inside hs inner))

/-- The budget with which calls are safe that may enter at most `k` functions. -/
def callBudget (most k : Nat) : Nat := k * (most + 1) + 1

theorem callBudget_succ (most k : Nat) :
    callBudget most (k + 1) = callBudget most k + most + 1 := by
  rw [callBudget, callBudget, Nat.succ_mul]
  omega

/-- All calls are safe with that budget. -/
def Calls (host : Host) (most d k : Nat) : Prop :=
  ∀ m id this args, callBudget most k ≤ m → Safe host most d k m (.call id this args)

/-- All expressions and statements smaller than `n` are safe with a budget of `n` more. -/
def Nodes (host : Host) (most d k n : Nat) : Prop :=
  ∀ m t, t.IsNode → Grants.bounded.discipline.asks t → t.size < n → callBudget most k + n ≤ m →
    Safe host most d k m t

/-- What a level within the bounds may ask for is safe. -/
theorem asked (calls : Calls host most d k) (nodes : Nodes host most d k n)
    (hm : callBudget most k + n ≤ m)
    (free : parts → ∀ t, t.cost = 0 → (Discipline.bounded most n False False).Admits t →
      Safe host most d k m t)
    (ha : (Discipline.bounded most n False parts).asks t)
    (ho : (Discipline.bounded most n False parts).opens t) : Safe host most d k m t := by
  cases t with
  | expr e scope => exact nodes m (.expr e scope) trivial ha.1 ha.2 hm
  | stmt s scope labels => exact nodes m (.stmt s scope labels) trivial ha.1 ha.2 hm
  | call id this args => exact calls m id this args (by omega)
  | spent => exact ha.elim
  | invoke c this args => exact ho.elim
  | _ => exact free ho _ rfl ha

include hk

/-- A task is safe if all tasks are that its level may ask for. -/
theorem level (hn : n ≤ most) (ht : t ≠ .spent)
    (hA : (Discipline.bounded most n False parts).Admits t)
    (asked : ∀ t', (Discipline.bounded most n False parts).asks t' →
      (Discipline.bounded most n False parts).opens t' → Safe host most d k m t') :
    Safe host most d k (m + t.cost) t := by
  intro s hf hc he
  let L := (Law.bounded hk most n False parts).counting (CallStack.HasRoom d k) False.elim
  have hp : L.Keeps (Machine.perform host m) := (Law.bounded_keeps hk hn m).counting
  refine .task ht ((Abides.rule hA).hangs id hp ?_ ⟨hf, hc⟩ ?_)
  · exact fun t' s' ha ho hi => asked t' ha ho s' hi.1 hi.2
  · exact (congrFun (Machine.perform_eq_rule host m t) s).symm.trans he

/-- What spends nothing of a budget is safe if the nodes in it are. -/
theorem free (hn : n ≤ most) (calls : Calls host most d k) (nodes : Nodes host most d k n)
    (hm : callBudget most k + n ≤ m) (h0 : t.cost = 0)
    (hA : (Discipline.bounded most n False False).Admits t) : Safe host most d k m t := by
  have ht : t ≠ .spent := by
    rintro rfl
    cases h0
  have h := level hk hn ht hA fun t' ha ho => asked calls nodes hm False.elim ha ho
  rwa [h0] at h

/-- Nodes within the bound are safe. -/
theorem nodes (calls : Calls host most d k) (n : Nat) (hn : n ≤ most) : Nodes host most d k n := by
  induction n with
  | zero => exact fun m t _ _ hs => absurd hs (Nat.not_lt_zero _)
  | succ n ih =>
    intro m t ht ha hs hm
    have hn : n ≤ most := Nat.le_of_succ_le hn
    obtain ⟨m, rfl⟩ : ∃ m', m = m' + 1 := ⟨m - 1, by omega⟩
    have hm : callBudget most k + n ≤ m := by omega
    -- what the level asks for is smaller, or spends nothing by itself
    have asks (t' : Task) (ha : (Discipline.bounded most n False True).asks t')
        (ho : (Discipline.bounded most n False True).opens t') : Safe host most d k m t' :=
      asked calls (ih hn) hm (fun _ _ h0 hA => free hk hn calls (ih hn) hm h0 hA) ha ho
    have hA : (Discipline.bounded most n False True).Admits t :=
      Discipline.admits_bounded (Nat.le_of_lt_succ hs) (by omega) ht.ne_call (fun _ => trivial)
        (Grants.bounded.admits ha)
    have h := level hk hn ht.ne_spent hA asks
    rwa [ht.cost] at h

/-- Calls are safe with a budget that depends on how many functions may be entered. -/
theorem calls (k : Nat) : Calls host most d k := by
  induction k with
  | zero =>
    intro m id this args hm
    have hpos : 0 < m := Nat.lt_of_lt_of_le (Nat.succ_pos _) hm
    obtain ⟨m, rfl⟩ : ∃ m', m = m' + 1 := ⟨m - 1, by omega⟩
    -- there is no room, so that nothing is entered
    refine call fun c _ j hj => ?_
    cases hj
  | succ k ih =>
    intro m id this args hm
    rw [callBudget_succ] at hm
    obtain ⟨m, rfl⟩ : ∃ m', m = m' + 1 := ⟨m - 1, by omega⟩
    refine call fun c hc j hj => ?_
    obtain rfl : k = j := Nat.succ.inj hj
    -- inside, all nodes are as small as the function, and calls have room for one less
    have hs : sizeOf c.node ≤ most := Nat.le_of_lt hc.2
    have inside : Nodes host most d k most := nodes hk ih most (Nat.le_refl most)
    refine free hk (Nat.le_refl most) ih inside (by omega) rfl ?_
    exact Discipline.admits_bounded hs hs nofun nofun (Grants.bounded.admitsCall hc.1)

end Safe

end

/-! ### Programs -/

/-- A bound for the functions of a program, and for the one that is read where there is none. -/
noncomputable def Program.bound (p : Program) : Nat := sizeOf p.body + 8

/-- A budget for runs of a program in which at most `d` functions run at a time: a fixed amount for
each of them, and once for the program itself. -/
noncomputable def Program.budget (p : Program) (d : Nat) : Nat := (d + 1) * (p.bound + 1)

theorem Program.budget_eq (p : Program) (d : Nat) :
    p.budget d = Safe.callBudget p.bound d + p.bound := by
  rw [Program.budget, Safe.callBudget, Nat.succ_mul]
  omega

/-- **A limit on running functions makes programs without unbounded loops end.**  Take a program
without `while`, `do … while` and `for`, and an interpreter that was built with a limit over a
store without functions of the program.  With a budget that is large enough for the size of the
program and the limit, the run ends with a value or an error, unless it hangs: in a conversion to
text or in a function of the embedder. -/
theorem loop_free_programs_end {host : Host} (hk : host.KeepsFunctions) {config : Config} {d : Nat}
    (hd : config.maxCallDepth = some d) {store : Store} (hc : store.closures = #[])
    {i : Interpreter} {s₀ : State} (hb : Interpreter.build config store = .done i s₀) {p : Program}
    (hp : p.LoopFree) {n : Nat} (hn : p.budget d ≤ n) :
    (∃ s, (Interpreter.runProgram host n i.module p s₀).Ends s) ↔
      ¬ Hangs host n (fun q => q (.program i.module p)) s₀ := by
  have run : Interpreter.runProgram host n i.module p s₀
      = Machine.perform host n (.program i.module p) s₀ := rfl
  have functions : s₀.FunctionsIn (Function.Within p.bound) := by
    refine (Law.bounded hk p.bound p.bound True True).build (fun _ => trivial) hb ?_
    refine State.FunctionsIn.of_empty hc ⟨rfl, ?_⟩
    show sizeOf (Function.mk none [] (.block []) false false) < sizeOf p.body + 8
    simp
  -- the stack is empty, so the whole limit is left
  have room : s₀.calls.HasRoom d d := by
    rw [Interpreter.calls_of_build hb, hd]
    exact ⟨rfl, Nat.le_add_left _ _⟩
  -- the budget is for the program and, below it, for each call that the limit allows
  have safe : Safe host p.bound d d n (.program i.module p) := by
    have hs : sizeOf p.body ≤ p.bound := Nat.le_add_right _ _
    rw [p.budget_eq] at hn
    have calls : Safe.Calls host p.bound d d := Safe.calls hk d
    have nodes := Safe.nodes hk calls p.bound (Nat.le_refl _)
    refine Safe.free hk (Nat.le_refl _) calls nodes hn rfl ?_
    exact Discipline.admits_bounded hs hs nofun nofun
      (Grants.bounded.admits (Grants.bounded.asksProgram hp i.module))
  rw [run]
  constructor
  · rintro ⟨s, ⟨a, h⟩ | ⟨e, h⟩⟩ hh
    · cases h.symm.trans hh.endless
    · cases h.symm.trans hh.endless
  · intro hh
    cases h : Machine.perform host n (.program i.module p) s₀ with
    | done a s => exact ⟨s, .inl ⟨a, rfl⟩⟩
    | failed e s => exact ⟨s, .inr ⟨e, rfl⟩⟩
    | endless => exact absurd (safe s₀ functions room h) hh

/-- A function that calls itself, and when that is refused calls itself once more. -/
theorem refused_recursion_ends :
    let again : List Stmt := [.expression (.call (.ident "f") [])]
    let f : Function := .mk (some "f") [] (.block [.tries again (some (.mk none again)) none])
      false false
    let p : Program := ⟨.function f :: again, .script⟩
    p.LoopFree ∧ p.budget 1 ≤ 1000 ∧
      ∃ i s₀, Interpreter.build { maxCallDepth := some 1 } {} = .done i s₀ ∧
        (∃ s, (Interpreter.runProgram Host.none 1000 i.module p s₀).Ends s) ∧
        ¬ Hangs Host.none 1000 (fun q => q (.program i.module p)) s₀ := by
  intro again f p
  have hp : p.LoopFree := by decide
  have hn : p.budget 1 ≤ 1000 := by decide +kernel
  obtain ⟨i, s₀, hb, hends⟩ : ∃ i s₀, Interpreter.build { maxCallDepth := some 1 } {} = .done i s₀ ∧
      ∃ s, (Interpreter.runProgram Host.none 1000 i.module p s₀).Ends s := by
    dsimp only [p, f, again]
    exact ⟨_, _, rfl, _, .inr ⟨_, rfl⟩⟩
  exact ⟨hp, hn, i, s₀, hb, hends,
    (loop_free_programs_end Host.none_keepsFunctions rfl rfl hb hp hn).1 hends⟩

end Estree
