import NandMachine.Proofs.Machine.Limited

/-!
# Operations

A host works with a machine by operations: it takes single steps, lets the machine run, fetches
nibbles, resets the machine or writes to its space. The outcome of an operation is an answer, the
instructions that were executed on the way, and the machine and the journal as they are left. A run
under a flag has an outcome only if it ends; the host says how often it looks at the flag.

The operations that take steps have one thing in common, which `Ends` says: they are a chain of
steps, alone or with a step behind it that faults.

## Key results

- `ends_of_perform`: every operation that takes steps is a chain of them up to its end or its fault
- `count_of_perform`: the numbers that runs return are those of the instructions executed
- `performAll_concat`: the last of some operations works on what the others leave
-/

namespace NandMachine

/-- What a host can ask of a machine. -/
inductive Operation : Type 1
  | step
  /-- A run that looks at the flag, and then again no more than a number of times. -/
  | run {σ : Type} (host : Host σ) (flag : σ) (again : Nat)
  | runLimited (limit : UInt64)
  | fetch
  | reset
  | write (a : Address) (n : Nibble)

/-- The operations that take steps. -/
inductive Operation.TakesSteps : Operation → Prop
  | step : TakesSteps .step
  | run {σ : Type} (host : Host σ) (flag : σ) (again : Nat) : TakesSteps (.run host flag again)
  | runLimited (limit : UInt64) : TakesSteps (.runLimited limit)

/-- What an operation returns. -/
inductive Answer
  | stepped (result : Except Fault Instruction)
  /-- From runs of both kinds: a number of instructions, or the fault that ended the run. -/
  | ran (result : Except Fault UInt64)
  | fetched (n : Nibble)
  | restarted
  | written

/-- The fault that an operation reports. -/
def Answer.fault? : Answer → Option Fault
  | stepped (.error f) | ran (.error f) => some f
  | stepped (.ok _) | ran (.ok _) | fetched _ | restarted | written => none

/-- What comes of an operation. -/
structure Outcome where
  answer : Answer
  /-- The instructions that were executed to their end, in this order. -/
  executed : List Instruction
  machine : Machine
  journal : Journal

namespace Machine

/-! ## Performing operations -/

/-- The instructions that a number of steps execute in front of the first fault. -/
def executedFor : Nat → Machine → List Instruction
  | 0, _ => []
  | n + 1, m =>
    match m.step.result with
    | .error _ => []
    | .ok i => i :: executedFor n m.step.machine

/-- No more instructions are executed than there are steps. -/
theorem length_executedFor_le (n : Nat) (m : Machine) : (executedFor n m).length ≤ n := by
  induction n generalizing m with
  | zero => exact Nat.le_refl 0
  | succ n ih =>
    rw [executedFor]
    split
    · exact Nat.zero_le _
    · exact Nat.succ_le_succ (ih _)

/-- The instructions that are executed in front of the first fault and while the flag is down. -/
def executedWhile {σ : Type} (host : Host σ) : Nat → σ → Machine → List Instruction
  | 0, _, _ => []
  | checks + 1, flag, m =>
    if host.raised flag then []
    else
      match m.step.result with
      | .error _ => []
      | .ok i => i :: executedWhile host checks (host.observe flag m.step.events) m.step.machine

/-- What comes of an operation; nothing if it is a run that has not ended after its last check. -/
def perform (m : Machine) (j : Journal) : Operation → Option Outcome
  | .step => some ⟨.stepped m.step.result, executedFor 1 m, m.step.machine, j.add m.step.events⟩
  | .run host flag again =>
    (m.run host (again + 1) flag j).map fun r =>
      ⟨.ran r.result, executedWhile host (again + 1) flag m, r.machine, r.journal⟩
  | .runLimited limit =>
    let r := m.runLimited limit j
    some ⟨.ran r.result, executedFor (m.budget limit) m, r.machine, r.journal⟩
  -- The other operations execute nothing.
  | .fetch => some ⟨.fetched m.fetch.1, [], m.fetch.2, j.add m.fetchEvents⟩
  | .reset => some ⟨.restarted, [], m.reset, j⟩
  | .write a n =>
    some ⟨.written, [], { m with space := m.space.write a n }, j.add (m.space.writeEvents a n)⟩

/-- What comes of operations in a row, with the machine and the journal at the end. -/
def performAll : List Operation → Machine → Journal → Option (List Outcome × Machine × Journal)
  | [], m, j => some ([], m, j)
  | op :: ops, m, j =>
    match m.perform j op with
    | none => none
    | some o => (performAll ops o.machine o.journal).map fun r => (o :: r.1, r.2)

theorem performAll_cons {op : Operation} {ops : List Operation} {m : Machine} {j : Journal}
    {o : Outcome} (h : m.perform j op = some o) :
    performAll (op :: ops) m j =
      (performAll ops o.machine o.journal).map fun r => (o :: r.1, r.2) := by
  rw [performAll, h]

/-- The last of some operations works on what the others leave. -/
theorem performAll_concat {ops : List Operation} {op : Operation} {m m' : Machine} {j j' : Journal}
    {os : List Outcome} (h : performAll (ops ++ [op]) m j = some (os, m', j')) :
    ∃ before o m₁ j₁, performAll ops m j = some (before, m₁, j₁) ∧ m₁.perform j₁ op = some o ∧
      os = before ++ [o] ∧ m' = o.machine ∧ j' = o.journal := by
  -- Operations are performed from the front, so the last one is reached by induction.
  induction ops generalizing m j os with
  | nil =>
    rw [List.nil_append] at h
    cases ho : m.perform j op with
    | none => simp [performAll, ho] at h
    | some o =>
      rw [performAll_cons ho] at h
      simp only [performAll, Option.map_some, Option.some.injEq, Prod.mk.injEq] at h
      obtain ⟨rfl, rfl, rfl⟩ := h
      exact ⟨[], o, m, j, rfl, ho, rfl, rfl, rfl⟩
  | cons first ops ih =>
    rw [List.cons_append] at h
    cases ho : m.perform j first with
    | none => simp [performAll, ho] at h
    | some o =>
      rw [performAll_cons ho] at h
      obtain ⟨⟨rest, last⟩, hrest, heq⟩ := Option.map_eq_some_iff.mp h
      obtain ⟨rfl, rfl⟩ := Prod.mk.inj heq
      obtain ⟨before, o', m₁, j₁, hbefore, ho', rfl, hlast⟩ := ih hrest
      refine ⟨o :: before, o', m₁, j₁, ?_, ho', rfl, hlast⟩
      rw [performAll_cons ho, hbefore]
      rfl

/-! ## Chains of steps up to a fault -/

/-- A chain of steps that execute instructions, alone or with a step behind it that faults. -/
inductive Ends (m : Machine) (is : List Instruction) : Option Fault → Machine → Prop
  | whole {m' : Machine} (steps : Steps m is m') : Ends m is none m'
  | fault {last : Machine} {f : Fault} (steps : Steps m is last)
      (faulty : last.step.result = .error f) : Ends m is (some f) last.step.machine

/-- A step in front of a chain makes it longer. -/
theorem Ends.cons {m m' : Machine} {i : Instruction} {is : List Instruction} {f : Option Fault}
    (head : m.step.result = .ok i) (tail : Ends m.step.machine is f m') :
    Ends m (i :: is) f m' := by
  cases tail with
  | whole steps => exact .whole (.cons head steps)
  | fault steps faulty => exact .fault (.cons head steps) faulty

/-- A number of steps is a chain, up to its end or to the first fault. -/
theorem ends_runFor (n : Nat) (m : Machine) (j : Journal) :
    Ends m (executedFor n m) (runFor n m j).1 (runFor n m j).2.1 := by
  induction n generalizing m j with
  | zero => exact .whole (.nil m)
  | succ n ih =>
    rw [runFor, executedFor]
    cases hres : m.step.result with
    | error f => exact .fault (.nil m) hres
    | ok i => exact .cons hres (ih m.step.machine (j.add m.step.events))

/-- A run under a host is a chain, if it ends. -/
theorem ends_runWhile {σ : Type} (host : Host σ) {checks : Nat} {flag : σ} {m m' : Machine}
    {j j' : Journal} {f : Option Fault}
    (h : runWhile host checks flag m j = some (f, m', j')) :
    Ends m (executedWhile host checks flag m) f m' := by
  induction checks generalizing flag m j with
  | zero => exact nomatch h
  | succ checks ih =>
    rw [runWhile] at h
    rw [executedWhile]
    -- The flag ends the run before a step is taken.
    split at h
    · next up =>
      obtain ⟨rfl, rfl, -⟩ : none = f ∧ m = m' ∧ j = j' := by simpa using h
      rw [if_pos up]
      exact .whole (.nil m)
    · next down =>
      rw [if_neg down]
      cases hres : m.step.result with
      | error e =>
        simp only [hres, Option.some.injEq, Prod.mk.injEq] at h
        obtain ⟨rfl, rfl, -⟩ := h
        exact .fault (.nil m) hres
      | ok i =>
        simp only [hres] at h
        exact .cons hres (ih h)

/-- A run has come about by a chain of steps: it returns the number of instructions that were
executed, as far as counts go, or the fault behind them. -/
structure Tells (m : Machine) (is : List Instruction) (r : Run) : Prop where
  ends : Ends m is (Answer.ran r.result).fault? r.machine
  count : ∀ n, r.result = .ok n → n = .ofNat is.length

/-- A run without a fault returns how many steps it has taken. -/
theorem tells_of_whole {m m' : Machine} {is : List Instruction} (h : Ends m is none m')
    (j : Journal) : Tells m is ⟨.ok (m'.cycles - m.cycles), m', j⟩ := by
  refine ⟨h, fun n hn => ?_⟩
  -- The number is the difference of the counts at both ends.
  cases h with
  | whole steps => rw [← Except.ok.inj hn, cycles_sub_of_steps steps]

/-- A run with a fault returns the fault. -/
theorem tells_of_fault {m m' : Machine} {is : List Instruction} {f : Fault}
    (h : Ends m is (some f) m') (j : Journal) : Tells m is ⟨.error f, m', j⟩ :=
  ⟨h, fun _ => nofun⟩

/-- A bounded run comes about by the steps that it may take. -/
theorem tells_runLimited (m : Machine) (limit : UInt64) (j : Journal) :
    Tells m (executedFor (m.budget limit) m) (m.runLimited limit j) := by
  have hends := ends_runFor (m.budget limit) m j
  rw [runLimited]
  split
  · next hrun =>
    rw [hrun] at hends
    exact tells_of_fault hends _
  · next hrun =>
    rw [hrun] at hends
    exact tells_of_whole hends _

/-- A run under a host comes about by the steps that it takes while the flag is down. -/
theorem tells_of_run {σ : Type} {host : Host σ} {checks : Nat} {flag : σ} {m : Machine}
    {j : Journal} {r : Run} (h : m.run host checks flag j = some r) :
    Tells m (executedWhile host checks flag m) r := by
  rw [run] at h
  -- A run may not have ended, or with a fault, or under the flag.
  split at h
  · cases h
  · next hrun =>
    obtain rfl := Option.some.inj h
    exact tells_of_fault (ends_runWhile host hrun) _
  · next hrun =>
    obtain rfl := Option.some.inj h
    exact tells_of_whole (ends_runWhile host hrun) _

/-- Every operation that takes steps is a chain of them, up to its end or to its fault. -/
theorem ends_of_perform {m : Machine} {j : Journal} {op : Operation} {o : Outcome}
    (takes : op.TakesSteps) (h : m.perform j op = some o) :
    Ends m o.executed o.answer.fault? o.machine := by
  cases takes with
  | step =>
    obtain rfl := Option.some.inj h
    -- A single step is a run that may take one.
    show Ends m (executedFor 1 m) (Answer.stepped m.step.result).fault? m.step.machine
    have hends := ends_runFor 1 m j
    cases hres : m.step.result <;> simpa only [runFor, hres, Answer.fault?] using hends
  | run host flag again =>
    obtain ⟨r, hr, rfl⟩ := Option.map_eq_some_iff.mp h
    exact (tells_of_run hr).ends
  | runLimited limit =>
    obtain rfl := Option.some.inj h
    exact (tells_runLimited m limit j).ends

/-- A number that is returned is that of the instructions executed, as far as counts go. -/
theorem count_of_perform {m : Machine} {j : Journal} {op : Operation} {o : Outcome} {n : UInt64}
    (h : m.perform j op = some o) (hn : o.answer = .ran (.ok n)) :
    n = .ofNat o.executed.length := by
  -- Only runs return numbers.
  cases op with
  | step | fetch | reset | write =>
    obtain rfl := Option.some.inj h
    exact nomatch hn
  | run host flag again =>
    obtain ⟨r, hr, rfl⟩ := Option.map_eq_some_iff.mp h
    exact (tells_of_run hr).count n (Answer.ran.inj hn)
  | runLimited limit =>
    obtain rfl := Option.some.inj h
    exact (tells_runLimited m limit j).count n (Answer.ran.inj hn)

end Machine

end NandMachine
