import Mathlib.Logic.Relation
import NandMachine.Machine.Run
import NandMachine.Proofs.Machine.Table
import NandMachine.Proofs.Memory.Access

/-!
# Runs

A run of a machine is a chain of steps. `Machine.Steps` is such a chain without faults, with the
instructions that it executes; a bounded run that fits into the count of cycles takes exactly one
of them. `Machine.Transition` is whatever a host can do with a machine, its runs included, and the
last section says what all of this can do to the space: write to it.

## Key results

- `executes_of_step_ok`, `step_of_error`: all that a step can do, by its result
- `space_step_of_ne_str`: a step that does not execute a store leaves the space as it is
- `runLimited_of_steps`: a bounded run takes as many steps as it is allowed to
- `exists_steps_of_invariant`: what every step keeps, together with success, lasts for any run
- `exists_writes_of_reachable`: all that ever happens to a space are writes
- `blank_of_reachable`: so ranges, kinds, sizes and images stay as they are
-/

namespace NandMachine.Machine

/-! ## Steps -/

/-- A step without a fault is one of a running machine, whose window it decodes. -/
theorem decoded_of_step_ok {m : Machine} {i : Instruction} (h : m.step.result = .ok i) :
    m.status = .running ∧ Instruction.decodeList m.window = .ok i := by
  -- Halted machines and illegal nibbles do not lead to an instruction.
  cases hr : m.status with
  | halted =>
    rw [step_of_halted hr] at h
    exact nomatch h
  | running =>
    refine ⟨rfl, ?_⟩
    cases ho : Opcode.ofCode? (m.space.read m.registers.iar) with
    | none =>
      rw [step_of_illegal hr ho] at h
      exact nomatch h
    | some o =>
      obtain ⟨j, -, hd⟩ := exists_decoded ho
      rw [step_of_decoded hr hd] at h
      rw [hd, Except.ok.inj h]

/-- A step that returns an instruction has changed the machine by its row of the table. -/
theorem executes_of_step_ok {m : Machine} {i : Instruction} (h : m.step.result = .ok i) :
    Executes i m m.step.machine := by
  obtain ⟨hr, hd⟩ := decoded_of_step_ok h
  exact (executes_of_decoded hr hd).2

/-- The two ways in which a step can fault: the machine is halted, which changes nothing, or it
finds no instruction, which halts it behind the nibble that it has fetched. -/
theorem step_of_error {m : Machine} {f : Fault} (h : m.step.result = .error f) :
    (m.status = .halted ∧ f = .notRunning .halted ∧ m.step.machine = m) ∨
      (m.status = .running ∧
        f = .illegalInstruction (m.space.read m.registers.iar) m.registers.iar ∧
        m.step.machine = { m with registers := m.registers.advance, status := .halted }) := by
  cases hr : m.status with
  | halted =>
    rw [step_of_halted hr] at h ⊢
    exact .inl ⟨rfl, (Except.error.inj h).symm, rfl⟩
  | running =>
    cases ho : Opcode.ofCode? (m.space.read m.registers.iar) with
    | none =>
      rw [step_of_illegal hr ho] at h ⊢
      exact .inr ⟨rfl, (Except.error.inj h).symm, rfl⟩
    | some o =>
      -- A legal operation code does not fault.
      obtain ⟨i, -, hd⟩ := exists_decoded ho
      rw [step_of_decoded hr hd] at h
      exact nomatch h

/-- A step without a fault is counted. -/
theorem cycles_of_step_ok {m : Machine} {i : Instruction} (h : m.step.result = .ok i) :
    m.step.machine.cycles = m.cycles + 1 := by
  obtain ⟨hr, hd⟩ := decoded_of_step_ok h
  rw [step_of_decoded hr hd]

/-- A step with a fault is not counted. -/
theorem cycles_of_step_error {m : Machine} {f : Fault} (h : m.step.result = .error f) :
    m.step.machine.cycles = m.cycles := by
  rcases step_of_error h with ⟨-, -, hm⟩ | ⟨-, -, hm⟩ <;> rw [hm]

theorem space_step_of_str {m : Machine} (h : m.step.result = .ok .str) :
    m.step.machine.space = m.space.write m.registers.addr m.registers.a := by
  rw [(executes_of_step_ok h).space, if_pos rfl]

/-- A step that does not execute a store leaves the space as it is, also if it faults. -/
theorem space_step_of_ne_str {m : Machine} (h : m.step.result ≠ .ok .str) :
    m.step.machine.space = m.space := by
  cases hres : m.step.result with
  | ok i =>
    have hi : i ≠ .str := by
      rintro rfl
      exact h hres
    rw [(executes_of_step_ok hres).space, if_neg hi]
  | error f =>
    rcases step_of_error hres with ⟨-, -, hm⟩ | ⟨-, -, hm⟩ <;> rw [hm]

/-! ## Chains of steps -/

/-- Steps without a fault from one machine to another one, with the instructions executed. -/
inductive Steps : Machine → List Instruction → Machine → Prop
  | nil (m : Machine) : Steps m [] m
  | cons {m m' : Machine} {i : Instruction} {is : List Instruction}
      (head : m.step.result = .ok i) (tail : Steps m.step.machine is m') : Steps m (i :: is) m'

/-- A chain of steps is counted step by step, modulo the range of counts. -/
theorem cycles_of_steps {m m' : Machine} {is : List Instruction} (h : Steps m is m') :
    m'.cycles = m.cycles + UInt64.ofNat is.length := by
  induction h with
  | nil m => simp
  | cons head tail ih =>
    rw [ih, cycles_of_step_ok head, List.length_cons, UInt64.ofNat_add, UInt64.add_assoc,
      UInt64.add_comm 1]
    rfl

/-- Differences of counts are taken modulo their range, as the counts themselves are. -/
theorem cycles_sub_of_steps {m m' : Machine} {is : List Instruction} (h : Steps m is m') :
    m'.cycles - m.cycles = UInt64.ofNat is.length := by
  rw [cycles_of_steps h, UInt64.add_comm, UInt64.add_sub_cancel]

/-- A run takes the steps of a chain if it is allowed as many. -/
theorem runFor_of_steps {m m' : Machine} {is : List Instruction} (h : Steps m is m')
    (j : Journal) : ∃ j', runFor is.length m j = (none, m', j') := by
  -- The journal goes along with the steps, and nothing is said about it.
  induction h generalizing j with
  | nil m => exact ⟨j, rfl⟩
  | @cons m m' i is head tail ih =>
    obtain ⟨j', hj⟩ := ih (j.add m.step.events)
    refine ⟨j', ?_⟩
    rw [List.length_cons, runFor]
    simp only [head]
    exact hj

/-- The limit is not cut where the count of cycles has room for it. -/
theorem budget_of_room {m : Machine} {limit : UInt64}
    (room : m.cycles.toNat + limit.toNat < UInt64.size) : m.budget limit = limit.toNat := by
  have hmax : maxCycles = UInt64.size - 1 := rfl
  rw [budget, hmax]
  omega

/-- A bounded run takes as many steps as it is allowed to, if the count of cycles has room. -/
theorem runLimited_of_steps {m m' : Machine} {is : List Instruction} (h : Steps m is m')
    {limit : UInt64} (hlen : is.length = limit.toNat)
    (hroom : m.cycles.toNat + limit.toNat < UInt64.size) (j : Journal) :
    (m.runLimited limit j).result = .ok limit ∧ (m.runLimited limit j).machine = m' := by
  have hbudget : m.budget limit = is.length := (budget_of_room hroom).trans hlen.symm
  obtain ⟨j', hrun⟩ := runFor_of_steps h j
  have hcount : m'.cycles - m.cycles = limit := by
    rw [cycles_sub_of_steps h, hlen, UInt64.ofNat_toNat]
  rw [← hbudget] at hrun
  simp only [runLimited, hrun, hcount, and_self]

/-- What every step keeps, together with success, lasts for any number of steps. -/
theorem exists_steps_of_invariant {inv : Machine → Prop}
    (step : ∀ m, inv m → ∃ i, m.step.result = .ok i ∧ inv m.step.machine) (n : Nat) {m : Machine}
    (h : inv m) : ∃ is m', is.length = n ∧ Steps m is m' ∧ inv m' := by
  induction n generalizing m with
  | zero => exact ⟨[], m, rfl, .nil m, h⟩
  | succ n ih =>
    obtain ⟨i, hi, hnext⟩ := step m h
    obtain ⟨is, m', hlen, hsteps, hinv⟩ := ih hnext
    exact ⟨i :: is, m', by rw [List.length_cons, hlen], .cons hi hsteps, hinv⟩

/-! ## What a host can do -/

/-- One action of a host on a machine: its own operations, a write to its space, or new contents of
its registers, status or count of cycles. A run is an action only if it comes to an end. -/
inductive Transition (m : Machine) : Machine → Prop
  | step : Transition m m.step.machine
  | run {σ : Type} (host : Host σ) (fuel : Nat) (flag : σ) (j : Journal) (r : Run)
      (ends : m.run host fuel flag j = some r) : Transition m r.machine
  | runLimited (limit : UInt64) (j : Journal) : Transition m (m.runLimited limit j).machine
  | fetch : Transition m m.fetch.2
  | reset : Transition m m.reset
  | write (a : Address) (n : Nibble) : Transition m { m with space := m.space.write a n }
  | setRegisters (registers : Registers) : Transition m { m with registers }
  | setStatus (status : Status) : Transition m { m with status }
  | setCycles (cycles : UInt64) : Transition m { m with cycles }

/-- One machine comes from another one by actions of a host, in any order. -/
def Reachable : Machine → Machine → Prop := Relation.ReflTransGen Transition

/-- A step writes to the space once or not at all. -/
theorem exists_writes_of_step (m : Machine) : ∃ ws, m.step.machine.space = m.space.writes ws := by
  by_cases h : m.step.result = .ok .str
  · exact ⟨[(m.registers.addr, m.registers.a)], space_step_of_str h⟩
  · exact ⟨[], space_step_of_ne_str h⟩

/-- A number of steps does nothing to the space but write to it. -/
theorem exists_writes_of_runFor (n : Nat) (m : Machine) (j : Journal) :
    ∃ ws, (runFor n m j).2.1.space = m.space.writes ws := by
  -- The writes of the first step come in front of those of the others.
  induction n generalizing m j with
  | zero => exact ⟨[], rfl⟩
  | succ n ih =>
    obtain ⟨ws, hws⟩ := exists_writes_of_step m
    rw [runFor]
    cases m.step.result with
    | error f => exact ⟨ws, hws⟩
    | ok i =>
      obtain ⟨vs, hvs⟩ := ih m.step.machine (j.add m.step.events)
      exact ⟨ws ++ vs, by rw [Space.writes_append, ← hws]; exact hvs⟩

/-- A run under a host does nothing to the space but write to it, if it ends. -/
theorem exists_writes_of_runWhile {σ : Type} (host : Host σ) {fuel : Nat} {flag : σ}
    {m m' : Machine} {j j' : Journal} {f : Option Fault}
    (h : runWhile host fuel flag m j = some (f, m', j')) : ∃ ws, m'.space = m.space.writes ws := by
  -- By induction on the checks; the host takes no part in what is written.
  induction fuel generalizing flag m j with
  | zero => exact nomatch h
  | succ fuel ih =>
    rw [runWhile] at h
    split at h
    · simp only [Option.some.injEq, Prod.mk.injEq] at h
      obtain ⟨-, rfl, -⟩ := h
      exact ⟨[], rfl⟩
    · obtain ⟨ws, hws⟩ := exists_writes_of_step m
      cases hres : m.step.result with
      | error e =>
        simp only [hres, Option.some.injEq, Prod.mk.injEq] at h
        obtain ⟨-, rfl, -⟩ := h
        exact ⟨ws, hws⟩
      | ok i =>
        simp only [hres] at h
        obtain ⟨vs, hvs⟩ := ih h
        exact ⟨ws ++ vs, by rw [Space.writes_append, ← hws, hvs]⟩

/-- No action of a host does anything to the space but write to it. -/
theorem exists_writes_of_transition {m m' : Machine} (h : Transition m m') :
    ∃ ws, m'.space = m.space.writes ws := by
  cases h with
  | step => exact exists_writes_of_step m
  | run host fuel flag j r ends =>
    rw [run] at ends
    split at ends
    · exact nomatch ends
    · next hrun =>
      obtain rfl := Option.some.inj ends
      exact exists_writes_of_runWhile host hrun
    · next hrun =>
      obtain rfl := Option.some.inj ends
      exact exists_writes_of_runWhile host hrun
  | runLimited limit j =>
    -- With or without a fault, the machine is the one at the end of the steps.
    have hmachine : (m.runLimited limit j).machine = (runFor (m.budget limit) m j).2.1 := by
      rw [runLimited]
      split <;> next hrun => rw [hrun]
    rw [hmachine]
    exact exists_writes_of_runFor (m.budget limit) m j
  | fetch | reset | setRegisters | setStatus | setCycles => exact ⟨[], rfl⟩
  | write a n => exact ⟨[(a, n)], rfl⟩

/-- All that ever happens to the space of a machine are writes. -/
theorem exists_writes_of_reachable {m m' : Machine} (h : Reachable m m') :
    ∃ ws, m'.space = m.space.writes ws := by
  induction h with
  | refl => exact ⟨[], rfl⟩
  | tail _ last ih =>
    -- The writes of the last action come behind all others.
    obtain ⟨ws, hws⟩ := ih
    obtain ⟨vs, hvs⟩ := exists_writes_of_transition last
    exact ⟨ws ++ vs, by rw [hvs, hws, Space.writes_append]⟩

/-- Without what was written, the space of a machine is always the same. -/
theorem blank_of_reachable {m m' : Machine} (h : Reachable m m') :
    m'.space.blank = m.space.blank := by
  obtain ⟨ws, hws⟩ := exists_writes_of_reachable h
  rw [hws, Space.blank_writes]

end NandMachine.Machine
