import Mathlib.Algebra.GroupWithZero.Nat
import Mathlib.Data.List.DropRight
import NandMachine.Proofs.Machine.Operation

/-!
# The account of a machine

A machine keeps an account of what it has executed: a count, the last instruction, and whether it
has been halted. A host that notes the outcomes of its operations has an account of its own. Both
agree: `Balanced` says so of the outcomes since the last reset, and every operation keeps it.

## Key results

- `last_of_ends`, `status_of_ends`: what a chain of steps leaves, with a fault behind it or without
- `Balanced.perform`: an operation that is not a reset keeps the accounts in agreement
- `account_of_operations`: the account of a machine, from the outcomes of all operations on it
-/

namespace NandMachine

namespace Outcome

/-- The operation was a reset. -/
def isReset (o : Outcome) : Bool := o.answer matches .restarted

/-- The number of instructions that a run without a fault has returned. -/
def returned (o : Outcome) : Nat :=
  match o.answer with
  | .ran (.ok n) => n.toNat
  | _ => 0

/-- The number of instructions that were executed and not returned as a number: by a single step,
or by a run that has ended with a fault. -/
def unreturned (o : Outcome) : Nat :=
  match o.answer with
  | .ran (.ok _) => 0
  | _ => o.executed.length

/-- The operation has reported an illegal instruction. -/
def Illegal (o : Outcome) : Prop :=
  ∃ opcode address, o.answer.fault? = some (.illegalInstruction opcode address)

end Outcome

/-- The outcomes behind the last reset. -/
def sinceReset (os : List Outcome) : List Outcome := os.rtakeWhile fun o => !o.isReset

/-- A reset starts a new list of outcomes, and every other operation makes the list longer. -/
theorem sinceReset_concat (os : List Outcome) (o : Outcome) :
    sinceReset (os ++ [o]) = if o.isReset then [] else sinceReset os ++ [o] := by
  rw [sinceReset, List.rtakeWhile_concat]
  cases o.isReset <;> rfl

/-- All instructions that were executed to their end, in this order. -/
def executedIn (os : List Outcome) : List Instruction := os.flatMap Outcome.executed

/-- The instructions of the last operation come behind those of the others. -/
@[simp] theorem executedIn_concat (os : List Outcome) (o : Outcome) :
    executedIn (os ++ [o]) = executedIn os ++ o.executed := by
  rw [executedIn, List.flatMap_append, List.flatMap_singleton]
  rfl

namespace Machine

/-! ## What a chain of steps leaves -/

/-- The last instruction of a chain is the last one that the machine knows of. -/
theorem last_of_steps {m m' : Machine} {is : List Instruction} (h : Steps m is m') :
    m'.last = is.getLast?.or m.last := by
  induction h with
  | nil m => rfl
  | @cons m m' i is head tail ih =>
    rw [ih, (executes_of_step_ok head).last, List.getLast?_cons]
    cases is.getLast? <;> rfl

/-- A chain without a fault leaves the status as it is. -/
theorem status_of_steps {m m' : Machine} {is : List Instruction} (h : Steps m is m') :
    m'.status = m.status := by
  induction h with
  | nil m => rfl
  | cons head tail ih =>
    rw [ih, (executes_of_step_ok head).status, (decoded_of_step_ok head).1]

/-- A step with a fault leaves the last instruction as it was. -/
theorem last_of_step_error {m : Machine} {f : Fault} (h : m.step.result = .error f) :
    m.step.machine.last = m.last := by
  rcases step_of_error h with ⟨-, -, hm⟩ | ⟨-, -, hm⟩ <;> rw [hm]

variable {m m' : Machine} {is : List Instruction} {f : Option Fault}

/-- A chain is counted by its instructions; a fault behind them is not counted. -/
theorem cycles_of_ends (h : Ends m is f m') : m'.cycles = m.cycles + .ofNat is.length := by
  cases h with
  | whole steps => exact cycles_of_steps steps
  | fault steps faulty => rw [cycles_of_step_error faulty, cycles_of_steps steps]

/-- The last instruction is the last one of the chain, with a fault behind it or without. -/
theorem last_of_ends (h : Ends m is f m') : m'.last = is.getLast?.or m.last := by
  cases h with
  | whole steps => exact last_of_steps steps
  | fault steps faulty => rw [last_of_step_error faulty, last_of_steps steps]

/-- Behind a chain of steps the machine is halted if it was before, or if the chain has ended with
an illegal instruction. -/
theorem status_of_ends (h : Ends m is f m') :
    m'.status = .halted ↔ m.status = .halted ∨ ∃ n a, f = some (.illegalInstruction n a) := by
  cases h with
  | whole steps => simp [status_of_steps steps]
  | @fault last f steps faulty =>
    rw [← status_of_steps steps]
    rcases step_of_error faulty with ⟨hs, rfl, hm⟩ | ⟨hs, rfl, hm⟩
    · rw [hm]
      simp [hs]
    · rw [hm]
      simp

/-! ## Both accounts -/

/-- All instructions of an operation are accounted for once: by a number that is returned, or by
themselves. -/
theorem returned_add_unreturned {j : Journal} {op : Operation} {o : Outcome}
    (h : m.perform j op = some o) (room : o.executed.length < UInt64.size) :
    o.returned + o.unreturned = o.executed.length := by
  rw [Outcome.returned, Outcome.unreturned]
  split
  · next n hn =>
    rw [count_of_perform h hn, UInt64.toNat_ofNat', Nat.mod_eq_of_lt room, Nat.add_zero]
  · rw [Nat.zero_add]

/-- The account that a machine keeps agrees with the outcomes since its last reset. -/
structure Balanced (m : Machine) (recent : List Outcome) : Prop where
  cycles : m.cycles = .ofNat (executedIn recent).length
  last : m.last = (executedIn recent).getLast?
  status : m.status = .halted ↔ ∃ o ∈ recent, o.Illegal
  counts : (executedIn recent).length < UInt64.size →
    (recent.map Outcome.returned).sum + (recent.map Outcome.unreturned).sum =
      (executedIn recent).length

theorem balanced_start (s : Space) : Balanced (start s) [] where
  cycles := rfl
  last := rfl
  status := by simp [start]
  counts := fun _ => rfl

/-- An operation that is not a reset keeps the accounts in agreement. -/
theorem Balanced.perform {j : Journal} {op : Operation} {o : Outcome} {recent : List Outcome}
    (balanced : Balanced m recent) (h : m.perform j op = some o) (hreset : o.isReset = false) :
    Balanced o.machine (recent ++ [o]) := by
  -- The sum is a statement about outcomes only; the machine has no part in it.
  have hcounts : (executedIn (recent ++ [o])).length < UInt64.size →
      ((recent ++ [o]).map Outcome.returned).sum + ((recent ++ [o]).map Outcome.unreturned).sum =
        (executedIn (recent ++ [o])).length := by
    intro room
    rw [executedIn_concat, List.length_append] at room ⊢
    have hbefore := balanced.counts (by omega)
    have hlast := returned_add_unreturned h (by omega)
    simp only [List.map_append, List.sum_append, List.map_cons, List.map_nil, List.sum_singleton]
    omega
  -- What a chain of steps leaves is added to the account.
  have hsteps : op.TakesSteps → Balanced o.machine (recent ++ [o]) := by
    intro takes
    have hends := ends_of_perform takes h
    refine ⟨?_, ?_, ?_, hcounts⟩
    · rw [cycles_of_ends hends, balanced.cycles, executedIn_concat, List.length_append,
        UInt64.ofNat_add]
    · rw [last_of_ends hends, balanced.last, executedIn_concat, List.getLast?_append]
    · rw [status_of_ends hends, balanced.status]
      simp [Outcome.Illegal, or_and_right, exists_or]
  -- The other operations execute nothing and do not fault.
  have hkept : o.executed = [] → o.answer.fault? = none → o.machine.cycles = m.cycles →
      o.machine.last = m.last → o.machine.status = m.status →
        Balanced o.machine (recent ++ [o]) := by
    intro hexecuted hfault hcycles hlast hstatus
    refine ⟨?_, ?_, ?_, hcounts⟩
    · rw [hcycles, executedIn_concat, hexecuted, List.append_nil, balanced.cycles]
    · rw [hlast, executedIn_concat, hexecuted, List.append_nil, balanced.last]
    · rw [hstatus, balanced.status]
      simp [Outcome.Illegal, or_and_right, exists_or, hfault]
  cases op with
  | step => exact hsteps .step
  | run host flag again => exact hsteps (.run host flag again)
  | runLimited limit => exact hsteps (.runLimited limit)
  | fetch =>
    obtain rfl := Option.some.inj h
    exact hkept rfl rfl rfl rfl rfl
  | write a n =>
    obtain rfl := Option.some.inj h
    exact hkept rfl rfl rfl rfl rfl
  | reset =>
    obtain rfl := Option.some.inj h
    exact nomatch hreset

/-- Whatever the operations on a machine since its start, its account agrees with the outcomes
behind the last reset. -/
theorem balanced_of_performAll {s : Space} {j j' : Journal} {ops : List Operation}
    {os : List Outcome} (h : performAll ops (start s) j = some (os, m, j')) :
    Balanced m (sinceReset os) := by
  -- By induction on the operations from their end, where the last reset is looked for.
  induction ops using List.reverseRecOn generalizing os m j' with
  | nil =>
    obtain ⟨rfl, rfl, -⟩ : [] = os ∧ start s = m ∧ j = j' := by simpa [performAll] using h
    exact balanced_start s
  | append_singleton ops op ih =>
    obtain ⟨before, o, m₁, j₁, hbefore, ho, rfl, rfl, -⟩ := performAll_concat h
    rw [sinceReset_concat]
    cases hreset : o.isReset with
    | false => exact (ih hbefore).perform ho hreset
    | true =>
      -- A reset starts the machine again, over the space as it is.
      cases op with
      | reset =>
        obtain rfl := Option.some.inj ho
        exact balanced_start m₁.space
      | step | runLimited | fetch | write =>
        obtain rfl := Option.some.inj ho
        exact absurd hreset Bool.false_ne_true
      | run =>
        obtain ⟨r, -, rfl⟩ := Option.map_eq_some_iff.mp ho
        exact absurd hreset Bool.false_ne_true

/-- The account of a machine, from the outcomes of all operations on it. As long as fewer than 2^64
instructions have been executed since the last reset, or the start, the count of cycles is their
number, and the numbers that runs have returned and the instructions for which no number was
returned add up to it. The instruction executed last is the last one of them; there is none exactly
if the count is 0. The machine is halted exactly if an operation behind the last reset has reported
an illegal instruction. -/
theorem account_of_operations (space : Space) (journal : Journal) (ops : List Operation)
    {os : List Outcome} {m : Machine} {journal' : Journal}
    (h : performAll ops (start space) journal = some (os, m, journal'))
    (room : (executedIn (sinceReset os)).length < UInt64.size) :
    let recent := sinceReset os
    m.cycles.toNat = (executedIn recent).length ∧
    m.last = (executedIn recent).getLast? ∧
    (m.last = none ↔ m.cycles = 0) ∧
    (m.status = .halted ↔ ∃ o ∈ recent, o.Illegal) ∧
    (recent.map Outcome.returned).sum + (recent.map Outcome.unreturned).sum = m.cycles.toNat := by
  have balanced := balanced_of_performAll h
  intro recent
  -- With room for all instructions, the count is their number itself.
  have hcycles : m.cycles.toNat = (executedIn recent).length := by
    rw [balanced.cycles, UInt64.toNat_ofNat']
    exact Nat.mod_eq_of_lt room
  have hnone : m.last = none ↔ m.cycles = 0 := by
    rw [balanced.last, List.getLast?_eq_none_iff, ← List.length_eq_zero_iff, ← hcycles,
      ← UInt64.toNat_inj]
    rfl
  exact ⟨hcycles, balanced.last, hnone, balanced.status, (balanced.counts room).trans hcycles.symm⟩

/-- A machine that shows a nibble is reset, comes to the same nibble again in two runs, and finds no
instruction behind that. -/
theorem account_of_operations_of_run :
    let space : Space :=
      ⟨#[.ofDevice 0 (.rom ⟨#[0x11, 0x51, 0x53, 0x70]⟩), .ofDevice 0x100 .freshDisplay]⟩
    let ops : List Operation :=
      [.step, .reset, .run (.afterWrites 1) 0 9, .write 0x100 7, .fetch, .reset, .runLimited 3,
        .run (.afterWrites 1) 0 9, .step]
    ∃ os m j, performAll ops (start space) (.empty none) = some (os, m, j) ∧
      (executedIn (sinceReset os)).length < UInt64.size ∧
      m.cycles.toNat = 4 ∧ m.last = some .str ∧ ∃ o ∈ sinceReset os, o.Illegal := by
  intro space ops
  -- What was executed in front of the second reset is not counted.
  have hrun : (performAll ops (start space) (.empty none)).map (fun r =>
      (executedIn (sinceReset r.1), r.2.1.status)) =
        some ([.ldi 1, .sap, .ldi 5, .str], .halted) := by
    decide +kernel
  obtain ⟨⟨os, m, j⟩, h, heq⟩ := Option.map_eq_some_iff.mp hrun
  obtain ⟨hexecuted, hstatus⟩ := Prod.mk.inj heq
  have room : (executedIn (sinceReset os)).length < UInt64.size := by
    rw [hexecuted]
    decide
  obtain ⟨hcycles, hlast, -, hillegal, -⟩ := account_of_operations space _ ops h room
  rw [hexecuted] at hcycles hlast
  exact ⟨os, m, j, h, room, hcycles, hlast, hillegal.mp hstatus⟩

end Machine

end NandMachine
