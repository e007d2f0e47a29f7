import Mathlib.Data.List.Forall2
import NandMachine.Proofs.Machine.Operation

/-!
# Halted machines

A nibble that stands for no operation halts the machine behind it. From then on nothing that takes
steps has any effect: it is answered by `Refuses`, which looks at the machine no further than at its
count of cycles. Only a reset, or the host's own hand on the status, ends this.

## Key results

- `halted_of_ends`: where an illegal instruction leaves the machine
- `perform_of_halted`: what takes steps is refused by a halted machine, and changes nothing
- `fault_freezes`: operations behind an illegal instruction, in any number and order
-/

namespace NandMachine

/-- What a halted machine answers to operations that take steps. A run may be over before it would
take one: because its flag is up, or because its limit and the room that the count of cycles has
left come to nothing. -/
inductive Refuses (cycles : UInt64) : Operation → Answer → Prop
  | step : Refuses cycles .step (.stepped (.error (.notRunning .halted)))
  | run {σ : Type} {host : Host σ} {flag : σ} (again : Nat) (down : host.raised flag = false) :
    Refuses cycles (.run host flag again) (.ran (.error (.notRunning .halted)))
  | stopped {σ : Type} {host : Host σ} {flag : σ} (again : Nat) (up : host.raised flag = true) :
    Refuses cycles (.run host flag again) (.ran (.ok 0))
  | runLimited {limit : UInt64} (left : min limit.toNat (maxCycles - cycles.toNat) ≠ 0) :
    Refuses cycles (.runLimited limit) (.ran (.error (.notRunning .halted)))
  | exhausted {limit : UInt64} (spent : min limit.toNat (maxCycles - cycles.toNat) = 0) :
    Refuses cycles (.runLimited limit) (.ran (.ok 0))

namespace Machine

/-! ## Where an illegal instruction leaves the machine -/

/-- A chain of steps that ends with an illegal instruction leaves the machine halted, behind the
nibble that it reports. -/
theorem halted_of_ends {m m' : Machine} {is : List Instruction} {n : Nibble} {a : Address}
    (h : Ends m is (some (.illegalInstruction n a)) m') :
    m'.status = .halted ∧ m'.registers.iar = a.next := by
  cases h with
  | fault steps faulty =>
    rcases step_of_error faulty with ⟨-, hf, -⟩ | ⟨-, hf, hm⟩
    · -- A machine that does not run does not report an instruction.
      exact nomatch hf
    · injection hf with _ ha
      rw [hm, ha]
      exact ⟨rfl, rfl⟩

/-- Only operations that take steps report faults. -/
theorem takesSteps_of_fault {m : Machine} {j : Journal} {op : Operation} {o : Outcome} {f : Fault}
    (h : m.perform j op = some o) (hf : o.answer.fault? = some f) : op.TakesSteps := by
  cases op with
  | step => exact .step
  | run host flag again => exact .run host flag again
  | runLimited limit => exact .runLimited limit
  | fetch | reset | write =>
    obtain rfl := Option.some.inj h
    exact nomatch hf

/-! ## Operations on a halted machine -/

variable {m : Machine}

/-- A halted machine faults at the first step of a run, if there is one. -/
theorem runFor_of_halted (h : m.status = .halted) (n : Nat) (j : Journal) :
    runFor n m j = (if n = 0 then none else some (.notRunning .halted), m, j) := by
  cases n with
  | zero => rfl
  | succ n => simp only [runFor, step_of_halted h, Journal.add_nil, Nat.succ_ne_zero, if_false]

/-- A halted machine executes nothing. -/
theorem executedFor_of_halted (h : m.status = .halted) (n : Nat) : executedFor n m = [] := by
  cases n with
  | zero => rfl
  | succ n => simp only [executedFor, step_of_halted h]

/-- What takes steps is refused by a halted machine, and changes nothing. Of the events that steps
report, those of the levels `error` and `trace`, there are none. -/
theorem perform_of_halted (h : m.status = .halted) {op : Operation} (takes : op.TakesSteps)
    (j : Journal) :
    ∃ answer es, m.perform j op = some ⟨answer, [], m, j.add es⟩ ∧ Refuses m.cycles op answer ∧
      ∀ e ∈ es, e.level ≠ .error ∧ e.level ≠ .trace := by
  cases takes with
  | step =>
    refine ⟨.stepped (.error (.notRunning .halted)), [], ?_, .step, List.forall_mem_nil _⟩
    rw [perform, executedFor_of_halted h, step_of_halted h]
  | run host flag again =>
    -- The flag is looked at before a step is tried.
    cases hup : host.raised flag with
    | true =>
      refine ⟨.ran (.ok 0), [.stopRequested 0], ?_, .stopped again hup, by simp [Event.level]⟩
      simp only [perform, run, runWhile, executedWhile, hup, if_true, UInt64.sub_self]
      rfl
    | false =>
      refine ⟨.ran (.error (.notRunning .halted)), [], ?_, .run again hup, List.forall_mem_nil _⟩
      simp [perform, run, runWhile, executedWhile, hup, step_of_halted h]
  | runLimited limit =>
    have hbudget : m.budget limit = min limit.toNat (maxCycles - m.cycles.toNat) := rfl
    -- A run that may not take a step does not find out that the machine is halted.
    by_cases hzero : m.budget limit = 0
    · refine ⟨.ran (.ok 0), [], ?_, .exhausted (hbudget ▸ hzero), List.forall_mem_nil _⟩
      simp [perform, runLimited, runFor_of_halted h, executedFor_of_halted h, hzero]
    · refine ⟨.ran (.error (.notRunning .halted)), [], ?_, .runLimited (hbudget ▸ hzero),
        List.forall_mem_nil _⟩
      simp [perform, runLimited, runFor_of_halted h, executedFor_of_halted h, hzero]

/-- The same for operations in a row, in any number and order. -/
theorem performAll_of_halted (h : m.status = .halted) {ops : List Operation}
    (takes : ∀ op ∈ ops, op.TakesSteps) (j : Journal) :
    ∃ os es, performAll ops m j = some (os, m, j.add es) ∧
      List.Forall₂ (fun op o => Refuses m.cycles op o.answer) ops os ∧ (∀ o ∈ os, o.machine = m) ∧
      ∀ e ∈ es, e.level ≠ .error ∧ e.level ≠ .trace := by
  -- The machine stays the same throughout, and the events pile up in the journal.
  induction ops generalizing j with
  | nil => exact ⟨[], [], rfl, .nil, List.forall_mem_nil _, List.forall_mem_nil _⟩
  | cons op ops ih =>
    obtain ⟨htake, hrest⟩ := List.forall_mem_cons.mp takes
    obtain ⟨answer, es, hop, hrefuses, hes⟩ := perform_of_halted h htake j
    obtain ⟨os, fs, hops, hforall, hsame, hfs⟩ := ih hrest (j.add es)
    refine ⟨⟨answer, [], m, j.add es⟩ :: os, es ++ fs, ?_, .cons hrefuses hforall, ?_, ?_⟩
    · rw [performAll_cons hop, hops, Journal.add_append]
      rfl
    · exact List.forall_mem_cons.mpr ⟨rfl, hsame⟩
    · exact List.forall_mem_append.mpr ⟨hes, hfs⟩

/-- An operation that reports an illegal instruction has left the machine halted, one address behind
the one reported. However often the host takes steps, lets the machine run or sets it limits
afterwards, in any order, it is refused, no instruction is reported or traced, and the machine stays
as it is in all its parts. A reset starts it again over the space as it is. -/
theorem fault_freezes {m : Machine} {journal : Journal} {op : Operation} {o : Outcome}
    {n : Nibble} {a : Address} (h : m.perform journal op = some o)
    (illegal : o.answer.fault? = some (.illegalInstruction n a)) (ops : List Operation)
    (takes : ∀ op ∈ ops, op.TakesSteps) :
    let frozen := o.machine
    frozen.status = .halted ∧
    frozen.registers.iar.toNat = (a.toNat + 1) % 4096 ∧
    (∃ os es, performAll ops frozen o.journal = some (os, frozen, o.journal.add es) ∧
      List.Forall₂ (fun op o => Refuses frozen.cycles op o.answer) ops os ∧
      (∀ o ∈ os, o.machine = frozen) ∧
      ∀ e ∈ es, e.level ≠ .error ∧ e.level ≠ .trace) ∧
    ∀ j, frozen.perform j .reset = some ⟨.restarted, [],
      { registers := .zero, space := frozen.space, status := .running, cycles := 0, last := none },
      j⟩ := by
  -- What has reported the fault is a chain of steps, which ends with it.
  have hends := ends_of_perform (takesSteps_of_fault h illegal) h
  rw [illegal] at hends
  obtain ⟨hstatus, hiar⟩ := halted_of_ends hends
  intro frozen
  refine ⟨hstatus, ?_, performAll_of_halted hstatus takes o.journal, fun _ => rfl⟩
  rw [show frozen.registers.iar = a.next from hiar]
  exact Address.toNat_next a

/-- A run that loads a nibble and finds no instruction at the last address: the machine stands at
the first one, and refuses to step, to run and to run up to a limit. -/
theorem fault_freezes_at_end :
    let m : Machine :=
      { registers := { iar := 0xFFD }, space := ⟨#[.ofDevice 0xFFD (.rom ⟨#[0x15, 0x70]⟩)]⟩ }
    let ops : List Operation := [.step, .run .never () 0, .runLimited 5, .runLimited 0]
    ∃ o, m.perform (.empty (some .trace)) (.runLimited 10) = some o ∧
      o.answer.fault? = some (.illegalInstruction 7 0xFFF) ∧ (∀ op ∈ ops, op.TakesSteps) ∧
      o.machine.registers.iar.toNat = 0 ∧
      ∃ os j, performAll ops o.machine o.journal = some (os, o.machine, j) := by
  intro m ops
  -- Behind the load stands an illegal nibble; the zero that fills its byte is beyond the space.
  have hrun : (m.perform (.empty (some .trace)) (.runLimited 10)).map (·.answer.fault?) =
      some (some (.illegalInstruction 7 0xFFF)) := by
    decide +kernel
  obtain ⟨o, ho, illegal⟩ := Option.map_eq_some_iff.mp hrun
  have takes : ∀ op ∈ ops, op.TakesSteps := by
    intro op hop
    simp only [ops, List.mem_cons, List.not_mem_nil, or_false] at hop
    rcases hop with rfl | rfl | rfl | rfl
    · exact .step
    · exact .run _ _ _
    · exact .runLimited _
    · exact .runLimited _
  obtain ⟨-, hiar, ⟨os, es, hall, -⟩, -⟩ := fault_freezes ho illegal ops takes
  exact ⟨o, ho, illegal, takes, hiar, os, _, hall⟩

end Machine

end NandMachine
