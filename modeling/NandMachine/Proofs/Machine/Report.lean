import NandMachine.Proofs.Machine.Host
import NandMachine.Proofs.Machine.Operation

/-!
# Reports of runs

What a machine does has nothing to do with the journal that it is given: a run adds the same events
to every journal, and ends in the same way. Of the level `error` there is only one event, that of an
illegal instruction. So a run that ends with a fault has reported it once, as the last thing of all,
and a run without a fault has reported nothing of this level.

## Key results

- `reports_step`: the events of one step
- `exists_events_runFor`: the events of a number of steps, in every journal
- `exists_events_runLimited`, `exists_events_run_of_fault`: the same for bounded runs, and for runs
  under a host that never raises the flag
-/

namespace NandMachine

/-- What is reported up to an end with or without a fault: the fault is the last event, and all
others are of lower levels. -/
inductive Reports : Option Fault → List Event → Prop
  | quiet {es : List Event} (others : ∀ e ∈ es, e.level ≠ .error) : Reports none es
  | illegal {es : List Event} (n : Nibble) (a : Address) (others : ∀ e ∈ es, e.level ≠ .error) :
    Reports (some (.illegalInstruction n a)) (es ++ [.illegalInstruction n a])

/-- Events of lower levels in front make no difference. -/
theorem Reports.append {f : Option Fault} {es fs : List Event} (h : Reports f fs)
    (others : ∀ e ∈ es, e.level ≠ .error) : Reports f (es ++ fs) := by
  cases h with
  | quiet hfs => exact .quiet (List.forall_mem_append.mpr ⟨others, hfs⟩)
  | illegal n a hfs =>
    rw [← List.append_assoc]
    exact .illegal n a (List.forall_mem_append.mpr ⟨others, hfs⟩)

/-! ## Access to memory -/

namespace Space

/-- A read reports no error. -/
theorem level_of_mem_readEvents {s : Space} {a : Address} {e : Event} (h : e ∈ s.readEvents a) :
    e.level ≠ .error := by
  rw [eq_readUnmapped_of_mem h]
  simp [Event.level]

/-- Reads in a row report no error. -/
theorem level_of_mem_readFromEvents {s : Space} {a : Address} {k : Nat} {e : Event}
    (h : e ∈ s.readFromEvents a k) : e.level ≠ .error := by
  obtain ⟨b, rfl⟩ := exists_readUnmapped_of_mem h
  simp [Event.level]

/-- A write reports no error. -/
theorem level_of_mem_writeEvents {s : Space} {a : Address} {n : Nibble} {e : Event}
    (h : e ∈ s.writeEvents a n) : e.level ≠ .error := by
  unfold writeEvents at h
  -- Each way in which a write can go reports one event at most.
  split at h
  · rw [List.mem_singleton] at h
    simp [h, Event.level]
  · dsimp only at h
    split at h
    · split at h
      · rw [List.mem_singleton] at h
        simp [h, Event.level]
      · exact nomatch h
    all_goals
      rw [List.mem_singleton] at h
      simp [h, Event.level]

end Space

namespace Machine

/-- The execution of an instruction reports no error. -/
theorem level_of_mem_executeEvents {m : Machine} {i : Instruction} {e : Event}
    (h : e ∈ m.executeEvents i) : e.level ≠ .error := by
  cases i with
  | lod => exact Space.level_of_mem_readEvents h
  | str => exact Space.level_of_mem_writeEvents h
  | ldi | sar | sap | mov | jmp | rjp | jz | nand => exact nomatch h

/-! ## Steps -/

/-- The events of one step of a running machine. -/
theorem reports_step {m : Machine} (hr : m.status = .running) :
    Reports (Answer.stepped m.step.result).fault? m.step.events := by
  cases ho : Opcode.ofCode? (m.space.read m.registers.iar) with
  | none =>
    rw [step_of_illegal hr ho]
    exact .illegal _ _ fun e he => Space.level_of_mem_readEvents he
  | some o =>
    obtain ⟨i, -, hd⟩ := exists_decoded ho
    rw [step_of_decoded hr hd]
    -- A step that executes an instruction has three kinds of events: misses, the instruction, its
    -- access.
    refine .quiet fun e he => ?_
    rcases List.mem_append.mp he with he | he
    · exact Space.level_of_mem_readFromEvents he
    · rcases List.mem_cons.mp he with rfl | he
      · simp [Event.level]
      · exact level_of_mem_executeEvents he

/-- A number of steps adds the same events to every journal. -/
theorem exists_events_runFor (n : Nat) {m : Machine} (hr : m.status = .running) :
    ∃ f m' es, (∀ j, runFor n m j = (f, m', j.add es)) ∧ Reports f es := by
  -- A machine that has executed an instruction is still running, so the induction goes on.
  induction n generalizing m with
  | zero => exact ⟨none, m, [], fun _ => rfl, .quiet (List.forall_mem_nil _)⟩
  | succ n ih =>
    have hstep := reports_step hr
    cases hres : m.step.result with
    | error f =>
      rw [hres] at hstep
      exact ⟨some f, m.step.machine, m.step.events, fun j => by simp only [runFor, hres], hstep⟩
    | ok i =>
      rw [hres] at hstep
      obtain ⟨f, m', es, hrun, hreports⟩ := ih (executes_of_step_ok hres).status
      refine ⟨f, m', m.step.events ++ es, fun j => ?_, ?_⟩
      · simp only [runFor, hres, hrun, Journal.add_append]
      · -- What succeeds reports nothing of the level `error`, so the rest decides.
        cases hstep with
        | quiet others => exact hreports.append others

/-! ## Runs -/

/-- A bounded run adds the same events to every journal. -/
theorem exists_events_runLimited (limit : UInt64) {m : Machine} (hr : m.status = .running) :
    ∃ result m' es, (∀ j, m.runLimited limit j = ⟨result, m', j.add es⟩) ∧
      Reports (Answer.ran result).fault? es := by
  obtain ⟨f, m', es, hrun, hreports⟩ := exists_events_runFor (m.budget limit) hr
  cases f with
  | none => exact ⟨.ok (m'.cycles - m.cycles), m', es, fun j => by rw [runLimited, hrun], hreports⟩
  | some f => exact ⟨.error f, m', es, fun j => by rw [runLimited, hrun], hreports⟩

/-- A run under a host that never raises the flag ends with the first fault, given that there is
fuel for one check more than there are steps in front of it. -/
theorem exists_events_run_of_fault {m last : Machine} {is : List Instruction} {f : Fault}
    (hr : m.status = .running) (hsteps : Steps m is last) (hf : last.step.result = .error f)
    {fuel : Nat} (hlt : is.length < fuel) :
    ∃ es, (∀ j, m.run .never fuel () j = some ⟨.error f, last.step.machine, j.add es⟩) ∧
      Reports (some f) es := by
  obtain ⟨f', m', es, hrun, hreports⟩ := exists_events_runFor (is.length + 1) hr
  -- The steps are known to end with this fault, so it is the one that is reported.
  obtain ⟨rfl, rfl⟩ : f' = some f ∧ m' = last.step.machine := by
    obtain ⟨j', hfault⟩ := runFor_of_fault hsteps hf (.empty none)
    have heq := (hrun (.empty none)).symm.trans (hfault _ (Nat.lt_succ_self _))
    simp only [Prod.mk.injEq] at heq
    exact ⟨heq.1, heq.2.1⟩
  refine ⟨es, fun j => ?_, hreports⟩
  rw [run, runWhile_of_fault hsteps (hrun j) fun _ _ => rfl, if_pos hlt]

/-- A run under a host that never raises the flag ends with a fault or not at all. -/
theorem exists_fault_or_run_never (fuel : Nat) (m : Machine) :
    (∀ j, m.run .never fuel () j = none) ∨
      ∃ is last f, is.length < fuel ∧ Steps m is last ∧ last.step.result = .error f := by
  rcases exists_steps_or_fault fuel m with
    ⟨is, m', hsteps, hlen⟩ | ⟨is, last, f, hsteps, hlt, hf⟩
  · -- There is a step to be taken for every check that the run may make.
    refine .inl fun j => ?_
    rw [run, runWhile_eq_none hsteps (Nat.le_of_eq hlen.symm) fun _ _ => rfl]
  · exact .inr ⟨is, last, f, hlt, hsteps, hf⟩

end Machine

end NandMachine
