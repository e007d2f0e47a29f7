import NandMachine.Proofs.Machine.Operation

/-!
# Displays have no influence

What a display shows and how often it was written to is for the host alone. `Machine.unlit` is the
machine with all displays as they were at first; machines that are equal in that sense cannot be
told apart by what they do. Each part of a step is shown not to see the difference, from the devices
up, and so are the loops.

## Key results

- `Space.write_unlit`: a write keeps spaces apart at most by what their displays show
- `step_unlit`, `step_congr`: a step does not see what displays show
- `performAll_congr`: nor do operations in any number and order
- `displays_never_influence`: with the consequence for machines that have no cells
-/

namespace NandMachine

/-! ## Memory without what displays show -/

/-- The device, as a display as it was at first. -/
def Device.unlit : Device → Device
  | rom image => rom image
  | ram cells => ram cells
  | display _ _ => freshDisplay

namespace Device

@[simp] theorem unlit_unlit (d : Device) : d.unlit.unlit = d.unlit := by
  cases d <;> rfl

@[simp] theorem blank_unlit (d : Device) : d.unlit.blank = d.blank := by
  cases d <;> rfl

@[simp] theorem read_unlit (d : Device) (offset : Nat) : d.unlit.read offset = d.read offset := by
  cases d <;> rfl

@[simp] theorem kind_unlit (d : Device) : d.unlit.kind = d.kind := by
  cases d <;> rfl

@[simp] theorem outcome_unlit (d : Device) (offset : Nat) :
    d.unlit.outcome offset = d.outcome offset := by
  cases d <;> rfl

/-- Only cells keep something that can be read again. -/
theorem unlit_eq_blank {d : Device} (h : d.kind ≠ .ram) : d.unlit = d.blank := by
  cases d with
  | ram cells => exact absurd rfl h
  | rom image => rfl
  | display value writes => rfl

/-- A write to a display is to be seen on it only. -/
theorem write_unlit (d : Device) (offset : Nat) (n : Nibble) :
    (d.unlit.write offset n).unlit = (d.write offset n).unlit := by
  cases d <;> rfl

end Device

namespace Mapping

/-- The mapping, with its display as it was at first if it has one. -/
def unlit (m : Mapping) : Mapping := { m with device := m.device.unlit }

@[simp] theorem unlit_unlit (m : Mapping) : m.unlit.unlit = m.unlit := by
  simp only [unlit, Device.unlit_unlit]

@[simp] theorem blank_unlit (m : Mapping) : m.unlit.blank = m.blank := by
  simp only [unlit, blank, Device.blank_unlit]

/-- A write through a mapping goes to its device. -/
theorem write_unlit (m : Mapping) (offset : Nat) (n : Nibble) :
    (m.unlit.write offset n).unlit = (m.write offset n).unlit := by
  simp only [unlit, write, Device.write_unlit]

end Mapping

namespace Space

/-- The space with all displays as they were at first. -/
def unlit (s : Space) : Space := ⟨s.mappings.map Mapping.unlit⟩

/-- The mappings stay at their places. -/
theorem getElem?_mappings_unlit (s : Space) (i : Nat) :
    s.unlit.mappings[i]? = s.mappings[i]?.map Mapping.unlit :=
  Array.getElem?_map

/-- The same mapping answers for an address. -/
theorem owner?_unlit (s : Space) (a : Address) :
    s.unlit.owner? a = (s.owner? a).map Mapping.unlit := by
  rw [owner?, unlit, Array.find?_map]
  rfl

@[simp] theorem unlit_unlit (s : Space) : s.unlit.unlit = s.unlit := by
  simp only [unlit, Array.map_map, Function.comp_def, Mapping.unlit_unlit]

theorem blank_unlit (s : Space) : s.unlit.blank = s.blank := by
  simp only [blank, unlit, Array.map_map, Function.comp_def, Mapping.blank_unlit]

/-- Addresses are resolved without a look at what devices hold. -/
@[simp] theorem resolve_unlit (s : Space) (a : Address) : s.unlit.resolve a = s.resolve a := by
  rw [← resolve_blank, blank_unlit, resolve_blank]

/-- Reads do not see what displays show. -/
@[simp] theorem read_unlit (s : Space) (a : Address) : s.unlit.read a = s.read a := by
  rw [read, owner?_unlit, read]
  cases s.owner? a with
  | none => rfl
  | some m => exact Device.read_unlit ..

/-- A read reports the same, whatever displays show. -/
@[simp] theorem readEvents_unlit (s : Space) (a : Address) :
    s.unlit.readEvents a = s.readEvents a := by
  rw [readEvents, owner?_unlit, readEvents]
  cases s.owner? a <;> rfl

/-- A write reports the same, whatever displays show. -/
@[simp] theorem writeEvents_unlit (s : Space) (a : Address) (n : Nibble) :
    s.unlit.writeEvents a n = s.writeEvents a n := by
  rw [writeEvents, owner?_unlit, writeEvents]
  cases s.owner? a with
  | none => rfl
  | some m => simp [Mapping.unlit]

/-- Without cells, what displays show is all that can be written. -/
theorem unlit_eq_blank (s : Space) (cellless : ∀ e ∈ s.mappings, e.device.kind ≠ .ram) :
    s.unlit = s.blank := by
  rw [unlit, blank, mk.injEq]
  refine Array.map_congr_left fun e he => ?_
  rw [Mapping.unlit, Mapping.blank, Device.unlit_eq_blank (cellless e he)]

/-- A write keeps spaces apart at most by what their displays show. -/
theorem write_unlit (s : Space) (a : Address) (n : Nibble) :
    (s.unlit.write a n).unlit = (s.write a n).unlit := by
  simp only [unlit, mk.injEq]
  apply Array.ext_getElem?
  intro i
  rw [Array.getElem?_map, Array.getElem?_map, getElem?_mappings_write, getElem?_mappings_write,
    ← unlit, getElem?_mappings_unlit, resolve_unlit, Option.map_map, Option.map_map, Option.map_map]
  congr 1
  funext m
  -- The mapping that is written to has a device of the same kind in both spaces.
  simp only [Function.comp_apply]
  split
  · exact Mapping.write_unlit ..
  · exact Mapping.unlit_unlit m

/-- Nibbles in a row are the same. -/
@[simp] theorem readFrom_unlit (s : Space) (a : Address) (k : Nat) :
    s.unlit.readFrom a k = s.readFrom a k := by
  induction k generalizing a with
  | zero => rfl
  | succ k ih => rw [readFrom, readFrom, read_unlit, ih]

/-- What is reported about them is the same. -/
@[simp] theorem readFromEvents_unlit (s : Space) (a : Address) (k : Nat) :
    s.unlit.readFromEvents a k = s.readFromEvents a k := by
  induction k generalizing a with
  | zero => rfl
  | succ k ih => rw [readFromEvents, readFromEvents, readEvents_unlit, ih]

end Space

namespace Machine

/-- The machine with all displays as they were at first. -/
def unlit (m : Machine) : Machine := { m with space := m.space.unlit }

/-! ## Steps -/

/-- An instruction does the same, up to what displays show. -/
theorem execute_unlit (m : Machine) (i : Instruction) :
    (m.unlit.execute i).unlit = (m.execute i).unlit := by
  cases i with
  | str => simp only [execute, unlit, Space.write_unlit]
  | lod => simp only [execute, unlit, Space.read_unlit, Space.unlit_unlit]
  | jz target =>
    simp only [execute]
    -- Whether it jumps is a matter of the registers.
    show (if m.registers.a.isZero then _ else _ : Machine).unlit = _
    split <;> simp only [unlit, Space.unlit_unlit]
  | ldi | sar | sap | mov | jmp | rjp | nand => simp only [execute, unlit, Space.unlit_unlit]

/-- An instruction reports the same. -/
theorem executeEvents_unlit (m : Machine) (i : Instruction) :
    m.unlit.executeEvents i = m.executeEvents i := by
  cases i with
  | str => exact Space.writeEvents_unlit ..
  | lod => exact Space.readEvents_unlit ..
  | ldi | sar | sap | mov | jmp | rjp | nand | jz => rfl

/-- A step does not see what displays show. -/
theorem step_unlit (m : Machine) :
    m.unlit.step.result = m.step.result ∧ m.unlit.step.events = m.step.events ∧
      m.unlit.step.machine.unlit = m.step.machine.unlit := by
  -- A step has three ends: the machine is halted, the nibble illegal, or the window decoded.
  cases hr : m.status with
  | halted =>
    have hr' : m.unlit.status = .halted := hr
    rw [step_of_halted hr, step_of_halted hr']
    exact ⟨rfl, rfl, by simp only [unlit, Space.unlit_unlit]⟩
  | running =>
    have hr' : m.unlit.status = .running := hr
    have hread : m.unlit.space.read m.unlit.registers.iar = m.space.read m.registers.iar :=
      Space.read_unlit ..
    cases ho : Opcode.ofCode? (m.space.read m.registers.iar) with
    | none =>
      rw [step_of_illegal hr ho, step_of_illegal hr' (hread ▸ ho), hread]
      exact ⟨rfl, by simp only [unlit, Space.readEvents_unlit],
        by simp only [unlit, Space.unlit_unlit]⟩
    | some o =>
      obtain ⟨i, -, hd⟩ := exists_decoded ho
      have hwindow : m.unlit.window = m.window := Space.readFrom_unlit ..
      rw [step_of_decoded hr hd, step_of_decoded hr' (hwindow ▸ hd)]
      -- Fetching moves the instruction address only.
      have hfetched : m.unlit.fetched i = (m.fetched i).unlit := rfl
      have hexecute := execute_unlit (m.fetched i) i
      refine ⟨rfl, ?_, ?_⟩
      · rw [hfetched, executeEvents_unlit]
        simp only [unlit, Space.readFromEvents_unlit]
      · rw [hfetched]
        exact congrArg (fun x : Machine => { x with cycles := m.cycles + 1, last := some i })
          hexecute

variable {m m' : Machine}

/-- Machines that differ only in what displays show take the same step. -/
theorem step_congr (h : m.unlit = m'.unlit) :
    m.step.result = m'.step.result ∧ m.step.events = m'.step.events ∧
      m.step.machine.unlit = m'.step.machine.unlit := by
  obtain ⟨hres, hevents, hmachine⟩ := m.step_unlit
  obtain ⟨hres', hevents', hmachine'⟩ := m'.step_unlit
  rw [← hres, ← hevents, ← hmachine, h]
  exact ⟨hres', hevents', hmachine'⟩

/-! ## Loops -/

/-- Machines that differ only in what displays show have the same count. -/
theorem cycles_eq_of_unlit (h : m.unlit = m'.unlit) : m.cycles = m'.cycles :=
  show m.unlit.cycles = m'.unlit.cycles by rw [h]

/-- A number of steps comes to the same fault and the same journal. -/
theorem runFor_congr (h : m.unlit = m'.unlit) (n : Nat) (j : Journal) :
    ∃ f last last' j', runFor n m j = (f, last, j') ∧ runFor n m' j = (f, last', j') ∧
      last.unlit = last'.unlit := by
  -- Both machines take each step together, with one journal for both.
  induction n generalizing m m' j with
  | zero => exact ⟨none, m, m', j, rfl, rfl, h⟩
  | succ n ih =>
    obtain ⟨hres, hevents, hmachine⟩ := step_congr h
    simp only [runFor, hres, hevents]
    cases m'.step.result with
    | error f => exact ⟨some f, _, _, _, rfl, rfl, hmachine⟩
    | ok i => exact ih hmachine _

/-- A run under a host comes to the same, and ends for both machines or for neither. -/
theorem runWhile_congr {σ : Type} (host : Host σ) (h : m.unlit = m'.unlit) (checks : Nat)
    (flag : σ) (j : Journal) :
    (runWhile host checks flag m j = none ∧ runWhile host checks flag m' j = none) ∨
      ∃ f last last' j', runWhile host checks flag m j = some (f, last, j') ∧
        runWhile host checks flag m' j = some (f, last', j') ∧ last.unlit = last'.unlit := by
  induction checks generalizing m m' flag j with
  | zero => exact .inl ⟨rfl, rfl⟩
  | succ checks ih =>
    obtain ⟨hres, hevents, hmachine⟩ := step_congr h
    simp only [runWhile, hres, hevents]
    split
    · exact .inr ⟨none, m, m', j, rfl, rfl, h⟩
    · cases m'.step.result with
      | error f => exact .inr ⟨some f, _, _, _, rfl, rfl, hmachine⟩
      | ok i =>
        -- The host has seen the same events, so it does the same to the flag.
        exact ih hmachine _ _

/-- The same instructions are executed in a number of steps. -/
theorem executedFor_congr (h : m.unlit = m'.unlit) (n : Nat) :
    executedFor n m = executedFor n m' := by
  induction n generalizing m m' with
  | zero => rfl
  | succ n ih =>
    obtain ⟨hres, -, hmachine⟩ := step_congr h
    rw [executedFor, executedFor, hres]
    cases m'.step.result with
    | error f => rfl
    | ok i => exact congrArg (i :: ·) (ih hmachine)

/-- The same instructions are executed under a host. -/
theorem executedWhile_congr {σ : Type} (host : Host σ) (h : m.unlit = m'.unlit) (checks : Nat)
    (flag : σ) : executedWhile host checks flag m = executedWhile host checks flag m' := by
  induction checks generalizing m m' flag with
  | zero => rfl
  | succ checks ih =>
    obtain ⟨hres, hevents, hmachine⟩ := step_congr h
    rw [executedWhile, executedWhile, hres, hevents]
    cases m'.step.result with
    | error f => rfl
    | ok i => rw [ih hmachine]

/-! ## Operations -/

/-- A bounded run has the same result and the same journal. -/
theorem runLimited_congr (h : m.unlit = m'.unlit) (limit : UInt64) (j : Journal) :
    ∃ result last last' j', m.runLimited limit j = ⟨result, last, j'⟩ ∧
      m'.runLimited limit j = ⟨result, last', j'⟩ ∧ last.unlit = last'.unlit := by
  have hcycles := cycles_eq_of_unlit h
  have hbudget : m.budget limit = m'.budget limit := by rw [budget, budget, hcycles]
  obtain ⟨f, last, last', j', hrun, hrun', hlast⟩ := runFor_congr h (m'.budget limit) j
  have hcount : last.cycles - m.cycles = last'.cycles - m'.cycles := by
    rw [cycles_eq_of_unlit hlast, hcycles]
  cases f with
  | some f =>
    simp only [runLimited, hbudget, hrun, hrun']
    exact ⟨_, _, _, _, rfl, rfl, hlast⟩
  | none =>
    simp only [runLimited, hbudget, hrun, hrun', hcount]
    exact ⟨_, _, _, _, rfl, rfl, hlast⟩

/-- A run under a host has the same result and the same journal. -/
theorem run_congr {σ : Type} (host : Host σ) (h : m.unlit = m'.unlit) (checks : Nat) (flag : σ)
    (j : Journal) :
    (m.run host checks flag j = none ∧ m'.run host checks flag j = none) ∨
      ∃ result last last' j', m.run host checks flag j = some ⟨result, last, j'⟩ ∧
        m'.run host checks flag j = some ⟨result, last', j'⟩ ∧ last.unlit = last'.unlit := by
  rcases runWhile_congr host h checks flag j with
    ⟨hrun, hrun'⟩ | ⟨f, last, last', j', hrun, hrun', hlast⟩
  · exact .inl ⟨by rw [run, hrun], by rw [run, hrun']⟩
  · -- The number that is returned is a difference of counts, which no display is part of.
    have hcount : last.cycles - m.cycles = last'.cycles - m'.cycles := by
      rw [cycles_eq_of_unlit hlast, cycles_eq_of_unlit h]
    cases f with
    | some f =>
      simp only [run, hrun, hrun']
      exact .inr ⟨_, _, _, _, rfl, rfl, hlast⟩
    | none =>
      simp only [run, hrun, hrun', hcount]
      exact .inr ⟨_, _, _, _, rfl, rfl, hlast⟩

end Machine

/-- The outcome, with all displays of the machine as they were at first. -/
def Outcome.unlit (o : Outcome) : Outcome := { o with machine := o.machine.unlit }

namespace Machine

variable {m m' : Machine}

/-- Operations that take no steps do not see what displays show. -/
theorem perform_unlit_of_not_takesSteps {op : Operation} (h : ¬ op.TakesSteps) (m : Machine)
    (j : Journal) :
    (m.unlit.perform j op).map Outcome.unlit = (m.perform j op).map Outcome.unlit := by
  cases op with
  | step => exact absurd .step h
  | run host flag again => exact absurd (.run host flag again) h
  | runLimited limit => exact absurd (.runLimited limit) h
  | fetch =>
    simp only [perform, fetch, fetchEvents, unlit, Outcome.unlit, Option.map_some, Space.read_unlit,
      Space.readEvents_unlit, Space.unlit_unlit]
  | reset =>
    simp only [perform, reset, start, unlit, Outcome.unlit, Option.map_some, Space.unlit_unlit]
  | write a n =>
    simp only [perform, unlit, Outcome.unlit, Option.map_some, Space.writeEvents_unlit,
      Space.write_unlit]

/-- An operation does not see what displays show. -/
theorem perform_congr (h : m.unlit = m'.unlit) (j : Journal) (op : Operation) :
    (m.perform j op).map Outcome.unlit = (m'.perform j op).map Outcome.unlit := by
  cases op with
  | step =>
    obtain ⟨hres, hevents, hmachine⟩ := step_congr h
    simp only [perform, Option.map_some, Outcome.unlit, hres, hevents, hmachine,
      executedFor_congr h]
  | run host flag again =>
    simp only [perform, executedWhile_congr host h]
    rcases run_congr host h (again + 1) flag j with
      ⟨hrun, hrun'⟩ | ⟨result, last, last', j', hrun, hrun', hlast⟩
    · rw [hrun, hrun']
    · simp only [hrun, hrun', Option.map_some, Outcome.unlit, hlast]
  | runLimited limit =>
    obtain ⟨result, last, last', j', hrun, hrun', hlast⟩ := runLimited_congr h limit j
    have hbudget : m.budget limit = m'.budget limit := by
      rw [budget, budget, cycles_eq_of_unlit h]
    simp only [perform, Option.map_some, Outcome.unlit, hrun, hrun', hlast, hbudget,
      executedFor_congr h]
  -- Without steps both go by way of the machine whose displays are as they were at first.
  | fetch | reset | write =>
    rw [← perform_unlit_of_not_takesSteps (by rintro ⟨⟩) m, h,
      perform_unlit_of_not_takesSteps (by rintro ⟨⟩) m']

/-- What comes of operations, with all displays as they were at first. -/
def unlitAll (r : List Outcome × Machine × Journal) : List Outcome × Machine × Journal :=
  (r.1.map Outcome.unlit, r.2.1.unlit, r.2.2)

/-- Operations in any number and order do not see what displays show. -/
theorem performAll_congr (h : m.unlit = m'.unlit) (j : Journal) (ops : List Operation) :
    (performAll ops m j).map unlitAll = (performAll ops m' j).map unlitAll := by
  induction ops generalizing m m' j with
  | nil => simp only [performAll, Option.map_some, unlitAll, h]
  | cons op ops ih =>
    have hop := perform_congr h j op
    cases ho : m.perform j op with
    | none =>
      have ho' : m'.perform j op = none := by
        rw [ho] at hop
        exact Option.map_eq_none_iff.mp hop.symm
      simp only [performAll, ho, ho']
    | some o =>
      rw [ho, Option.map_some] at hop
      obtain ⟨o', ho', heq⟩ := Option.map_eq_some_iff.mp hop.symm
      -- The rest goes on from machines that are equal in the same sense, with one journal.
      have hmachine : o.machine.unlit = o'.machine.unlit := (congrArg Outcome.machine heq).symm
      have hjournal : o.journal = o'.journal := (congrArg Outcome.journal heq).symm
      have hrest := congrArg (Option.map fun r => (o.unlit :: r.1, r.2)) (ih hmachine o.journal)
      rw [performAll_cons ho, performAll_cons ho', ← hjournal]
      simpa only [Option.map_map, Function.comp_def, unlitAll, List.map_cons, heq] using hrest

/-- Steps come to an outcome, each of them. -/
theorem exists_performAll_steps (n : Nat) (m : Machine) (j : Journal) :
    ∃ os last, performAll (List.replicate n .step) m j = some (os, last) ∧ os.length = n := by
  induction n generalizing m j with
  | zero => exact ⟨[], (m, j), rfl, rfl⟩
  | succ n ih =>
    obtain ⟨o, ho⟩ : ∃ o, m.perform j .step = some o := ⟨_, rfl⟩
    obtain ⟨os, last, hos, hlen⟩ := ih o.machine o.journal
    refine ⟨o :: os, last, ?_, by rw [List.length_cons, hlen]⟩
    rw [List.replicate_succ, performAll_cons ho, hos]
    rfl

/-! ## Machines without cells -/

/-- Without cells, a space is always the same up to what its displays show. -/
theorem unlit_eq_of_reachable (cellless : ∀ e ∈ m.space.mappings, e.device.kind ≠ .ram)
    (h : Reachable m m') : m'.space.unlit = m.space.unlit := by
  have hblank := blank_of_reachable h
  -- Without cells, what displays show is all that was ever written.
  rw [m.space.unlit_eq_blank cellless, ← hblank]
  refine m'.space.unlit_eq_blank fun e he => ?_
  have hmem : e.blank ∈ m.space.blank.mappings := hblank ▸ Array.mem_map_of_mem he
  obtain ⟨f, hf, heq⟩ := Array.mem_map.mp hmem
  have hkind := congrArg (fun x : Mapping => x.device.kind) heq
  simp only [Mapping.blank, Device.kind_blank] at hkind
  rw [← hkind]
  exact cellless f hf

/-- What displays show and how often they were written to never influences a machine. Two machines
that differ in nothing else give the same answers and the same journal to any operations in a row,
execute the same instructions, and differ in nothing else behind each of them. So a machine without
cells forgets its runs when it is reset: whatever has been done to it, any number of steps behind
the reset are those of a machine that starts over the space as it was at first. -/
theorem displays_never_influence :
    (∀ (m m' : Machine) (journal : Journal) (ops : List Operation), m.unlit = m'.unlit →
      (performAll ops m journal).map unlitAll = (performAll ops m' journal).map unlitAll) ∧
    ∀ (m m' : Machine) (journal : Journal) (n : Nat),
      (∀ e ∈ m.space.mappings, e.device.kind ≠ .ram) → Reachable m m' →
        ∃ os os' last last',
          performAll (List.replicate n .step) m'.reset journal = some (os, last) ∧
          performAll (List.replicate n .step) (start m.space) journal = some (os', last') ∧
          os.length = n ∧
          os.map (fun o => (o.answer, o.machine.registers)) =
            os'.map fun o => (o.answer, o.machine.registers) := by
  refine ⟨fun m m' journal ops h => performAll_congr h journal ops, ?_⟩
  intro m m' journal n cellless reached
  obtain ⟨os, last, hos, hlen⟩ := exists_performAll_steps n m'.reset journal
  obtain ⟨os', last', hos', -⟩ := exists_performAll_steps n (start m.space) journal
  refine ⟨os, os', last, last', hos, hos', hlen, ?_⟩
  have hstart : m'.reset.unlit = (start m.space).unlit := by
    simp only [reset, start, unlit, unlit_eq_of_reachable cellless reached]
  have hall := performAll_congr hstart journal (List.replicate n .step)
  rw [hos, hos', Option.map_some, Option.map_some, Option.some.injEq] at hall
  -- Answers and registers can be read off without the displays.
  have houtcomes : os.map Outcome.unlit = os'.map Outcome.unlit := congrArg Prod.fst hall
  have hview := congrArg (List.map fun o => (o.answer, o.machine.registers)) houtcomes
  simpa only [List.map_map, Function.comp_def, Outcome.unlit, unlit] using hview

/-- Two machines that load from a display, one of them with a display that shows something. It is
reset behind a run that has written to the display. -/
theorem displays_never_influence_of_lit :
    let space (display : Device) : Space :=
      ⟨#[.ofDevice 0 (.rom ⟨#[0x11, 0x51, 0x53, 0x27]⟩), .ofDevice 0x100 display]⟩
    let m := start (space (.display 9 3))
    let m' := start (space .freshDisplay)
    let journal := Journal.empty (some .trace)
    let ops : List Operation := [.run (.afterWrites 1) 0 9, .step, .fetch, .reset, .runLimited 9]
    m ≠ m' ∧ m.unlit = m'.unlit ∧
      (performAll ops m journal).map unlitAll = (performAll ops m' journal).map unlitAll ∧
      (∀ e ∈ m.space.mappings, e.device.kind ≠ .ram) ∧
      Reachable m (m.runLimited 5 journal).machine ∧
      ∃ os os' last last',
        performAll (List.replicate 6 .step) (m.runLimited 5 journal).machine.reset journal =
          some (os, last) ∧
        performAll (List.replicate 6 .step) (start m.space) journal = some (os', last') ∧
        os.map (fun o => (o.answer, o.machine.registers)) =
          os'.map fun o => (o.answer, o.machine.registers) := by
  intro space m m' journal ops
  -- One display shows 9 after three writes, the other one is new.
  have hunlit : m.unlit = m'.unlit := by decide +kernel
  have cellless : ∀ e ∈ m.space.mappings, e.device.kind ≠ .ram := by decide +kernel
  have reached : Reachable m (m.runLimited 5 journal).machine :=
    .single (.runLimited 5 journal)
  obtain ⟨hsame, hforget⟩ := displays_never_influence
  obtain ⟨os, os', last, last', hos, hos', -, hview⟩ :=
    hforget m (m.runLimited 5 journal).machine journal 6 cellless reached
  exact ⟨by decide +kernel, hunlit, hsame m m' journal ops hunlit, cellless, reached,
    os, os', last, last', hos, hos', hview⟩

end Machine

end NandMachine
