import NandMachine.Proofs.Machine.Operation

/-!
# The log of a machine

With every level kept, the log of a step tells what has happened in it, in order: which of the
fetched nibbles were not there, which instruction was executed and from where, and what came of its
access to memory. `Space.missed` and `Space.StoreRecords` say what is to be told in terms of the
mappings that cover an address, and hold the texts of the records.

Of the level `trace` there is one record for every instruction that is executed and no other one, so
the records of this level list what a run has executed.

## Key results

- `records_readFromEvents`: what is told about fetched nibbles
- `storeRecords_writeEvents`: what is told about a store
- `records_step_of_ok`, `records_step_of_error`: what is told about a step
- `logged_of_perform`: what operations that take steps report are the reports of their steps
- `traces_perform`: the records of the level `trace` list the instructions executed
- `log_tells_what_happened`: the log of a step, and what the log of a run says about its steps
-/

namespace NandMachine

/-- A line of a log: its level and its text. -/
abbrev Record := Level × String

/-- The records of the level `trace`. -/
def traces (rs : List Record) : List Record := rs.filter fun r => r.1 = .trace

theorem traces_append (rs ts : List Record) : traces (rs ++ ts) = traces rs ++ traces ts :=
  List.filter_append ..

/-- Records of other levels are left out. -/
theorem traces_eq_nil {rs : List Record} (h : ∀ r ∈ rs, r.1 ≠ .trace) : traces rs = [] :=
  List.filter_eq_nil_iff.mpr fun r hr => by simpa using h r hr

/-- The line of a log about an event. -/
def Event.record (e : Event) : Record := (e.level, e.text)

namespace Journal

/-- The lines of a journal, the first one first. -/
def records (j : Journal) : List Record := j.events.toList.map Event.record

/-- All levels are kept. -/
def Complete (j : Journal) : Prop := j.threshold = some .trace

/-- A journal with all levels keeps all of them later too. -/
theorem Complete.add {j : Journal} (h : j.Complete) (es : List Event) : (j.add es).Complete :=
  (j.threshold_add es).trans h

/-- With all levels kept, nothing is left out. -/
theorem Complete.keeps {j : Journal} (h : j.Complete) (l : Level) : j.keeps l = true := by
  rw [Complete] at h
  cases l <;> simp [Journal.keeps, h, Level.rank]

/-- There is a record for every event. -/
theorem Complete.records_add {j : Journal} (h : j.Complete) (es : List Event) :
    (j.add es).records = j.records ++ es.map Event.record := by
  have hall : es.filter (fun e => j.keeps e.level) = es :=
    List.filter_eq_self.mpr fun e _ => h.keeps e.level
  rw [records, toList_events_add, hall, List.map_append]
  rfl

end Journal

/-! ## Texts -/

namespace Event

/-- Without named values there is only the message. -/
theorem text_of_values_eq_nil {e : Event} (h : e.values = []) : e.text = e.message := by
  rw [text, h]
  exact String.append_empty

/-- The message about a write past the end of cells, with the kind spelled out. -/
theorem message_writePastEnd_ram (n : Nibble) (a : Address) :
    (writePastEnd n .ram a).message =
      "write of " ++ n.digit ++ " past end of RAM at " ++ a.digits ++ " ignored" := by
  -- The kind stands in the middle of the text, which is taken apart around it.
  have hsplit : " past end of RAM at " = " past end of " ++ "RAM" ++ " at " := by decide +kernel
  rw [hsplit, ← String.append_assoc, ← String.append_assoc]
  rfl

/-- The text about an instruction names it, its address and the registers. -/
theorem text_executing (i : Instruction) (a : Address) (rs : Registers) :
    (executing i a rs).text = i.text ++ " iar=" ++ a.digits ++ " regs=" ++ rs.text := by
  -- The names of the values stand in front of them, with a space and an equals sign around.
  have hiar : " iar=" = " " ++ "iar" ++ "=" := by decide +kernel
  have hregs : " regs=" = " " ++ "regs" ++ "=" := by decide +kernel
  have htext : (executing i a rs).text = i.text ++ ("" ++ (" " ++ "iar" ++ "=" ++ a.digits)
      ++ (" " ++ "regs" ++ "=" ++ rs.text)) := rfl
  rw [htext, ← hiar, ← hregs, String.empty_append]
  simp only [← String.append_assoc]

end Event

/-! ## Access to memory -/

namespace Space

/-- What is told about reads: there is a record for each of the addresses that no mapping covers. -/
def missed (s : Space) (as : List Address) : List Record :=
  (as.filter fun a => s.mappings.all fun m => !m.Covers a.toNat).map fun a =>
    (.debug, "read from unmapped address " ++ a.digits)

/-- What is told about a store of a nibble: one record, which goes by the first mapping that covers
the address, or none if this leads to a cell. -/
inductive StoreRecords (s : Space) (a : Address) (n : Nibble) : List Record → Prop
  | unmapped (uncovered : ∀ m ∈ s.mappings, ¬ m.Covers a.toNat) : StoreRecords s a n
      [(.debug, "write of " ++ n.digit ++ " to unmapped address " ++ a.digits ++ " ignored")]
  | display {i : Nat} {m : Mapping} {value : Nibble} {writes : UInt64} (first : s.First a i m)
      (device : m.device = .display value writes) : StoreRecords s a n
      [(.info, "wrote " ++ n.digit ++ " to DBGOUT")]
  | rom {i : Nat} {m : Mapping} {image : Rom} (first : s.First a i m)
      (device : m.device = .rom image) : StoreRecords s a n
      [(.warn, "attempt to write to ROM at offset "
        ++ HexStyle.lower.write (a.toNat - m.base.toNat))]
  | pastEnd {i : Nat} {m : Mapping} {cells : Array Nibble} (first : s.First a i m)
      (device : m.device = .ram cells) (past : cells.size ≤ a.toNat - m.base.toNat) :
      StoreRecords s a n
      [(.debug, "write of " ++ n.digit ++ " past end of RAM at " ++ a.digits ++ " ignored")]
  | cell {i : Nat} {m : Mapping} {cells : Array Nibble} (first : s.First a i m)
      (device : m.device = .ram cells) (inside : a.toNat - m.base.toNat < cells.size) :
      StoreRecords s a n []

theorem missed_append (s : Space) (as bs : List Address) :
    s.missed (as ++ bs) = s.missed as ++ s.missed bs := by
  simp [missed]

/-- What is told about a single read. -/
theorem records_readEvents (s : Space) (a : Address) :
    (s.readEvents a).map Event.record = s.missed [a] := by
  have htext : (Event.readUnmapped a).text = "read from unmapped address " ++ a.digits :=
    Event.text_of_values_eq_nil rfl
  -- Whether a mapping answers is what the filter asks.
  cases ho : s.owner? a with
  | some m =>
    have hcovered : (s.mappings.all fun m => !m.Covers a.toNat) = false := by
      rw [Array.all_eq_false]
      obtain ⟨i, hi, hm⟩ := Array.mem_iff_getElem.mp (Array.mem_of_find?_eq_some ho)
      exact ⟨i, hi, by simp [hm, covers_of_owner? ho]⟩
    simp [readEvents, ho, missed, hcovered]
  | none =>
    have huncovered : (s.mappings.all fun m => !m.Covers a.toNat) = true := by
      rw [Array.all_eq_true']
      intro m hm
      simpa using owner?_eq_none_iff.mp ho m hm
    simp [readEvents, ho, missed, huncovered, Event.record, Event.level, htext]

/-- What is told about nibbles that are fetched in a row. -/
theorem records_readFromEvents (s : Space) (a : Address) (k : Nat) :
    (s.readFromEvents a k).map Event.record = s.missed ((List.range k).map a.advance) := by
  induction k generalizing a with
  | zero => rfl
  | succ k ih =>
    -- The first address stands alone, and the others are counted from the next one.
    have hnext : (List.range (k + 1)).map a.advance = [a] ++ (List.range k).map a.next.advance := by
      rw [List.range_succ_eq_map, List.map_cons, List.map_map, Address.advance_zero]
      congr 2
      funext j
      exact (Address.next_advance a j).symm
    rw [readFromEvents, List.map_append, records_readEvents, ih, hnext, missed_append]

/-- What is told about a store is what it has come to. -/
theorem storeRecords_writeEvents (s : Space) (a : Address) (n : Nibble) :
    s.StoreRecords a n ((s.writeEvents a n).map Event.record) := by
  -- Either nothing covers the address or a first mapping does, whose device decides.
  rcases resolve_cases s a with hnone | ⟨i, m, hfirst⟩
  · have hrecords : (s.writeEvents a n).map Event.record = [(Event.writeUnmapped n a).record] := by
      rw [writeEvents, resolve_eq_none_iff.mp hnone]
      rfl
    rw [hrecords, Event.record, Event.text_of_values_eq_nil rfl]
    exact .unmapped (resolve_eq_none_iff_covers.mp hnone)
  · cases hd : m.device with
    | rom image =>
      have hrecords : (s.writeEvents a n).map Event.record =
          [(Event.romWrite (a.toNat - m.base.toNat)).record] := by
        simp only [writeEvents, owner?_of_first hfirst, hd, Device.outcome]
        rfl
      rw [hrecords, Event.record, Event.text_of_values_eq_nil rfl]
      exact .rom hfirst hd
    | display value writes =>
      have hrecords : (s.writeEvents a n).map Event.record = [(Event.displayWrite n).record] := by
        simp only [writeEvents, owner?_of_first hfirst, hd, Device.outcome, Device.kind]
        rfl
      rw [hrecords, Event.record, Event.text_of_values_eq_nil rfl]
      exact .display hfirst hd
    | ram cells =>
      -- Cells may end before their range does.
      by_cases hinside : a.toNat - m.base.toNat < cells.size
      · have hrecords : (s.writeEvents a n).map Event.record = [] := by
          simp only [writeEvents, owner?_of_first hfirst, hd, Device.outcome, if_pos hinside,
            Device.kind, List.map_nil]
        rw [hrecords]
        exact .cell hfirst hd hinside
      · have hrecords : (s.writeEvents a n).map Event.record =
            [(Event.writePastEnd n .ram a).record] := by
          simp only [writeEvents, owner?_of_first hfirst, hd, Device.outcome, if_neg hinside,
            Device.kind]
          rfl
        rw [hrecords, Event.record, Event.text_of_values_eq_nil rfl,
          Event.message_writePastEnd_ram]
        exact .pastEnd hfirst hd (Nat.le_of_not_lt hinside)

/-- Nothing is told about a store exactly if a cell keeps what is stored. -/
theorem StoreRecords.eq_nil_iff {s : Space} {a : Address} {n : Nibble} {rs : List Record}
    (h : s.StoreRecords a n rs) : rs = [] ↔ s.keeps a = true := by
  cases h with
  | unmapped uncovered =>
    have hnone := resolve_eq_none_iff.mp (resolve_eq_none_iff_covers.mpr uncovered)
    simp [keeps, hnone]
  | display first device => simp [keeps_of_first first, device, Device.keeps]
  | rom first device => simp [keeps_of_first first, device, Device.keeps]
  | pastEnd first device past => simp [keeps_of_first first, device, Device.keeps, past]
  | cell first device inside => simp [keeps_of_first first, device, Device.keeps, inside]

/-- Misses are not of the level `trace`. -/
theorem traces_missed (s : Space) (as : List Address) : traces (s.missed as) = [] := by
  refine traces_eq_nil fun r hr => ?_
  obtain ⟨a, -, rfl⟩ := List.mem_map.mp hr
  exact nofun

/-- What is told about a store is not of the level `trace`. -/
theorem StoreRecords.traces_eq_nil {s : Space} {a : Address} {n : Nibble} {rs : List Record}
    (h : s.StoreRecords a n rs) : traces rs = [] := by
  cases h <;> rfl

end Space

/-! ## Steps -/

namespace Machine

/-- What is told about an instruction that is executed: the instruction, its address, and the
registers once its operands have been fetched. -/
def traceRecord (m : Machine) (i : Instruction) : Record :=
  (.trace, i.text ++ " iar=" ++ m.registers.iar.digits ++ " regs="
    ++ ({ m.registers with iar := m.registers.iar.advance i.size } : Registers).text)

/-- What the execution of an instruction adds to the log: a load and a store tell what has come of
their access to memory, and the others nothing. -/
def AccessRecords (m : Machine) (i : Instruction) (added : List Record) : Prop :=
  match i with
  | .lod => added = m.space.missed [m.registers.addr]
  | .str =>
    m.space.StoreRecords m.registers.addr m.registers.a added ∧
    (added = [] ↔ m.space.keeps m.registers.addr = true)
  | _ => added = []

/-- What is told about the access of an instruction is what its execution reports. -/
theorem accessRecords_executeEvents (m : Machine) (i : Instruction) :
    m.AccessRecords i ((m.executeEvents i).map Event.record) := by
  cases i with
  | lod => exact m.space.records_readEvents m.registers.addr
  | str =>
    have hstore := m.space.storeRecords_writeEvents m.registers.addr m.registers.a
    exact ⟨hstore, hstore.eq_nil_iff⟩
  | ldi | sar | sap | mov | jmp | rjp | jz | nand => exact rfl

/-- Nothing that an access adds is of the level `trace`. -/
theorem AccessRecords.traces_eq_nil {m : Machine} {i : Instruction} {added : List Record}
    (h : m.AccessRecords i added) : traces added = [] := by
  cases i with
  | lod =>
    rw [show added = _ from h]
    exact m.space.traces_missed _
  | str => exact h.1.traces_eq_nil
  | ldi | sar | sap | mov | jmp | rjp | jz | nand =>
    rw [show added = _ from h]
    rfl

/-- What is told about a step that executes an instruction. -/
theorem records_step_of_ok {m : Machine} {i : Instruction} (h : m.step.result = .ok i) :
    ∃ added, m.AccessRecords i added ∧ m.step.events.map Event.record =
      m.space.missed ((List.range i.size).map m.registers.iar.advance) ++
        m.traceRecord i :: added := by
  obtain ⟨hr, hd⟩ := decoded_of_step_ok h
  have htrace : (Event.executing i m.registers.iar (m.fetched i).registers).record =
      m.traceRecord i := congrArg (Prod.mk Level.trace) (Event.text_executing ..)
  -- The operands have moved the instruction address, which the access does not depend on.
  refine ⟨_, accessRecords_executeEvents m i, ?_⟩
  have hsame : (m.fetched i).executeEvents i = m.executeEvents i := by cases i <;> rfl
  rw [step_of_decoded hr hd, List.map_append, Space.records_readFromEvents, List.map_cons, htrace,
    hsame]

/-- What is told about a step of a running machine that faults. -/
theorem records_step_of_error {m : Machine} (hr : m.status = .running) {f : Fault}
    (h : m.step.result = .error f) :
    let a := m.registers.iar
    f = .illegalInstruction (m.space.read a) a ∧ m.step.events.map Event.record =
      m.space.missed [a] ++
        [(.error, "illegal instruction " ++ (m.space.read a).digit ++ " at " ++ a.digits)] := by
  cases ho : Opcode.ofCode? (m.space.read m.registers.iar) with
  | some o =>
    obtain ⟨i, -, hd⟩ := exists_decoded ho
    -- With an operation code there would be no fault.
    rw [step_of_decoded hr hd] at h
    exact nomatch h
  | none =>
    rw [step_of_illegal hr ho] at h ⊢
    refine ⟨(Except.error.inj h).symm, ?_⟩
    rw [List.map_append, Space.records_readEvents, List.map_singleton, Event.record,
      Event.text_of_values_eq_nil rfl]
    rfl

/-! ## Runs -/

/-- A chain of steps that execute instructions, alone or with a step behind it that faults, together
with the journal that it starts with and the one that it leaves. -/
inductive Logged : Machine → Journal → List Instruction → Option Fault → Machine → Journal → Prop
  | nil (m : Machine) (j : Journal) : Logged m j [] none m j
  | fault {m : Machine} {f : Fault} (j : Journal) (faulty : m.step.result = .error f) :
    Logged m j [] (some f) m.step.machine (j.add m.step.events)
  | cons {m m' : Machine} {j j' : Journal} {i : Instruction} {is : List Instruction}
    {f : Option Fault} (head : m.step.result = .ok i)
    (tail : Logged m.step.machine (j.add m.step.events) is f m' j') : Logged m j (i :: is) f m' j'

/-- The journal of a number of steps is that of a chain. -/
theorem logged_runFor (n : Nat) (m : Machine) (j : Journal) :
    Logged m j (executedFor n m) (runFor n m j).1 (runFor n m j).2.1 (runFor n m j).2.2 := by
  induction n generalizing m j with
  | zero => exact .nil m j
  | succ n ih =>
    rw [runFor, executedFor]
    cases hres : m.step.result with
    | error f => exact .fault j hres
    | ok i => exact .cons hres (ih m.step.machine (j.add m.step.events))

/-- The journal of a run under a host is that of a chain, if the run ends. -/
theorem logged_runWhile {σ : Type} (host : Host σ) {checks : Nat} {flag : σ} {m m' : Machine}
    {j j' : Journal} {f : Option Fault} (h : runWhile host checks flag m j = some (f, m', j')) :
    Logged m j (executedWhile host checks flag m) f m' j' := by
  induction checks generalizing flag m j with
  | zero => exact nomatch h
  | succ checks ih =>
    rw [runWhile] at h
    rw [executedWhile]
    -- Either the host stops the run at this check, or a step is taken.
    split at h
    · next up =>
      obtain ⟨rfl, rfl, rfl⟩ : none = f ∧ m = m' ∧ j = j' := by simpa using h
      rw [if_pos up]
      exact .nil m j
    · next down =>
      rw [if_neg down]
      cases hres : m.step.result with
      | error e =>
        simp only [hres, Option.some.injEq, Prod.mk.injEq] at h
        obtain ⟨rfl, rfl, rfl⟩ := h
        exact .fault j hres
      | ok i =>
        simp only [hres] at h
        exact .cons hres (ih h)

variable {m m' : Machine} {j j' : Journal} {is : List Instruction} {f : Option Fault}

/-- An operation that takes steps reports nothing else, but for the end of a run that a host has
stopped. -/
theorem logged_of_perform {op : Operation} {o : Outcome} (takes : op.TakesSteps)
    (h : m.perform j op = some o) :
    ∃ j' es, Logged m j o.executed o.answer.fault? o.machine j' ∧ o.journal = j'.add es ∧
      ∀ e ∈ es, ∃ n, e = .stopRequested n := by
  have hnone : ∀ e ∈ ([] : List Event), ∃ n, e = .stopRequested n := List.forall_mem_nil _
  -- A step is a run of one step, and the runs bring their own chains.
  cases takes with
  | step =>
    obtain rfl := Option.some.inj h
    refine ⟨_, [], ?_, rfl, hnone⟩
    have hlogged := logged_runFor 1 m j
    cases hres : m.step.result <;>
      simpa only [runFor, executedFor, hres, Answer.fault?] using hlogged
  | run host flag again =>
    obtain ⟨r, hr, rfl⟩ := Option.map_eq_some_iff.mp h
    rw [run] at hr
    split at hr
    · cases hr
    · next hrun =>
      obtain rfl := Option.some.inj hr
      exact ⟨_, [], logged_runWhile host hrun, rfl, hnone⟩
    · next hrun =>
      obtain rfl := Option.some.inj hr
      -- The host has stopped the run, which is told behind the chain.
      refine ⟨_, _, logged_runWhile host hrun, rfl, fun e he => ?_⟩
      exact ⟨_, List.mem_singleton.mp he⟩
  | runLimited limit =>
    obtain rfl := Option.some.inj h
    refine ⟨(m.runLimited limit j).journal, [], ?_, rfl, hnone⟩
    have hlogged := logged_runFor (m.budget limit) m j
    show Logged m j _ (Answer.ran (m.runLimited limit j).result).fault? _ _
    rw [runLimited]
    split <;> next hrun => rwa [hrun] at hlogged

/-- What is told about instructions that are executed one after the other. -/
def traceRecords : Machine → List Instruction → List Record
  | _, [] => []
  | m, i :: is => m.traceRecord i :: m.step.machine.traceRecords is

/-- A step that executes an instruction has one record of the level `trace`. -/
theorem traces_step_of_ok {i : Instruction} (h : m.step.result = .ok i) :
    traces (m.step.events.map Event.record) = [m.traceRecord i] := by
  obtain ⟨added, hadded, hrecords⟩ := records_step_of_ok h
  rw [hrecords, traces_append, Space.traces_missed, List.nil_append, traces,
    List.filter_cons_of_pos rfl]
  exact congrArg (m.traceRecord i :: ·) hadded.traces_eq_nil

/-- A step that faults has none. -/
theorem traces_step_of_error {e : Fault} (h : m.step.result = .error e) :
    traces (m.step.events.map Event.record) = [] := by
  rcases step_of_error h with ⟨hs, -, -⟩ | ⟨hr, -, -⟩
  · rw [step_of_halted hs]
    rfl
  · rw [(records_step_of_error hr h).2, traces_append, Space.traces_missed]
    rfl

/-- The records of the level `trace` that a chain of steps adds list the instructions executed. -/
theorem traces_of_logged (h : Logged m j is f m' j') (complete : j.Complete) :
    j'.Complete ∧ traces j'.records = traces j.records ++ m.traceRecords is := by
  -- Each step adds one record of the level, and a fault none.
  induction h with
  | nil m j => exact ⟨complete, (List.append_nil _).symm⟩
  | fault j faulty =>
    refine ⟨complete.add _, ?_⟩
    rw [complete.records_add, traces_append, traces_step_of_error faulty, traceRecords]
  | cons head tail ih =>
    obtain ⟨hcomplete, htraces⟩ := ih (complete.add _)
    refine ⟨hcomplete, ?_⟩
    rw [htraces, complete.records_add, traces_append, traces_step_of_ok head, traceRecords,
      List.append_assoc, List.singleton_append]

/-- The records of the level `trace` that an operation adds list the instructions executed. -/
theorem traces_perform {op : Operation} {o : Outcome} (takes : op.TakesSteps) (h : j.Complete)
    (ho : m.perform j op = some o) :
    traces o.journal.records = traces j.records ++ m.traceRecords o.executed := by
  obtain ⟨j', es, hlogged, hjournal, hes⟩ := logged_of_perform takes ho
  obtain ⟨hcomplete, htraces⟩ := traces_of_logged hlogged h
  -- The report of the end is of another level.
  have hend : traces (es.map Event.record) = [] := by
    refine traces_eq_nil fun r hr => ?_
    obtain ⟨e, he, rfl⟩ := List.mem_map.mp hr
    obtain ⟨n, rfl⟩ := hes e he
    exact nofun
  rw [hjournal, hcomplete.records_add, traces_append, hend, List.append_nil, htraces]

/-- Steps that are taken one by one return the instructions that the records of the level `trace`
list. -/
theorem traces_performAll_step {is : List Instruction} (hsteps : Steps m is m') (h : j.Complete) :
    ∃ os j', performAll (is.map fun _ => .step) m j = some (os, m', j') ∧
      os.map Outcome.answer = is.map (fun i => .stepped (.ok i)) ∧
      traces j'.records = traces j.records ++ m.traceRecords is := by
  induction hsteps generalizing j with
  | nil m => exact ⟨[], j, rfl, rfl, (List.append_nil _).symm⟩
  | @cons m m' i is head tail ih =>
    obtain ⟨os, j', hall, hanswers, htraces⟩ := ih (h.add m.step.events)
    let first : Outcome :=
      ⟨.stepped m.step.result, executedFor 1 m, m.step.machine, j.add m.step.events⟩
    -- The first step adds its record, and the others add theirs behind it.
    have hfirst : traces (j.add m.step.events).records = traces j.records ++ [m.traceRecord i] := by
      rw [h.records_add, traces_append, traces_step_of_ok head]
    refine ⟨first :: os, j', ?_, ?_, ?_⟩
    · have hperform : m.perform j .step = some first := rfl
      rw [List.map_cons, performAll_cons hperform, hall]
      rfl
    · rw [List.map_cons, List.map_cons, hanswers]
      exact congrArg (Answer.stepped · :: _) head
    · rw [htraces, hfirst, List.append_assoc]
      rfl

/-- The log of a step of a running machine, with all levels kept. It tells of every nibble that was
fetched from an address that no mapping covers, the operation code first and then the operands,
with address 0 behind the last one. If there is no instruction, it tells of the illegal one, and
that is all. Otherwise it goes on with the instruction, its address, and the registers with their
instruction address behind the operands; then comes what the execution adds. Over any number of
steps that succeed, the records of the level `trace` list the instructions that the steps return,
each with its address and with the registers of the machine that executes it; the same goes for
runs, and what they execute. -/
theorem log_tells_what_happened (m : Machine) (running : m.status = .running) (j : Journal)
    (complete : j.Complete) :
    let s := m.space
    let a := m.registers.iar
    let log := (j.add m.step.events).records
    (∀ f, m.step.result = .error f →
      f = .illegalInstruction (s.read a) a ∧
      log = j.records ++ s.missed [a] ++
        [(.error, "illegal instruction " ++ (s.read a).digit ++ " at " ++ a.digits)]) ∧
    (∀ i, m.step.result = .ok i → ∃ added, m.AccessRecords i added ∧
      log = j.records ++ s.missed ((List.range i.size).map a.advance) ++
        m.traceRecord i :: added) ∧
    (∀ is m', Steps m is m' →
      ∃ os j', performAll (is.map fun _ => .step) m j = some (os, m', j') ∧
        os.map Outcome.answer = is.map (fun i => .stepped (.ok i)) ∧
        traces j'.records = traces j.records ++ m.traceRecords is) ∧
    ∀ op o, op.TakesSteps → m.perform j op = some o →
      Ends m o.executed o.answer.fault? o.machine ∧
      traces o.journal.records = traces j.records ++ m.traceRecords o.executed := by
  intro s a log
  have hlog : log = j.records ++ m.step.events.map Event.record := complete.records_add _
  -- One part for each way in which a step can end, then steps in a row, then operations.
  refine ⟨fun f hf => ?_, fun i hi => ?_, fun is m' hsteps => ?_, fun op o takes ho => ?_⟩
  · obtain ⟨hfault, hrecords⟩ := records_step_of_error running hf
    refine ⟨hfault, ?_⟩
    rw [hlog, hrecords, List.append_assoc]
  · obtain ⟨added, hadded, hrecords⟩ := records_step_of_ok hi
    refine ⟨added, hadded, ?_⟩
    rw [hlog, hrecords, List.append_assoc]
  · exact traces_performAll_step hsteps complete
  · exact ⟨ends_of_perform takes ho, traces_perform takes complete ho⟩

/-- A jump at the last address has its operands behind the end, where nothing is mapped and where
there is no instruction either. -/
theorem log_tells_what_happened_of_jump :
    let m : Machine :=
      { space := ⟨#[.ofDevice 0xFFF (.rom ⟨#[0x80]⟩)]⟩, registers := { iar := 0xFFF } }
    let j : Journal := .empty (some .trace)
    m.status = .running ∧ j.Complete ∧
    (j.add m.step.events).records =
      [(.debug, "read from unmapped address 000"), (.debug, "read from unmapped address 001"),
        (.debug, "read from unmapped address 002"), m.traceRecord (.jmp 0)] ∧
    ∃ o, m.perform j (.runLimited 9) = some o ∧
      traces o.journal.records = [m.traceRecord (.jmp 0)] := by
  intro m j
  obtain ⟨-, hok, -, hperform⟩ := log_tells_what_happened m rfl j rfl
  -- The operands are missing, which reads as zeros, so the jump goes to address 0.
  have hexecuted : executedFor (m.budget 9) m = [.jmp 0] := by decide +kernel
  have hresult : m.step.result = .ok (.jmp 0) := by
    rw [show m.budget 9 = 9 by decide, executedFor] at hexecuted
    cases hres : m.step.result with
    | ok i =>
      simp only [hres, List.cons.injEq] at hexecuted
      rw [hexecuted.1]
    | error f => simp [hres] at hexecuted
  obtain ⟨added, hadded, hlog⟩ := hok (.jmp 0) hresult
  have hmissed : m.space.missed ((List.range 4).map m.registers.iar.advance) =
      [(.debug, "read from unmapped address 000"), (.debug, "read from unmapped address 001"),
        (.debug, "read from unmapped address 002")] := by
    decide +kernel
  refine ⟨rfl, rfl, ?_, _, rfl, ?_⟩
  · rw [hlog, show added = [] from hadded]
    exact congrArg ([] ++ · ++ [m.traceRecord (.jmp 0)]) hmissed
  · rw [(hperform (.runLimited 9) _ (.runLimited 9) rfl).2, hexecuted]
    rfl

end Machine

end NandMachine
