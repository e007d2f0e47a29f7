import NandMachine.Machine
import NandMachine.Proofs.Instruction.Source

/-!
# Single steps

What one step of a running machine does, said once: it decodes the nibbles at the instruction
address and, if they are an instruction, executes it with the instruction address behind the
operands. The operands are fetched one by one, and addresses start again at 0 behind the last one;
`Space.readFrom` is what is found that way, and the proofs below know nothing else of fetching.

## Key results

- `pull_fetch`: the operands that a machine fetches are the nibbles that follow in memory
- `step_of_decoded`: a step with a legal operation code
- `step_of_illegal`: a step with a nibble that stands for no operation
-/

namespace NandMachine

/-! ## Nibbles in a row -/

namespace Space

/-- The nibbles at an address and the following ones; address 0 follows the last one. -/
def readFrom (s : Space) (a : Address) : Nat → List Nibble
  | 0 => []
  | k + 1 => s.read a :: s.readFrom a.next k

/-- What the reads of nibbles in a row report. -/
def readFromEvents (s : Space) (a : Address) : Nat → List Event
  | 0 => []
  | k + 1 => s.readEvents a ++ s.readFromEvents a.next k

/-- The only thing that a read can report is that there is no mapping. -/
theorem eq_readUnmapped_of_mem {s : Space} {a : Address} {e : Event} (h : e ∈ s.readEvents a) :
    e = .readUnmapped a := by
  unfold readEvents at h
  split at h
  · cases h
  · exact List.mem_singleton.mp h

/-- Reads in a row report nothing but addresses that no mapping covers. -/
theorem exists_readUnmapped_of_mem {s : Space} {a : Address} {k : Nat} {e : Event}
    (h : e ∈ s.readFromEvents a k) : ∃ b, e = .readUnmapped b := by
  induction k generalizing a with
  | zero => cases h
  | succ k ih =>
    rcases List.mem_append.mp h with h | h
    · exact ⟨a, eq_readUnmapped_of_mem h⟩
    · exact ih h

@[simp] theorem length_readFrom (s : Space) (a : Address) (k : Nat) :
    (s.readFrom a k).length = k := by
  induction k generalizing a with
  | zero => rfl
  | succ k ih => rw [readFrom, List.length_cons, ih]

/-- A nibble in the row is the one at the address that is so far behind the first one. -/
theorem getElem?_readFrom (s : Space) (a : Address) {j k : Nat} (h : j < k) :
    (s.readFrom a k)[j]? = some (s.read (a.advance j)) := by
  -- The row is taken apart from its start, so the address moves on with the index.
  induction k generalizing a j with
  | zero => omega
  | succ k ih =>
    rw [readFrom]
    cases j with
    | zero => rw [List.getElem?_cons_zero, Address.advance_zero]
    | succ j => rw [List.getElem?_cons_succ, ih a.next (by omega), Address.next_advance]

/-- A row of nibbles can be read in two parts. -/
theorem readFrom_add (s : Space) (a : Address) (j k : Nat) :
    s.readFrom a (j + k) = s.readFrom a j ++ s.readFrom (a.advance j) k := by
  induction j generalizing a with
  | zero => rw [Nat.zero_add, Address.advance_zero, readFrom, List.nil_append]
  | succ j ih =>
    rw [Nat.succ_add, readFrom, readFrom, ih, List.cons_append, Address.next_advance]

/-- The operands that a machine fetches are the nibbles that follow in memory. -/
theorem pull_fetch (s : Space) (k : Nat) (rs : Registers) (events : List Event) :
    Instruction.pull s.fetch k (rs, events) =
      (s.readFrom rs.iar k,
        { rs with iar := rs.iar.advance k }, events ++ s.readFromEvents rs.iar k) := by
  induction k generalizing rs events with
  | zero => simp [Instruction.pull, readFrom, readFromEvents]
  | succ k ih =>
    simp only [Instruction.pull, fetch, ih, readFrom, readFromEvents, Registers.advance,
      Address.next_advance, List.append_assoc]

end Space

/-! ## Steps of a running machine -/

namespace Machine

/-- The nibbles at the instruction address, as many as the longest instruction has. -/
def window (m : Machine) : List Nibble := m.space.readFrom m.registers.iar 4

/-- The machine that has fetched an instruction and not executed it yet. -/
def fetched (m : Machine) (i : Instruction) : Machine :=
  { m with registers.iar := m.registers.iar.advance i.size }

theorem window_eq (m : Machine) :
    m.window = m.space.read m.registers.iar :: m.space.readFrom m.registers.iar.next 3 := rfl

/-- A step that finds an instruction executes it. -/
theorem step_of_decoded {m : Machine} {i : Instruction} (hr : m.status = .running)
    (hd : Instruction.decodeList m.window = .ok i) :
    m.step =
      ⟨.ok i, { (m.fetched i).execute i with cycles := m.cycles + 1, last := some i },
        m.space.readFromEvents m.registers.iar i.size ++
          .executing i m.registers.iar (m.fetched i).registers ::
            (m.fetched i).executeEvents i⟩ := by
  rw [window_eq] at hd
  have ho := Instruction.ofCode?_of_decodeList hd
  have hsize : i.opcode.operandCount + 1 = i.size := Nat.add_comm ..
  -- The nibbles of the window that the operation does not want have no influence.
  have htake : (m.space.readFrom m.registers.iar.next 3).take i.opcode.operandCount =
      m.space.readFrom m.registers.iar.next i.opcode.operandCount := by
    have hle := i.size_le_four
    have hsplit := m.space.readFrom_add m.registers.iar.next i.opcode.operandCount
      (3 - i.opcode.operandCount)
    rw [show i.opcode.operandCount + (3 - i.opcode.operandCount) = 3 by omega] at hsplit
    rw [hsplit, List.take_left' (Space.length_readFrom ..)]
  rw [← Instruction.decodeList_take _ ho, htake] at hd
  have hiar : m.registers.iar.next.advance i.opcode.operandCount =
      m.registers.iar.advance i.size := by
    rw [← hsize, Address.next_advance]
  have hevents : m.space.readEvents m.registers.iar ++
      m.space.readFromEvents m.registers.iar.next i.opcode.operandCount =
        m.space.readFromEvents m.registers.iar i.size := by
    rw [← hsize, Space.readFromEvents]
  -- The decoder sees the machine as a source, which is behind the operands when it is done.
  simp only [step, hr, Space.fetch]
  rw [Instruction.decode_of_some _ _ ho, Space.pull_fetch]
  simp only [List.nil_append, Registers.advance, hd, hiar, hevents, fetched, hr]

/-- A step that finds no instruction halts the machine behind the nibble that it has fetched. -/
theorem step_of_illegal {m : Machine} (hr : m.status = .running)
    (hd : Opcode.ofCode? (m.space.read m.registers.iar) = none) :
    m.step =
      ⟨.error (.illegalInstruction (m.space.read m.registers.iar) m.registers.iar),
        { m with registers := m.registers.advance, status := .halted },
        m.space.readEvents m.registers.iar ++
          [.illegalInstruction (m.space.read m.registers.iar) m.registers.iar]⟩ := by
  simp only [step, hr, Space.fetch]
  rw [Instruction.decode_of_none _ _ hd]
  simp only [List.nil_append]

/-- If the first nibble is an operation code, the window is decoded as that operation. -/
theorem exists_decoded {m : Machine} {o : Opcode}
    (h : Opcode.ofCode? (m.space.read m.registers.iar) = some o) :
    ∃ i : Instruction, i.opcode = o ∧ Instruction.decodeList m.window = .ok i :=
  Instruction.decodeList_of_some _ h

end Machine

end NandMachine
