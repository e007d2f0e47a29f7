import NandMachine.Proofs.Machine.Step

/-!
# The instruction table

The table says, in numbers, how each instruction is spelled and what it does to each part of the
machine: where it goes on, which register it writes and what, which limbs of `addr` it sets, and
whether it stores. A step of a running machine does what the table says, over every space; a nibble
that is not in the table halts it.

## Key results

- `decodeList_eq_spelled?`: the decoder reads what the table spells
- `executes_of_decoded`: a step that finds an instruction changes the machine by its row
- `step_follows_table`: a step, from the nibbles in memory alone
-/

namespace NandMachine

/-- The register of a number: two bits name it. -/
def Register.numbered : Nat → Register
  | 0 => a
  | 1 => b
  | 2 => c
  | _ => d

namespace Instruction

/-- The instruction that an operation code and the three nibbles behind it spell. A pair of
registers has its first register in the upper two bits; a target has its high limb first. -/
def spelled? (code x y z : Nibble) : Option Instruction :=
  match code.toNat with
  | 1 => some (ldi x)
  | 2 => some lod
  | 3 => some str
  | 4 => some sar
  | 5 => some sap
  | 6 => some (mov (.numbered (x.toNat / 4)) (.numbered (x.toNat % 4)))
  | 8 => some (jmp (.ofNat (256 * x.toNat + 16 * y.toNat + z.toNat)))
  | 9 => some rjp
  | 10 => some (jz (.ofNat (256 * x.toNat + 16 * y.toNat + z.toNat)))
  | 13 => some (nand (.numbered (x.toNat / 4)) (.numbered (x.toNat % 4)))
  | _ => none

/-- Where an instruction goes on, if not behind its operands. -/
def jump? (i : Instruction) (rs : Registers) : Option Nat :=
  match i with
  | jmp target => some target.toNat
  | rjp => some (256 * rs.d.toNat + 16 * rs.a.toNat + rs.b.toNat)
  | jz target => if rs.a.toNat = 0 then some target.toNat else none
  | ldi _ | lod | str | sar | sap | mov _ _ | nand _ _ => none

/-- The register that an instruction writes, with its new value; both operands of `nand` are read
before. -/
def written? (i : Instruction) (rs : Registers) (s : Space) : Option (Register × Nat) :=
  match i with
  | ldi value => some (.a, value.toNat)
  | lod => some (.a, (s.read rs.addr).toNat)
  | mov src dst => some (dst, (rs.get src).toNat)
  | nand first second => some (first, 15 - ((rs.get first).toNat &&& (rs.get second).toNat))
  | str | sar | sap | jmp _ | rjp | jz _ => none

/-! ## Spelling -/

/-- Ten of the sixteen nibbles are operation codes. -/
theorem isSome_ofCode?_iff (n : Nibble) :
    (Opcode.ofCode? n).isSome ↔ n.toNat ∈ [1, 2, 3, 4, 5, 6, 8, 9, 10, 13] := by
  revert n; decide

/-- The upper two bits of a nibble name the first register. -/
private theorem first_eq_numbered (n : Nibble) : Register.first n = .numbered (n.toNat / 4) := by
  revert n; decide

/-- The lower two bits of a nibble name the second register. -/
private theorem second_eq_numbered (n : Nibble) : Register.second n = .numbered (n.toNat % 4) := by
  revert n; decide

/-- The decoder reads what the table spells. -/
theorem decodeList_eq_spelled? (code x y z : Nibble) :
    decodeList [code, x, y, z] =
      match spelled? code x y z with
      | some i => .ok i
      | none => .error ⟨code⟩ := by
  have htarget : Address.ofNat (256 * x.toNat + 16 * y.toNat + z.toNat) = ⟨z, y, x⟩ :=
    Address.ofNat_toNat ⟨z, y, x⟩
  cases ho : Opcode.ofCode? code with
  | none =>
    -- None of the ten rows is for the code, so the last one is.
    have hnot := (not_congr (isSome_ofCode?_iff code)).mp (by simp [ho])
    have hspelled : spelled? code x y z = none := by
      simp only [spelled?]
      split <;> simp_all
    rw [decodeList_of_none _ ho, hspelled]
  | some o =>
    obtain rfl := Opcode.code_of_ofCode? ho
    cases o <;>
      simp only [decodeList, takeNibble, decode, decodeAddress, ho, spelled?, htarget,
        ← first_eq_numbered, ← second_eq_numbered] <;> rfl

end Instruction

namespace Machine

/-- A machine comes from another one by an instruction, part by part. -/
structure Executes (i : Instruction) (m m' : Machine) : Prop where
  iar : m'.registers.iar.toNat =
    (i.jump? m.registers).getD ((m.registers.iar.toNat + i.size) % 4096)
  written : ∀ r v, i.written? m.registers m.space = some (r, v) → (m'.registers.get r).toNat = v
  kept : ∀ r, (∀ v, i.written? m.registers m.space ≠ some (r, v)) →
    m'.registers.get r = m.registers.get r
  low : m'.registers.addr.low = if i = .sar then m.registers.b else m.registers.addr.low
  mid : m'.registers.addr.mid = if i = .sar then m.registers.a else m.registers.addr.mid
  high : m'.registers.addr.high = if i = .sap then m.registers.a else m.registers.addr.high
  space : m'.space = if i = .str then m.space.write m.registers.addr m.registers.a else m.space
  status : m'.status = .running
  cycles : m.cycles.toNat < UInt64.size - 1 → m'.cycles.toNat = m.cycles.toNat + 1
  last : m'.last = some i

/-! ## Executing a fetched instruction -/

@[simp] private theorem get_fetched (m : Machine) (i : Instruction) (r : Register) :
    (m.fetched i).registers.get r = m.registers.get r := by
  cases r <;> rfl

/-- Execution goes on where the table says, or behind the operands. -/
private theorem iar_execute_fetched (m : Machine) (i : Instruction) :
    ((m.fetched i).execute i).registers.iar.toNat =
      (i.jump? m.registers).getD ((m.registers.iar.toNat + i.size) % 4096) := by
  cases i with
  | jmp target => rfl
  | rjp => rfl
  | jz target =>
    -- The accumulator is compared with zero as a nibble here and as a number in the table.
    simp only [execute, fetched, Instruction.jump?, Nibble.isZero_iff, Nibble.ext_iff,
      Nibble.toNat_zero]
    split
    · rfl
    · exact Address.toNat_advance ..
  | mov src dst =>
    simp only [execute, Registers.iar_set]
    exact Address.toNat_advance ..
  | nand first second =>
    simp only [execute, Registers.iar_set]
    exact Address.toNat_advance ..
  | ldi | lod | str | sar | sap => exact Address.toNat_advance ..

/-- A conditional jump sets the instruction address and nothing else. -/
private theorem execute_jz (m : Machine) (target : Address) :
    ∃ a, m.execute (.jz target) = { m with registers.iar := a } := by
  simp only [execute]
  split
  · exact ⟨target, rfl⟩
  · exact ⟨m.registers.iar, rfl⟩

/-- Execution writes the register that the table says, and no other. -/
private theorem get_execute_fetched (m : Machine) (i : Instruction) (r : Register) :
    (∀ v, i.written? m.registers m.space = some (r, v) →
      (((m.fetched i).execute i).registers.get r).toNat = v) ∧
    ((∀ v, i.written? m.registers m.space ≠ some (r, v)) →
      ((m.fetched i).execute i).registers.get r = m.registers.get r) := by
  cases i with
  | ldi value => cases r <;> simp [Instruction.written?, execute, fetched, Registers.get]
  | lod => cases r <;> simp [Instruction.written?, execute, fetched, Registers.get]
  | mov src dst =>
    simp only [Instruction.written?, execute, get_fetched]
    by_cases h : r = dst
    · subst h; simp
    · simp [Registers.get_set_of_ne _ _ h, Ne.symm h]
  | nand first second =>
    -- Both operands are read before the first one is written, so they may be the same register.
    simp only [Instruction.written?, execute, get_fetched]
    by_cases h : r = first
    · subst h; simp [Nibble.toNat_nand]
    · simp [Registers.get_set_of_ne _ _ h, Ne.symm h]
  | jz target =>
    obtain ⟨a, ha⟩ := execute_jz (m.fetched (.jz target)) target
    rw [ha]
    cases r <;> simp [Instruction.written?, fetched, Registers.get]
  | str | sar | sap | jmp | rjp =>
    cases r <;> simp [Instruction.written?, execute, fetched, Registers.get, Registers.jump]

/-- Only `sar` and `sap` set limbs of the operand address. -/
private theorem addr_execute_fetched (m : Machine) (i : Instruction) :
    ((m.fetched i).execute i).registers.addr =
      ⟨if i = .sar then m.registers.b else m.registers.addr.low,
        if i = .sar then m.registers.a else m.registers.addr.mid,
        if i = .sap then m.registers.a else m.registers.addr.high⟩ := by
  -- The conditional jump is the only one whose result is not known yet.
  cases i with
  | jz target =>
    obtain ⟨a, ha⟩ := execute_jz (m.fetched (.jz target)) target
    rw [ha]
    simp [fetched]
  | mov src dst => simp [execute, fetched]
  | nand first second => simp [execute, fetched]
  | ldi | lod | str | sar | sap | jmp | rjp => simp [execute, fetched, Registers.jump]

/-- Only `str` writes to the space. -/
theorem space_execute (m : Machine) (i : Instruction) :
    (m.execute i).space =
      if i = .str then m.space.write m.registers.addr m.registers.a else m.space := by
  cases i with
  | jz target =>
    obtain ⟨a, ha⟩ := execute_jz m target
    rw [ha]
    simp
  | ldi | lod | str | sar | sap | mov | jmp | rjp | nand => simp [execute]

/-- Execution leaves the status as it is. -/
theorem status_execute (m : Machine) (i : Instruction) : (m.execute i).status = m.status := by
  cases i with
  | jz target =>
    obtain ⟨a, ha⟩ := execute_jz m target
    rw [ha]
  | ldi | lod | str | sar | sap | mov | jmp | rjp | nand => rfl

/-! ## Steps by the table -/

/-- A step that finds an instruction executes it as the table says. -/
theorem executes_of_decoded {m : Machine} {i : Instruction} (hr : m.status = .running)
    (hd : Instruction.decodeList m.window = .ok i) :
    m.step.result = .ok i ∧ Executes i m m.step.machine := by
  rw [step_of_decoded hr hd]
  refine ⟨rfl, ?_⟩
  exact
    { iar := iar_execute_fetched m i
      written := fun r => (get_execute_fetched m i r).1
      kept := fun r => (get_execute_fetched m i r).2
      low := by rw [addr_execute_fetched]
      mid := by rw [addr_execute_fetched]
      high := by rw [addr_execute_fetched]
      space := space_execute (m.fetched i) i
      status := (status_execute (m.fetched i) i).trans hr
      -- The count is a word, so it is a number plus one only below the highest.
      cycles := by
        intro h
        show (m.cycles + 1).toNat = _
        have hlt : m.cycles.toNat + 1 < UInt64.size := by omega
        rw [UInt64.toNat_add, UInt64.toNat_one]
        exact Nat.mod_eq_of_lt hlt
      last := rfl }

/-- A running machine does what the instruction table says about the nibbles at the instruction
address, which are counted on modulo 4096. If the first one is an operation code, the step returns
the instruction that the four nibbles spell, which is the one that is decoded from them, and changes
the machine by its row and nothing else. Otherwise the step reports the nibble and its address, and
all that changes is that the machine is halted behind it. -/
theorem step_follows_table (m : Machine) (hr : m.status = .running) :
    let n (k : Nat) : Nibble := m.space.read (.ofNat (m.registers.iar.toNat + k))
    ((n 0).toNat ∈ [1, 2, 3, 4, 5, 6, 8, 9, 10, 13] →
      ∃ i, Instruction.spelled? (n 0) (n 1) (n 2) (n 3) = some i ∧
        Instruction.decodeList [n 0, n 1, n 2, n 3] = .ok i ∧
        m.step.result = .ok i ∧ Executes i m m.step.machine) ∧
    ((n 0).toNat ∉ [1, 2, 3, 4, 5, 6, 8, 9, 10, 13] →
      m.step.result = .error (.illegalInstruction (n 0) m.registers.iar) ∧
      m.step.machine =
        { m with
          registers.iar := .ofNat (m.registers.iar.toNat + 1)
          status := .halted }) := by
  intro n
  -- The nibbles of the statement are the window that a step decodes.
  have hn0 : n 0 = m.space.read m.registers.iar :=
    congrArg m.space.read (Address.advance_zero m.registers.iar)
  have hwindow : m.window = [n 0, n 1, n 2, n 3] := by
    apply List.ext_getElem?
    intro j
    rcases Nat.lt_or_ge j 4 with hj | hj
    · rw [window, Space.getElem?_readFrom _ _ hj]
      match j, hj with
      | 0, _ | 1, _ | 2, _ | 3, _ => rfl
    · rw [List.getElem?_eq_none (by rw [window, Space.length_readFrom]; exact hj),
        List.getElem?_eq_none (by simpa using hj)]
  refine ⟨?_, ?_⟩
  · intro hlegal
    rw [← Instruction.isSome_ofCode?_iff, hn0] at hlegal
    obtain ⟨o, ho⟩ := Option.isSome_iff_exists.mp hlegal
    obtain ⟨i, -, hd⟩ := exists_decoded ho
    have hlist : Instruction.decodeList [n 0, n 1, n 2, n 3] = .ok i := hwindow ▸ hd
    refine ⟨i, ?_, hlist, executes_of_decoded hr hd⟩
    rw [Instruction.decodeList_eq_spelled?] at hlist
    split at hlist
    · next hspelled => rw [hspelled, Except.ok.inj hlist]
    · exact nomatch hlist
  · -- The nibble is in no row, so the machine is halted behind it.
    intro hillegal
    rw [← Instruction.isSome_ofCode?_iff, hn0, Option.not_isSome_iff_eq_none] at hillegal
    have hnext : m.registers.iar.next = .ofNat (m.registers.iar.toNat + 1) := by
      rw [← Address.advance_zero m.registers.iar.next, Address.next_advance]
      rfl
    rw [step_of_illegal hr hillegal, hn0]
    refine ⟨rfl, ?_⟩
    simp only [Registers.advance, hnext]

/-- A jump at the last but one address, whose other operands are found at the start of the space. -/
theorem step_follows_table_across_end :
    let m : Machine :=
      { registers := { iar := 0xFFE },
        space := ⟨#[.ofDevice 0 (.rom ⟨#[0x23]⟩), .ofDevice 0xFFE (.rom ⟨#[0x81]⟩)]⟩ }
    m.status = .running ∧ m.step.result = .ok (.jmp 0x123) ∧
      Executes (.jmp 0x123) m m.step.machine := by
  intro m
  obtain ⟨i, hspelled, -, hresult, hexecutes⟩ := (step_follows_table m rfl).1 (by decide)
  have hi : some i = some (.jmp 0x123) := hspelled.symm.trans (by decide)
  obtain rfl := Option.some.inj hi
  exact ⟨rfl, hresult, hexecutes⟩

end Machine

end NandMachine
