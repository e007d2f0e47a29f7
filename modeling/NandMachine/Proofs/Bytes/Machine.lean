import NandMachine.Machine
import NandMachine.Proofs.Bytes.Memory

/-!
# Machines made of bytes

The machine with bytes in the place of nibbles. A step of it fetches, decodes and executes what it
finds in its registers and its space, whatever the bytes are; there is no report.

## Key results

- `Machine.execute_bytes`: execution works on bytes as it does on nibbles
- `Machine.step_bytes`: so does a whole step, with its result
-/

namespace NandMachine.Bytewise

/-- Why a machine cannot go on. -/
inductive Fault
  | illegalInstruction (opcode : UInt8) (address : Address)
  | notRunning (status : Status)
deriving DecidableEq

/-- The bytes that stand for nibbles. -/
def Fault.stored : Fault → List UInt8
  | illegalInstruction opcode address => opcode :: address.stored
  | notRunning _ => []

/-- Registers over a space, both made of bytes. -/
structure Machine where
  registers : Registers := {}
  space : Space := {}
  status : Status := .running
  cycles : UInt64 := 0
  last : Option Instruction := none
deriving DecidableEq

namespace Machine

/-- The bytes that stand for nibbles. -/
def stored (m : Machine) : List UInt8 :=
  m.registers.stored ++ m.space.stored ++ m.last.toList.flatMap Instruction.stored

/-- A machine in front of its first step. -/
def start (space : Space) : Machine := { space }

/-- The machine as it starts, over the same space as it is now. -/
def reset (m : Machine) : Machine := start m.space

/-- The byte at the instruction address, and the machine behind it. -/
def fetch (m : Machine) : UInt8 × Machine :=
  (m.space.read m.registers.iar, { m with registers := m.registers.advance })

/-- The machine after an instruction whose operands have been fetched. -/
def execute (m : Machine) : Instruction → Machine
  | .ldi value => { m with registers.a := value }
  | .lod => { m with registers.a := m.space.read m.registers.addr }
  | .str => { m with space := m.space.write m.registers.addr m.registers.a }
  | .sar =>
    { m with
      registers.addr := { m.registers.addr with mid := m.registers.a, low := m.registers.b } }
  | .sap => { m with registers.addr := { m.registers.addr with high := m.registers.a } }
  | .mov src dst => { m with registers := m.registers.set dst (m.registers.get src) }
  | .jmp target => { m with registers := m.registers.jump target }
  | .rjp =>
    { m with registers := m.registers.jump ⟨m.registers.b, m.registers.a, m.registers.d⟩ }
  | .jz target => if m.registers.a == 0 then { m with registers := m.registers.jump target } else m
  | .nand first second =>
    { m with registers :=
        m.registers.set first (Bytewise.nand (m.registers.get first) (m.registers.get second)) }

/-- Fetches and executes one instruction. -/
def step (m : Machine) : Except Fault Instruction × Machine :=
  match m.status with
  | .halted => (.error (.notRunning .halted), m)
  | .running =>
    let (code, fetched) := m.fetch
    match Instruction.decode fetch code fetched with
    | (.error opcode, ready) =>
      (.error (.illegalInstruction opcode m.registers.iar), { ready with status := .halted })
    | (.ok i, ready) => (.ok i, { ready.execute i with cycles := m.cycles + 1, last := some i })

end Machine

end NandMachine.Bytewise

namespace NandMachine

open Bytewise (InRange)

/-- The fault with the bytes of what it names. -/
def Fault.bytes : Fault → Bytewise.Fault
  | illegalInstruction opcode address => .illegalInstruction opcode.byte address.bytes
  | notRunning status => .notRunning status

/-- The bytes of a fault are in range. -/
theorem Fault.inRange_bytes (f : Fault) : InRange f.bytes.stored := by
  cases f with
  | illegalInstruction opcode address =>
    exact Bytewise.inRange_cons.mpr ⟨opcode.byte_le, address.inRange_bytes⟩
  | notRunning status => exact Bytewise.inRange_nil

namespace Machine

/-- The machine with the bytes of all that it holds. -/
def bytes (m : Machine) : Bytewise.Machine :=
  ⟨m.registers.bytes, m.space.bytes, m.status, m.cycles, m.last.map Instruction.bytes⟩

/-- The bytes of a machine are in range. -/
theorem inRange_bytes (m : Machine) : InRange m.bytes.stored := by
  have hlast : InRange (m.bytes.last.toList.flatMap Bytewise.Instruction.stored) := by
    simp only [bytes]
    cases m.last with
    | none => exact Bytewise.inRange_nil
    | some i => simpa using i.inRange_bytes
  simp only [Bytewise.Machine.stored, Bytewise.inRange_append]
  exact ⟨⟨m.registers.inRange_bytes, m.space.inRange_bytes⟩, hlast⟩

/-- A fetch works on bytes as it does on nibbles. -/
theorem fetch_bytes (m : Machine) : m.bytes.fetch = (m.fetch.1.byte, m.fetch.2.bytes) := by
  rw [Bytewise.Machine.fetch]
  show (m.space.bytes.read m.registers.iar.bytes, _) = _
  rw [Space.read_bytes]
  rfl

/-- Execution works on bytes as it does on nibbles. -/
theorem execute_bytes (m : Machine) (i : Instruction) :
    m.bytes.execute i.bytes = (m.execute i).bytes := by
  -- Each operation changes one part of the machine, by an operation that works on bytes as on
  -- nibbles.
  cases i with
  | ldi | sar | sap | jmp | rjp => rfl
  | lod =>
    have hread := m.space.read_bytes m.registers.addr
    exact congrArg (fun a => { m.bytes with registers.a := a }) hread
  | str =>
    have hwrite := m.space.write_bytes m.registers.addr m.registers.a
    exact congrArg (fun space => { m.bytes with space }) hwrite
  | mov src dst =>
    have hset : m.registers.bytes.set dst (m.registers.bytes.get src) =
        (m.registers.set dst (m.registers.get src)).bytes := by
      rw [Registers.get_bytes, Registers.set_bytes]
    exact congrArg (fun registers => { m.bytes with registers }) hset
  | jz target =>
    -- Both look at the byte of the register.
    show (if m.registers.a.isZero then _ else m.bytes) =
      (if m.registers.a.isZero then _ else m).bytes
    by_cases hzero : m.registers.a.isZero
    · rw [if_pos hzero, if_pos hzero]
      rfl
    · rw [if_neg hzero, if_neg hzero]
  | nand first second =>
    let x := m.registers.get first
    let y := m.registers.get second
    have hset : m.registers.bytes.set first
        (Bytewise.nand (m.registers.bytes.get first) (m.registers.bytes.get second)) =
          (m.registers.set first (x.nand y)).bytes := by
      have hnand : Bytewise.nand x.byte y.byte = (x.nand y).byte := rfl
      rw [Registers.get_bytes, Registers.get_bytes, hnand, Registers.set_bytes]
    exact congrArg (fun registers => { m.bytes with registers }) hset

/-- What comes of a step, made of bytes and without its report. -/
def Step.bytes (s : Step) : Except Bytewise.Fault Bytewise.Instruction × Bytewise.Machine :=
  match s.result with
  | .ok i => (.ok i.bytes, s.machine.bytes)
  | .error f => (.error f.bytes, s.machine.bytes)

@[simp] theorem Step.bytes_snd (s : Step) : s.bytes.2 = s.machine.bytes := by
  rw [Step.bytes]
  cases s.result <;> rfl

/-- A step works on bytes as it does on nibbles. -/
theorem step_bytes (m : Machine) : m.bytes.step = m.step.bytes := by
  obtain ⟨registers, space, status, cycles, last⟩ := m
  cases status with
  | halted => rfl
  | running =>
    let m : Machine := ⟨registers, space, .running, cycles, last⟩
    show m.bytes.step = m.step.bytes
    -- While nibbles are fetched, only the registers of the machine change.
    let ready (st : Registers × List Event) : Bytewise.Machine :=
      { m.bytes with registers := st.1.bytes }
    have hnext : ∀ st, (ready st).fetch = ((space.fetch st).1.byte, ready (space.fetch st).2) := by
      intro st
      show (space.bytes.read st.1.iar.bytes, _) = _
      rw [Space.read_bytes]
      rfl
    -- The operation code comes first, and then decoding goes on from the same state.
    have hfirst : m.bytes.fetch = _ := hnext (registers, [])
    have hdecode := Instruction.decode_bytes hnext (space.fetch (registers, [])).1
      (space.fetch (registers, [])).2
    have hrunning : m.bytes.status = .running := rfl
    have hrunning' : m.status = .running := rfl
    simp only [Bytewise.Machine.step, step, hrunning, hrunning', hfirst, hdecode]
    rcases Instruction.decode space.fetch (space.fetch (registers, [])).1
      (space.fetch (registers, [])).2 with ⟨e | i, registers, events⟩
    · rfl
    · have hexecute := execute_bytes { m with registers } i
      -- Both count the step and note the instruction.
      let count (m' : Bytewise.Machine) : Bytewise.Machine :=
        { m' with cycles := cycles + 1, last := some i.bytes }
      exact congrArg (fun m' => (Except.ok i.bytes, count m')) hexecute

end Machine

end NandMachine
