import NandMachine.Instruction.Code
import NandMachine.Memory.Space

/-!
# The machine

A machine is a register file over an address space. One step fetches an operation code and its
operands, each at the instruction address, which moves on by one every time; then it executes the
instruction. A nibble that stands for no operation halts the machine for good. A step is a
function: what it reports is part of its result.
-/

namespace NandMachine

/-- Whether a machine goes on. -/
inductive Status
  | running
  /-- An illegal instruction has been met. -/
  | halted
deriving DecidableEq, Inhabited

/-- The name of a status. -/
def Status.name : Status → String
  | running => "Running"
  | halted => "Halted"

/-- Registers over an address space, with an account of what has been executed. -/
structure Machine where
  registers : Registers := {}
  space : Space := {}
  status : Status := .running
  /-- The number of instructions executed since the start. -/
  cycles : UInt64 := 0
  /-- The instruction executed last. -/
  last : Option Instruction := none
deriving DecidableEq, Inhabited

/-- Why a machine cannot go on. -/
inductive Fault
  | illegalInstruction (opcode : Nibble) (address : Address)
  /-- The machine was not running in the first place. -/
  | notRunning (status : Status)
deriving DecidableEq

/-- The text of a fault. -/
def Fault.message : Fault → String
  | illegalInstruction opcode address =>
    "illegal instruction " ++ opcode.digit ++ " at " ++ address.digits
  | notRunning status => "CPU not running: " ++ status.name

/-- The nibble at the instruction address, which moves on by one; what reads report is gathered. -/
def Space.fetch (s : Space) (st : Registers × List Event) : Nibble × Registers × List Event :=
  (s.read st.1.iar, st.1.advance, st.2 ++ s.readEvents st.1.iar)

namespace Machine

/-- A machine in front of its first step. -/
def start (space : Space) : Machine := { space }

/-- The machine as it starts, over the same space as it is now. -/
def reset (m : Machine) : Machine := start m.space

/-- The nibble at the instruction address, and the machine behind it. -/
def fetch (m : Machine) : Nibble × Machine :=
  (m.space.read m.registers.iar, { m with registers := m.registers.advance })

/-- The report of a fetch. -/
def fetchEvents (m : Machine) : List Event := m.space.readEvents m.registers.iar

/-! ### Executing -/

/-- The machine after an instruction whose operands have been fetched. -/
def execute (m : Machine) : Instruction → Machine
  | .ldi value => { m with registers.a := value }
  | .lod => { m with registers.a := m.space.read m.registers.addr }
  | .str => { m with space := m.space.write m.registers.addr m.registers.a }
  -- Storing to an address takes two instructions, one for two limbs and one for the third.
  | .sar =>
    { m with
      registers.addr := { m.registers.addr with mid := m.registers.a, low := m.registers.b } }
  | .sap => { m with registers.addr := { m.registers.addr with high := m.registers.a } }
  | .mov src dst => { m with registers := m.registers.set dst (m.registers.get src) }
  | .jmp target => { m with registers := m.registers.jump target }
  -- The limbs of the target stand in registers: `d` is the high one, `b` the low one.
  | .rjp =>
    { m with registers := m.registers.jump ⟨m.registers.b, m.registers.a, m.registers.d⟩ }
  | .jz target =>
    if m.registers.a.isZero then { m with registers := m.registers.jump target } else m
  | .nand first second =>
    { m with registers :=
        m.registers.set first ((m.registers.get first).nand (m.registers.get second)) }

/-- The report of an instruction whose operands have been fetched. -/
def executeEvents (m : Machine) : Instruction → List Event
  | .lod => m.space.readEvents m.registers.addr
  | .str => m.space.writeEvents m.registers.addr m.registers.a
  | _ => []

/-! ### Steps -/

/-- What comes of a step. -/
structure Step where
  /-- The instruction that was executed, or why none was. -/
  result : Except Fault Instruction
  machine : Machine
  events : List Event

/-- Fetches and executes one instruction. -/
def step (m : Machine) : Step :=
  match m.status with
  | .halted => ⟨.error (.notRunning .halted), m, []⟩
  | .running =>
    let start := m.registers.iar
    let (code, st) := m.space.fetch (m.registers, [])
    match Instruction.decode m.space.fetch code st with
    | (.error e, registers, events) =>
      -- The code has been fetched: the instruction address stands behind it.
      ⟨.error (.illegalInstruction e.opcode start), { m with registers, status := .halted },
        events ++ [.illegalInstruction e.opcode start]⟩
    | (.ok i, registers, events) =>
      let ready := { m with registers }
      -- Execution sees the registers behind the operands, so a jump overrides the advance.
      let executed := ready.executeEvents i
      ⟨.ok i, { ready.execute i with cycles := m.cycles + 1, last := some i },
        events ++ .executing i start registers :: executed⟩

/-- A halted machine refuses a step and stays as it is. -/
theorem step_of_halted {m : Machine} (h : m.status = .halted) :
    m.step = ⟨.error (.notRunning .halted), m, []⟩ := by
  rw [step, h]

/-- The state, the count of cycles and the registers in one line of text. -/
def text (m : Machine) : String :=
  Text.record "Cpu" [("state", m.status.name), ("cycles", toString m.cycles.toNat),
    ("regs", m.registers.text)]

end Machine

end NandMachine
