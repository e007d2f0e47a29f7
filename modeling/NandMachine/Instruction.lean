import NandMachine.Registers

/-!
# Instructions

Ten operation codes, each with a fixed number of operand nibbles behind it. An instruction is an
operation with its operands taken apart.
-/

namespace NandMachine

/-- The operations of the machine. -/
inductive Opcode
  | ldi
  | lod
  | str
  | sar
  | sap
  | mov
  | jmp
  | rjp
  | jz
  | nand
deriving DecidableEq, Inhabited

namespace Opcode

/-- The nibble that stands for an operation. -/
def code : Opcode → Nibble
  | ldi => 0x1
  | lod => 0x2
  | str => 0x3
  | sar => 0x4
  | sap => 0x5
  | mov => 0x6
  | jmp => 0x8
  | rjp => 0x9
  | jz => 0xA
  | nand => 0xD

/-- The operation that a nibble stands for; six nibbles stand for none. -/
def ofCode? (n : Nibble) : Option Opcode :=
  match n.byte with
  | 0x1 => some ldi
  | 0x2 => some lod
  | 0x3 => some str
  | 0x4 => some sar
  | 0x5 => some sap
  | 0x6 => some mov
  | 0x8 => some jmp
  | 0x9 => some rjp
  | 0xA => some jz
  | 0xD => some nand
  | _ => none

/-- The number of nibbles that follow the operation code. -/
def operandCount : Opcode → Nat
  | ldi | mov | nand => 1
  | lod | str | sar | sap | rjp => 0
  | jmp | jz => 3

@[simp] theorem ofCode?_code (o : Opcode) : ofCode? o.code = some o := by
  cases o <;> rfl

/-- A nibble that stands for an operation is the code of that operation. -/
theorem code_of_ofCode? {n : Nibble} {o : Opcode} (h : ofCode? n = some o) : o.code = n := by
  revert n
  cases o <;> decide

end Opcode

/-- An instruction with its operands. -/
inductive Instruction
  /-- `a` becomes the value. -/
  | ldi (value : Nibble)
  /-- `a` becomes the nibble at `addr`. -/
  | lod
  /-- The nibble at `addr` becomes `a`. -/
  | str
  /-- The middle limb of `addr` becomes `a`, the low limb `b`. -/
  | sar
  /-- The high limb of `addr` becomes `a`. -/
  | sap
  /-- `dst` becomes `src`. -/
  | mov (src dst : Register)
  /-- Go on at the target. -/
  | jmp (target : Address)
  /-- Go on at the address with the limbs `d`, `a`, `b`, high limb first. -/
  | rjp
  /-- Go on at the target if `a` is zero. -/
  | jz (target : Address)
  /-- The first register becomes the NAND of both. -/
  | nand (first second : Register)
deriving DecidableEq, Inhabited

namespace Instruction

/-- The operation of an instruction. -/
def opcode : Instruction → Opcode
  | ldi _ => .ldi
  | lod => .lod
  | str => .str
  | sar => .sar
  | sap => .sap
  | mov _ _ => .mov
  | jmp _ => .jmp
  | rjp => .rjp
  | jz _ => .jz
  | nand _ _ => .nand

/-- The number of nibbles that an instruction takes up, its operation code included. -/
def size (i : Instruction) : Nat := 1 + i.opcode.operandCount

/-- An instruction takes up its operation code at least. -/
theorem size_pos (i : Instruction) : 0 < i.size := by
  simp only [size]
  omega

/-- No instruction takes up more than four nibbles. -/
theorem size_le_four (i : Instruction) : i.size ≤ 4 := by
  cases i <;> simp [size, opcode, Opcode.operandCount]

/-- The name of the operation and the operands with their names, in one line. -/
def text : Instruction → String
  | ldi value => Text.record "Ldi" [("value", value.text)]
  | lod => "Lod"
  | str => "Str"
  | sar => "Sar"
  | sap => "Sap"
  | mov src dst => Text.record "Mov" [("src", src.name), ("dst", dst.name)]
  | jmp target => Text.record "Jmp" [("target", target.text)]
  | rjp => "Rjp"
  | jz target => Text.record "Jz" [("target", target.text)]
  | nand first second => Text.record "Nand" [("a", first.name), ("b", second.name)]

end Instruction

end NandMachine
