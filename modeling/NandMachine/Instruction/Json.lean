import NandMachine.Instruction
import NandMachine.Machine.Json

/-!
# Instructions as JSON

An instruction is the name of its operation, or a record of its operands under that name.
-/

namespace NandMachine.Instruction

open Json

/-- The operand of an instruction that has one. -/
def oneOperand {α : Type} (name field : String) (read : Reader α) (make : α → Instruction)
    (unread : α) : String × Content Instruction :=
  let schema : Schema (Option α) :=
    { expected := .fieldsOf "Instruction" name, fields := [.part field id (fun _ => some) read] }
  (name, .fields fun v => (schema.read none v).map fun s => make (s.getD unread))

/-- The registers of an instruction that has two. -/
def twoRegisters (name first second : String) (make : Register → Register → Instruction) :
    String × Content Instruction :=
  let schema : Schema (Option Register × Option Register) :=
    { expected := .fieldsOf "Instruction" name
      fields := [.part first Prod.fst (fun s r => (some r, s.2)) Register.codec.read,
        .part second Prod.snd (fun s r => (s.1, some r)) Register.codec.read] }
  (name, .fields fun v => (schema.read (none, none) v).map fun s =>
    make (s.1.getD .a) (s.2.getD .a))

/-- The instructions by their names. Operands stand under their own names. -/
def alternatives : List (String × Content Instruction) := [
  oneOperand "Ldi" "value" Nibble.codec.read ldi 0,
  ("Lod", .plain lod),
  ("Str", .plain str),
  ("Sar", .plain sar),
  ("Sap", .plain sap),
  twoRegisters "Mov" "src" "dst" mov,
  oneOperand "Jmp" "target" Address.codec.read jmp 0,
  ("Rjp", .plain rjp),
  oneOperand "Jz" "target" Address.codec.read jz 0,
  twoRegisters "Nand" "a" "b" nand]

/-- A record of operands under the name of the operation. -/
def writeOperands (name : String) (operands : List (String × Value)) : Value :=
  .record [(name, .record operands)]

/-- Instructions as names or records. -/
def codec : Codec Instruction where
  write
    | ldi value => writeOperands "Ldi" [("value", Nibble.codec.write value)]
    | lod => .text "Lod"
    | str => .text "Str"
    | sar => .text "Sar"
    | sap => .text "Sap"
    | mov src dst =>
      writeOperands "Mov" [("src", Register.codec.write src), ("dst", Register.codec.write dst)]
    | jmp target => writeOperands "Jmp" [("target", Address.codec.write target)]
    | rjp => .text "Rjp"
    | jz target => writeOperands "Jz" [("target", Address.codec.write target)]
    | nand first second =>
      writeOperands "Nand" [("a", Register.codec.write first), ("b", Register.codec.write second)]
  read := readChoice alternatives

end NandMachine.Instruction
