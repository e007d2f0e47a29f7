import NandMachine.Instruction.Json
import NandMachine.Proofs.Bytes.Value
import NandMachine.Proofs.Json.Mirror

/-!
# Reading values made of bytes

The readers of addresses, registers and instructions, with bytes in the place of nibbles. A text can
give a whole byte for a nibble; the reader of a nibble keeps the low half, and nothing else in a
reader looks at the byte again.

## Key results

- `Registers.read_bytes`, `Instruction.read_bytes`: bytes are read as nibbles are, errors included
- `inRange_of_parse_registers`, `inRange_of_parse_instruction`: no text yields a byte above 15
-/

namespace NandMachine.Bytewise

open Json

/-- A byte, of which the low half counts. -/
def readNibble : Reader UInt8 := fun v => (readByte v).map lowHalf

/-- The value that a text holds, for any reader. -/
def parseWith {α : Type} (read : Reader α) (text : String) : Except ReadError α := do
  let document := Document.ofText text
  let a ← read document.value
  if document.clean then return a else .error .syntaxError

theorem parseWith_codec {α : Type} (codec : Codec α) : parseWith codec.read = codec.parse := rfl

/-- A result that has been changed by a function was a result before. -/
theorem exists_of_map_eq_ok {α β ε : Type} {g : α → β} {r : Except ε α} {b : β}
    (h : r.map g = .ok b) : ∃ a, r = .ok a ∧ g a = b := by
  cases r with
  | error e => exact nomatch h
  | ok a => exact ⟨a, rfl, Except.ok.inj h⟩

/-- A text is read like one for a reader that the reader mirrors. -/
theorem parseWith_map {α β : Type} {g : α → β} {read : Reader α} {read' : Reader β}
    (h : ∀ v, read' v = (read v).map g) (text : String) :
    parseWith read' text = (parseWith read text).map g := by
  simp only [parseWith, h]
  cases read (Document.ofText text).value with
  | error e => rfl
  | ok a => cases hclean : (Document.ofText text).clean <;> rfl

namespace Address

/-- The only field of an address. -/
def schema : Schema (Option Address) where
  expected := .record "Addr12"
  fields := [.part "limbs" id (fun _ => some)
    fun v => (readThree readNibble v).map fun (low, mid, high) => ⟨low, mid, high⟩]

/-- Addresses as records of their limbs. -/
def read : Reader Address := fun v => (schema.read none v).map (·.getD ⟨0, 0, 0⟩)

end Address

namespace Registers

/-- The registers that have been read. -/
structure Draft where
  a : Option UInt8 := none
  b : Option UInt8 := none
  c : Option UInt8 := none
  d : Option UInt8 := none
  iar : Option Address := none
  addr : Option Address := none

/-- The fields of a register file. -/
def schema : Schema Draft where
  expected := .record "Registers"
  fields := [
    .part "a" Draft.a (fun s n => { s with a := n }) readNibble,
    .part "b" Draft.b (fun s n => { s with b := n }) readNibble,
    .part "c" Draft.c (fun s n => { s with c := n }) readNibble,
    .part "d" Draft.d (fun s n => { s with d := n }) readNibble,
    .part "iar" Draft.iar (fun s x => { s with iar := x }) Address.read,
    .part "addr" Draft.addr (fun s x => { s with addr := x }) Address.read]

/-- The register file of a draft. -/
def ofDraft (s : Draft) : Registers :=
  ⟨s.a.getD 0, s.b.getD 0, s.c.getD 0, s.d.getD 0, s.iar.getD ⟨0, 0, 0⟩, s.addr.getD ⟨0, 0, 0⟩⟩

/-- Register files as records. -/
def read : Reader Registers := fun v => (schema.read {} v).map ofDraft

end Registers

namespace Instruction

/-- The operand of an instruction that has one. -/
def oneOperand {α : Type} (name field : String) (read : Reader α) (make : α → Instruction)
    (unread : α) : String × Content Instruction :=
  let schema : Schema (Option α) :=
    { expected := .fieldsOf "Instruction" name, fields := [.part field id (fun _ => some) read] }
  (name, .fields fun v => (schema.read none v).map fun s => make (s.getD unread))

/-- The registers of an instruction that has two. -/
def twoRegisters (name first second : String) (make : Register → Register → Instruction) :
    String × Content Instruction :=
  let schema : Schema (Option Register × Option Register) :=
    { expected := .fieldsOf "Instruction" name
      fields := [.part first Prod.fst (fun s r => (some r, s.2)) Register.codec.read,
        .part second Prod.snd (fun s r => (s.1, some r)) Register.codec.read] }
  (name, .fields fun v => (schema.read (none, none) v).map fun s =>
    make (s.1.getD .a) (s.2.getD .a))

/-- The instructions by their names. -/
def alternatives : List (String × Content Instruction) := [
  oneOperand "Ldi" "value" readNibble ldi 0,
  ("Lod", .plain lod),
  ("Str", .plain str),
  ("Sar", .plain sar),
  ("Sap", .plain sap),
  twoRegisters "Mov" "src" "dst" mov,
  oneOperand "Jmp" "target" Address.read jmp ⟨0, 0, 0⟩,
  ("Rjp", .plain rjp),
  oneOperand "Jz" "target" Address.read jz ⟨0, 0, 0⟩,
  twoRegisters "Nand" "a" "b" nand]

/-- Instructions as names or records. -/
def read : Reader Instruction := readChoice alternatives

end Instruction

end NandMachine.Bytewise

namespace NandMachine

open Json
open Bytewise (InRange parseWith)

/-! ## Nibbles and addresses -/

/-- A nibble is read as the byte that holds it. -/
theorem Nibble.read_bytes (v : Value) :
    Bytewise.readNibble v = (Nibble.codec.read v).map Nibble.byte := by
  show (readByte v).map Bytewise.lowHalf = ((readByte v).map Nibble.ofByte).map Nibble.byte
  cases readByte v <;> rfl

/-- Limbs that are bytes are filled in as limbs that are nibbles. -/
theorem Address.schema_mirrors :
    Schema.Mirrors (Option.map bytes) schema Bytewise.Address.schema where
  expected := rfl
  closedKeys := rfl
  optional := rfl
  fields := by
    apply List.Forall₂.cons _ .nil
    apply Field.Mirrors.part (g := bytes)
    · intro s
      cases s <;> rfl
    · intro s a
      rfl
    · intro v
      rw [readThree_map Nibble.read_bytes]
      cases readThree Nibble.codec.read v <;> rfl

/-- Addresses are read as bytes in the way that they are read as nibbles. -/
theorem Address.read_bytes (v : Value) :
    Bytewise.Address.read v = (codec.read v).map bytes := by
  have h := schema_mirrors.read none v
  simp only [Option.map_none] at h
  simp only [Bytewise.Address.read, codec, h]
  cases schema.read none v with
  | error e => rfl
  -- Without limbs there is the zero address, which is made of zero bytes.
  | ok s => cases s <;> rfl

/-! ## Registers -/

namespace Registers

/-- The bytes of a draft. -/
def Draft.bytes (s : Draft) : Bytewise.Registers.Draft :=
  ⟨s.a.map Nibble.byte, s.b.map Nibble.byte, s.c.map Nibble.byte, s.d.map Nibble.byte,
    s.iar.map Address.bytes, s.addr.map Address.bytes⟩

/-- The fields of a register file go together one by one. -/
theorem schema_mirrors : schema.Mirrors Draft.bytes Bytewise.Registers.schema where
  expected := rfl
  closedKeys := rfl
  optional := rfl
  fields :=
    .cons (.part (fun _ => Option.isSome_map) (fun _ _ => rfl) Nibble.read_bytes) <|
    .cons (.part (fun _ => Option.isSome_map) (fun _ _ => rfl) Nibble.read_bytes) <|
    .cons (.part (fun _ => Option.isSome_map) (fun _ _ => rfl) Nibble.read_bytes) <|
    .cons (.part (fun _ => Option.isSome_map) (fun _ _ => rfl) Nibble.read_bytes) <|
    .cons (.part (fun _ => Option.isSome_map) (fun _ _ => rfl) Address.read_bytes) <|
    .cons (.part (fun _ => Option.isSome_map) (fun _ _ => rfl) Address.read_bytes) .nil

/-- The bytes of a register file are those of its draft. -/
theorem ofDraft_bytes (s : Draft) : Bytewise.Registers.ofDraft s.bytes = (ofDraft s).bytes := by
  -- What has not been read is zero on both sides.
  have hnibble : ∀ n : Option Nibble, (n.map Nibble.byte).getD 0 = (n.getD 0).byte := by
    intro n
    cases n <;> rfl
  have haddress : ∀ x : Option Address,
      (x.map Address.bytes).getD ⟨0, 0, 0⟩ = (x.getD 0).bytes := by
    intro x
    cases x <;> rfl
  simp only [Bytewise.Registers.ofDraft, Draft.bytes, hnibble, haddress]
  rfl

/-- Registers are read as bytes in the way that they are read as nibbles. -/
theorem read_bytes (v : Value) :
    Bytewise.Registers.read v = (codec.read v).map bytes := by
  have h : Bytewise.Registers.schema.read {} v = (schema.read {} v).map Draft.bytes :=
    schema_mirrors.read {} v
  simp only [Bytewise.Registers.read, codec, h]
  cases schema.read {} v with
  | error e => rfl
  | ok s => exact congrArg Except.ok (ofDraft_bytes s)

end Registers

/-! ## Instructions -/

namespace Instruction

/-- Instructions with an operand go together if their operands do. -/
theorem oneOperand_mirrors {α β : Type} {g : α → β} {name field : String} {read : Reader α}
    {read' : Reader β} {make : α → Instruction} {make' : β → Bytewise.Instruction} {unread : α}
    (hread : ∀ v, read' v = (read v).map g) (hmake : ∀ a, make' (g a) = (make a).bytes) :
    (oneOperand name field read make unread).2.Mirrors bytes
      (Bytewise.Instruction.oneOperand name field read' make' (g unread)).2 := by
  -- The records of the operand, one with nibbles and one with bytes.
  let S : Schema (Option α) :=
    { expected := .fieldsOf "Instruction" name, fields := [.part field id (fun _ => some) read] }
  let T : Schema (Option β) :=
    { expected := .fieldsOf "Instruction" name, fields := [.part field id (fun _ => some) read'] }
  have hS : S.Mirrors (Option.map g) T :=
    ⟨rfl, rfl, rfl,
      .cons (.part (fun s => by cases s <;> rfl) (fun _ _ => rfl) hread) .nil⟩
  apply Content.Mirrors.fields
  intro v
  have h : T.read none v = (S.read none v).map (Option.map g) := hS.read none v
  show (T.read none v).map _ = ((S.read none v).map _).map _
  rw [h]
  cases S.read none v with
  | error e => rfl
  | ok s =>
    cases s with
    | none => exact congrArg Except.ok (hmake unread)
    | some a => exact congrArg Except.ok (hmake a)

/-- Instructions with two registers go together. -/
theorem twoRegisters_mirrors {name first second : String}
    {make : Register → Register → Instruction} {make' : Register → Register → Bytewise.Instruction}
    (hmake : ∀ r s, make' r s = (make r s).bytes) :
    (twoRegisters name first second make).2.Mirrors bytes
      (Bytewise.Instruction.twoRegisters name first second make').2 := by
  apply Content.Mirrors.fields
  intro v
  -- Both records are the same, as there is no nibble in them.
  let S : Schema (Option Register × Option Register) :=
    { expected := .fieldsOf "Instruction" name
      fields := [.part first Prod.fst (fun s r => (some r, s.2)) Register.codec.read,
        .part second Prod.snd (fun s r => (s.1, some r)) Register.codec.read] }
  show (S.read (none, none) v).map _ = ((S.read (none, none) v).map _).map _
  cases S.read (none, none) v with
  | error e => rfl
  | ok s => exact congrArg Except.ok (hmake _ _)

/-- The instructions go together one by one. -/
theorem alternatives_mirrors :
    Alternatives.Mirrors bytes alternatives Bytewise.Instruction.alternatives :=
  .cons ⟨rfl, oneOperand_mirrors Nibble.read_bytes fun _ => rfl⟩ <|
  .cons ⟨rfl, .plain lod⟩ <|
  .cons ⟨rfl, .plain str⟩ <|
  .cons ⟨rfl, .plain sar⟩ <|
  .cons ⟨rfl, .plain sap⟩ <|
  .cons ⟨rfl, twoRegisters_mirrors fun _ _ => rfl⟩ <|
  .cons ⟨rfl, oneOperand_mirrors Address.read_bytes fun _ => rfl⟩ <|
  .cons ⟨rfl, .plain rjp⟩ <|
  .cons ⟨rfl, oneOperand_mirrors Address.read_bytes fun _ => rfl⟩ <|
  .cons ⟨rfl, twoRegisters_mirrors fun _ _ => rfl⟩ .nil

/-- Instructions are read as bytes in the way that they are read as nibbles. -/
theorem read_bytes (v : Value) :
    Bytewise.Instruction.read v = (codec.read v).map bytes :=
  readChoice_of_mirrors alternatives_mirrors v

end Instruction

/-! ## Texts -/

/-- Texts of register files are parsed as bytes in the way that they are parsed as nibbles. -/
theorem Registers.parse_bytes (text : String) :
    parseWith Bytewise.Registers.read text = (codec.parse text).map bytes := by
  rw [Bytewise.parseWith_map read_bytes, Bytewise.parseWith_codec]

/-- Texts of instructions are parsed as bytes in the way that they are parsed as nibbles. -/
theorem Instruction.parse_bytes (text : String) :
    parseWith Bytewise.Instruction.read text = (codec.parse text).map bytes := by
  rw [Bytewise.parseWith_map read_bytes, Bytewise.parseWith_codec]

/-- No text yields registers with a byte above 15. -/
theorem Bytewise.inRange_of_parse_registers {text : String} {rs : Bytewise.Registers}
    (h : parseWith Bytewise.Registers.read text = .ok rs) : InRange rs.stored := by
  rw [NandMachine.Registers.parse_bytes] at h
  -- They are the bytes of registers made of nibbles.
  obtain ⟨x, -, rfl⟩ := exists_of_map_eq_ok h
  exact x.inRange_bytes

/-- No text yields an instruction with a byte above 15. -/
theorem Bytewise.inRange_of_parse_instruction {text : String} {i : Bytewise.Instruction}
    (h : parseWith Bytewise.Instruction.read text = .ok i) : InRange i.stored := by
  rw [NandMachine.Instruction.parse_bytes] at h
  obtain ⟨x, -, rfl⟩ := exists_of_map_eq_ok h
  exact x.inRange_bytes

end NandMachine
