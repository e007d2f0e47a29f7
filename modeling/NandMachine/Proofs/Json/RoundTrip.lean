import NandMachine.Instruction.Json
import NandMachine.Files
import NandMachine.Machine.Json
import NandMachine.Proofs.Json.Codec

/-!
# Texts of the machine's types

Every type that has a written form is read as it is written, so both forms of its texts stand for
the value that they were made of.

## Key results

- `json_round_trips`: writing a value of any of the types and reading it again gives the value
-/

namespace NandMachine

open Json
open Schema (Fills)

/-! ## Registers -/

/-- Nibbles are read as they are written. -/
theorem Nibble.faithful_codec : Nibble.codec.Faithful where
  plain n := plain_nat n.toNat
  read_write n := by
    show (readByte (.nat n.byte.toNat)).map Nibble.ofByte = .ok n
    rw [readByte_nat, Except.map, ofByte_byte]

/-- Addresses are read as they are written. -/
theorem Address.faithful_codec : Address.codec.Faithful where
  plain a := by simp [codec, Nibble.faithful_codec.plain]
  read_write a := by
    have hlimbs : readThree Nibble.codec.read (.list [Nibble.codec.write a.low,
        Nibble.codec.write a.mid, Nibble.codec.write a.high]) = .ok (a.low, a.mid, a.high) :=
      readThree_list (Nibble.faithful_codec.read_write _) (Nibble.faithful_codec.read_write _)
        (Nibble.faithful_codec.read_write _)
    -- The only field fills the whole record.
    have hread : schema.read none (codec.write a) = .ok (some a) := by
      refine Schema.read_record (by decide) rfl ?_ (by simp [schema, Field.part])
      exact .part rfl (by rw [hlimbs]; rfl) (.nil _)
    show (schema.read none (codec.write a)).map _ = _
    rw [hread]
    rfl

/-- Registers are read as they are written. -/
theorem Register.faithful_codec : Register.codec.Faithful where
  plain r := plain_text r.name
  read_write r := readChoice_name (mem_all r) (by cases r <;> decide)

/-- Register files are read as they are written. -/
theorem Registers.faithful_codec : Registers.codec.Faithful where
  plain rs := by simp [codec, Nibble.faithful_codec.plain, Address.faithful_codec.plain]
  read_write rs := by
    have hread : schema.read {} (codec.write rs) =
        .ok ⟨rs.a, rs.b, rs.c, rs.d, rs.iar, rs.addr⟩ := by
      refine Schema.read_record (by decide) rfl ?_ (by simp [schema, Field.part])
      -- Six fields are filled in, in the order in which they are written.
      refine .part rfl (Nibble.faithful_codec.read_write _) ?_
      refine .part rfl (Nibble.faithful_codec.read_write _) ?_
      refine .part rfl (Nibble.faithful_codec.read_write _) ?_
      refine .part rfl (Nibble.faithful_codec.read_write _) ?_
      refine .part rfl (Address.faithful_codec.read_write _) ?_
      exact .part rfl (Address.faithful_codec.read_write _) (.nil _)
    show (schema.read {} (codec.write rs)).map _ = _
    rw [hread]
    rfl

/-- The states of a machine are read as they are written. -/
theorem Status.faithful_codec : Status.codec.Faithful where
  plain s := plain_text s.name
  read_write s := by
    have hmem : s ∈ [Status.running, Status.halted] := by cases s <;> decide
    exact readChoice_name hmem (by cases s <;> decide)

/-! ## Layouts -/

/-- Regions are read as they are written. -/
theorem Region.faithful_codec : Region.codec.Faithful where
  plain r := by simp [codec]
  read_write r := by
    have hread : schema.read (none, none) (codec.write r) = .ok (some r.base, some r.length) := by
      refine Schema.read_record (by decide) rfl ?_ (by simp [schema, Field.part])
      exact .part rfl (readWord_nat _) (.part rfl (readSize_nat _) (.nil _))
    show (schema.read (none, none) (codec.write r)).map _ = _
    rw [hread]
    rfl

/-- Layouts are read as they are written. -/
theorem Layout.faithful_codec : Layout.codec.Faithful where
  plain l := by simp [codec, Region.faithful_codec.list.plain]
  read_write l := by
    have hread : schema.read {} (codec.write l) =
        .ok ⟨l.romBase, l.displayBase, l.ram, l.strict⟩ := by
      refine Schema.read_record (by decide) rfl ?_ (by simp [schema, Field.part])
      refine .part rfl (readWord_nat _) (.part rfl (readWord_nat _) ?_)
      exact .part rfl (Region.faithful_codec.list.read_write _) (.part rfl rfl (.nil _))
    show (schema.read {} (codec.write l)).map _ = _
    rw [hread]
    rfl

/-! ## Instructions -/

namespace Instruction

/-- An operand is read behind the name of its operation. -/
theorem read_oneOperand {α : Type} (name : String) {field : String} {c : Codec α} (h : c.Faithful)
    {make : α → Instruction} {unread a : α}
    (hname : alternatives.lookup name = some (oneOperand name field c.read make unread).2) :
    readChoice alternatives (writeOperands name [(field, c.write a)]) = .ok (make a) := by
  refine readChoice_record hname ?_
  rw [Schema.read_record (t := some a) (by simp) rfl (.part rfl (h.read_write a) (.nil _))
    (by simp [Field.part])]
  rfl

/-- Two registers are read behind the name of their operation. -/
theorem read_twoRegisters (name : String) {first second : String} (distinct : first ≠ second)
    {make : Register → Register → Instruction} {r r' : Register}
    (hname : alternatives.lookup name = some (twoRegisters name first second make).2) :
    readChoice alternatives (writeOperands name [(first, Register.codec.write r),
      (second, Register.codec.write r')]) = .ok (make r r') := by
  refine readChoice_record hname ?_
  rw [Schema.read_record (t := (some r, some r')) (by simp [Field.part, distinct]) rfl
    (.part rfl (Register.faithful_codec.read_write r)
      (.part rfl (Register.faithful_codec.read_write r') (.nil _)))
    (by simp [Field.part])]
  rfl

/-- Instructions are read as they are written. -/
theorem faithful_codec : codec.Faithful where
  plain i := by
    cases i <;> simp [codec, writeOperands, Nibble.faithful_codec.plain,
      Address.faithful_codec.plain, Register.faithful_codec.plain]
  read_write i := by
    show readChoice alternatives _ = _
    -- Each operation is looked up by its name, with no operand, one operand or two registers.
    cases i with
    | ldi value => exact read_oneOperand "Ldi" Nibble.faithful_codec rfl
    | lod | str | sar | sap | rjp =>
      refine readChoice_text ?_
      rfl
    | mov src dst => exact read_twoRegisters "Mov" (by decide) rfl
    | jmp target => exact read_oneOperand "Jmp" Address.faithful_codec rfl
    | jz target => exact read_oneOperand "Jz" Address.faithful_codec rfl
    | nand first second => exact read_twoRegisters "Nand" (by decide) rfl

end Instruction

/-! ## All types -/

/-- For every type with a written form, both forms of the text of a value stand for that value, and
what a text stands for is the same once it is written and read again. The same goes for layouts by
themselves, and a program that has been read encodes to the same nibbles then. -/
theorem json_round_trips :
    Layout.codec.RoundTrips ∧ Region.codec.RoundTrips ∧ Registers.codec.RoundTrips ∧
    Address.codec.RoundTrips ∧ Nibble.codec.RoundTrips ∧ Register.codec.RoundTrips ∧
    Status.codec.RoundTrips ∧ Instruction.codec.RoundTrips ∧ Instruction.codec.list.RoundTrips ∧
    (∀ l, Layout.parse (Layout.codec.compact l) = .ok l ∧
      Layout.parse (Layout.codec.pretty l) = .ok l) ∧
    ∀ (text : String) (p : Program), Instruction.codec.list.parse text = .ok p →
      ∃ q r, Instruction.codec.list.parse (Instruction.codec.list.compact p) = .ok q ∧
        Instruction.codec.list.parse (Instruction.codec.list.pretty p) = .ok r ∧
        Program.encode q = Program.encode p ∧ Program.encode r = Program.encode p := by
  have hlayout := Layout.faithful_codec.roundTrips
  have hprogram := Instruction.faithful_codec.list.roundTrips
  refine ⟨hlayout, Region.faithful_codec.roundTrips, Registers.faithful_codec.roundTrips,
    Address.faithful_codec.roundTrips, Nibble.faithful_codec.roundTrips,
    Register.faithful_codec.roundTrips, Status.faithful_codec.roundTrips,
    Instruction.faithful_codec.roundTrips, hprogram, fun l => ⟨?_, ?_⟩, fun text p _ => ?_⟩
  · rw [Layout.parse, hlayout.compact]
    rfl
  · rw [Layout.parse, hlayout.pretty]
    rfl
  · exact ⟨p, p, hprogram.compact p, hprogram.pretty p, rfl, rfl⟩

/-- A program of two instructions, one of which has an operand. -/
theorem json_round_trips_of_program :
    let c := Instruction.codec.list
    let text := "[\x7b\"Ldi\":\x7b\"value\":7\x7d\x7d,\"Str\"]"
    let p : Program := [.ldi 7, .str]
    c.compact p = text ∧ c.parse text = .ok p ∧ c.parse (c.pretty p) = c.parse text ∧
      ∃ q, c.parse (c.compact p) = .ok q ∧ Program.encode q = Program.encode p := by
  intro c text p
  have hcompact : c.compact p = text := by decide +kernel
  obtain ⟨-, -, -, -, -, -, -, -, hprogram, -, hencode⟩ := json_round_trips
  have accepted : c.parse text = .ok p := by
    rw [← hcompact]
    exact hprogram.compact p
  obtain ⟨q, -, hq, -, hsame, -⟩ := hencode text p accepted
  exact ⟨hcompact, accepted, (hprogram.again accepted).2, q, hq, hsame⟩

end NandMachine
