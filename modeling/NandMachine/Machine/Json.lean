import NandMachine.Json.Read
import NandMachine.Machine

/-!
# Machines as JSON

A nibble is a number of eight bits of which the low four count; an address is the array of its
limbs, low limb first, in a record. The state of a machine is written as a record; what its memory
holds is left out, but for the nibble that shows at the first display.
-/

namespace NandMachine

open Json

/-- Nibbles as numbers; the high half of a byte is dropped when it is read. -/
def Nibble.codec : Codec Nibble where
  write n := .nat n.toNat
  read v := (readByte v).map Nibble.ofByte

/-- The only field of an address. -/
def Address.schema : Schema (Option Address) where
  expected := .record "Addr12"
  fields := [.part "limbs" id (fun _ => some)
    fun v => (readThree Nibble.codec.read v).map fun (low, mid, high) => ⟨low, mid, high⟩]

/-- Addresses as records of their limbs. -/
def Address.codec : Codec Address where
  write a := .record [("limbs",
    .list [Nibble.codec.write a.low, Nibble.codec.write a.mid, Nibble.codec.write a.high])]
  read v := (Address.schema.read none v).map (·.getD 0)

/-- Registers by their letters. -/
def Register.codec : Codec Register where
  write r := .text r.name
  read := readChoice (Register.all.map fun r => (r.name, .plain r))

namespace Registers

/-- The registers that have been read. -/
structure Draft where
  a : Option Nibble := none
  b : Option Nibble := none
  c : Option Nibble := none
  d : Option Nibble := none
  iar : Option Address := none
  addr : Option Address := none

/-- The fields of a register file. -/
def schema : Schema Draft where
  expected := .record "Registers"
  fields := [
    .part "a" Draft.a (fun s n => { s with a := n }) Nibble.codec.read,
    .part "b" Draft.b (fun s n => { s with b := n }) Nibble.codec.read,
    .part "c" Draft.c (fun s n => { s with c := n }) Nibble.codec.read,
    .part "d" Draft.d (fun s n => { s with d := n }) Nibble.codec.read,
    .part "iar" Draft.iar (fun s x => { s with iar := x }) Address.codec.read,
    .part "addr" Draft.addr (fun s x => { s with addr := x }) Address.codec.read]

/-- The register file of a draft. A record with a missing field is refused, so no zero of this
definition is ever seen. -/
def ofDraft (s : Draft) : Registers :=
  ⟨s.a.getD 0, s.b.getD 0, s.c.getD 0, s.d.getD 0, s.iar.getD 0, s.addr.getD 0⟩

/-- Register files as records. -/
def codec : Codec Registers where
  write rs := .record [("a", Nibble.codec.write rs.a), ("b", Nibble.codec.write rs.b),
    ("c", Nibble.codec.write rs.c), ("d", Nibble.codec.write rs.d),
    ("iar", Address.codec.write rs.iar), ("addr", Address.codec.write rs.addr)]
  read v := (schema.read {} v).map ofDraft

end Registers

/-- The states of a machine by their names. -/
def Status.codec : Codec Status where
  write s := .text s.name
  read := readChoice ([.running, .halted].map fun s : Status => (s.name, .plain s))

/-- The state of a machine as a record. -/
def Machine.dump (m : Machine) : Value :=
  .record [("state", Status.codec.write m.status), ("cycles", .nat m.cycles.toNat),
    ("registers", Registers.codec.write m.registers),
    ("debug_output", match m.space.output with
      | some n => Nibble.codec.write n
      | none => .null)]

end NandMachine
