import NandMachine.Json.Read
import NandMachine.Layout

/-!
# Layouts as JSON

Every field of a layout may be left out, and no other key may be there; both fields of a region
have to be there, and other keys are passed over.
-/

namespace NandMachine

open Json

/-- The fields of a region. -/
def Region.schema : Schema (Option UInt16 × Option UInt64) where
  expected := .record "RamRegion"
  fields := [
    .part "base" Prod.fst (fun s base => (some base, s.2)) readWord,
    .part "length" Prod.snd (fun s length => (s.1, some length)) readSize]

/-- Regions as records. -/
def Region.codec : Codec Region where
  write r := .record [("base", .nat r.base.toNat), ("length", .nat r.length.toNat)]
  read v := (Region.schema.read (none, none) v).map fun s => ⟨s.1.getD 0, s.2.getD 0⟩

namespace Layout

/-- The fields that have been read. -/
structure Draft where
  romBase : Option UInt16 := none
  displayBase : Option UInt16 := none
  ram : Option (List Region) := none
  strict : Option Bool := none

/-- The fields of a layout. -/
def schema : Schema Draft where
  expected := .record "MachineConfig"
  fields := [
    .part "rom_base" Draft.romBase (fun s base => { s with romBase := base }) readWord,
    .part "debug_port" Draft.displayBase (fun s base => { s with displayBase := base }) readWord,
    .part "ram" Draft.ram (fun s ram => { s with ram := some ram }) Region.codec.list.read,
    .part "strict_layout" Draft.strict (fun s strict => { s with strict := some strict }) readBool]
  closedKeys := true
  optional := true

/-- The layout of a draft; what was left out is as in the default layout. -/
def ofDraft (s : Draft) : Layout :=
  let default : Layout := {}
  ⟨s.romBase.getD default.romBase, s.displayBase.getD default.displayBase, s.ram.getD default.ram,
    s.strict.getD default.strict⟩

/-- Layouts as records. -/
def codec : Codec Layout where
  write l := .record [("rom_base", .nat l.romBase.toNat), ("debug_port", .nat l.displayBase.toNat),
    ("ram", Region.codec.list.write l.ram), ("strict_layout", .bool l.strict)]
  read v := (schema.read {} v).map ofDraft

end Layout

end NandMachine
