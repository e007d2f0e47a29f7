import NandMachine.Memory.Space

/-!
# Layouts

A layout says where the image, the display and the cells of a machine go. Before anything is
built the layout itself is checked; then the mappings are registered in order, the image first,
then the display, then the cells. A strict layout refuses a mapping that does not fit, and otherwise
the earlier mapping covers the later one.
-/

namespace NandMachine

/-- Where a row of cells goes. -/
structure Region where
  base : UInt16
  length : UInt64
deriving DecidableEq, Inhabited

/-- Where everything goes in the address space. -/
structure Layout where
  romBase : UInt16 := 0
  displayBase : UInt16 := 0x100
  ram : List Region := []
  /-- Refuse mappings that overlap or do not fit. -/
  strict : Bool := false
deriving DecidableEq, Inhabited

/-- Why a row of cells cannot be part of a layout. -/
def Region.problem? (r : Region) : Option MappingError :=
  if r.length = 0 then some (.emptyMapping r.base.toNat)
  else if addressCount < r.base.toNat + r.length.toNat then
    some (.outOfBounds r.base.toNat r.length.toNat)
  else none

/-- The cells of a region, all zero. -/
def Region.mapping (r : Region) : Mapping := .ofDevice r.base (.zeros r.length.toNat)

/-- A region in one line of text. -/
def Region.text (r : Region) : String :=
  Text.record "RamRegion" [("base", toString r.base.toNat), ("length", toString r.length.toNat)]

namespace Layout

/-- Why an address cannot be the first one of a mapping. -/
def baseProblem? (base : UInt16) : Option MappingError :=
  if base.toNat < addressCount then none else some (.outOfBounds base.toNat 1)

/-- What is wrong with a layout, whatever the image: the image's base is looked at first, then the
display, then the regions in order. -/
def problem? (l : Layout) : Option MappingError :=
  -- The image has no length here: only its base is checked, whatever it holds.
  (baseProblem? l.romBase).or ((baseProblem? l.displayBase).or (l.ram.findSome? Region.problem?))

/-- The mappings of a layout in the order of registration. -/
def mappings (l : Layout) (image : Rom) : List Mapping :=
  .ofDevice l.romBase (.rom image) :: .ofDevice l.displayBase .freshDisplay
    :: l.ram.map Region.mapping

/-- Registers mappings in order and reports each; a strict layout ends at the first one that does
not fit. -/
def registerAll (strict : Bool) (s : Space) :
    List Mapping → Except MappingError Space × List Event
  | [] => (.ok s, [])
  | m :: ms =>
    -- Mappings in front of the first misfit have been reported by then.
    match if strict then s.conflict? m else none with
    | some e => (.error e, [])
    | none =>
      let (result, events) := registerAll strict (s.register m) ms
      (result, m.event :: events)

/-- The address space of a layout with an image, and the report of its mappings. -/
def build (l : Layout) (image : Rom) : Except MappingError Space × List Event :=
  match l.problem? with
  | some e => (.error e, [])
  | none => registerAll l.strict .empty (l.mappings image)

/-- The address space of a layout with an image. -/
def space (l : Layout) (image : Rom) : Except MappingError Space := (l.build image).1

/-- A layout in one line of text. -/
def text (l : Layout) : String :=
  Text.record "MachineConfig" [("rom_base", toString l.romBase.toNat),
    ("debug_port", toString l.displayBase.toNat), ("ram", Text.list (l.ram.map Region.text)),
    ("strict_layout", Text.bool l.strict)]

end Layout

end NandMachine
