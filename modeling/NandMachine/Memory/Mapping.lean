import NandMachine.Event

/-!
# Mappings

A mapping puts a device behind a range of addresses. The range may be longer or shorter than the
device, and may reach beyond the last address.
-/

namespace NandMachine

/-- A device behind a range of addresses. -/
structure Mapping where
  base : UInt16
  length : Nat
  device : Device
deriving DecidableEq, Inhabited

namespace Mapping

/-- A device behind as many addresses as it has room for. -/
def ofDevice (base : UInt16) (device : Device) : Mapping := ⟨base, device.size, device⟩

/-- The number behind the last address of the range. -/
def stop (m : Mapping) : Nat := m.base.toNat + m.length

/-- The range holds an address. -/
def Covers (m : Mapping) (a : Nat) : Prop := m.base.toNat ≤ a ∧ a - m.base.toNat < m.length

instance (m : Mapping) (a : Nat) : Decidable (m.Covers a) :=
  inferInstanceAs (Decidable (_ ∧ _))

/-- Each range starts before the other one stops. -/
def Overlaps (m n : Mapping) : Prop := m.base.toNat < n.stop ∧ n.base.toNat < m.stop

instance (m n : Mapping) : Decidable (m.Overlaps n) :=
  inferInstanceAs (Decidable (_ ∧ _))

/-- A range holds the addresses from its base up to the number where it stops. -/
theorem covers_iff {m : Mapping} {a : Nat} : m.Covers a ↔ m.base.toNat ≤ a ∧ a < m.stop := by
  simp only [Covers, stop]
  omega

/-- The mapping after a write to its device. -/
def write (m : Mapping) (offset : Nat) (n : Nibble) : Mapping :=
  { m with device := m.device.write offset n }

/-- The report of a new mapping. -/
def event (m : Mapping) : Event := .mapped m.device.kind m.base.toNat m.stop

/-- A mapping in one line of text. -/
def text (m : Mapping) : String :=
  Text.record "MemoryMapping" [("base", toString m.base.toNat), ("length", toString m.length),
    ("target", m.device.text)]

end Mapping

/-- Why a mapping does not fit into a space. -/
inductive MappingError
  /-- The range holds no address. -/
  | emptyMapping (base : Nat)
  /-- The range reaches beyond the last address. -/
  | outOfBounds (base length : Nat)
  /-- An earlier mapping has some of the range. -/
  | overlap (base length earlierBase earlierLength : Nat)
deriving DecidableEq

/-- The text of the refusal of a mapping. -/
def MappingError.message : MappingError → String
  | emptyMapping base => "mapping at " ++ HexStyle.address.write base ++ " has zero length"
  | outOfBounds base length =>
    "mapping at " ++ HexStyle.address.write base ++ " with length " ++ toString length
      ++ " exceeds the 12-bit address space"
  | overlap base length earlierBase earlierLength =>
    "mapping at " ++ HexStyle.address.write base ++ " (length " ++ toString length
      ++ ") overlaps existing mapping at " ++ HexStyle.address.write earlierBase ++ " (length "
      ++ toString earlierLength ++ ")"

end NandMachine
