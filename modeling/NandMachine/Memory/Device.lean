import NandMachine.Rom
import NandMachine.Text.Value

/-!
# Devices

A device stands behind a range of addresses. It answers reads and takes writes at offsets from 0
on: an image that cannot be written, cells that keep what is written, or a display that shows
what is written and reads as zero.
-/

namespace NandMachine

/-- The kinds of devices. -/
inductive DeviceKind
  | rom
  | ram
  | display
deriving DecidableEq, Inhabited

/-- The short name of a kind. -/
def DeviceKind.name : DeviceKind → String
  | rom => "ROM"
  | ram => "RAM"
  | display => "DBGOUT"

/-- What becomes of a write. -/
inductive WriteOutcome
  | stored
  /-- The device cannot be written. -/
  | readOnly
  /-- The offset lies past the device's end. -/
  | outOfRange
deriving DecidableEq, Inhabited

/-- What stands behind a range of addresses. -/
inductive Device
  /-- A read-only image. -/
  | rom (image : Rom)
  /-- Cells of one nibble each. -/
  | ram (cells : Array Nibble)
  /-- A display, called DBGOUT in messages: the nibble written last, and the number of writes. -/
  | display (value : Nibble) (writes : UInt64)
deriving DecidableEq, Inhabited

namespace Device

/-- Cells that all hold zero. -/
def zeros (length : Nat) : Device := ram (Array.replicate length 0)

/-- A display that nothing has been written to. -/
def freshDisplay : Device := display 0 0

/-- The kind of a device. -/
def kind : Device → DeviceKind
  | rom _ => .rom
  | ram _ => .ram
  | display _ _ => .display

/-- The number of nibbles that a device has room for. -/
def size : Device → Nat
  | rom image => image.size
  | ram cells => cells.size
  | display _ _ => 1

/-- The nibble at an offset; zero past the end, and zero at a display. -/
def read (d : Device) (offset : Nat) : Nibble :=
  match d with
  | rom image => image.get offset
  | ram cells => cells[offset]?.getD 0
  | display _ _ => 0

/-- What becomes of a write at an offset. A display takes every write. -/
def outcome (d : Device) (offset : Nat) : WriteOutcome :=
  match d with
  | rom _ => .readOnly
  | ram cells => if offset < cells.size then .stored else .outOfRange
  | display _ _ => .stored

/-- The device after a write. -/
def write (d : Device) (offset : Nat) (n : Nibble) : Device :=
  match d with
  | rom image => rom image
  | ram cells => ram (cells.setIfInBounds offset n)
  | display _ writes => display n (writes + 1)

/-- The nibble that was written last, if the device is a display. -/
def output : Device → Option Nibble
  | display value _ => some value
  | _ => none

@[simp] theorem kind_write (d : Device) (offset : Nat) (n : Nibble) :
    (d.write offset n).kind = d.kind := by
  cases d <;> rfl

/-- A device in one line of text; what is stored is only counted. -/
def text : Device → String
  | rom image => Text.record "Rom" [("bytes", toString image.bytes.size)]
  | ram cells => Text.record "Ram" [("cells", toString cells.size)]
  | display value writes =>
    Text.record "DebugOutput" [("value", value.text), ("writes", toString writes.toNat)]

end Device

end NandMachine
