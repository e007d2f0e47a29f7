import NandMachine.Proofs.Bytes.Value
import NandMachine.Proofs.Layout.Build

/-!
# Memory made of bytes

Devices, mappings and spaces with bytes in the place of nibbles. Cells and displays hold whatever
byte is written to them, and an image holds whole bytes, of which a read takes one half. An address
is compared as a word, as it is there.

## Key results

- `Space.read_le`: a read yields a byte in range, at every address, if the stored bytes are in range
- `Space.read_bytes`, `Space.write_bytes`: access works on bytes as it does on nibbles
- `Layout.bytes_of_space`: the space of a layout, made of bytes
-/

namespace NandMachine.Bytewise

/-! ## Devices -/

/-- What stands behind a range of addresses, with bytes for nibbles. -/
inductive Device
  | rom (image : Rom)
  | ram (cells : Array UInt8)
  | display (value : UInt8) (writes : UInt64)
deriving DecidableEq

/-- All nibbles of an image, in the order of their addresses. -/
def nibbles (image : Rom) : List UInt8 :=
  image.bytes.toList.flatMap fun b => [highHalf b, lowHalf b]

/-- The nibbles of an image are in range, whatever its bytes are. -/
theorem inRange_nibbles (image : Rom) : InRange (nibbles image) := by
  simp [nibbles, highHalf_le, lowHalf_le]

namespace Device

/-- Cells that all hold zero. -/
def zeros (length : Nat) : Device := ram (Array.replicate length 0)

/-- A display that nothing has been written to. -/
def freshDisplay : Device := display 0 0

/-- The bytes that stand for nibbles; those of an image hold two nibbles each. -/
def stored : Device → List UInt8
  | rom _ => []
  | ram cells => cells.toList
  | display value _ => [value]

/-- The number of nibbles that a device has room for. -/
def size : Device → Nat
  | rom image => image.size
  | ram cells => cells.size
  | display _ _ => 1

/-- The byte at an offset; zero past the end, and zero at a display. -/
def read (d : Device) (offset : Nat) : UInt8 :=
  match d with
  | rom image =>
    match image.bytes[offset / 2]? with
    | some b => if offset % 2 = 0 then highHalf b else lowHalf b
    | none => 0
  | ram cells => cells[offset]?.getD 0
  | display _ _ => 0

/-- The device after a write. -/
def write (d : Device) (offset : Nat) (b : UInt8) : Device :=
  match d with
  | rom image => rom image
  | ram cells => ram (cells.setIfInBounds offset b)
  | display _ writes => display b (writes + 1)

/-- A read yields a byte in range if the stored bytes are in range. -/
theorem read_le {d : Device} (h : InRange d.stored) (offset : Nat) : d.read offset ≤ 15 := by
  have hzero : (0 : UInt8) ≤ 15 := by decide
  cases d with
  -- The bytes of an image need not be in range, since a read takes one half.
  | rom image =>
    simp only [read]
    cases image.bytes[offset / 2]? with
    | none => exact hzero
    | some b =>
      by_cases heven : offset % 2 = 0
      · simpa only [if_pos heven] using highHalf_le b
      · simpa only [if_neg heven] using lowHalf_le b
  | ram cells =>
    show cells[offset]?.getD 0 ≤ 15
    cases hcell : cells[offset]? with
    | none => exact hzero
    | some b => exact h b (Array.mem_toList_iff.mpr (Array.mem_of_getElem? hcell))
  | display value writes => exact hzero

/-- It takes the hypothesis: a cell that held a larger byte would be read as it is. -/
example : (ram #[3, 200]).read 1 = 200 := by decide

end Device

/-! ## Spaces -/

/-- A device behind a range of addresses. -/
structure Mapping where
  base : UInt16
  length : Nat
  device : Device
deriving DecidableEq

namespace Mapping

/-- A device behind as many addresses as it has room for. -/
def ofDevice (base : UInt16) (device : Device) : Mapping := ⟨base, device.size, device⟩

/-- The range holds an address. The difference is one of words, and only taken where it is none
that wraps around. -/
def Covers (m : Mapping) (w : UInt16) : Prop := m.base ≤ w ∧ (w - m.base).toNat < m.length

instance (m : Mapping) (w : UInt16) : Decidable (m.Covers w) :=
  inferInstanceAs (Decidable (_ ∧ _))

end Mapping

/-- The mappings in the order in which they are asked. -/
structure Space where
  mappings : Array Mapping := #[]
deriving DecidableEq

namespace Space

/-- The bytes that stand for nibbles in all devices. -/
def stored (s : Space) : List UInt8 := s.mappings.toList.flatMap fun m => m.device.stored

/-- The place of the first mapping that covers an address, and the offset into its device. -/
def resolve (s : Space) (a : Address) : Option (Nat × Nat) :=
  (s.mappings.findIdx? fun m => m.Covers a.toWord).bind fun i =>
    s.mappings[i]?.map fun m => (i, (a.toWord - m.base).toNat)

/-- The byte at an address, and zero where no mapping answers. -/
def read (s : Space) (a : Address) : UInt8 :=
  match s.resolve a with
  | some (i, offset) => (s.mappings[i]?.map fun m => m.device.read offset).getD 0
  | none => 0

/-- The space after a write, of which nothing is left where no mapping answers. -/
def write (s : Space) (a : Address) (b : UInt8) : Space :=
  match s.resolve a with
  | some (i, offset) =>
    ⟨s.mappings.modify i fun m => { m with device := m.device.write offset b }⟩
  | none => s

/-- A read yields a byte in range, at every address, if the stored bytes are in range. -/
theorem read_le {s : Space} (h : InRange s.stored) (a : Address) : s.read a ≤ 15 := by
  have hzero : (0 : UInt8) ≤ 15 := by decide
  unfold read
  -- Where a mapping answers, it is that of its device; elsewhere it is zero.
  split
  · next i offset _ =>
    cases hm : s.mappings[i]? with
    | none => exact hzero
    | some m =>
      apply Device.read_le
      apply inRange_flatMap.mp h m
      exact Array.mem_toList_iff.mpr (Array.mem_of_getElem? hm)
  · exact hzero

end Space

/-- The mappings of a layout: the image, the display, and the cells of its regions. -/
def mappings (l : Layout) (image : Rom) : List Mapping :=
  .ofDevice l.romBase (.rom image) :: .ofDevice l.displayBase .freshDisplay
    :: l.ram.map fun r => .ofDevice r.base (.zeros r.length.toNat)

/-- The space of a layout, if the layout can be built. -/
def space (l : Layout) (image : Rom) : Space := ⟨(mappings l image).toArray⟩

end NandMachine.Bytewise

namespace NandMachine

open Bytewise (InRange)

/-! ## Memory without the promise of nibbles -/

/-- The nibbles of an image have the bytes that are cut out of it. -/
theorem Rom.map_byte_nibbles (r : Rom) : r.nibbles.map Nibble.byte = Bytewise.nibbles r := by
  simp only [nibbles, unpackBytes, List.map_flatMap]
  rfl

namespace Device

/-- The device with the bytes of all that it holds. -/
def bytes : Device → Bytewise.Device
  | rom image => .rom image
  | ram cells => .ram (cells.map Nibble.byte)
  | display value writes => .display value.byte writes

/-- The bytes of a device are in range. -/
theorem inRange_bytes (d : Device) : InRange d.bytes.stored := by
  cases d with
  | rom image => exact Bytewise.inRange_nil
  | ram cells =>
    intro b hb
    simp only [bytes, Bytewise.Device.stored, Array.toList_map, List.mem_map] at hb
    obtain ⟨n, -, rfl⟩ := hb
    exact n.byte_le
  | display value writes => simp [bytes, Bytewise.Device.stored, Nibble.byte_le]

theorem size_bytes (d : Device) : d.bytes.size = d.size := by
  cases d <;> simp [bytes, size, Bytewise.Device.size]

/-- A device is read as bytes as it is as nibbles. -/
theorem read_bytes (d : Device) (offset : Nat) : d.bytes.read offset = (d.read offset).byte := by
  cases d with
  | rom image =>
    show (match image.bytes[offset / 2]? with
      | some b => if offset % 2 = 0 then Bytewise.highHalf b else Bytewise.lowHalf b
      | none => 0) = (image.get offset).byte
    rw [Rom.get]
    cases image.bytes[offset / 2]? with
    | none => rfl
    | some b =>
      -- The parity of the offset picks the half, on both sides.
      by_cases heven : offset % 2 = 0
      · simp only [if_pos heven]
        rfl
      · simp only [if_neg heven]
        rfl
  | ram cells =>
    simp only [bytes, Bytewise.Device.read, read, Array.getElem?_map]
    cases cells[offset]? <;> rfl
  | display value writes => rfl

/-- A device is written with bytes as it is with nibbles. -/
theorem write_bytes (d : Device) (offset : Nat) (n : Nibble) :
    d.bytes.write offset n.byte = (d.write offset n).bytes := by
  cases d with
  | rom image => rfl
  | ram cells =>
    show Bytewise.Device.ram ((cells.map Nibble.byte).setIfInBounds offset n.byte) =
      .ram ((cells.setIfInBounds offset n).map Nibble.byte)
    rw [Array.map_setIfInBounds]
  | display value writes => rfl

end Device

namespace Mapping

/-- The mapping with its device as bytes. -/
def bytes (m : Mapping) : Bytewise.Mapping := ⟨m.base, m.length, m.device.bytes⟩

/-- A device is mapped with bytes as it is with nibbles. -/
theorem bytes_ofDevice (base : UInt16) (d : Device) :
    (ofDevice base d).bytes = .ofDevice base d.bytes := by
  rw [bytes, ofDevice, Bytewise.Mapping.ofDevice, Device.size_bytes]

/-- A range holds a word exactly if it holds the address. -/
theorem covers_bytes (m : Mapping) (a : Address) :
    m.bytes.Covers a.bytes.toWord ↔ m.Covers a.toNat := by
  rw [← Address.toNat_toWord, Address.toWord_bytes]
  show (m.base ≤ a.toWord ∧ (a.toWord - m.base).toNat < m.length) ↔
    (m.base.toNat ≤ a.toWord.toNat ∧ a.toWord.toNat - m.base.toNat < m.length)
  -- Where the word is not below the base, words are subtracted like numbers.
  rw [UInt16.le_iff_toNat_le]
  apply and_congr_right
  intro h
  rw [UInt16.toNat_sub_of_le _ _ (UInt16.le_iff_toNat_le.mpr h)]

end Mapping

namespace Space

/-- The space with all its devices as bytes. -/
def bytes (s : Space) : Bytewise.Space := ⟨s.mappings.map Mapping.bytes⟩

/-- The bytes of a space are in range. -/
theorem inRange_bytes (s : Space) : InRange s.bytes.stored := by
  refine Bytewise.inRange_flatMap.mpr fun e he => ?_
  simp only [bytes, Array.toList_map, List.mem_map] at he
  obtain ⟨m, -, rfl⟩ := he
  exact m.device.inRange_bytes

theorem getElem?_mappings_bytes (s : Space) (i : Nat) :
    s.bytes.mappings[i]? = s.mappings[i]?.map Mapping.bytes := Array.getElem?_map

/-- The same mapping answers, at the same offset. -/
theorem resolve_bytes (s : Space) (a : Address) : s.bytes.resolve a.bytes = s.resolve a := by
  -- The first mapping is the same, since each of them covers the same addresses.
  have hcovers : ((fun m => decide (m.Covers a.bytes.toWord)) ∘ Mapping.bytes) =
      fun m : Mapping => decide (m.Covers a.toNat) := by
    funext m
    exact decide_eq_decide.mpr (m.covers_bytes a)
  have hplace : (s.bytes.mappings.findIdx? fun m => m.Covers a.bytes.toWord) =
      (s.resolve a).map Prod.fst := by
    rw [bytes, Array.findIdx?_map, hcovers, Array.findIdx?_eq_map_findFinIdx?_val, resolve]
    cases s.mappings.findFinIdx? fun m => decide (m.Covers a.toNat) <;> rfl
  rw [Bytewise.Space.resolve, hplace]
  rcases resolve_cases s a with hnone | ⟨i, m, hfirst⟩
  · rw [hnone]
    rfl
  · -- The offset is a difference of words, taken where the base is not above the address.
    have hword : (a.bytes.toWord - m.base).toNat = a.toNat - m.base.toNat := by
      have hle := hfirst.covers.1
      rw [← Address.toNat_toWord] at hle ⊢
      exact UInt16.toNat_sub_of_le _ _ (UInt16.le_iff_toNat_le.mpr hle)
    rw [resolve_of_first hfirst, ← hword]
    simp only [Option.map_some, Option.bind_some, getElem?_mappings_bytes, hfirst.at_place]
    rfl

/-- A space is read as bytes as it is as nibbles. -/
theorem read_bytes (s : Space) (a : Address) : s.bytes.read a.bytes = (s.read a).byte := by
  rw [Bytewise.Space.read, resolve_bytes]
  rcases resolve_cases s a with hnone | ⟨i, m, hfirst⟩
  · rw [hnone, read_of_resolve_eq_none hnone]
    rfl
  · rw [resolve_of_first hfirst, read_of_first hfirst, ← Device.read_bytes]
    simp only [getElem?_mappings_bytes, hfirst.at_place]
    rfl

/-- A space is written with bytes as it is with nibbles. -/
theorem write_bytes (s : Space) (a : Address) (n : Nibble) :
    s.bytes.write a.bytes n.byte = (s.write a n).bytes := by
  rw [Bytewise.Space.write, resolve_bytes]
  rcases resolve_cases s a with hnone | ⟨i, m, hfirst⟩
  · rw [hnone, write_of_resolve_eq_none hnone]
  · rw [resolve_of_first hfirst, write_of_first hfirst]
    simp only [bytes, Bytewise.Space.mk.injEq]
    -- At the place that is written to, both devices take the write; all others stay as they are.
    apply Array.ext_getElem?
    intro j
    simp only [Array.getElem?_modify, Array.getElem?_map]
    split
    · simp only [Option.map_map]
      congr 1
      funext e
      show Bytewise.Mapping.mk e.base e.length (e.device.bytes.write _ n.byte) = _
      rw [Device.write_bytes]
      rfl
    · rfl

end Space

/-- The space of a layout, without the promise of its nibbles. -/
theorem Layout.bytes_of_space {l : Layout} {image : Rom} {s : Space} (h : l.space image = .ok s) :
    s.bytes = Bytewise.space l image := by
  have hmappings : (l.mappings image).map Mapping.bytes = Bytewise.mappings l image := by
    -- Cells of zero are made of zero bytes.
    have hregion : ∀ r : Region,
        r.mapping.bytes = .ofDevice r.base (.zeros r.length.toNat) := by
      intro r
      rw [Region.mapping, Mapping.bytes_ofDevice]
      simp only [Device.bytes, Device.zeros, Array.map_replicate]
      rfl
    simp only [mappings, Bytewise.mappings, List.map_cons, List.map_map, Mapping.bytes_ofDevice]
    simp only [Function.comp_def, hregion]
    rfl
  rw [Space.bytes, Bytewise.space, ← hmappings, ← mappings_of_space h, ← Array.toList_map,
    Array.toArray_toList]

end NandMachine
