import NandMachine.Memory.Device

/-!
# Images as lists of nibbles

Three definitions know the order of the nibbles in an image, and none of them goes through another:
packing takes pairs off the front of a list, unpacking takes the halves of one byte after the other,
and access by position halves the position and looks at its parity. They agree on lists and images
of any length, also where a list has no partner for its last nibble, and where a position lies past
the end.

## Key results

- `getElem?_nibbles`: the halves of a byte stand next to each other, the high one first
- `image_accesses_agree`: packing, unpacking and access by position agree
-/

namespace NandMachine

namespace Rom

/-- Unpacking is undone by packing: an image is made of its own nibbles. -/
theorem ofNibbles_nibbles (r : Rom) : ofNibbles r.nibbles = r := by
  rw [ofNibbles, nibbles, packBytes_unpackBytes]

/-- Each byte unpacks to two nibbles next to each other. -/
theorem getElem?_unpackBytes (bs : List UInt8) (k : Nat) :
    (unpackBytes bs)[2 * k]? = bs[k]?.map Nibble.highHalf ∧
      (unpackBytes bs)[2 * k + 1]? = bs[k]?.map Nibble.lowHalf := by
  induction bs generalizing k with
  | nil => simp
  | cons b bs ih =>
    cases k with
    | zero => simp
    | succ k =>
      -- The first byte takes up two positions.
      have hnext : 2 * (k + 1) = 2 * k + 2 := by omega
      rw [hnext]
      simpa using ih k

/-- The halves of a byte stand next to each other, the high one first. -/
theorem getElem?_nibbles (r : Rom) (k : Nat) :
    r.nibbles[2 * k]? = r.bytes[k]?.map Nibble.highHalf ∧
      r.nibbles[2 * k + 1]? = r.bytes[k]?.map Nibble.lowHalf := by
  rw [← Array.getElem?_toList]
  exact getElem?_unpackBytes r.bytes.toList k

/-- An image is read like the list of its nibbles, and as zero past its end. -/
theorem read_rom (r : Rom) (i : Nat) :
    (Device.rom r).read i =
      if h : i < r.size then r.nibbles.get ⟨i, r.length_nibbles.symm ▸ h⟩ else 0 := by
  show r.get i = _
  rw [get_eq]
  by_cases h : i < r.size
  · have hlt : i < r.nibbles.length := r.length_nibbles.symm ▸ h
    rw [dif_pos h, List.getElem?_eq_getElem hlt]
    rfl
  · have hge : r.nibbles.length ≤ i := r.length_nibbles.symm ▸ Nat.le_of_not_lt h
    rw [dif_neg h, List.getElem?_eq_none hge]
    rfl

end Rom

/-- Packing, unpacking and access by position agree. A list that is packed and unpacked again is
the same list, with a zero behind it if its length is odd; an image that is unpacked and packed
again is the same image. An image behind addresses has room for as many nibbles as the image says
that it has, and as unpacking yields; it is read like the list of them, at any offset, and as zero
past its end. The order is that of the bytes, with the high half of a byte first. -/
theorem image_accesses_agree :
    (∀ ns : List Nibble,
      (Rom.ofNibbles ns).nibbles = if ns.length % 2 = 1 then ns ++ [0] else ns) ∧
    (∀ r : Rom, Rom.ofNibbles r.nibbles = r) ∧
    ∀ r : Rom,
      (∀ i, (Device.rom r).read i =
        if h : i < r.size then r.nibbles.get ⟨i, r.length_nibbles.symm ▸ h⟩ else 0) ∧
      r.nibbles.length = r.size ∧
      (Device.rom r).size = r.size ∧
      ∀ k, r.nibbles[2 * k]? = r.bytes[k]?.map Nibble.highHalf ∧
        r.nibbles[2 * k + 1]? = r.bytes[k]?.map Nibble.lowHalf := by
  refine ⟨fun ns => ?_, Rom.ofNibbles_nibbles, fun r => ?_⟩
  · rw [Rom.nibbles_ofNibbles]
    -- The length leaves no remainder, or one nibble without a partner.
    rcases Nat.mod_two_eq_zero_or_one ns.length with heven | hodd
    · simp [heven]
    · simp [hodd]
  · exact ⟨r.read_rom, r.length_nibbles, rfl, r.getElem?_nibbles⟩

/-- Three nibbles in two bytes: there is a fourth nibble, which is zero, and none behind it. -/
example :
    (Rom.ofNibbles [1, 2, 7]).bytes = #[0x12, 0x70] ∧
      [0, 1, 2, 3, 4].map (Device.rom (Rom.ofNibbles [1, 2, 7])).read = [1, 2, 7, 0, 0] := by
  decide

end NandMachine
