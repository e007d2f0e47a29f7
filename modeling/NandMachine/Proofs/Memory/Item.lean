import Mathlib.Data.List.Forall2
import NandMachine.Proofs.Memory.Access

/-!
# Shape and contents

A space is a shape together with what is stored in it. The shape is the row of mappings with their
ranges, the kinds and sizes of their devices, and the images: `Space.Alike` compares spaces by it.
What is stored are items, the nibble of a cell or all that a display keeps, each with a place of its
own. Both together are the whole space, and a write changes nothing but the one item, if there is
one, to which its address leads.

## Key results

- `Space.alike_iff`: spaces have the same shape exactly if they were the same before any write
- `Space.ext_item`: shape and items make up the space
- `Space.item?_write`: what a write does to each item
-/

namespace NandMachine

/-! ## Shapes -/

/-- Devices of the same kind and size, with the same image if they have one. -/
inductive Device.Alike : Device → Device → Prop
  | rom (image : Rom) : Alike (.rom image) (.rom image)
  | ram {cells cells' : Array Nibble} (size : cells.size = cells'.size) :
    Alike (.ram cells) (.ram cells')
  | display (value value' : Nibble) (writes writes' : UInt64) :
    Alike (.display value writes) (.display value' writes')

/-- Mappings of the same range, with devices that are alike. -/
structure Mapping.Alike (m m' : Mapping) : Prop where
  base : m.base = m'.base
  length : m.length = m'.length
  device : m.device.Alike m'.device

/-- Spaces with as many mappings, in the same order, that are alike one by one. -/
def Space.Alike (s s' : Space) : Prop :=
  List.Forall₂ Mapping.Alike s.mappings.toList s'.mappings.toList

/-- Devices are alike exactly if they were the same before anything was written. -/
theorem Device.alike_iff {d e : Device} : d.Alike e ↔ d.blank = e.blank := by
  constructor
  · intro h
    cases h with
    | rom image => rfl
    | ram size => simp only [blank, size]
    | display => rfl
  · intro h
    -- What is blank still has the kind, so only devices of one kind are left to compare.
    cases d with
    | rom image =>
      cases e with
      | rom image' =>
        obtain rfl := Device.rom.inj h
        exact .rom image
      | ram | display => cases h
    | ram cells =>
      cases e with
      | ram cells' =>
        refine .ram ?_
        simpa using congrArg Array.size (Device.ram.inj h)
      | rom | display => cases h
    | display value writes =>
      cases e with
      | display value' writes' => exact .display value value' writes writes'
      | rom | ram => cases h

/-- Mappings are alike exactly if they were the same before anything was written. -/
theorem Mapping.alike_iff {m m' : Mapping} : m.Alike m' ↔ m.blank = m'.blank := by
  rw [blank, blank, mk.injEq, ← Device.alike_iff]
  constructor
  · intro h
    exact ⟨h.base, h.length, h.device⟩
  · rintro ⟨base, length, device⟩
    exact ⟨base, length, device⟩

/-- Mappings that are alike are the same if their devices are. -/
theorem Mapping.Alike.ext_device {m m' : Mapping} (h : m.Alike m')
    (device : m.device = m'.device) : m = m' := by
  obtain ⟨hbase, hlength, -⟩ := h
  rw [Mapping.mk.injEq]
  exact ⟨hbase, hlength, device⟩

/-- Spaces have the same shape exactly if they were the same before anything was written. -/
theorem Space.alike_iff {s s' : Space} : s.Alike s' ↔ s.blank = s'.blank := by
  -- The relation is an equation, so that the lists are compared by one.
  have hrel : Mapping.Alike = fun m m' => m.blank = m'.blank := by
    funext m m'
    exact propext Mapping.alike_iff
  rw [Alike, hrel, blank, blank, mk.injEq, ← Array.toList_inj, Array.toList_map, Array.toList_map,
    ← List.forall₂_eq_eq_eq, List.forall₂_map_left_iff, List.forall₂_map_right_iff]

/-! ## Items -/

/-- What is stored at one place. -/
inductive Item
  | cell (n : Nibble)
  | display (value : Nibble) (writes : UInt64)
deriving DecidableEq

/-- The item after a write to it. -/
def Item.write (n : Nibble) : Item → Item
  | cell _ => cell n
  | display _ writes => display n (writes + 1)

namespace Device

/-- The items of a device, numbered from 0 on. An image has none; a display has one. -/
def item? : Device → Nat → Option Item
  | rom _, _ => none
  | ram cells, k => cells[k]?.map .cell
  | display value writes, 0 => some (.display value writes)
  | display _ _, _ + 1 => none

/-- The number of the item to which an offset leads, if it leads to one. -/
def slot? : Device → Nat → Option Nat
  | rom _, _ => none
  | ram cells, offset => if offset < cells.size then some offset else none
  | display _ _, _ => some 0

/-- A write changes the item to which its offset leads, and no other one. -/
theorem item?_write (d : Device) (offset : Nat) (n : Nibble) (k : Nat) :
    (d.write offset n).item? k =
      if d.slot? offset = some k then (d.item? k).map (Item.write n) else d.item? k := by
  cases d with
  | rom image => rfl
  | ram cells =>
    simp only [write, item?, slot?, Array.getElem?_setIfInBounds]
    by_cases hk : offset = k
    · -- Past the end there is no cell, neither before the write nor behind it.
      subst hk
      by_cases hlt : offset < cells.size <;> simp [hlt, Item.write]
    · by_cases hlt : offset < cells.size <;> simp [hlt, hk]
  | display value writes =>
    cases k with
    | zero => rfl
    | succ k => rfl

/-- The kind, the size and the image of a device, together with its items, are all of it. -/
theorem Alike.ext_item {d e : Device} (h : d.Alike e) (items : ∀ k, d.item? k = e.item? k) :
    d = e := by
  -- Devices of a kind are compared: cells one by one, and displays by their only item.
  cases h with
  | rom image => rfl
  | ram size =>
    congr 1
    apply Array.ext_getElem?
    intro k
    exact Option.map_injective (fun _ _ => Item.cell.inj) (items k)
  | display value value' writes writes' =>
    obtain ⟨rfl, rfl⟩ := Item.display.inj (Option.some.inj (items 0))
    rfl

end Device

namespace Space

/-- The items of a space, by the place of the mapping and the number of the item in its device. -/
def item? (s : Space) (p : Nat × Nat) : Option Item :=
  s.mappings[p.1]?.bind fun m => m.device.item? p.2

/-- The item to which an address leads: that of the first mapping that covers it, if there is one
and if its device has an item for the address. -/
def slot? (s : Space) (a : Address) : Option (Nat × Nat) :=
  (s.resolve a).bind fun (i, offset) =>
    s.mappings[i]?.bind fun m => (m.device.slot? offset).map fun k => (i, k)

/-- The item of an address belongs to the first mapping that covers it. -/
theorem slot?_of_first {s : Space} {a : Address} {i : Nat} {m : Mapping} (h : s.First a i m) :
    s.slot? a = (m.device.slot? (a.toNat - m.base.toNat)).map fun k => (i, k) := by
  simp only [slot?, resolve_of_first h, Option.bind_some, h.at_place]

/-- A write changes the item to which its address leads, and no other item, whichever mappings
overlap there. -/
theorem item?_write (s : Space) (a : Address) (n : Nibble) (p : Nat × Nat) :
    (s.write a n).item? p =
      if s.slot? a = some p then (s.item? p).map (Item.write n) else s.item? p := by
  obtain ⟨i, k⟩ := p
  -- Without a mapping that answers there is neither an item nor a change.
  rcases resolve_cases s a with hnone | ⟨j, m, hfirst⟩
  · have hslot : s.slot? a = none := by rw [slot?, hnone, Option.bind_none]
    rw [write_of_resolve_eq_none hnone, hslot, if_neg nofun]
  · have hslot := slot?_of_first hfirst
    simp only [item?, getElem?_mappings_write, resolve_of_first hfirst, Option.map_some]
    by_cases hij : j = i
    · -- The mapping that answers: the device says which of its items is meant.
      subst hij
      rw [hfirst.at_place, hslot]
      simp [Mapping.write, Device.item?_write]
    · -- Another mapping, whether it covers the address or not.
      have hne : s.slot? a ≠ some (i, k) := by
        rw [hslot]
        simp [hij]
      simp [hij, hne]

/-- The shape of a space, together with its items, is all of it. -/
theorem Alike.ext_item {s s' : Space} (h : s.Alike s') (items : ∀ p, s.item? p = s'.item? p) :
    s = s' := by
  -- The shape gives as many mappings, and the items of each of them give its device.
  obtain ⟨hlen, hat⟩ := List.forall₂_iff_get.mp h
  have hmappings : s.mappings = s'.mappings := by
    refine Array.ext (by simpa using hlen) fun i hi hi' => ?_
    have halike : s.mappings[i].Alike s'.mappings[i] := hat i hi hi'
    refine halike.ext_device (halike.device.ext_item fun k => ?_)
    simpa [item?, hi, hi'] using items (i, k)
  exact congrArg mk hmappings

/-- A write to an address that leads to no item changes nothing. -/
theorem write_of_slot?_eq_none {s : Space} {a : Address} (h : s.slot? a = none) (n : Nibble) :
    s.write a n = s := by
  refine Alike.ext_item (alike_iff.mpr (blank_write s a n)) fun p => ?_
  rw [item?_write, h, if_neg nofun]

end Space

end NandMachine
