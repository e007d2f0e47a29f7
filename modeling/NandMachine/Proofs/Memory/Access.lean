import NandMachine.Memory.Space

/-!
# Access to a space

What reads and writes do to each other, for spaces with any mappings. Two views carry the proofs:
`Space.First` names the mapping that answers for an address together with its place, and
`Space.blank` is the space as it was before anything was written, which no write changes.

## Key results

- `resolve_eq_some_iff`: resolution finds the first mapping that covers an address
- `getElem?_mappings_write`: a write goes to the mapping that answers for the address
- `blank_write`: a write changes neither the ranges nor the kinds, sizes and images of devices
- `read_write`: a read after a write is the value written, or what was there before
- `read_of_mounts`: an image that was registered first answers for its range, whatever is written
-/

namespace NandMachine

/-! ## Devices -/

namespace Device

/-- The device as it was before anything was written to it. -/
def blank : Device → Device
  | rom image => rom image
  | ram cells => zeros cells.size
  | display _ _ => freshDisplay

/-- A write at the offset can be read back: there is a cell. -/
def keeps (d : Device) (offset : Nat) : Bool :=
  match d with
  | rom _ => false
  | ram cells => offset < cells.size
  | display _ _ => false

/-- A write changes what a device holds, and nothing else about it. -/
@[simp] theorem blank_write (d : Device) (offset : Nat) (n : Nibble) :
    (d.write offset n).blank = d.blank := by
  cases d <;> simp [write, blank]

theorem kind_blank (d : Device) : d.blank.kind = d.kind := by
  cases d <;> rfl

/-- The cells of a device are there before anything is written. -/
@[simp] theorem keeps_blank (d : Device) (offset : Nat) :
    d.blank.keeps offset = d.keeps offset := by
  cases d <;> simp [blank, keeps, zeros, freshDisplay]

/-- A read after a write finds what was written, at an offset with a cell, and otherwise what was
there before. -/
theorem read_write (d : Device) (i j : Nat) (n : Nibble) :
    (d.write i n).read j = if i = j ∧ d.keeps i then n else d.read j := by
  cases d with
  | rom image => simp [write, read, keeps]
  | display value writes => simp [write, read, keeps]
  | ram cells =>
    simp only [write, read, keeps, decide_eq_true_eq]
    rw [Array.getElem?_setIfInBounds]
    -- A write beyond the cells is lost, and a read there is zero as before.
    by_cases hij : i = j
    · subst hij
      by_cases hlt : i < cells.size
      · simp [hlt]
      · have : cells[i]? = none := Array.getElem?_eq_none (by omega)
        simp [hlt]
    · simp [hij]

end Device

/-! ## Mappings -/

namespace Mapping

/-- The mapping as it was before anything was written to its device. -/
def blank (m : Mapping) : Mapping := { m with device := m.device.blank }

@[simp] theorem base_blank (m : Mapping) : m.blank.base = m.base := rfl

/-- A write to a device leaves the range of its mapping. -/
@[simp] theorem blank_write (m : Mapping) (offset : Nat) (n : Nibble) :
    (m.write offset n).blank = m.blank := by
  simp [blank, write]

/-- Two addresses of a range differ in their offsets. -/
theorem offset_inj {m : Mapping} {a b : Address} (ha : m.Covers a.toNat) (hb : m.Covers b.toNat)
    (h : a.toNat - m.base.toNat = b.toNat - m.base.toNat) : a = b := by
  have hla := ha.1
  have hlb := hb.1
  exact Address.toNat_inj.mp (by omega)

end Mapping

/-! ## Resolution -/

namespace Space

/-- The mapping at a place is the first one that covers an address. -/
structure First (s : Space) (a : Address) (i : Nat) (m : Mapping) : Prop where
  at_place : s.mappings[i]? = some m
  covers : m.Covers a.toNat
  before : ∀ j < i, ∀ e, s.mappings[j]? = some e → ¬ e.Covers a.toNat

/-- Resolution finds the first mapping that covers an address, and the offset from its base. -/
theorem resolve_eq_some_iff {s : Space} {a : Address} {i offset : Nat} :
    s.resolve a = some (i, offset) ↔
      ∃ m, s.First a i m ∧ offset = a.toNat - m.base.toNat := by
  simp only [resolve]
  constructor
  · -- The search stops at the first mapping that covers the address.
    intro h
    split at h
    · rename_i k hk
      simp only [Option.some.injEq, Prod.mk.injEq] at h
      obtain ⟨rfl, rfl⟩ := h
      obtain ⟨hcov, hbefore⟩ := Array.findFinIdx?_eq_some_iff.mp hk
      refine ⟨s.mappings[k], ⟨by simp, by simpa using hcov, ?_⟩, rfl⟩
      intro j hj e he
      obtain ⟨hlt, rfl⟩ := Array.getElem?_eq_some_iff.mp he
      simpa using hbefore ⟨j, hlt⟩ hj
    · exact nomatch h
  · -- Where no mapping in front covers the address, the search gets to this one.
    rintro ⟨m, ⟨hat, hcov, hbefore⟩, rfl⟩
    obtain ⟨hlt, rfl⟩ := Array.getElem?_eq_some_iff.mp hat
    have hfind : (s.mappings.findFinIdx? fun m => m.Covers a.toNat) = some ⟨i, hlt⟩ := by
      apply Array.findFinIdx?_eq_some_iff.mpr
      refine ⟨by simpa using hcov, ?_⟩
      intro j hj
      simpa using hbefore j hj _ (Array.getElem?_eq_getElem j.isLt)
    rw [hfind]
    rfl

/-- The first mapping that covers an address is resolved to. -/
theorem resolve_of_first {s : Space} {a : Address} {i : Nat} {m : Mapping} (h : s.First a i m) :
    s.resolve a = some (i, a.toNat - m.base.toNat) :=
  resolve_eq_some_iff.mpr ⟨m, h, rfl⟩

/-- The first mapping that covers an address answers for it. -/
theorem owner?_of_first {s : Space} {a : Address} {i : Nat} {m : Mapping} (h : s.First a i m) :
    s.owner? a = some m := by
  obtain ⟨m', hat, howner, -⟩ := owner?_of_resolve (resolve_of_first h)
  rw [howner, ← hat, h.at_place]

/-- A read is one of the device behind the first mapping that covers the address. -/
theorem read_of_first {s : Space} {a : Address} {i : Nat} {m : Mapping} (h : s.First a i m) :
    s.read a = m.device.read (a.toNat - m.base.toNat) := by
  simp only [read, owner?_of_first h]

/-- Where no mapping answers, a read finds zero. -/
theorem read_of_resolve_eq_none {s : Space} {a : Address} (h : s.resolve a = none) :
    s.read a = 0 := by
  simp only [read, resolve_eq_none_iff.mp h]

/-- An address is not resolved exactly if no mapping covers it. -/
theorem resolve_eq_none_iff_covers {s : Space} {a : Address} :
    s.resolve a = none ↔ ∀ m ∈ s.mappings, ¬ m.Covers a.toNat := by
  rw [resolve_eq_none_iff, owner?_eq_none_iff]

/-- An address is not resolved, or some mapping is the first one that covers it. -/
theorem resolve_cases (s : Space) (a : Address) :
    s.resolve a = none ∨ ∃ i m, s.First a i m := by
  cases h : s.resolve a with
  | none => exact .inl rfl
  | some p =>
    obtain ⟨i, offset⟩ := p
    obtain ⟨m, hfirst, -⟩ := resolve_eq_some_iff.mp h
    exact .inr ⟨i, m, hfirst⟩

/-! ## The space without what was written -/

/-- The space as it was before anything was written to it. -/
def blank (s : Space) : Space := ⟨s.mappings.map Mapping.blank⟩

/-- What was written is forgotten mapping by mapping. -/
theorem getElem?_mappings_blank (s : Space) (i : Nat) :
    s.blank.mappings[i]? = s.mappings[i]?.map Mapping.blank := by
  simp [blank]

/-- The same mapping is the first one when what was written is forgotten. -/
theorem First.blank {s : Space} {a : Address} {i : Nat} {m : Mapping} (h : s.First a i m) :
    s.blank.First a i m.blank := by
  refine ⟨by rw [getElem?_mappings_blank, h.at_place]; rfl, h.covers, ?_⟩
  intro j hj e he
  rw [getElem?_mappings_blank] at he
  obtain ⟨e', he', rfl⟩ := Option.map_eq_some_iff.mp he
  exact h.before j hj e' he'

/-- Resolution goes by the ranges, so what was written has no influence on it. -/
@[simp] theorem resolve_blank (s : Space) (a : Address) : s.blank.resolve a = s.resolve a := by
  -- The ranges are the same, so either no mapping covers the address or the same one is first.
  rcases resolve_cases s a with h | ⟨i, m, h⟩
  · rw [h]
    rw [resolve_eq_none_iff_covers] at h ⊢
    intro m hm
    obtain ⟨m', hm', rfl⟩ := Array.mem_map.mp hm
    exact h m' hm'
  · rw [resolve_of_first h, resolve_of_first h.blank, Mapping.base_blank]

/-! ## Reads after writes -/

/-- A write goes to the device behind the first mapping that covers the address. -/
theorem write_of_first {s : Space} {b : Address} {j : Nat} {m : Mapping} (h : s.First b j m)
    (n : Nibble) :
    s.write b n = ⟨s.mappings.modify j fun e => e.write (b.toNat - m.base.toNat) n⟩ := by
  simp only [write, resolve_of_first h]

/-- Where no mapping answers, a write is lost. -/
theorem write_of_resolve_eq_none {s : Space} {b : Address} (h : s.resolve b = none) (n : Nibble) :
    s.write b n = s := by
  simp only [write, h]

/-- A write goes to the mapping at the place to which its address is resolved. -/
theorem getElem?_mappings_write (s : Space) (b : Address) (n : Nibble) (i : Nat) :
    (s.write b n).mappings[i]? = s.mappings[i]?.map fun m =>
      if (s.resolve b).map Prod.fst = some i then m.write (b.toNat - m.base.toNat) n else m := by
  rcases resolve_cases s b with hnone | ⟨j, m, hfirst⟩
  · simp [write_of_resolve_eq_none hnone, hnone]
  · rw [write_of_first hfirst, Array.getElem?_modify, resolve_of_first hfirst, Option.map_some]
    -- The place of the write is this one or another one.
    by_cases hij : j = i
    · rw [if_pos hij, ← hij, hfirst.at_place, Option.map_some, Option.map_some, if_pos rfl]
    · have hne : some j ≠ some i := fun h => hij (Option.some.inj h)
      simp only [if_neg hij, if_neg hne, Option.map_id_fun', id_eq]

/-- A write leaves the mappings in front of the one that answers, and those behind it. -/
theorem First.exists_split {s : Space} {b : Address} {j : Nat} {m : Mapping} (h : s.First b j m)
    (n : Nibble) : ∃ before after, s.mappings.toList = before ++ m :: after ∧
      (s.write b n).mappings.toList = before ++ m.write (b.toNat - m.base.toNat) n :: after := by
  obtain ⟨hj, rfl⟩ := Array.getElem?_eq_some_iff.mp h.at_place
  have hlen : j < s.mappings.toList.length := by rw [Array.length_toList]; exact hj
  refine ⟨s.mappings.toList.take j, s.mappings.toList.drop (j + 1), ?_, ?_⟩
  · rw [← Array.getElem_toList hj, ← List.drop_eq_getElem_cons hlen, List.take_append_drop]
  · rw [write_of_first h, Array.toList_modify, List.modify_eq_take_cons_drop hlen,
      Array.getElem_toList]

/-- A write changes neither the ranges nor the kinds, sizes and images of the devices. -/
@[simp] theorem blank_write (s : Space) (b : Address) (n : Nibble) :
    (s.write b n).blank = s.blank := by
  rcases resolve_cases s b with h | ⟨j, m, h⟩
  · rw [write_of_resolve_eq_none h]
  · rw [write_of_first h]
    simp only [blank, mk.injEq]
    -- Only one place is written to, and forgetting what is written there gives the same.
    apply Array.ext_getElem?
    intro i
    rw [Array.getElem?_map, Array.getElem?_map, Array.getElem?_modify]
    split
    · rw [Option.map_map]
      congr 1
      funext m
      exact Mapping.blank_write ..
    · rfl

/-- A write changes the resolution of no address. -/
@[simp] theorem resolve_write (s : Space) (a b : Address) (n : Nibble) :
    (s.write b n).resolve a = s.resolve a := by
  rw [← resolve_blank, blank_write, resolve_blank]

/-- A write to the address can be read back: a cell answers for it. -/
def keeps (s : Space) (a : Address) : Bool :=
  match s.owner? a with
  | some m => m.device.keeps (a.toNat - m.base.toNat)
  | none => false

/-- A write can be read back if the first mapping that covers the address has a cell for it. -/
theorem keeps_of_first {s : Space} {a : Address} {i : Nat} {m : Mapping} (h : s.First a i m) :
    s.keeps a = m.device.keeps (a.toNat - m.base.toNat) := by
  simp only [keeps, owner?_of_first h]

/-- Whether a write can be read back does not depend on what was written. -/
@[simp] theorem keeps_blank (s : Space) (a : Address) : s.blank.keeps a = s.keeps a := by
  rcases resolve_cases s a with h | ⟨i, m, h⟩
  · have hb : s.blank.resolve a = none := by rw [resolve_blank, h]
    simp only [keeps, resolve_eq_none_iff.mp h, resolve_eq_none_iff.mp hb]
  · rw [keeps_of_first h, keeps_of_first h.blank]
    exact Device.keeps_blank ..

/-- A read after a write finds what was written, if a cell answers for the address, and otherwise
what was there before. -/
theorem read_write (s : Space) (a b : Address) (n : Nibble) :
    (s.write b n).read a = if a = b ∧ s.keeps b then n else s.read a := by
  rcases resolve_cases s b with hb | ⟨j, m, hb⟩
  · have : s.keeps b = false := by simp only [keeps, resolve_eq_none_iff.mp hb]
    rw [write_of_resolve_eq_none hb, if_neg (by simp [this])]
  rcases resolve_cases s a with ha | ⟨i, e, ha⟩
  · have hne : a ≠ b := by
      rintro rfl
      rw [resolve_of_first hb] at ha
      exact nomatch ha
    rw [if_neg (fun h => hne h.1), read_of_resolve_eq_none ha]
    exact read_of_resolve_eq_none (by rw [resolve_write, ha])
  -- Both addresses are answered for; the mapping of `a` is still there, at the same place.
  obtain ⟨e', he', hoff⟩ := resolve_eq_some_iff.mp
    ((resolve_write s a b n).trans (resolve_of_first ha))
  rw [read_of_first he', ← hoff, read_of_first ha, keeps_of_first hb]
  have hat := he'.at_place
  rw [write_of_first hb, Array.getElem?_modify, ha.at_place] at hat
  by_cases hji : j = i
  · -- The same mapping answers for both, and has a cell of its own for each of them.
    subst hji
    obtain rfl : e = m := Option.some.inj (ha.at_place.symm.trans hb.at_place)
    rw [if_pos rfl, Option.map_some, Option.some.injEq] at hat
    rw [← hat]
    show (e.device.write _ n).read _ = _
    rw [Device.read_write]
    have hiff : b.toNat - e.base.toNat = a.toNat - e.base.toNat ↔ a = b :=
      ⟨fun h => (Mapping.offset_inj hb.covers ha.covers h).symm, fun h => by rw [h]⟩
    simp only [hiff]
  · -- Another mapping answers, so the addresses differ and its device is as it was.
    rw [if_neg hji, Option.some.injEq] at hat
    have hne : a ≠ b := by
      rintro rfl
      have := (resolve_of_first hb).symm.trans (resolve_of_first ha)
      simp only [Option.some.injEq, Prod.mk.injEq] at this
      exact hji this.1
    rw [← hat, if_neg (fun h => hne h.1)]

/-- A write to another address does not change what is read. -/
theorem read_write_of_ne (s : Space) {a b : Address} (h : b ≠ a) (n : Nibble) :
    (s.write b n).read a = s.read a := by
  rw [read_write, if_neg (fun hab => h hab.1.symm)]

/-! ## Writes in a row -/

/-- The space after writes in a row, the first one in the list first. -/
def writes (s : Space) (ws : List (Address × Nibble)) : Space :=
  ws.foldl (fun s w => s.write w.1 w.2) s

@[simp] theorem writes_cons (s : Space) (w : Address × Nibble) (ws : List (Address × Nibble)) :
    s.writes (w :: ws) = (s.write w.1 w.2).writes ws := rfl

/-- Two rows of writes are made one after the other. -/
theorem writes_append (s : Space) (ws vs : List (Address × Nibble)) :
    s.writes (ws ++ vs) = (s.writes ws).writes vs := List.foldl_append

/-- Writes change neither the ranges nor the kinds, sizes and images of the devices. -/
theorem blank_writes (s : Space) (ws : List (Address × Nibble)) :
    (s.writes ws).blank = s.blank := by
  induction ws generalizing s with
  | nil => rfl
  | cons w ws ih => rw [writes_cons, ih, blank_write]

/-! ## An image in front -/

/-- The first mapping is an image, over exactly as many addresses as it has nibbles. -/
def Mounts (s : Space) (base : UInt16) (image : Rom) : Prop :=
  s.mappings[0]? = some (.ofDevice base (.rom image))

/-- A write leaves the image in front. -/
theorem Mounts.write {s : Space} {base : UInt16} {image : Rom} (h : s.Mounts base image)
    (b : Address) (n : Nibble) : (s.write b n).Mounts base image := by
  rcases resolve_cases s b with hb | ⟨j, m, hb⟩
  · rw [write_of_resolve_eq_none hb]
    exact h
  · -- Should the write reach the image itself, a device of this kind ignores it.
    rw [write_of_first hb, Mounts, Array.getElem?_modify, h]
    split <;> rfl

/-- Writes in a row leave the image in front. -/
theorem Mounts.writes {s : Space} {base : UInt16} {image : Rom} (h : s.Mounts base image)
    (ws : List (Address × Nibble)) : (s.writes ws).Mounts base image := by
  induction ws generalizing s with
  | nil => exact h
  | cons w ws ih => exact ih (h.write w.1 w.2)

/-- The image in front answers for its range, whatever comes behind it. -/
theorem read_of_mounts {s : Space} {base : UInt16} {image : Rom} (h : s.Mounts base image)
    {a : Address} {k : Nat} (ha : a.toNat = base.toNat + k) (hk : k < image.size) :
    s.read a = image.get k := by
  have hoff : a.toNat - base.toNat = k := by omega
  -- No mapping stands in front of it that could answer instead.
  have hfirst : s.First a 0 (.ofDevice base (.rom image)) := by
    refine ⟨h, ⟨?_, ?_⟩, fun j hj => absurd hj (Nat.not_lt_zero j)⟩
    · show base.toNat ≤ a.toNat
      omega
    · show a.toNat - base.toNat < image.size
      omega
  rw [read_of_first hfirst]
  show image.get (a.toNat - base.toNat) = _
  rw [hoff]

end Space

end NandMachine
