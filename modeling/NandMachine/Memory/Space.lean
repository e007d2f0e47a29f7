import NandMachine.Memory.Mapping

/-!
# The address space

A space is a row of mappings. The first one that covers an address answers for it; an address that
none covers reads as zero and loses what is written to it. Reads and writes report what is notable
about them, which is kept apart from what they do: `readEvents` beside `read`, `writeEvents` beside
`write`. Proofs work on the view `Space.owner?`, the mapping that answers for an address.
-/

namespace NandMachine

/-- The mappings in the order in which they are asked. -/
structure Space where
  mappings : Array Mapping := #[]
deriving DecidableEq, Inhabited

namespace Space

/-- A space without mappings. -/
def empty : Space := {}

/-! ### Registration -/

/-- Puts a mapping behind the others. -/
def register (s : Space) (m : Mapping) : Space := ⟨s.mappings.push m⟩

/-- Why a mapping cannot be put into a space that has to stay free of overlaps. -/
def conflict? (s : Space) (m : Mapping) : Option MappingError :=
  if m.length = 0 then some (.emptyMapping m.base.toNat)
  else if addressCount < m.stop then some (.outOfBounds m.base.toNat m.length)
  -- The ranges are compared by where they end, so an empty mapping can stand in the way.
  else match s.mappings.find? fun e => e.Overlaps m with
    | some e => some (.overlap m.base.toNat m.length e.base.toNat e.length)
    | none => none

/-- Puts a mapping behind the others if it fits. -/
def tryRegister (s : Space) (m : Mapping) : Except MappingError Space :=
  match s.conflict? m with
  | some e => .error e
  | none => .ok (s.register m)

/-- The same as a change of the space in place, one check after the other. The space that is left
is part of the result, also behind a check that fails. -/
def tryRegisterInPlace (m : Mapping) : EStateM MappingError Space Unit := do
  if m.length = 0 then throw (.emptyMapping m.base.toNat)
  if addressCount < m.stop then throw (.outOfBounds m.base.toNat m.length)
  match (← get).mappings.find? fun e => e.Overlaps m with
  | some e => throw (.overlap m.base.toNat m.length e.base.toNat e.length)
  | none => modify fun s => s.register m

/-- Whatever check fails, the space is as it was before. -/
theorem run_tryRegisterInPlace (s : Space) (m : Mapping) :
    (tryRegisterInPlace m).run s =
      match s.tryRegister m with
      | .ok t => .ok () t
      | .error e => .error e s := by
  unfold tryRegisterInPlace tryRegister conflict?
  by_cases hempty : m.length = 0
  · simp only [if_pos hempty]
    rfl
  by_cases hbeyond : addressCount < m.stop
  · simp only [if_neg hempty, if_pos hbeyond]
    rfl
  simp only [if_neg hempty, if_neg hbeyond]
  -- Only the last check looks at the space.
  have hget : (get : EStateM MappingError Space Space) s = .ok s s := rfl
  simp only [EStateM.run, bind, EStateM.bind, hget]
  cases s.mappings.find? fun e => e.Overlaps m <;> rfl

/-! ### Access -/

/-- The mapping that answers for an address, by its place, and the offset into its device. -/
def resolve (s : Space) (a : Address) : Option (Nat × Nat) :=
  match s.mappings.findFinIdx? fun m => m.Covers a.toNat with
  | some i => some (i, a.toNat - s.mappings[i].base.toNat)
  | none => none

/-- The mapping that answers for an address. -/
def owner? (s : Space) (a : Address) : Option Mapping :=
  s.mappings.find? fun m => m.Covers a.toNat

/-- The nibble at an address. -/
def read (s : Space) (a : Address) : Nibble :=
  match s.owner? a with
  | some m => m.device.read (a.toNat - m.base.toNat)
  | none => 0

/-- The report of a read. -/
def readEvents (s : Space) (a : Address) : List Event :=
  match s.owner? a with
  | some _ => []
  | none => [.readUnmapped a]

/-- The space after a write. -/
def write (s : Space) (a : Address) (n : Nibble) : Space :=
  match s.resolve a with
  -- Only the mapping that answers changes; others that cover the address do not.
  | some (i, offset) => ⟨s.mappings.modify i fun m => m.write offset n⟩
  | none => s

/-- The report of a write. -/
def writeEvents (s : Space) (a : Address) (n : Nibble) : List Event :=
  match s.owner? a with
  | none => [.writeUnmapped n a]
  | some m =>
    let offset := a.toNat - m.base.toNat
    match m.device.outcome offset with
    -- Of what is stored, only what shows is reported.
    | .stored =>
      match m.device.kind with
      | .display => [.displayWrite n]
      | _ => []
    | .readOnly => [.romWrite offset]
    | .outOfRange => [.writePastEnd n m.device.kind a]

/-- The nibble that shows at the first display. -/
def output (s : Space) : Option Nibble := s.mappings.findSome? fun m => m.device.output

/-- A space in one line of text. -/
def text (s : Space) : String :=
  Text.record "AddressSpace" [("mappings", Text.list (s.mappings.toList.map Mapping.text))]

/-! ### Which mapping answers -/

/-- A mapping that is put behind the others answers where none of them does. -/
theorem owner?_register (s : Space) (m : Mapping) (a : Address) :
    (s.register m).owner? a = (s.owner? a).or (if m.Covers a.toNat then some m else none) := by
  simp only [owner?, register, Array.find?_push]
  by_cases h : m.Covers a.toNat <;> simp [h]

/-- The mapping that answers for an address covers it. -/
theorem covers_of_owner? {s : Space} {a : Address} {m : Mapping} (h : s.owner? a = some m) :
    m.Covers a.toNat := by
  simpa using Array.find?_some h

/-- No mapping answers for an address exactly if none covers it. -/
theorem owner?_eq_none_iff {s : Space} {a : Address} :
    s.owner? a = none ↔ ∀ m ∈ s.mappings, ¬ m.Covers a.toNat := by
  simp [owner?]

/-- The place that answers for an address holds the mapping that does. -/
theorem owner?_of_resolve {s : Space} {a : Address} {i offset : Nat}
    (h : s.resolve a = some (i, offset)) :
    ∃ m, s.mappings[i]? = some m ∧ s.owner? a = some m ∧ offset = a.toNat - m.base.toNat := by
  rw [owner?, Array.find?_eq_map_findFinIdx?_getElem]
  rw [resolve] at h
  -- Both look for the first mapping that covers the address, one for its place and one for itself.
  split at h
  · next j hj =>
    simp only [Option.some.injEq, Prod.mk.injEq] at h
    obtain ⟨rfl, rfl⟩ := h
    exact ⟨s.mappings[j], by simp, by rw [hj]; rfl, rfl⟩
  · simp at h

/-- No place is found exactly if no mapping is. -/
theorem resolve_eq_none_iff {s : Space} {a : Address} :
    s.resolve a = none ↔ s.owner? a = none := by
  rw [owner?, Array.find?_eq_map_findFinIdx?_getElem, resolve]
  split <;> simp [*]

end Space

end NandMachine
