import NandMachine.Layout
import NandMachine.Proofs.Memory.Access

/-!
# Spaces of a layout

A layout that can be built, strict or not, gives a space with exactly its mappings, in their order.
In particular the image is in front: no other mapping hides a nibble of it.

## Key results

- `mappings_of_space`: the mappings of the space are those of the layout
- `mounts_of_space`: the image is in front
-/

namespace NandMachine.Layout

/-- Registration in a row puts the mappings behind those of the space. -/
theorem mappings_of_registerAll {strict : Bool} {s t : Space} {ms : List Mapping}
    (h : (registerAll strict s ms).1 = .ok t) : t.mappings.toList = s.mappings.toList ++ ms := by
  induction ms generalizing s with
  | nil =>
    rw [registerAll, Except.ok.injEq] at h
    rw [h, List.append_nil]
  | cons m ms ih =>
    rw [registerAll] at h
    split at h
    · exact nomatch h
    · -- What is registered goes behind the space, and the rest goes behind that.
      rw [ih h, Space.register, Array.toList_push, List.append_assoc, List.singleton_append]

/-- The mappings of the space are those of the layout. -/
theorem mappings_of_space {l : Layout} {image : Rom} {s : Space} (h : l.space image = .ok s) :
    s.mappings.toList = l.mappings image := by
  rw [space, build] at h
  -- A layout that fails its check is not built.
  split at h
  · exact nomatch h
  · rw [mappings_of_registerAll h]
    rfl

/-- The image is in front of all other mappings. -/
theorem mounts_of_space {l : Layout} {image : Rom} {s : Space} (h : l.space image = .ok s) :
    s.Mounts l.romBase image := by
  rw [Space.Mounts, ← Array.getElem?_toList, mappings_of_space h]
  rfl

end NandMachine.Layout
