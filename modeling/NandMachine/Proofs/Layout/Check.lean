import NandMachine.Proofs.Layout.Strict

/-!
# The check of a layout

Lengths of regions are words of 64 bits that nobody has looked at before the layout is checked, so
the sum of a base and a length need not be a word. The check of a layout allows for this, and what
comes behind the check does not: from then on every sum is taken as it comes. `buildInWords?` is the
construction with words, in which such a sum has no value; it always has one. So the check and the
construction can be stated with numbers.

## Key results

- `problem?_eq_some_iff`: what the check of a layout finds, and what of it first
- `buildInWords?_eq`: no sum behind the check of a layout is too large for a word
- `layout_is_checked_exactly`: the check, and what a lenient construction gives behind it
-/

namespace NandMachine

/-! ## What the check finds -/

namespace Layout

/-- What is wrong with a layout, of several things the first one: the base of the image is looked at
first, then that of the display, then the regions in their order. A base is looked at as if it were
a range of one address. -/
inductive Unsound (l : Layout) : MappingError → Prop
  | romBase (beyond : addressCount ≤ l.romBase.toNat) : Unsound l (.outOfBounds l.romBase.toNat 1)
  | displayBase (rom : l.romBase.toNat < addressCount)
      (beyond : addressCount ≤ l.displayBase.toNat) :
    Unsound l (.outOfBounds l.displayBase.toNat 1)
  | emptyRegion (rom : l.romBase.toNat < addressCount)
      (display : l.displayBase.toNat < addressCount) {before after : List Region} {r : Region}
      (place : l.ram = before ++ r :: after)
      (first : ∀ e ∈ before, 0 < e.length.toNat ∧ e.base.toNat + e.length.toNat ≤ addressCount)
      (empty : r.length.toNat = 0) :
    Unsound l (.emptyMapping r.base.toNat)
  | regionBeyond (rom : l.romBase.toNat < addressCount)
      (display : l.displayBase.toNat < addressCount) {before after : List Region} {r : Region}
      (place : l.ram = before ++ r :: after)
      (first : ∀ e ∈ before, 0 < e.length.toNat ∧ e.base.toNat + e.length.toNat ≤ addressCount)
      (holds : 0 < r.length.toNat) (beyond : addressCount < r.base.toNat + r.length.toNat) :
    Unsound l (.outOfBounds r.base.toNat r.length.toNat)

/-- What can be wrong with a region: it is empty, or it reaches beyond the space. -/
theorem problem?_region_eq_some_iff {r : Region} {err : MappingError} :
    r.problem? = some err ↔
      r.length.toNat = 0 ∧ err = .emptyMapping r.base.toNat ∨
      0 < r.length.toNat ∧ addressCount < r.base.toNat + r.length.toNat ∧
        err = .outOfBounds r.base.toNat r.length.toNat := by
  have hzero : r.length = 0 ↔ r.length.toNat = 0 := UInt64.toNat_inj.symm
  unfold Region.problem?
  simp only [hzero]
  split
  · next h => simp [h, eq_comm]
  · next h =>
    split
    · next hbeyond => simp [h, Nat.pos_of_ne_zero h, hbeyond, eq_comm]
    · next hfits => simp [h, hfits]

/-- What can be wrong with a base: it is beyond the last address. -/
theorem baseProblem?_eq_some_iff {base : UInt16} {err : MappingError} :
    baseProblem? base = some err ↔
      addressCount ≤ base.toNat ∧ err = .outOfBounds base.toNat 1 := by
  unfold baseProblem?
  split
  · next h => simp [Nat.not_le_of_lt h]
  · next h => simp [Nat.le_of_not_lt h, eq_comm]

/-- What the check of a layout finds, and what of it first. -/
theorem problem?_eq_some_iff {l : Layout} {err : MappingError} :
    l.problem? = some err ↔ l.Unsound err := by
  simp only [problem?, Option.or_eq_some_iff, baseProblem?_eq_some_iff, baseProblem?_eq_none_iff,
    List.findSome?_eq_some_iff, problem?_region_eq_some_iff, problem?_region_eq_none_iff]
  -- The search for the first flaw and the list of flaws have the same four cases.
  constructor
  · rintro (⟨hrom, rfl⟩ | ⟨hrom, ⟨hdisplay, rfl⟩ | ⟨hdisplay, before, r, after, place, hr, first⟩⟩)
    · exact .romBase hrom
    · exact .displayBase hrom hdisplay
    · rcases hr with ⟨hempty, rfl⟩ | ⟨hholds, hbeyond, rfl⟩
      · exact .emptyRegion hrom hdisplay place first hempty
      · exact .regionBeyond hrom hdisplay place first hholds hbeyond
  · intro h
    cases h with
    | romBase beyond => exact .inl ⟨beyond, rfl⟩
    | displayBase rom beyond => exact .inr ⟨rom, .inl ⟨beyond, rfl⟩⟩
    | emptyRegion rom display place first empty =>
      exact .inr ⟨rom, .inr ⟨display, _, _, _, place, .inl ⟨empty, rfl⟩, first⟩⟩
    | regionBeyond rom display place first holds beyond =>
      exact .inr ⟨rom, .inr ⟨display, _, _, _, place, .inr ⟨holds, beyond, rfl⟩, first⟩⟩

end Layout

/-! ## The construction with words -/

/-- The sum of two numbers as a word of 64 bits, if it is one. -/
def wordSum? (a b : Nat) : Option UInt64 :=
  if a + b < UInt64.size then some (.ofNat (a + b)) else none

/-- A sum below 2^64 is a word. -/
theorem wordSum?_of_lt {a b : Nat} (h : a + b < UInt64.size) :
    ∃ w, wordSum? a b = some w ∧ w.toNat = a + b := by
  refine ⟨.ofNat (a + b), if_pos h, ?_⟩
  rw [UInt64.toNat_ofNat']
  exact Nat.mod_eq_of_lt h

/-- The check of a region with words. A sum that is no word is too large for the space as well. -/
def Region.problemInWords? (r : Region) : Option MappingError :=
  if r.length = 0 then some (.emptyMapping r.base.toNat)
  else match wordSum? r.base.toNat r.length.toNat with
    | some stop =>
      if stop ≤ 4096 then none else some (.outOfBounds r.base.toNat r.length.toNat)
    | none => some (.outOfBounds r.base.toNat r.length.toNat)

namespace Mapping

/-- The number behind the last address of the range, if it is a word. -/
def stopWord? (m : Mapping) : Option UInt64 := wordSum? m.base.toNat m.length

/-- Each range starts before the other one stops; the second comparison is made only if the first
one holds. Nothing if a sum is no word. -/
def overlapsInWords? (m n : Mapping) : Option Bool := do
  let stop ← n.stopWord?
  if m.base.toUInt64 < stop then
    let stop ← m.stopWord?
    return decide (n.base.toUInt64 < stop)
  else return false

end Mapping

/-- The check of a registration with words; nothing if a sum is no word. -/
def Space.conflictInWords? (s : Space) (m : Mapping) : Option (Option MappingError) :=
  if m.length = 0 then some (some (.emptyMapping m.base.toNat))
  else do
    let stop ← m.stopWord?
    if 4096 < stop then return some (.outOfBounds m.base.toNat m.length)
    else
      let earlier? ← s.mappings.toList.findM? fun e => e.overlapsInWords? m
      return earlier?.map fun e => .overlap m.base.toNat m.length e.base.toNat e.length

namespace Layout

/-- The check of a layout with words. -/
def problemInWords? (l : Layout) : Option MappingError :=
  (baseProblem? l.romBase).or
    ((baseProblem? l.displayBase).or (l.ram.findSome? Region.problemInWords?))

/-- Registration in a row with words; nothing if a sum is no word. The report of a mapping names the
end of its range, also where the registration itself is not checked. -/
def registerAllInWords? (strict : Bool) (s : Space) :
    List Mapping → Option (Except MappingError Space × List Event)
  | [] => some (.ok s, [])
  | m :: ms => do
    let conflict? ← (if strict then s.conflictInWords? m else some none)
    match conflict? with
    | some e => return (.error e, [])
    | none =>
      let stop ← m.stopWord?
      let (result, events) ← registerAllInWords? strict (s.register m) ms
      return (result, .mapped m.device.kind m.base.toNat stop.toNat :: events)

/-- The address space of a layout with an image, with words; nothing if a sum is no word. -/
def buildInWords? (l : Layout) (image : Rom) : Option (Except MappingError Space × List Event) :=
  match l.problemInWords? with
  | some e => some (.error e, [])
  | none => registerAllInWords? l.strict .empty (l.mappings image)

end Layout

/-- A region is checked with words as it is with numbers. -/
theorem Region.problemInWords?_eq (r : Region) : r.problemInWords? = r.problem? := by
  have hcount : addressCount = 4096 := rfl
  unfold problemInWords? problem?
  split
  · rfl
  · -- The sum is a word, or it is none and so too large for the space.
    rcases Nat.lt_or_ge (r.base.toNat + r.length.toNat) UInt64.size with hlt | hge
    · obtain ⟨stop, hstop, hvalue⟩ := wordSum?_of_lt hlt
      have hle : stop ≤ 4096 ↔ ¬ addressCount < r.base.toNat + r.length.toNat := by
        rw [UInt64.le_iff_toNat_le, hvalue, hcount, Nat.not_lt]
        rfl
      simp only [hstop, hle, ite_not]
    · -- A sum that is no word is far beyond the last address.
      have hbeyond : addressCount < r.base.toNat + r.length.toNat := by
        have hsize : UInt64.size = 18446744073709551616 := rfl
        omega
      simp only [wordSum?, if_neg (Nat.not_lt_of_le hge), if_pos hbeyond]

namespace Mapping

/-- The end of a range is a word if it is below 2^64. -/
theorem stopWord?_of_lt {m : Mapping} (h : m.stop < UInt64.size) :
    ∃ w, m.stopWord? = some w ∧ w.toNat = m.stop := wordSum?_of_lt h

/-- Ranges whose ends are words are compared with words as they are with numbers. -/
theorem overlapsInWords?_of_lt {m n : Mapping} (hm : m.stop < UInt64.size)
    (hn : n.stop < UInt64.size) : m.overlapsInWords? n = some (decide (m.Overlaps n)) := by
  obtain ⟨mstop, hmstop, hmvalue⟩ := stopWord?_of_lt hm
  obtain ⟨nstop, hnstop, hnvalue⟩ := stopWord?_of_lt hn
  unfold overlapsInWords? Overlaps
  simp only [hmstop, hnstop, Option.bind_eq_bind, Option.bind_some, UInt64.lt_iff_toNat_lt,
    UInt16.toNat_toUInt64, hmvalue, hnvalue]
  by_cases hlt : m.base.toNat < n.stop <;> simp [hlt]

end Mapping

/-- A search in which every question has an answer. -/
theorem findM?_eq_some_find? {α : Type} {p : α → Option Bool} {q : α → Bool} {as : List α}
    (h : ∀ a ∈ as, p a = some (q a)) : as.findM? p = some (as.find? q) := by
  -- The search stops at the first item that is found, and no question in front of it fails.
  induction as with
  | nil => rfl
  | cons a as ih =>
    obtain ⟨ha, has⟩ := List.forall_mem_cons.mp h
    rw [List.findM?, ha, List.find?_cons, Option.bind_eq_bind, Option.bind_some]
    cases q a with
    | true => rfl
    | false => exact ih has

namespace Space

/-- A registration is checked with words as it is with numbers, if all ends are words. -/
theorem conflictInWords?_of_lt {s : Space} {m : Mapping} (hm : m.stop < UInt64.size)
    (hs : ∀ e ∈ s.mappings, e.stop < UInt64.size) :
    s.conflictInWords? m = some (s.conflict? m) := by
  obtain ⟨stop, hstop, hvalue⟩ := Mapping.stopWord?_of_lt hm
  have hcount : addressCount = 4096 := rfl
  have hlt : 4096 < stop ↔ addressCount < m.stop := by
    rw [UInt64.lt_iff_toNat_lt, hvalue, hcount]
    rfl
  -- Every mapping of the space can be asked, as its end is a word.
  have hfind := findM?_eq_some_find? (p := fun e => e.overlapsInWords? m)
    fun e he => Mapping.overlapsInWords?_of_lt (hs e (Array.mem_toList_iff.mp he)) hm
  unfold conflictInWords? conflict?
  simp only [hstop, hlt, hfind, Option.bind_eq_bind, Option.bind_some, Array.find?_toList]
  split
  · rfl
  · split
    · rfl
    · cases s.mappings.find? fun e => decide (e.Overlaps m) <;> rfl

end Space

namespace Layout

/-- A layout is checked with words as it is with numbers. -/
theorem problemInWords?_eq (l : Layout) : l.problemInWords? = l.problem? := by
  have hregion : Region.problemInWords? = Region.problem? := funext Region.problemInWords?_eq
  rw [problemInWords?, problem?, hregion]

/-- Where the ends of all ranges are words, the construction with words is the one with numbers. -/
theorem registerAllInWords?_of_lt (strict : Bool) {s : Space} {ms : List Mapping}
    (hs : ∀ e ∈ s.mappings, e.stop < UInt64.size) (hms : ∀ m ∈ ms, m.stop < UInt64.size) :
    registerAllInWords? strict s ms = some (registerAll strict s ms) := by
  induction ms generalizing s with
  | nil => rfl
  | cons m ms ih =>
    obtain ⟨hm, hrest⟩ := List.forall_mem_cons.mp hms
    obtain ⟨stop, hstop, hvalue⟩ := Mapping.stopWord?_of_lt hm
    have hcheck : (if strict then s.conflictInWords? m else some none) =
        some (if strict then s.conflict? m else none) := by
      cases strict with
      | false => rfl
      | true => exact Space.conflictInWords?_of_lt hm hs
    -- The mapping goes behind those of the space, so its end is asked for again.
    have hregister : ∀ e ∈ (s.register m).mappings, e.stop < UInt64.size := by
      intro e he
      rcases Array.mem_push.mp he with he | rfl
      · exact hs e he
      · exact hm
    rw [registerAllInWords?, registerAll, hcheck, Option.bind_eq_bind, Option.bind_some]
    cases (if strict then s.conflict? m else none) with
    | some e => rfl
    | none =>
      simp only [hstop, ih hregister hrest, Option.bind_eq_bind, Option.bind_some, hvalue]
      rfl

/-- The mappings of a layout, with their ranges and what is in them at first. -/
theorem mappings_eq (l : Layout) (image : Rom) :
    l.mappings image =
      ⟨l.romBase, 2 * image.bytes.size, .rom image⟩ :: ⟨l.displayBase, 1, .display 0 0⟩ ::
        l.ram.map fun r =>
          ⟨r.base, r.length.toNat, .ram (Array.replicate r.length.toNat 0)⟩ := by
  have hregion : Region.mapping = fun r =>
      ⟨r.base, r.length.toNat, .ram (Array.replicate r.length.toNat 0)⟩ := by
    funext r
    simp [Region.mapping, Mapping.ofDevice, Device.zeros, Device.size]
  rw [mappings, hregion]
  rfl

/-- Of the ranges of a sound layout only that of the image can reach beyond the space, and it has
twice as many addresses as the image has bytes. -/
theorem stop_lt_of_no_problem {l : Layout} (h : l.problem? = none) {image : Rom}
    (small : image.bytes.size < UInt64.size / 4) :
    ∀ m ∈ l.mappings image, m.stop < UInt64.size := by
  have hsize : UInt64.size = 18446744073709551616 := rfl
  have hcount : addressCount = 4096 := rfl
  obtain ⟨hrom, hdisplay, hram⟩ := problem?_eq_none_iff.mp h
  intro m hm
  rw [mappings_eq] at hm
  simp only [List.mem_cons, List.mem_map] at hm
  -- The image is bounded by hypothesis, and the others by the check.
  rcases hm with rfl | rfl | ⟨r, hr, rfl⟩
  · show l.romBase.toNat + 2 * image.bytes.size < _
    omega
  · show l.displayBase.toNat + 1 < _
    omega
  · show r.base.toNat + r.length.toNat < _
    have hfits := (hram r hr).2
    omega

/-- No sum behind the check of a layout is too large for a word. -/
theorem buildInWords?_eq (l : Layout) {image : Rom} (small : image.bytes.size < UInt64.size / 4) :
    l.buildInWords? image = some (l.build image) := by
  rw [buildInWords?, build, problemInWords?_eq]
  cases h : l.problem? with
  | some err => rfl
  -- What has passed the check has ends that are words.
  | none =>
    have hempty : ∀ e ∈ Space.empty.mappings, e.stop < UInt64.size := by simp [Space.empty]
    exact registerAllInWords?_of_lt l.strict hempty (stop_lt_of_no_problem h small)

/-- A layout is checked exactly. The check fails if a base is beyond the last address or a region is
empty or reaches beyond it, and only then, whatever the layout is otherwise; it is about the first
of these things that is wrong. A layout that fails the check is built no further. Behind the check
the ends of all ranges are words, also that of an image that could hardly be larger, so the
construction with words never misses a sum and does what the one with numbers does. A lenient layout
that passes the check is built, with the image, the display and the regions in their order, each at
its base and with its own length, and with nothing written yet. -/
theorem layout_is_checked_exactly (l : Layout) (image : Rom)
    (small : image.bytes.size < UInt64.size / 4) :
    ((∃ err, l.problem? = some err) ↔
      addressCount ≤ l.romBase.toNat ∨ addressCount ≤ l.displayBase.toNat ∨
        ∃ r ∈ l.ram, r.length.toNat = 0 ∨ addressCount < r.base.toNat + r.length.toNat) ∧
    (∀ err, l.problem? = some err ↔ l.Unsound err) ∧
    (∀ err, l.problem? = some err → l.build image = (.error err, [])) ∧
    (l.problem? = none → ∀ m ∈ l.mappings image, m.stop < UInt64.size) ∧
    l.buildInWords? image = some (l.build image) ∧
    (l.strict = false →
      ((∃ s, l.space image = .ok s) ↔ l.problem? = none) ∧
      ∀ s, l.space image = .ok s → s.mappings.toList =
        ⟨l.romBase, 2 * image.bytes.size, .rom image⟩ :: ⟨l.displayBase, 1, .display 0 0⟩ ::
          l.ram.map fun r =>
            ⟨r.base, r.length.toNat, .ram (Array.replicate r.length.toNat 0)⟩) := by
  refine ⟨?_, fun err => problem?_eq_some_iff, ?_, fun h => stop_lt_of_no_problem h small,
    buildInWords?_eq l small, ?_⟩
  · -- The conditions are what is missing for there to be no problem.
    rw [← Option.ne_none_iff_exists', ne_eq, problem?_eq_none_iff]
    simp only [Classical.not_and_iff_not_or_not, Classical.not_forall, exists_prop, Nat.not_lt,
      Nat.not_le, Nat.le_zero_eq]
  · intro err herr
    rw [build, herr]
  · intro hlenient
    refine ⟨⟨?_, ?_⟩, fun s hs => (mappings_of_space hs).trans (mappings_eq l image)⟩
    · rintro ⟨s, hs⟩
      cases h : l.problem? with
      | none => rfl
      | some err =>
        rw [space, build, h] at hs
        cases hs
    · intro h
      -- Without checks of its own, registration in a row gives every mapping its place.
      rw [space, build, h, hlenient]
      exact ⟨_, registerAll_lenient ..⟩

/-- A region that is longer than the space by far, between a sound one and an empty one; and a
lenient layout whose image reaches beyond the space, with a display in its way. -/
theorem layout_is_checked_exactly_of_oversized :
    let image : Rom := ⟨#[0x12, 0x34]⟩
    let oversized : Layout :=
      { ram := [⟨0x200, 16⟩, ⟨0x300, 0xFFFFFFFFFFFFFFFF⟩, ⟨0x400, 0⟩], strict := true }
    let lenient : Layout := { romBase := 0xFFE, displayBase := 0xFFF, ram := [⟨0xFF0, 16⟩] }
    let err : MappingError := .outOfBounds 0x300 0xFFFFFFFFFFFFFFFF
    image.bytes.size < UInt64.size / 4 ∧ oversized.Unsound err ∧
      oversized.build image = (.error err, []) ∧
      oversized.buildInWords? image = some (oversized.build image) ∧
      ∃ s, lenient.space image = .ok s ∧
        s.mappings.toList.map (fun m => (m.base, m.length)) =
          [(0xFFE, 4), (0xFFF, 1), (0xFF0, 16)] := by
  intro image oversized lenient err
  have small : image.bytes.size < UInt64.size / 4 := by decide
  -- The second region ends beyond all words, where a sum modulo 2^64 would be a small one.
  have hproblem : oversized.problem? = some err := rfl
  obtain ⟨-, hfirst, herror, -, hwords, -⟩ := layout_is_checked_exactly oversized image small
  obtain ⟨-, -, -, -, -, hbuilt⟩ := layout_is_checked_exactly lenient image small
  obtain ⟨hexists, hmappings⟩ := hbuilt rfl
  obtain ⟨s, hs⟩ := hexists.mpr rfl
  refine ⟨small, (hfirst err).mp hproblem, herror err hproblem, hwords, s, hs, ?_⟩
  rw [hmappings s hs]
  rfl

end Layout

end NandMachine
