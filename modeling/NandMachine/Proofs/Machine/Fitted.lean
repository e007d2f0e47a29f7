import NandMachine.Proofs.Layout.Build
import NandMachine.Proofs.Machine.Log

/-!
# Ranges as long as their devices

A mapping may cover more addresses than its device has room for, and then some accesses lie past the
end of the device. A mapping that is made of a device alone covers exactly what the device has room
for, and a space of such mappings stays like that, whatever is written to it and whatever a machine
does with it. In such a space no access lies past an end: every read finds what is stored, every
write to cells is stored, and no journal ever gets a report to the contrary.

## Key results

- `Space.Tailored.fitted`: all ranges of a tailored space are as long as their devices, for good
- `Device.holds_read`: below the end of a device, a read finds what is stored
- `quiet_of_performAll`: operations keep a space tailored, and report no access past an end
- `no_access_past_an_end`: all of this together
-/

namespace NandMachine

/-! ## Devices -/

namespace Device

@[simp] theorem size_blank (d : Device) : d.blank.size = d.size := by
  cases d <;> simp [blank, size, zeros, freshDisplay]

/-- What is read at an offset is there: half of a byte, the contents of a cell, or the zero that a
display shows to every read. -/
inductive Holds : Device → Nat → Nibble → Prop
  | high {image : Rom} {k : Nat} {b : UInt8} (byte : image.bytes[k]? = some b) :
    Holds (.rom image) (2 * k) (.highHalf b)
  | low {image : Rom} {k : Nat} {b : UInt8} (byte : image.bytes[k]? = some b) :
    Holds (.rom image) (2 * k + 1) (.lowHalf b)
  | cell {cells : Array Nibble} {k : Nat} {n : Nibble} (nibble : cells[k]? = some n) :
    Holds (.ram cells) k n
  | display (value : Nibble) (writes : UInt64) : Holds (.display value writes) 0 0

/-- Below the end of a device, a read finds what is stored. -/
theorem holds_read {d : Device} {offset : Nat} (h : offset < d.size) :
    d.Holds offset (d.read offset) := by
  cases d with
  | rom image =>
    -- The byte is found at half of the offset, and the parity says which of its halves is meant.
    obtain ⟨k, hk⟩ : ∃ k, offset = 2 * k ∨ offset = 2 * k + 1 := ⟨offset / 2, by omega⟩
    have hbyte : k < image.bytes.size := by
      simp only [size, Rom.size] at h
      omega
    have hget := Array.getElem?_eq_getElem hbyte
    rcases hk with rfl | rfl
    · have hhalf : 2 * k / 2 = k := by omega
      have heven : 2 * k % 2 = 0 := by omega
      simp only [read, Rom.get, hhalf, hget, if_pos heven]
      exact .high hget
    · have hhalf : (2 * k + 1) / 2 = k := by omega
      have hodd : ¬ (2 * k + 1) % 2 = 0 := by omega
      simp only [read, Rom.get, hhalf, hget, if_neg hodd]
      exact .low hget
  | ram cells =>
    have hget : cells[offset]? = some cells[offset] := Array.getElem?_eq_getElem h
    simp only [read, hget, Option.getD_some]
    exact .cell hget
  | display value writes =>
    obtain rfl : offset = 0 := Nat.lt_one_iff.mp h
    exact .display value writes

/-- Below its end a device stores what is written to it, unless it is an image. -/
theorem outcome_of_lt {d : Device} {offset : Nat} (h : offset < d.size) :
    d.outcome offset = if d.kind = .rom then .readOnly else .stored := by
  cases d with
  | rom image => rfl
  | ram cells => exact if_pos h
  | display value writes => rfl

/-- Cells keep what is written below their end. -/
theorem keeps_of_lt {d : Device} {offset : Nat} (h : offset < d.size) (hram : d.kind = .ram) :
    d.keeps offset = true := by
  cases d with
  | rom image => cases hram
  | ram cells => exact decide_eq_true h
  | display value writes => cases hram

end Device

/-! ## Spaces -/

/-- The range is as long as the device. -/
def Mapping.Fitted (m : Mapping) : Prop := m.length = m.device.size

/-- What was written makes no difference to whether a range is as long as its device. -/
theorem Mapping.fitted_blank_iff {m : Mapping} : m.blank.Fitted ↔ m.Fitted := by
  simp [Fitted, blank]

/-- The report of a write past the end of a device. -/
inductive Event.PastEnd : Event → Prop
  | intro (n : Nibble) (kind : DeviceKind) (a : Address) : PastEnd (.writePastEnd n kind a)

namespace Space

/-- All ranges are as long as their devices. -/
def Fitted (s : Space) : Prop := ∀ m ∈ s.mappings, m.Fitted

/-- All ranges are as long as their devices exactly if they are when what was written is forgotten.
-/
theorem fitted_blank_iff {s : Space} : s.blank.Fitted ↔ s.Fitted := by
  simp [Fitted, blank, Mapping.fitted_blank_iff]

/-- What was written makes no difference to the ranges. -/
theorem Fitted.congr {s t : Space} (h : s.Fitted) (same : t.blank = s.blank) : t.Fitted := by
  rw [← fitted_blank_iff, same, fitted_blank_iff]
  exact h

/-- A step leaves ranges and devices as long as they were. -/
theorem Fitted.step {m : Machine} (h : m.space.Fitted) : m.step.machine.space.Fitted :=
  h.congr (Machine.blank_of_reachable (.single .step))

/-- One more mapping whose range is as long as its device makes no difference to the others. -/
theorem Fitted.register {s : Space} (h : s.Fitted) {m : Mapping} (hm : m.Fitted) :
    (s.register m).Fitted := by
  intro e he
  rcases Array.mem_push.mp he with he | rfl
  · exact h e he
  · exact hm

/-- An address leads to an offset below the end of the device that answers for it. -/
theorem Fitted.offset_lt {s : Space} (h : s.Fitted) {a : Address} {i : Nat} {m : Mapping}
    (hfirst : s.First a i m) : a.toNat - m.base.toNat < m.device.size := by
  rw [← h m (Array.mem_of_getElem? hfirst.at_place)]
  exact hfirst.covers.2

/-- If all ranges are as long as their devices, no write is reported as past an end. -/
theorem Fitted.not_pastEnd {s : Space} (h : s.Fitted) {a : Address} {n : Nibble} {e : Event}
    (he : e ∈ s.writeEvents a n) : ¬ e.PastEnd := by
  rintro ⟨n', kind, a'⟩
  rcases resolve_cases s a with hnone | ⟨i, m, hfirst⟩
  · simp [writeEvents, resolve_eq_none_iff.mp hnone] at he
  · -- The outcome is one of two, and neither is reported as a write past the end.
    simp only [writeEvents, owner?_of_first hfirst, Device.outcome_of_lt (h.offset_lt hfirst)] at he
    split at he
    · split at he <;> simp at he
    · simp at he
    · next houtcome => split at houtcome <;> cases houtcome

/-- The space has been put together of mappings that are made of devices alone. In between there may
be writes, and whatever a machine does with the space. -/
inductive Tailored : Space → Prop
  | empty : Tailored .empty
  | register {s : Space} (base : UInt16) (d : Device) (h : Tailored s) :
    Tailored (s.register (.ofDevice base d))
  | tryRegister {s t : Space} {base : UInt16} {d : Device} (h : Tailored s)
    (accepted : s.tryRegister (.ofDevice base d) = .ok t) : Tailored t
  | write {s : Space} (a : Address) (n : Nibble) (h : Tailored s) : Tailored (s.write a n)
  | operate {m m' : Machine} (h : Tailored m.space) (reached : m.Reachable m') : Tailored m'.space

/-- All ranges of a tailored space are as long as their devices. -/
theorem Tailored.fitted {s : Space} (h : s.Tailored) : s.Fitted := by
  -- Mappings are fitted when they are made, and neither writes nor runs change a length.
  induction h with
  | empty => exact fun m hm => absurd hm (Array.not_mem_empty m)
  | register base d _ ih => exact ih.register rfl
  | @tryRegister s t base d _ accepted ih =>
    -- A mapping that is accepted is registered.
    rw [Space.tryRegister] at accepted
    split at accepted
    · cases accepted
    · rw [← Except.ok.inj accepted]
      exact ih.register rfl
  | write a n _ ih => exact ih.congr (blank_write _ a n)
  | operate _ reached ih => exact ih.congr (Machine.blank_of_reachable reached)

end Space

namespace Layout

/-- Mappings that are made of devices alone keep a space tailored. -/
theorem tailored_of_registerAll {strict : Bool} {s t : Space} {ms : List Mapping}
    (h : (registerAll strict s ms).1 = .ok t) (hs : s.Tailored)
    (made : ∀ m ∈ ms, ∃ base d, m = .ofDevice base d) : t.Tailored := by
  -- Checks can end the registration, but they let nothing else in.
  induction ms generalizing s with
  | nil =>
    rw [registerAll, Except.ok.injEq] at h
    exact h ▸ hs
  | cons m ms ih =>
    obtain ⟨⟨base, d, rfl⟩, hrest⟩ := List.forall_mem_cons.mp made
    rw [registerAll] at h
    split at h
    · cases h
    · exact ih h (hs.register base d) hrest

/-- A layout makes its mappings of devices alone. -/
theorem tailored_of_space {l : Layout} {image : Rom} {s : Space} (h : l.space image = .ok s) :
    s.Tailored := by
  rw [space, build] at h
  split at h
  · cases h
  · refine tailored_of_registerAll h .empty fun m hm => ?_
    simp only [mappings, List.mem_cons, List.mem_map] at hm
    rcases hm with rfl | rfl | ⟨r, -, rfl⟩ <;> exact ⟨_, _, rfl⟩

end Layout

/-! ## Journals -/

namespace Journal

/-- No report of a write past the end of a device is in the journal. -/
def Quiet (j : Journal) : Prop := ∀ e ∈ j.events, ¬ e.PastEnd

/-- A journal stays quiet with events that are no reports of writes past an end. -/
theorem Quiet.add {j : Journal} (h : j.Quiet) {es : List Event} (hes : ∀ e ∈ es, ¬ e.PastEnd) :
    (j.add es).Quiet := by
  intro e he
  rw [← Array.mem_toList_iff, toList_events_add, List.mem_append] at he
  rcases he with he | he
  · exact h e (Array.mem_toList_iff.mp he)
  · exact hes e (List.mem_filter.mp he).1

open Machine

variable {m m' : Machine} {j j' : Journal}

/-- No step reports a write past an end. -/
theorem Quiet.step (hj : j.Quiet) (hs : m.space.Fitted) : (j.add m.step.events).Quiet := by
  -- Reads, of operands and of loads, report unmapped addresses and nothing else.
  have hread : ∀ a k, ∀ e ∈ m.space.readFromEvents a k, ¬ e.PastEnd := by
    rintro a k e he ⟨n, kind, b⟩
    obtain ⟨c, hc⟩ := Space.exists_readUnmapped_of_mem he
    exact nomatch hc
  refine hj.add ?_
  cases hr : m.status with
  | halted =>
    rw [step_of_halted hr]
    exact fun e he => nomatch he
  | running =>
    cases ho : Opcode.ofCode? (m.space.read m.registers.iar) with
    | none =>
      rw [step_of_illegal hr ho]
      refine List.forall_mem_append.mpr ⟨fun e he => ?_, List.forall_mem_singleton.mpr nofun⟩
      exact hread _ 1 e (List.mem_append_left _ he)
    | some o =>
      obtain ⟨i, -, hd⟩ := exists_decoded ho
      rw [step_of_decoded hr hd]
      refine List.forall_mem_append.mpr ⟨hread _ _, List.forall_mem_cons.mpr ⟨nofun, ?_⟩⟩
      cases i with
      | lod => exact fun e he => hread m.registers.addr 1 e (List.mem_append_left _ he)
      | str => exact fun e he => hs.not_pastEnd he
      | ldi | sar | sap | mov | jmp | rjp | jz | nand => exact fun e he => nomatch he

/-- No chain of steps reports a write past an end. -/
theorem Quiet.of_logged {is : List Instruction} {f : Option Fault} (hj : j.Quiet)
    (h : Logged m j is f m' j') (hs : m.space.Fitted) : j'.Quiet := by
  induction h with
  | nil m j => exact hj
  | fault j faulty => exact hj.step hs
  | cons head tail ih => exact ih (hj.step hs) hs.step

/-- No operation reports a write past an end. -/
theorem Quiet.perform {op : Operation} {o : Outcome} (hj : j.Quiet) (hs : m.space.Fitted)
    (h : m.perform j op = some o) : o.journal.Quiet := by
  -- What takes steps reports those, and at most that a host has stopped it.
  have hsteps : op.TakesSteps → o.journal.Quiet := by
    intro takes
    obtain ⟨j', es, hlogged, hjournal, hes⟩ := logged_of_perform takes h
    rw [hjournal]
    refine (hj.of_logged hlogged hs).add fun e he => ?_
    obtain ⟨n, rfl⟩ := hes e he
    rintro ⟨⟩
  cases op with
  | step => exact hsteps .step
  | run host flag again => exact hsteps (.run host flag again)
  | runLimited limit => exact hsteps (.runLimited limit)
  | fetch =>
    obtain rfl := Option.some.inj h
    refine hj.add fun e he => ?_
    rw [Space.eq_readUnmapped_of_mem he]
    rintro ⟨⟩
  | reset =>
    obtain rfl := Option.some.inj h
    exact hj
  | write a n =>
    obtain rfl := Option.some.inj h
    exact hj.add fun e he => hs.not_pastEnd he

end Journal

namespace Machine

variable {m m' : Machine} {j j' : Journal}

/-- An operation is an action of the host. -/
theorem transition_of_perform {op : Operation} {o : Outcome} (h : m.perform j op = some o) :
    Transition m o.machine := by
  -- Each operation has an action of its own.
  cases op with
  | step =>
    obtain rfl := Option.some.inj h
    exact .step
  | run host flag again =>
    obtain ⟨r, hr, rfl⟩ := Option.map_eq_some_iff.mp h
    exact .run host _ flag j r hr
  | runLimited limit =>
    obtain rfl := Option.some.inj h
    exact .runLimited limit j
  | fetch =>
    obtain rfl := Option.some.inj h
    exact .fetch
  | reset =>
    obtain rfl := Option.some.inj h
    exact .reset
  | write a n =>
    obtain rfl := Option.some.inj h
    exact .write a n

/-- Operations keep a space tailored, and report no write past an end. -/
theorem quiet_of_performAll {ops : List Operation} {os : List Outcome}
    (h : performAll ops m j = some (os, m', j')) (hs : m.space.Tailored) (hj : j.Quiet) :
    m'.space.Tailored ∧ j'.Quiet := by
  -- Each operation starts from a space that is still tailored.
  induction ops generalizing m j os with
  | nil =>
    obtain ⟨-, rfl, rfl⟩ : [] = os ∧ m = m' ∧ j = j' := by simpa [performAll] using h
    exact ⟨hs, hj⟩
  | cons op ops ih =>
    cases ho : m.perform j op with
    | none => simp [performAll, ho] at h
    | some o =>
      rw [performAll_cons ho] at h
      obtain ⟨⟨rest, last⟩, hrest, heq⟩ := Option.map_eq_some_iff.mp h
      obtain ⟨-, rfl⟩ := Prod.mk.inj heq
      exact ih hrest (hs.operate (.single (transition_of_perform ho))) (hj.perform hs.fitted ho)

end Machine

/-- In a space that is put together of mappings made of devices alone, with writes and whatever a
machine does in between, no access falls past the end of a device. Layouts give such spaces. All
ranges are as long as their devices. Whatever an address is resolved to, the device is there and has
room for the offset: a read finds what is stored there, a write is not out of range, and a write
that leads to cells is stored. No write is reported as one past an end, and neither is any other
operation, which leaves such a space again. -/
theorem no_access_past_an_end :
    (∀ (l : Layout) (image : Rom) (s : Space), l.space image = .ok s → s.Tailored) ∧
    ∀ s : Space, s.Tailored →
      (∀ m ∈ s.mappings, m.length = m.device.size) ∧
      (∀ a i offset, s.resolve a = some (i, offset) → ∃ m, s.mappings[i]? = some m ∧
        offset < m.device.size ∧
        m.device.Holds offset (s.read a) ∧
        m.device.outcome offset ≠ .outOfRange ∧
        (m.device.kind = .ram →
          m.device.outcome offset = .stored ∧ ∀ n, (s.write a n).read a = n)) ∧
      (∀ a n, ∀ e ∈ s.writeEvents a n, ¬ e.PastEnd) ∧
      ∀ m ops j os m' j', m.space = s → j.Quiet →
        Machine.performAll ops m j = some (os, m', j') → m'.space.Tailored ∧ j'.Quiet := by
  refine ⟨fun l image s h => Layout.tailored_of_space h, fun s hs => ?_⟩
  refine ⟨hs.fitted, fun a i offset h => ?_, fun a n e he => hs.fitted.not_pastEnd he, ?_⟩
  · obtain ⟨m, hfirst, rfl⟩ := Space.resolve_eq_some_iff.mp h
    have hlt := hs.fitted.offset_lt hfirst
    -- Below the end there are two outcomes, and cells have the better one.
    have houtcome := Device.outcome_of_lt hlt
    refine ⟨m, hfirst.at_place, hlt, ?_, ?_, fun hram => ⟨?_, fun n => ?_⟩⟩
    · rw [Space.read_of_first hfirst]
      exact Device.holds_read hlt
    · rw [houtcome]
      split <;> exact nofun
    · rw [houtcome, hram]
      rfl
    · have hkeeps : s.keeps a = true := by
        rw [Space.keeps_of_first hfirst]
        exact Device.keeps_of_lt hlt hram
      rw [Space.read_write, if_pos ⟨rfl, hkeeps⟩]
  · rintro m ops j os m' j' rfl hj h
    exact Machine.quiet_of_performAll h hs hj

/-- An image that reaches beyond the space, and cells on both sides of a display and behind it. -/
theorem no_access_past_an_end_of_layout :
    let l : Layout := { romBase := 0xFFD, displayBase := 0x100, ram := [⟨0xFE, 4⟩, ⟨0xFFE, 2⟩] }
    ∃ s : Space, l.space ⟨#[0x35, 0xD1]⟩ = .ok s ∧ s.Tailored ∧
      s.resolve 0x101 = some (2, 3) ∧ (∀ n, (s.write 0x101 n).read 0x101 = n) ∧
      ∃ os m j, Machine.performAll [.step, .write 0x100 7, .runLimited 9] (Machine.start s)
        (.empty (some .trace)) = some (os, m, j) ∧ j.Quiet := by
  intro l
  let s : Space := ⟨#[.ofDevice 0xFFD (.rom ⟨#[0x35, 0xD1]⟩), .ofDevice 0x100 .freshDisplay,
    .ofDevice 0xFE (.zeros 4), .ofDevice 0xFFE (.zeros 2)]⟩
  have hspace : l.space ⟨#[0x35, 0xD1]⟩ = .ok s := rfl
  have hs := no_access_past_an_end.1 l _ s hspace
  obtain ⟨-, hresolved, -, hperform⟩ := no_access_past_an_end.2 s hs
  -- Address 0x101 is covered by cells that start in front of the display.
  have hresolve : s.resolve 0x101 = some (2, 3) := by decide +kernel
  obtain ⟨m, hat, -, -, -, hram⟩ := hresolved _ _ _ hresolve
  obtain rfl := Option.some.inj hat
  have hquiet : (Journal.empty (some .trace)).Quiet := fun e he => nomatch he
  have hsome : (Machine.performAll [.step, .write 0x100 7, .runLimited 9] (Machine.start s)
      (.empty (some .trace))).isSome := by
    decide +kernel
  obtain ⟨⟨os, m, j⟩, hrun⟩ := Option.isSome_iff_exists.mp hsome
  exact ⟨s, hspace, hs, hresolve, (hram rfl).2, os, m, j, hrun,
    (hperform _ _ _ _ _ _ rfl hquiet hrun).2⟩

end NandMachine
