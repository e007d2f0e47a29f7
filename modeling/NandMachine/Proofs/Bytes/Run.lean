import NandMachine.Proofs.Bytes.Json
import NandMachine.Proofs.Bytes.Machine
import NandMachine.Proofs.Machine.Run

/-!
# No byte is out of range

Runs of a machine that is made of bytes, and all that a host can do with it. What a host writes or
assigns can be any byte that stands for a nibble: one that is made without the machine, or one that
the machine holds. Nothing in these machines says that the bytes stay below 16. That they do follows
from one fact: the machines that can be reached are those that can be reached with nibbles, without
their promise.

## Key results

- `Machine.reachable_bytes_iff`: the same machines are reached with bytes as with nibbles
- `no_byte_above_fifteen`: no operation makes a byte above 15
-/

namespace NandMachine.Bytewise

namespace Machine

/-- Steps up to a number of times, and ends at the first fault. -/
def runFor : Nat → Machine → Option Fault × Machine
  | 0, m => (none, m)
  | n + 1, m =>
    match m.step with
    | (.error f, m') => (some f, m')
    | (.ok _, m') => runFor n m'

/-- Runs up to a number of steps, as far as the count of cycles has room. -/
def runLimited (m : Machine) (limit : UInt64) : Option Fault × Machine :=
  runFor (min limit.toNat (maxCycles - m.cycles.toNat)) m

/-- Steps until a fault or until the flag is up. The flag is looked at before every step, and has
the values of a list; there is no result if they are not enough. -/
def runUntil : List Bool → Machine → Option (Option Fault × Machine)
  | [], _ => none
  | true :: _, m => some (none, m)
  | false :: flags, m =>
    match m.step with
    | (.error f, m') => some (some f, m')
    | (.ok _, m') => runUntil flags m'

/-- A byte that a host can have for a nibble: it is made without the machine, or taken from it. -/
def Holds (m : Machine) (b : UInt8) : Prop := Made b ∨ b ∈ m.stored

/-- One action of a host on a machine: its own operations, a write to its space, or new contents of
its registers, status or count of cycles. A run is an action only if it comes to an end. -/
inductive Transition (m : Machine) : Machine → Prop
  | step : Transition m m.step.2
  | run (flags : List Bool) (f : Option Fault) (m' : Machine)
      (ends : m.runUntil flags = some (f, m')) : Transition m m'
  | runLimited (limit : UInt64) : Transition m (m.runLimited limit).2
  | fetch : Transition m m.fetch.2
  | reset : Transition m m.reset
  | write (a : Address) (b : UInt8) (ha : ∀ c ∈ a.stored, m.Holds c) (hb : m.Holds b) :
      Transition m { m with space := m.space.write a b }
  | setRegisters (registers : Registers) (h : ∀ c ∈ registers.stored, m.Holds c) :
      Transition m { m with registers }
  | setStatus (status : Status) : Transition m { m with status }
  | setCycles (cycles : UInt64) : Transition m { m with cycles }

/-- One machine comes from another one by actions of a host, in any order. -/
def Reachable : Machine → Machine → Prop := Relation.ReflTransGen Transition

/-- Nothing that a machine holds, reads or answers has a byte above 15, and its addresses have
twelve bits. -/
structure Confined (m : Machine) : Prop where
  stored : InRange m.stored
  read : ∀ a, m.space.read a ≤ 15
  fetched : m.fetch.1 ≤ 15
  executed : ∀ i, m.step.1 = .ok i → InRange i.stored
  fault : ∀ f, m.step.1 = .error f → InRange f.stored
  iar : m.registers.iar.toWord.toNat < 4096
  addr : m.registers.addr.toWord.toNat < 4096

end Machine

end NandMachine.Bytewise

namespace NandMachine

open Bytewise (InRange)

namespace Machine

/-! ## Runs -/

/-- A number of steps works on bytes as it does on nibbles. -/
theorem runFor_bytes (n : Nat) (m : Machine) (j : Journal) :
    m.bytes.runFor n = ((runFor n m j).1.map Fault.bytes, (runFor n m j).2.1.bytes) := by
  -- Both sides take the same step first, and both end where it faults.
  induction n generalizing m j with
  | zero => rfl
  | succ n ih =>
    rw [Bytewise.Machine.runFor, runFor, step_bytes, Step.bytes]
    cases m.step.result with
    | error f => rfl
    | ok i => exact ih m.step.machine (j.add m.step.events)

/-- A run up to a limit works on bytes as it does on nibbles. -/
theorem runLimited_bytes (m : Machine) (limit : UInt64) (j : Journal) :
    (m.bytes.runLimited limit).2 = (m.runLimited limit j).machine.bytes := by
  have hrun := m.runFor_bytes (m.budget limit) j
  show (m.bytes.runFor (m.budget limit)).2 = _
  rw [hrun, runLimited]
  split <;> next hfor => rw [hfor]

/-- The machine of a run is the one at the end of its steps, with or without a fault. -/
theorem map_machine_run {σ : Type} (host : Host σ) (fuel : Nat) (flag : σ) (m : Machine)
    (j : Journal) :
    (m.run host fuel flag j).map Run.machine =
      (runWhile host fuel flag m j).map fun (_, m', _) => m' := by
  rw [run]
  rcases runWhile host fuel flag m j with _ | ⟨_ | f, m', j'⟩ <;> rfl

/-- A run comes to the same end with some values of the flag as with a host. -/
theorem exists_runUntil_of_runWhile {σ : Type} (host : Host σ) {fuel : Nat} {flag : σ}
    {m m' : Machine} {j j' : Journal} {f : Option Fault}
    (h : runWhile host fuel flag m j = some (f, m', j')) :
    ∃ flags, m.bytes.runUntil flags = some (f.map Fault.bytes, m'.bytes) := by
  -- The values of the flag are gathered along the run, one for each step and one more for its end.
  induction fuel generalizing flag m j with
  | zero => exact nomatch h
  | succ fuel ih =>
    rw [runWhile] at h
    split at h
    · -- The flag is up.
      simp only [Option.some.injEq, Prod.mk.injEq] at h
      obtain ⟨rfl, rfl, -⟩ := h
      exact ⟨[true], rfl⟩
    · -- The flag is down, so there is a step.
      cases hres : m.step.result with
      | error e =>
        simp only [hres, Option.some.injEq, Prod.mk.injEq] at h
        obtain ⟨rfl, rfl, -⟩ := h
        refine ⟨[false], ?_⟩
        rw [Bytewise.Machine.runUntil, step_bytes, Step.bytes, hres]
        rfl
      | ok i =>
        simp only [hres] at h
        obtain ⟨flags, hflags⟩ := ih h
        refine ⟨false :: flags, ?_⟩
        rw [Bytewise.Machine.runUntil, step_bytes, Step.bytes, hres]
        exact hflags

/-- A host that raises its flag by the values of a list. -/
def listedFlags : Host (List Bool) := ⟨fun flags => flags.headD true, fun flags _ => flags.tail⟩

/-- A run comes to the same end with a host that lists the values of the flag. -/
theorem exists_runWhile_of_runUntil {flags : List Bool} {m : Machine} {f : Option Bytewise.Fault}
    {b : Bytewise.Machine} (j : Journal) (h : m.bytes.runUntil flags = some (f, b)) :
    ∃ f' m' j', runWhile listedFlags flags.length flags m j = some (f', m', j') ∧ m'.bytes = b := by
  -- The host looks at the head of its list and drops it after the step.
  induction flags generalizing m j with
  | nil => exact nomatch h
  | cons flag flags ih =>
    cases flag with
    | true =>
      simp only [Bytewise.Machine.runUntil, Option.some.injEq, Prod.mk.injEq] at h
      exact ⟨none, m, j, rfl, h.2⟩
    | false =>
      rw [Bytewise.Machine.runUntil, step_bytes, Step.bytes] at h
      have hraised : listedFlags.raised (false :: flags) = false := rfl
      have hobserve : listedFlags.observe (false :: flags) m.step.events = flags := rfl
      simp only [List.length_cons, runWhile, hraised, hobserve, Bool.false_eq_true, if_false]
      cases hres : m.step.result with
      | error e =>
        simp only [hres, Option.some.injEq, Prod.mk.injEq] at h
        exact ⟨some e, m.step.machine, j.add m.step.events, rfl, h.2⟩
      | ok i =>
        simp only [hres] at h
        exact ih (j.add m.step.events) h

/-! ## What can be reached -/

/-- What a host can do with nibbles it can do with their bytes. -/
theorem transition_bytes {m m' : Machine} (h : Transition m m') :
    Bytewise.Machine.Transition m.bytes m'.bytes := by
  -- The bytes of a nibble can be made without the machine.
  have holds : ∀ bs, InRange bs → ∀ c ∈ bs, m.bytes.Holds c := by
    intro bs hbs c hc
    exact .inl (Bytewise.made_iff.mpr (hbs c hc))
  cases h with
  | step =>
    rw [← Step.bytes_snd, ← step_bytes]
    exact .step
  -- Only the values of the flag count that the run has looked at.
  | run host fuel flag j r ends =>
    have hmachine := map_machine_run host fuel flag m j
    rw [ends] at hmachine
    obtain ⟨⟨f, m', j'⟩, hrun, rfl⟩ := Option.map_eq_some_iff.mp hmachine.symm
    obtain ⟨flags, hflags⟩ := exists_runUntil_of_runWhile host hrun
    exact .run flags _ _ hflags
  | runLimited limit j =>
    rw [← runLimited_bytes]
    exact .runLimited limit
  | fetch => exact .fetch
  | reset => exact .reset
  -- A nibble is written as the byte that holds it.
  | write a n =>
    have hwrite : Bytewise.Machine.Transition m.bytes
        { m.bytes with space := m.space.bytes.write a.bytes n.byte } :=
      .write a.bytes n.byte (holds _ a.inRange_bytes) (.inl (Bytewise.made_iff.mpr n.byte_le))
    rw [Space.write_bytes] at hwrite
    exact hwrite
  | setRegisters registers => exact .setRegisters registers.bytes (holds _ registers.inRange_bytes)
  | setStatus status => exact .setStatus status
  | setCycles cycles => exact .setCycles cycles

/-- What a host can do with bytes it can do with nibbles, as all bytes that it has are in range. -/
theorem exists_transition_of_bytes {m : Machine} {b : Bytewise.Machine}
    (h : Bytewise.Machine.Transition m.bytes b) : ∃ m', Transition m m' ∧ m'.bytes = b := by
  -- A byte that was made is in range, and so is one that the machine holds.
  have le_of_holds : ∀ c, m.bytes.Holds c → c ≤ 15 := by
    intro c hc
    cases hc with
    | inl made => exact Bytewise.made_iff.mp made
    | inr stored => exact m.inRange_bytes c stored
  cases h with
  | step => exact ⟨m.step.machine, .step, by rw [step_bytes, Step.bytes_snd]⟩
  | run flags f b ends =>
    obtain ⟨f', m', j', hrun, hbytes⟩ := exists_runWhile_of_runUntil (.empty none) ends
    have hmachine := map_machine_run listedFlags flags.length flags m (.empty none)
    rw [hrun] at hmachine
    obtain ⟨r, hr, rfl⟩ := Option.map_eq_some_iff.mp hmachine
    exact ⟨r.machine, .run listedFlags flags.length flags (.empty none) r hr, hbytes⟩
  | runLimited limit =>
    have hrun := m.runLimited_bytes limit (.empty none)
    exact ⟨(m.runLimited limit (.empty none)).machine, .runLimited limit (.empty none), hrun.symm⟩
  | fetch => exact ⟨m.fetch.2, .fetch, by rw [fetch_bytes]⟩
  | reset => exact ⟨m.reset, .reset, rfl⟩
  -- With the bounds at hand, the address and the byte are made of nibbles.
  | write a c ha hc =>
    obtain ⟨x, rfl⟩ := Address.exists_bytes fun b hb => le_of_holds b (ha b hb)
    obtain ⟨n, rfl⟩ := Nibble.exists_byte (le_of_holds c hc)
    refine ⟨{ m with space := m.space.write x n }, .write x n, ?_⟩
    show { m.bytes with space := (m.space.write x n).bytes } = _
    rw [← Space.write_bytes]
    rfl
  | setRegisters registers hregs =>
    obtain ⟨x, rfl⟩ := Registers.exists_bytes fun b hb => le_of_holds b (hregs b hb)
    exact ⟨{ m with registers := x }, .setRegisters x, rfl⟩
  | setStatus status => exact ⟨{ m with status }, .setStatus status, rfl⟩
  | setCycles cycles => exact ⟨{ m with cycles }, .setCycles cycles, rfl⟩

/-- The same machines are reached with bytes as with nibbles. -/
theorem reachable_bytes_iff {m : Machine} {b : Bytewise.Machine} :
    Bytewise.Machine.Reachable m.bytes b ↔ ∃ m', Reachable m m' ∧ m'.bytes = b := by
  constructor
  · intro h
    -- Action by action: what has been reached so far is a machine of nibbles.
    induction h with
    | refl => exact ⟨m, .refl, rfl⟩
    | tail _ last ih =>
      obtain ⟨m', hreach, rfl⟩ := ih
      obtain ⟨m'', hlast, rfl⟩ := exists_transition_of_bytes last
      exact ⟨m'', hreach.tail hlast, rfl⟩
  · intro h
    obtain ⟨m', hreach, rfl⟩ := h
    induction hreach with
    | refl => exact .refl
    | tail _ last ih => exact ih.tail (transition_bytes last)

/-- A machine that comes from one with nibbles is confined. -/
theorem confined_bytes (m : Machine) : m.bytes.Confined where
  stored := m.inRange_bytes
  read := Bytewise.Space.read_le m.space.inRange_bytes
  fetched := Bytewise.Space.read_le m.space.inRange_bytes _
  -- What a step answers is what it answers with nibbles.
  executed i h := by
    rw [step_bytes, Step.bytes] at h
    cases hres : m.step.result with
    | error f =>
      rw [hres] at h
      cases h
    | ok j =>
      rw [hres] at h
      rw [← Except.ok.inj h]
      exact j.inRange_bytes
  fault f h := by
    rw [step_bytes, Step.bytes] at h
    cases hres : m.step.result with
    | ok i =>
      rw [hres] at h
      cases h
    | error e =>
      rw [hres] at h
      rw [← Except.error.inj h]
      exact e.inRange_bytes
  iar := Bytewise.Address.toNat_toWord_lt m.registers.iar.inRange_bytes
  addr := Bytewise.Address.toNat_toWord_lt m.registers.addr.inRange_bytes

end Machine

/-! ## All operations -/

open Bytewise (parseWith)

/-- No operation makes a byte above 15. Texts, programs and images give bytes as they give nibbles,
and all in range. The same machines are reached over the space of a layout with bytes as with
nibbles, and everything in them is in range. So an address has twelve bits as a word, and no bit is
lost when two nibbles share a byte. -/
theorem no_byte_above_fifteen :
    (∀ b, Bytewise.Made b → b ≤ 15) ∧
    (∀ text, parseWith Bytewise.Registers.read text =
        (Registers.codec.parse text).map Registers.bytes ∧
      ∀ rs, parseWith Bytewise.Registers.read text = .ok rs → InRange rs.stored) ∧
    (∀ text, parseWith Bytewise.Instruction.read text =
        (Instruction.codec.parse text).map Instruction.bytes ∧
      ∀ i, parseWith Bytewise.Instruction.read text = .ok i → InRange i.stored) ∧
    (∀ p : Program, (p.map Instruction.bytes).flatMap Bytewise.Instruction.encode =
      p.encode.map Nibble.byte) ∧
    (∀ is : List Bytewise.Instruction, (∀ i ∈ is, InRange i.stored) →
      InRange (is.flatMap Bytewise.Instruction.encode)) ∧
    (∀ image : Rom, Bytewise.nibbles image = image.nibbles.map Nibble.byte ∧
      InRange (Bytewise.nibbles image)) ∧
    (∀ (l : Layout) (image : Rom) (s : Space), l.space image = .ok s →
      ∀ b, (Bytewise.Machine.Reachable (.start (Bytewise.space l image)) b ↔
          ∃ m, Machine.Reachable (.start s) m ∧ m.bytes = b) ∧
        (Bytewise.Machine.Reachable (.start (Bytewise.space l image)) b → b.Confined)) ∧
    (∀ a : Bytewise.Address, InRange a.stored → a.toWord.toNat < 4096) ∧
    (∀ high low : UInt8, high ≤ 15 → low ≤ 15 →
      Bytewise.highHalf (Bytewise.pack high low) = high ∧
      Bytewise.lowHalf (Bytewise.pack high low) = low ∧
      (Bytewise.pack high low).toNat = 16 * high.toNat + low.toNat) := by
  -- Everything stored is the bytes of something typed, and those are in range.
  refine ⟨fun b => Bytewise.made_iff.mp,
    fun text => ⟨Registers.parse_bytes text, fun rs => Bytewise.inRange_of_parse_registers⟩,
    fun text => ⟨Instruction.parse_bytes text, fun i => Bytewise.inRange_of_parse_instruction⟩,
    fun p => ?_, fun is h => ?_,
    fun image => ⟨image.map_byte_nibbles.symm, Bytewise.inRange_nibbles image⟩,
    fun l image s h b => ?_, fun a => Bytewise.Address.toNat_toWord_lt,
    fun high low => Bytewise.halves_pack⟩
  · simp only [Program.encode, List.flatMap_map, List.map_flatMap, Instruction.encode_bytes]
  · exact Bytewise.inRange_flatMap.mpr fun i hi => Bytewise.Instruction.inRange_encode (h i hi)
  · -- A machine over the space of a layout starts with the bytes of nibbles.
    have hstart : (Machine.start s).bytes = .start (Bytewise.space l image) := by
      rw [← Layout.bytes_of_space h]
      rfl
    rw [← hstart]
    constructor
    · exact Machine.reachable_bytes_iff
    · intro hreach
      obtain ⟨m, -, rfl⟩ := Machine.reachable_bytes_iff.mp hreach
      exact m.confined_bytes

/-- Registers come from a text with larger numbers, and a run works on them. -/
theorem no_byte_above_fifteen_of_run :
    let l : Layout := { displayBase := 0x20, ram := [⟨0x30, 2⟩] }
    let image : Rom := ⟨#[0xD1, 0x30]⟩
    let m := Bytewise.Machine.start (Bytewise.space l image)
    let rs : Bytewise.Registers := ⟨8, 15, 0, 15, ⟨0, 0, 0⟩, ⟨0, 3, 0⟩⟩
    let b := ({ m with registers := rs }.runLimited 2).2
    parseWith Bytewise.Registers.read "[200,255,16,15,[[0,0,0]],[[16,3,0]]]" = .ok rs ∧
      InRange rs.stored ∧ Bytewise.Machine.Reachable m b ∧ b.space.read ⟨0, 3, 0⟩ = 7 ∧
      b.Confined := by
  intro l image m rs b
  have hparse : parseWith Bytewise.Registers.read "[200,255,16,15,[[0,0,0]],[[16,3,0]]]" =
      .ok rs := by
    decide +kernel
  obtain ⟨-, hregisters, -, -, -, -, hmachine, -⟩ := no_byte_above_fifteen
  have hrs : InRange rs.stored := (hregisters _).2 rs hparse
  have hreach : Bytewise.Machine.Reachable m b := by
    -- A host may put the parsed registers in, as none of their bytes is above 15.
    have hset : Bytewise.Machine.Transition m { m with registers := rs } :=
      .setRegisters rs fun c hc => .inl (Bytewise.made_iff.mpr (hrs c hc))
    exact .tail (.single hset) (.runLimited 2)
  exact ⟨hparse, hrs, hreach, by decide +kernel, (hmachine l image _ rfl b).2 hreach⟩

end NandMachine
