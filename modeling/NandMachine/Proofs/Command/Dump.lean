import NandMachine.Proofs.Command.Session
import NandMachine.Proofs.Json.RoundTrip
import NandMachine.Proofs.Machine.Account
import NandMachine.Proofs.Machine.Output

/-!
# The final state on standard output

A session that is asked for the final state writes it as one JSON object, whether or not the run has
ended with a fault. What it writes is read back as what the machine has come to: its status, its
count, its registers and the nibble that its display shows.

## Key results

- `states_dump`: the text of a machine's state, and what is read from it
- `dumped_of_ends`: what the state says about a run
- `dump_reports_final_machine`: what a session writes about the run that it was asked for
-/

namespace NandMachine.Command

open Json

/-- The text is one JSON object, with a line feed behind it, that has four members in this order:
the status of a machine, its count, its registers and a nibble that shows. The registers are read
back from their value, and from every text of it. -/
def States (m : Machine) (shown : Nibble) (text : String) : Prop :=
  ∃ registers : Value,
    let state := Value.record [("state", .text m.status.name), ("cycles", .nat m.cycles.toNat),
      ("registers", registers), ("debug_output", .nat shown.toNat)]
    text = state.pretty ++ "\n" ∧ Document.ofText text = ⟨state, true⟩ ∧
    Registers.codec.read registers = .ok m.registers ∧
    ∀ part, registers.Spelled part → Registers.codec.parse part = .ok m.registers

/-- The state that is written is read back as that of the machine. -/
theorem states_dump {m : Machine} {shown : Nibble} (h : m.space.output = some shown) :
    States m shown (m.dump.pretty ++ "\n") := by
  have hdump : m.dump = .record [("state", .text m.status.name), ("cycles", .nat m.cycles.toNat),
      ("registers", Registers.codec.write m.registers), ("debug_output", .nat shown.toNat)] := by
    rw [Machine.dump, h]
    rfl
  refine ⟨Registers.codec.write m.registers, ?_⟩
  have hread := Registers.faithful_codec.read_write m.registers
  rw [← hdump]
  refine ⟨rfl, ?_, hread, fun part hpart => ?_⟩
  · have hplain : m.dump.Plain := by simp [hdump, Registers.faithful_codec.plain]
    -- Behind the object there is only a line feed, which the reader passes over.
    have hblank : ∀ c ∈ ['\n'], Token.isBlank c = true := by
      intro c hc
      rw [List.mem_singleton.mp hc]
      rfl
    have hspelled := hplain.spelled (some 0) hblank
    rw [String.ofList_append] at hspelled
    exact hspelled.ofText_eq
  · rw [Codec.parse_of_spelled hpart, hread]

/-- What a session writes about a run over the space of a layout. The instructions are those that
the run has executed to their end. -/
structure Dumped (l : Layout) (image : Rom) (s : Space) (is : List Instruction) (r : Run)
    (stdout : String) : Prop where
  ends : Machine.Ends (.start s) is (Answer.ran r.result).fault? r.machine
  states : States r.machine (l.shown image ((Machine.start s).storesOf is)) stdout
  /-- The count starts again at 0 where it has no room. -/
  cycles : r.machine.cycles.toNat = is.length % UInt64.size
  /-- A fault is an illegal instruction, which halts the machine behind its operation code. -/
  fault : ∀ f, r.result = .error f → ∃ last, Machine.Steps (.start s) is last ∧
    f = .illegalInstruction (last.space.read last.registers.iar) last.registers.iar ∧
    r.machine.status = .halted ∧
    r.machine.registers.iar.toNat = (last.registers.iar.toNat + 1) % 4096

/-- A machine that has been running is halted by a fault, which is an illegal instruction. -/
theorem halted_of_fault {m m' : Machine} {is : List Instruction} {f : Fault}
    (hr : m.status = .running) (h : Machine.Ends m is (some f) m') :
    ∃ last, Machine.Steps m is last ∧
      f = .illegalInstruction (last.space.read last.registers.iar) last.registers.iar ∧
      m'.status = .halted ∧ m'.registers.iar.toNat = (last.registers.iar.toNat + 1) % 4096 := by
  cases h with
  | @fault last f steps faulty =>
    rcases Machine.step_of_error faulty with ⟨hhalted, -⟩ | ⟨-, hf, hm⟩
    · -- A chain of steps without a fault does not halt a machine.
      rw [Machine.status_of_steps steps, hr] at hhalted
      cases hhalted
    · rw [hm]
      exact ⟨last, steps, hf, rfl, last.registers.iar.toNat_next⟩

/-- What is written about a run is true of the machine that the run leaves. -/
theorem dumped_of_ends {l : Layout} {image : Rom} {s : Space} (built : l.space image = .ok s)
    {is : List Instruction} {r : Run}
    (ends : Machine.Ends (.start s) is (Answer.ran r.result).fault? r.machine) :
    Dumped l image s is r (r.machine.dump.pretty ++ "\n") where
  ends := ends
  states := states_dump (Machine.output_of_ends built ends)
  cycles := by
    rw [Machine.cycles_of_ends ends, Machine.start, UInt64.zero_add, UInt64.toNat_ofNat']
  fault f hf := by
    rw [hf] at ends
    exact halted_of_fault rfl ends

/-! ## Sessions -/

variable {files : FileReader} {o : Options} {l : Layout} {bytes : ByteArray} {s : Space}

/-- With or without a fault, the state is written behind the run. -/
theorem stdout_conclude (dump : o.dumpState = true) (r : Run) :
    (conclude o r).stdout = r.machine.dump.pretty ++ "\n" := by
  have hfinal : finalOutput o r.machine = r.machine.dump.pretty ++ "\n" := if_pos dump
  rw [← hfinal, conclude]
  split <;> rfl

/-- What is written about a bounded run. -/
theorem dumped_of_limit (dump : o.dumpState = true) (configured : Configured files o l)
    (image : files o.rom = .ok bytes) (built : l.space ⟨bytes.data⟩ = .ok s) {limit : UInt64}
    (hlimit : o.maxCycles = some limit) (least : Option Level) (fuel : Nat) :
    ∃ out is, session files least fuel o = some out ∧ is.length ≤ limit.toNat ∧
      ∀ j, Dumped l ⟨bytes.data⟩ s is ((Machine.start s).runLimited limit j) out.stdout := by
  have hsession := session_of_started (.intro configured image built) least fuel
  rw [runMachine, hlimit] at hsession
  obtain ⟨result, m', es, hrun, -⟩ :=
    Machine.exists_events_runLimited limit (show (Machine.start s).status = .running from rfl)
  have hlen := Machine.length_executedFor_le ((Machine.start s).budget limit) (.start s)
  refine ⟨_, _, hsession, Nat.le_trans hlen (Nat.min_le_left ..), fun j => ?_⟩
  -- What is reported in front of the run makes no difference to the machine that it leaves.
  have hdumped := dumped_of_ends built (Machine.tells_runLimited (.start s) limit j).ends
  rw [stdout_conclude dump]
  rw [hrun] at hdumped ⊢
  rw [hrun]
  exact hdumped

/-- What is written about a run that goes on to the first fault. -/
theorem dumped_of_fault (dump : o.dumpState = true) (configured : Configured files o l)
    (image : files o.rom = .ok bytes) (built : l.space ⟨bytes.data⟩ = .ok s)
    (hlimit : o.maxCycles = none) {is : List Instruction} {last : Machine} {f : Fault}
    (hsteps : Machine.Steps (.start s) is last) (hf : last.step.result = .error f)
    (least : Option Level) {fuel : Nat} (hlt : is.length < fuel) :
    ∃ out, session files least fuel o = some out ∧ ∀ j, ∃ r,
      (Machine.start s).run .never fuel () j = some r ∧ r.result = .error f ∧
        Dumped l ⟨bytes.data⟩ s is r out.stdout := by
  have hsession := session_of_started (.intro configured image built) least fuel
  obtain ⟨es, hrun, -⟩ := Machine.exists_events_run_of_fault rfl hsteps hf hlt
  rw [runMachine, hlimit] at hsession
  dsimp only at hsession
  -- The run adds its events to whatever journal it is given.
  rw [hrun] at hsession
  refine ⟨_, hsession, fun j => ⟨_, hrun j, rfl, ?_⟩⟩
  rw [stdout_conclude dump]
  exact dumped_of_ends built (r := ⟨.error f, last.step.machine, j.add es⟩) (.fault hsteps hf)

/-- The final state that a session writes, for any image and any layout that can be built. With a
limit it is that of the bounded run, and without one that of the run that ends with the first fault,
over the space of the layout. Standard output is one JSON object with a line feed behind it: the
status, the count and the registers are those that the run leaves, and the nibble is the last one of
the stores to the address of the display, unless the image covers this address. A fault makes no
difference to any of this: the machine is halted behind the operation code then, and the steps in
front of the fault are counted. -/
theorem dump_reports_final_machine (files : FileReader) (o : Options) (dump : o.dumpState = true)
    {l : Layout} {bytes : ByteArray} {s : Space} (configured : Configured files o l)
    (image : files o.rom = .ok bytes) (built : l.space ⟨bytes.data⟩ = .ok s)
    (least : Option Level) :
    (∀ limit, o.maxCycles = some limit → ∀ fuel, ∃ out is,
      session files least fuel o = some out ∧ is.length ≤ limit.toNat ∧
      ∀ j, Dumped l ⟨bytes.data⟩ s is ((Machine.start s).runLimited limit j) out.stdout) ∧
    (o.maxCycles = none → ∀ is last f, Machine.Steps (.start s) is last →
      last.step.result = .error f → ∀ fuel, is.length < fuel →
        ∃ out, session files least fuel o = some out ∧
          ∀ j, ∃ r, (Machine.start s).run .never fuel () j = some r ∧ r.result = .error f ∧
            Dumped l ⟨bytes.data⟩ s is r out.stdout) :=
  ⟨fun _ hlimit fuel => dumped_of_limit dump configured image built hlimit least fuel,
    fun hlimit _ _ _ hsteps hf _ hlt =>
      dumped_of_fault dump configured image built hlimit hsteps hf least hlt⟩

/-- A program that shows a nibble and has no instruction behind that, with a limit and without
one. -/
theorem dump_reports_final_machine_of_stored :
    let files : FileReader := fun path =>
      if path = "p.bin" then .ok ⟨#[0x11, 0x51, 0x53, 0x70]⟩ else .error .notFound
    let o : Options := { rom := "p.bin", dumpState := true }
    (∃ out m shown, session files none 0 { o with maxCycles := some 3 } = some out ∧
      States m shown out.stdout ∧ m.cycles.toNat ≤ 3) ∧
    ∃ out m, session files none 5 o = some out ∧ States m 5 out.stdout ∧ m.status = .halted ∧
      m.cycles.toNat = 4 ∧ m.registers.iar.toNat = 7 := by
  intro files o
  let image : Rom := ⟨#[0x11, 0x51, 0x53, 0x70]⟩
  let s : Space := ⟨(Layout.mappings {} image).toArray⟩
  have hbuilt : Layout.space {} image = .ok s := rfl
  let first := Machine.start s
  let last := first.step.machine.step.machine.step.machine.step.machine
  have hsteps : Machine.Steps first [.ldi 1, .sap, .ldi 5, .str] last :=
    .cons (by decide +kernel) (.cons (by decide +kernel) (.cons (by decide +kernel)
      (.cons (by decide +kernel) (.nil _))))
  -- Behind the four instructions stands a nibble that is none.
  have hfault : last.step.result = .error (.illegalInstruction 7 6) := by decide +kernel
  constructor
  · obtain ⟨hlimited, -⟩ := dump_reports_final_machine files { o with maxCycles := some 3 } rfl
      (.default rfl) rfl hbuilt none
    obtain ⟨out, is, hout, hlen, hdumped⟩ := hlimited 3 rfl 0
    obtain ⟨-, states, cycles, -⟩ := hdumped (.empty none)
    exact ⟨out, _, _, hout, states, Nat.le_trans (cycles ▸ Nat.mod_le ..) hlen⟩
  · obtain ⟨-, hfaulty⟩ := dump_reports_final_machine files o rfl (.default rfl) rfl hbuilt none
    obtain ⟨out, hout, hdumped⟩ := hfaulty rfl _ _ _ hsteps hfault 5 (by decide)
    obtain ⟨r, -, hresult, ends, states, cycles, fault⟩ := hdumped (.empty none)
    obtain ⟨last', hsteps', hf, hstatus, hiar⟩ := fault _ hresult
    -- The one store of the program goes to the display.
    have hshown : Layout.shown {} image (first.storesOf [.ldi 1, .sap, .ldi 5, .str]) = 5 := by
      decide +kernel
    rw [hshown] at states
    injection hf with _ ha
    rw [← ha] at hiar
    exact ⟨out, r.machine, hout, states, hstatus, cycles, hiar⟩

end NandMachine.Command
