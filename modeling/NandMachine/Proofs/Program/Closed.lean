import NandMachine.Proofs.Program.Loaded

/-!
# Closed programs

A closed program has nowhere to go but to its own instructions: it ends with a jump, its targets are
places of its instructions, and it has no jump to an address from registers. From an image in front
of the space such a program runs for ever, whatever it stores and wherever; the invariant is that
the instruction address is the place of an instruction.

## Key results

- `step_of_atInstruction`: a step goes from an instruction of a closed program to another one
- `runLimited_of_closed`: a run of a closed program never faults
-/

namespace NandMachine

/-- The address in an instruction that a machine may go to. -/
def Instruction.target? : Instruction → Option Address
  | jmp target | jz target => some target
  | ldi _ | lod | str | sar | sap | mov _ _ | rjp | nand _ _ => none

/-- A program that fits into the space at an address and never leaves itself. -/
structure Program.Closed (p : Program) (base : Nat) : Prop where
  ends : ∃ target, p.getLast? = some (.jmp target)
  no_rjp : .rjp ∉ p
  targets : ∀ i ∈ p, ∀ target, i.target? = some target →
    ∃ j < p.length, target.toNat = base + p.offset j
  fits : base + p.encode.length ≤ 4096

namespace Machine

/-- A running machine with a program in front of its space, at the place of an instruction. -/
structure AtInstruction (p : Program) (base : UInt16) (m : Machine) : Prop where
  loaded : m.space.Mounts base (.ofNibbles p.encode)
  running : m.status = .running
  place : ∃ j < p.length, m.registers.iar.toNat = base.toNat + p.offset j

/-- An instruction goes on behind itself, or at the target that it names, or at an address from
registers. -/
private theorem jump?_cases (i : Instruction) (rs : Registers) :
    (i.jump? rs = none ∧ ∀ target, i ≠ .jmp target) ∨
      (∃ target, i.target? = some target ∧ i.jump? rs = some target.toNat) ∨ i = .rjp := by
  cases i with
  | jmp target => exact .inr (.inl ⟨target, rfl, rfl⟩)
  | rjp => exact .inr (.inr rfl)
  | jz target =>
    by_cases ha : rs.a.toNat = 0
    · exact .inr (.inl ⟨target, rfl, if_pos ha⟩)
    · exact .inl ⟨if_neg ha, fun _ => nofun⟩
  | ldi | lod | str | sar | sap | mov | nand => exact .inl ⟨rfl, fun _ => nofun⟩

/-- Behind an instruction that is no jump there is another one. -/
private theorem lt_length_of_closed {p : Program} {base j : Nat} {i : Instruction}
    (closed : p.Closed base) (hi : p[j]? = some i) (hjmp : ∀ target, i ≠ .jmp target) :
    j + 1 < p.length := by
  obtain ⟨hlt, -⟩ := List.getElem?_eq_some_iff.mp hi
  obtain ⟨target, hlast⟩ := closed.ends
  rw [List.getLast?_eq_getElem?] at hlast
  -- An instruction with none behind it is the last one, and that is a jump.
  refine Nat.lt_of_not_le fun hge => ?_
  have hj : p.length - 1 = j := by omega
  rw [hj, hi] at hlast
  exact hjmp target (Option.some.inj hlast)

/-- A step goes from an instruction of a closed program to another one. -/
theorem step_of_atInstruction {p : Program} {base : UInt16} (closed : p.Closed base.toNat)
    {m : Machine} (h : m.AtInstruction p base) :
    ∃ i, m.step.result = .ok i ∧ m.step.machine.AtInstruction p base := by
  obtain ⟨hs, hr, j, hj, hiar⟩ := h
  have fits := closed.fits
  rw [Program.length_encode] at fits
  have hi : p[j]? = some p[j] := List.getElem?_eq_getElem hj
  obtain ⟨hresult, hexecutes⟩ := step_of_loaded hs fits hi hr hiar
  refine ⟨p[j], hresult, mounts_step hs, hexecutes.status, ?_⟩
  have hiar' := hexecutes.iar
  rcases jump?_cases p[j] m.registers with ⟨hnone, hjmp⟩ | ⟨target, htarget, hsome⟩ | hrjp
  · -- The machine goes on behind the instruction, where the next one stands.
    have hnext := lt_length_of_closed closed hi hjmp
    have hle := Program.offset_add_size_le (List.getElem?_eq_getElem hnext)
    have hpos := p[j + 1].size_pos
    refine ⟨j + 1, hnext, ?_⟩
    rw [hiar', hnone, Option.getD_none, hiar, Program.offset_succ hi]
    rw [Program.offset_succ hi] at hle
    exact (Nat.mod_eq_of_lt (by omega)).trans (by omega)
  · -- The machine goes to a target, which is the place of an instruction.
    rw [hsome, Option.getD_some] at hiar'
    obtain ⟨k, hk, hplace⟩ := closed.targets p[j] (List.getElem_mem hj) target htarget
    exact ⟨k, hk, hiar'.trans hplace⟩
  · exact absurd (hrjp ▸ List.getElem_mem hj) closed.no_rjp

/-- A closed program that is packed into an image and built with any layout never faults. From the
place of any of its instructions, with any other contents of the registers, a run takes all the
steps that it is allowed to, as long as the count of cycles has room for them, and leaves the
machine running at the place of an instruction. -/
theorem runLimited_of_closed (p : Program) (l : Layout) (s : Space)
    (closed : p.Closed l.romBase.toNat) (built : l.space (.ofNibbles p.encode) = .ok s)
    (m : Machine) (hspace : m.space = s) (hr : m.status = .running)
    (place : ∃ j < p.length, m.registers.iar.toNat = l.romBase.toNat + p.offset j) (n : UInt64)
    (hroom : m.cycles.toNat + n.toNat < UInt64.size) (journal : Journal) :
    let r := m.runLimited n journal
    r.result = .ok n ∧ r.machine.status = .running ∧
      ∃ j < p.length, r.machine.registers.iar.toNat = l.romBase.toNat + p.offset j := by
  -- The image of a layout is in front of all other mappings.
  have start : m.AtInstruction p l.romBase := by
    refine ⟨?_, hr, place⟩
    rw [hspace]
    exact Layout.mounts_of_space built
  obtain ⟨is, m', hlen, hsteps, hend⟩ :=
    exists_steps_of_invariant (fun _ => step_of_atInstruction closed) n.toNat start
  obtain ⟨hresult, hmachine⟩ := runLimited_of_steps hsteps hlen hroom journal
  intro r
  rw [show r.machine = m' from hmachine]
  exact ⟨hresult, hend.running, hend.place⟩

/-- A loop that stores into its own code, at an odd base and with a display over its start. -/
theorem runLimited_of_closed_self_store :
    let p : Program := [.str, .ldi 3, .jz 0x011, .jmp 0x012]
    let l : Layout := { romBase := 0x011, displayBase := 0x011, ram := [⟨0x010, 8⟩] }
    let s : Space := ⟨(l.mappings (.ofNibbles p.encode)).toArray⟩
    let m : Machine := { registers := { iar := 0x014, addr := 0x012 }, space := s }
    p.Closed l.romBase.toNat ∧ l.space (.ofNibbles p.encode) = .ok s ∧
      (m.runLimited 1000000 (.empty none)).result = .ok 1000000 := by
  intro p l s m
  -- Both jumps go to places of the program, the conditional one to its start.
  have closed : p.Closed l.romBase.toNat :=
    { ends := ⟨0x012, rfl⟩
      no_rjp := by decide
      targets := by
        intro i hi target ht
        simp only [p, List.mem_cons, List.not_mem_nil, or_false] at hi
        rcases hi with rfl | rfl | rfl | rfl
        · exact nomatch ht
        · exact nomatch ht
        · exact ⟨0, by decide, by obtain rfl := Option.some.inj ht; decide⟩
        · exact ⟨1, by decide, by obtain rfl := Option.some.inj ht; decide⟩
      fits := by decide }
  have built : l.space (.ofNibbles p.encode) = .ok s := rfl
  exact ⟨closed, built, (runLimited_of_closed p l s closed built m rfl rfl
    ⟨2, by decide, by decide⟩ 1000000 (by decide) (.empty none)).1⟩

end Machine

end NandMachine
