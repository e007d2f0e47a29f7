import NandMachine.Proofs.Layout.Build
import NandMachine.Proofs.Machine.Run

/-!
# Programs in memory

A program is packed into an image, two nibbles in a byte, and the image is put in front of all other
mappings. From then on its instructions are found at their places, whatever is written and whatever
the layout has behind the image: the instruction `p[j]` is decoded at the base plus the sizes of
those before it, at odd addresses as at even ones.

## Key results

- `read_of_loaded`: the nibbles of a loaded program are found in order
- `step_of_loaded`: a machine that stands at an instruction executes it
- `execution_of_program`: a built program is executed as it is written
-/

namespace NandMachine

namespace Program

/-- Where an instruction of a program stands, counted from the start of the program. -/
def offset (p : Program) (j : Nat) : Nat := size (p.take j)

theorem encode_append (p q : Program) : encode (p ++ q) = encode p ++ encode q :=
  List.flatMap_append

theorem size_append (p q : Program) : size (p ++ q) = size p + size q := by
  rw [← length_encode, encode_append, List.length_append, length_encode, length_encode]

/-- An instruction of a program has a part in front of it and a part behind. -/
theorem split_of_getElem? {p : Program} {j : Nat} {i : Instruction} (h : p[j]? = some i) :
    p = p.take j ++ i :: p.drop (j + 1) := by
  obtain ⟨hlt, rfl⟩ := List.getElem?_eq_some_iff.mp h
  rw [← List.drop_eq_getElem_cons hlt, List.take_append_drop]

/-- The next instruction stands behind the operands of this one. -/
theorem offset_succ {p : Program} {j : Nat} {i : Instruction} (h : p[j]? = some i) :
    p.offset (j + 1) = p.offset j + i.size := by
  rw [offset, offset, List.take_add_one, h, size_append]
  rfl

/-- An instruction ends within its program. -/
theorem offset_add_size_le {p : Program} {j : Nat} {i : Instruction} (h : p[j]? = some i) :
    p.offset j + i.size ≤ p.size := by
  have hsize := congrArg size (split_of_getElem? h)
  rw [size_append, size_cons] at hsize
  rw [offset]
  omega

end Program

/-! ## A loaded program -/

namespace Space

/-- The nibbles of a loaded program are found in order. -/
theorem read_of_loaded {s : Space} {base : UInt16} {p : Program}
    (hs : s.Mounts base (.ofNibbles p.encode)) {a : Address} {k : Nat}
    (ha : a.toNat = base.toNat + k) (hk : k < p.size) : p.encode[k]? = some (s.read a) := by
  have hlen : p.encode.length = p.size := Program.length_encode p
  -- An odd program is followed by a zero, which is not one of its nibbles.
  have himage : (Rom.ofNibbles p.encode).size = p.size + p.size % 2 := by
    rw [← Rom.length_nibbles, Rom.nibbles_ofNibbles, List.length_append, List.length_replicate,
      hlen]
  rw [read_of_mounts hs ha (by omega), Rom.get_eq, Rom.nibbles_ofNibbles,
    List.getElem?_append_left (by omega), List.getElem?_eq_getElem (by omega)]
  rfl

/-- The nibbles at an instruction of a loaded program are those that it is encoded to. -/
theorem readFrom_of_loaded {s : Space} {base : UInt16} {before after : Program} {i : Instruction}
    (hs : s.Mounts base (.ofNibbles (Program.encode (before ++ i :: after))))
    (fits : base.toNat + Program.size (before ++ i :: after) ≤ 4096) {a : Address}
    (ha : a.toNat = base.toNat + Program.size before) :
    s.readFrom a i.size = i.encode := by
  have hsize : Program.size (before ++ i :: after) =
      Program.size before + (i.size + Program.size after) := Program.size_append ..
  apply List.ext_getElem?
  intro k
  rcases Nat.lt_or_ge k i.size with hk | hk
  · -- The program ends within the space, so that no address of it starts again at 0.
    have hak : (a.advance k).toNat = base.toNat + (Program.size before + k) := by
      rw [Address.toNat_advance, ha]
      omega
    rw [getElem?_readFrom s a hk, ← read_of_loaded hs hak (by omega), Program.encode_append,
      Program.encode_cons, List.getElem?_append_right (by rw [Program.length_encode]; omega),
      Program.length_encode, Nat.add_sub_cancel_left,
      List.getElem?_append_left (by rw [Instruction.length_encode]; exact hk)]
  · rw [List.getElem?_eq_none (by rw [length_readFrom]; exact hk),
      List.getElem?_eq_none (by rw [Instruction.length_encode]; exact hk)]

end Space

namespace Machine

/-- A machine that stands at an instruction of a loaded program executes it. -/
theorem step_of_split {m : Machine} {base : UInt16} {before after : Program} {i : Instruction}
    (hs : m.space.Mounts base (.ofNibbles (Program.encode (before ++ i :: after))))
    (fits : base.toNat + Program.size (before ++ i :: after) ≤ 4096) (hr : m.status = .running)
    (hiar : m.registers.iar.toNat = base.toNat + Program.size before) :
    m.step.result = .ok i ∧ Executes i m m.step.machine := by
  have hfour : i.size + (4 - i.size) = 4 := Nat.add_sub_cancel' i.size_le_four
  -- Only the nibbles of the instruction itself are known to be those of the program.
  have hd : Instruction.decodeList m.window = .ok i := by
    rw [window, ← hfour, Space.readFrom_add, Space.readFrom_of_loaded hs fits hiar,
      Instruction.decodeList_encode_append]
  exact executes_of_decoded hr hd

/-- A machine at the place of an instruction executes it. -/
theorem step_of_loaded {m : Machine} {base : UInt16} {p : Program} {j : Nat} {i : Instruction}
    (hs : m.space.Mounts base (.ofNibbles p.encode)) (fits : base.toNat + p.size ≤ 4096)
    (hi : p[j]? = some i) (hr : m.status = .running)
    (hiar : m.registers.iar.toNat = base.toNat + p.offset j) :
    m.step.result = .ok i ∧ Executes i m m.step.machine := by
  rw [Program.split_of_getElem? hi] at hs fits
  exact step_of_split hs fits hr hiar

/-- A step leaves the image in front of the space. -/
theorem mounts_step {m : Machine} {base : UInt16} {image : Rom} (h : m.space.Mounts base image) :
    m.step.machine.space.Mounts base image := by
  obtain ⟨ws, hws⟩ := exists_writes_of_step m
  rw [hws]
  exact h.writes ws

/-! ## Straight lines -/

/-- A program without jumps is executed from its start to its end. -/
theorem steps_of_straight {base : UInt16} (before rest : Program) {m : Machine}
    (hs : m.space.Mounts base (.ofNibbles (Program.encode (before ++ rest))))
    (fits : base.toNat + Program.size (before ++ rest) ≤ 4096)
    (straight : ∀ i ∈ rest, i.opcode ≠ .jmp ∧ i.opcode ≠ .rjp ∧ i.opcode ≠ .jz)
    (hr : m.status = .running)
    (hiar : m.registers.iar.toNat = (base.toNat + Program.size before) % 4096) :
    ∃ m', Steps m rest m' ∧
      m'.registers.iar.toNat = (base.toNat + Program.size (before ++ rest)) % 4096 := by
  -- By induction on what is still to be executed; the program stays the same.
  induction rest generalizing before m with
  | nil => exact ⟨m, .nil m, by rw [List.append_nil]; exact hiar⟩
  | cons i rest ih =>
    have hpos := i.size_pos
    have hsize : Program.size (before ++ i :: rest) =
        Program.size before + (i.size + Program.size rest) := Program.size_append ..
    -- Only the end of a program can fall on the end of the space.
    rw [Nat.mod_eq_of_lt (by omega)] at hiar
    obtain ⟨hresult, hexecutes⟩ := step_of_split hs fits hr hiar
    have hjump : i.jump? m.registers = none := by
      have hi := straight i List.mem_cons_self
      cases i <;> simp_all [Instruction.opcode, Instruction.jump?]
    -- The instruction moves to those before, and the image in front is still there.
    have happend : before ++ i :: rest = (before ++ [i]) ++ rest := by simp
    have hnext : m.step.machine.registers.iar.toNat =
        (base.toNat + Program.size (before ++ [i])) % 4096 := by
      rw [hexecutes.iar, hjump, Option.getD_none, hiar, Program.size_append, Nat.add_assoc]
      rfl
    rw [happend] at hs fits ⊢
    obtain ⟨m', hsteps, hend⟩ := ih (before ++ [i]) (mounts_step hs) fits
      (fun j hj => straight j (List.mem_cons_of_mem i hj)) hexecutes.status hnext
    exact ⟨m', .cons hresult hsteps, hend⟩

/-- A program that is packed into an image and built with any layout is executed as it is written.
In whatever way the machine has got there, a step at the place of an instruction executes this
instruction. A program without jumps is executed in full: a run of as many steps as there are
instructions takes one for each of them, in order, and ends behind the last one. -/
theorem execution_of_program (p : Program) (l : Layout) (s : Space)
    (fits : l.romBase.toNat + p.encode.length ≤ 4096)
    (built : l.space (.ofNibbles p.encode) = .ok s) (m : Machine)
    (reached : Reachable (.start s) m) :
    (∀ j i, p[j]? = some i → m.status = .running →
      m.registers.iar.toNat = l.romBase.toNat + p.offset j → m.step.result = .ok i) ∧
    ((∀ i ∈ p, i.opcode ≠ .jmp ∧ i.opcode ≠ .rjp ∧ i.opcode ≠ .jz) →
      ∀ c : Machine, c.space = m.space → c.status = .running →
        c.registers.iar.toNat = l.romBase.toNat → c.cycles.toNat + p.length < UInt64.size →
        ∀ journal, ∃ m',
          Steps c p m' ∧
          (c.runLimited (.ofNat p.length) journal).result = .ok (.ofNat p.length) ∧
          (c.runLimited (.ofNat p.length) journal).machine = m' ∧
          m'.registers.iar.toNat = (l.romBase.toNat + p.encode.length) % 4096) := by
  rw [Program.length_encode] at fits ⊢
  -- The image is in front from the start and stays there.
  have hs : m.space.Mounts l.romBase (.ofNibbles p.encode) := by
    obtain ⟨ws, hws⟩ := exists_writes_of_reachable reached
    rw [hws]
    exact (Layout.mounts_of_space built).writes ws
  refine ⟨?_, ?_⟩
  · intro j i hi hr hiar
    exact (step_of_loaded hs fits hi hr hiar).1
  · -- The part without jumps starts at the base with nothing executed yet.
    intro straight c hspace hr hiar hroom journal
    rw [← hspace] at hs
    have hlimit : (UInt64.ofNat p.length).toNat = p.length := by
      have hlt : p.length < UInt64.size := by omega
      rw [UInt64.toNat_ofNat']
      exact Nat.mod_eq_of_lt hlt
    have hlt := c.registers.iar.toNat_lt
    have hstart : c.registers.iar.toNat = (l.romBase.toNat + Program.size []) % 4096 := by
      rw [Program.size_nil, Nat.add_zero, ← hiar]
      exact (Nat.mod_eq_of_lt hlt).symm
    obtain ⟨m', hsteps, hend⟩ := steps_of_straight [] p hs fits straight hr hstart
    obtain ⟨hresult, hmachine⟩ := runLimited_of_steps hsteps hlimit.symm (by omega) journal
    exact ⟨m', hsteps, hresult, hmachine, hend⟩

/-- A program that ends with the space, under a display and cells, after a store into its code. -/
theorem execution_of_program_at_end :
    let p : Program := [.ldi 3, .str, .mov .a .b]
    let l : Layout := { romBase := 0xFFB, displayBase := 0xFFC, ram := [⟨0xF00, 256⟩] }
    let s : Space := ⟨(l.mappings (.ofNibbles p.encode)).toArray⟩
    let m : Machine := { registers := { iar := 0xFFD }, space := s.write 0xFFD 7 }
    l.romBase.toNat + p.encode.length ≤ 4096 ∧ l.space (.ofNibbles p.encode) = .ok s ∧
      Reachable (.start s) m ∧ m.step.result = .ok .str ∧
      ∃ m', Steps { m with registers.iar := 0xFFB } p m' ∧ m'.registers.iar.toNat = 0 := by
  intro p l s m
  have fits : l.romBase.toNat + p.encode.length ≤ 4096 := by decide
  have built : l.space (.ofNibbles p.encode) = .ok s := rfl
  -- The host has moved the instruction address and tried to write over the instruction there.
  have reached : Reachable (.start s) m :=
    .tail (.tail .refl (.setRegisters { iar := 0xFFD })) (.write 0xFFD 7)
  obtain ⟨hstep, hrun⟩ := execution_of_program p l s fits built m reached
  obtain ⟨m', hsteps, -, -, hend⟩ := hrun (by decide) { m with registers.iar := 0xFFB } rfl rfl
    (by decide) (by decide) (.empty none)
  exact ⟨fits, built, reached, hstep 1 .str rfl rfl (by decide), m', hsteps,
    hend.trans (by decide)⟩

end Machine

end NandMachine
