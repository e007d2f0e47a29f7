import NandMachine.Proofs.Program.Loaded

/-!
# Programs of stores

Eight instructions store a nibble at an address, whatever the registers hold: they set the limbs of
`addr` one after the other and then load the nibble. A program that is put together from such rows
has no jumps, so it is executed from its start to its end, and all that it leaves in memory are its
stores, in their order. This holds also of stores that go into the program itself: an image takes no
writes.

## Key results

- `eq_foldl_of_steps`: a chain of steps does to a machine what its instructions do
- `stored_foldl_after`: what a program of stores does, apart from where it stands
- `runLimited_of_stores`: a built program of stores is executed in full and leaves its stores
-/

namespace NandMachine

namespace Program

/-- Stores a nibble at an address. The low limb waits in `b` for the middle one, since `sar` sets
both of them at once. -/
def store (t : Address) (v : Nibble) : Program :=
  [.ldi t.high, .sap, .ldi t.low, .mov .a .b, .ldi t.mid, .sar, .ldi v, .str]

/-- Stores nibbles at addresses, the first one in the list first. -/
def stores (ws : List (Address × Nibble)) : Program := ws.flatMap fun w => store w.1 w.2

@[simp] theorem stores_cons (w : Address × Nibble) (ws : List (Address × Nibble)) :
    stores (w :: ws) = store w.1 w.2 ++ stores ws := rfl

/-- There are no jumps in a program of stores. -/
theorem straight_stores (ws : List (Address × Nibble)) :
    ∀ i ∈ stores ws, i.opcode ≠ .jmp ∧ i.opcode ≠ .rjp ∧ i.opcode ≠ .jz := by
  intro i hi
  obtain ⟨w, -, hi⟩ := List.mem_flatMap.mp hi
  simp only [store, List.mem_cons, List.not_mem_nil, or_false] at hi
  rcases hi with rfl | rfl | rfl | rfl | rfl | rfl | rfl | rfl <;> simp [Instruction.opcode]

end Program

namespace Machine

/-! ## Instructions in a row -/

/-- The machine behind an instruction that it has found at the instruction address. -/
def after (m : Machine) (i : Instruction) : Machine :=
  { (m.fetched i).execute i with cycles := m.cycles + 1, last := some i }

/-- A step that returns an instruction leaves the machine behind it. -/
theorem machine_of_step_ok {m : Machine} {i : Instruction} (h : m.step.result = .ok i) :
    m.step.machine = m.after i := by
  obtain ⟨hr, hd⟩ := decoded_of_step_ok h
  rw [step_of_decoded hr hd]
  rfl

/-- A chain of steps does to a machine what its instructions do. -/
theorem eq_foldl_of_steps {m m' : Machine} {is : List Instruction} (h : Steps m is m') :
    m' = is.foldl after m := by
  induction h with
  | nil m => rfl
  | cons head tail ih => rw [ih, machine_of_step_ok head, List.foldl_cons]

/-! ## Stores in a row -/

/-- What stores in a row leave of a machine. -/
structure Stored (ws : List (Address × Nibble)) (m m' : Machine) : Prop where
  space : m'.space = m.space.writes ws
  c : m'.registers.c = m.registers.c
  d : m'.registers.d = m.registers.d
  /-- The last store is still to be seen in the registers. -/
  last : ∀ w, ws.getLast? = some w → m'.registers.addr = w.1 ∧ m'.registers.a = w.2

theorem Stored.nil (m : Machine) : Stored [] m m where
  space := rfl
  c := rfl
  d := rfl
  last := nofun

/-- One row of eight instructions is one store. Each limb goes through `a`. -/
theorem stored_foldl_after_store (m : Machine) (w : Address × Nibble) :
    Stored [w] m ((Program.store w.1 w.2).foldl after m) where
  space := rfl
  c := rfl
  d := rfl
  last := by
    rintro v hv
    obtain rfl := Option.some.inj hv
    exact ⟨rfl, rfl⟩

/-- Stores behind others come last, if there are any. -/
theorem Stored.append {ws vs : List (Address × Nibble)} {m m₁ m₂ : Machine}
    (first : Stored ws m m₁) (second : Stored vs m₁ m₂) (last : vs ≠ []) :
    Stored (ws ++ vs) m m₂ where
  space := by rw [second.space, first.space, Space.writes_append]
  c := second.c.trans first.c
  d := second.d.trans first.d
  last := by
    -- The last store of both lists is that of the second one.
    intro w hw
    rw [List.getLast?_append, List.getLast?_eq_some_getLast last, Option.some_or,
      ← List.getLast?_eq_some_getLast last] at hw
    exact second.last w hw

/-- What a program of stores does, apart from where it stands. -/
theorem stored_foldl_after (ws : List (Address × Nibble)) (m : Machine) :
    Stored ws m ((Program.stores ws).foldl after m) := by
  induction ws generalizing m with
  | nil => exact .nil m
  | cons w ws ih =>
    rw [Program.stores_cons, List.foldl_append]
    have hfirst := stored_foldl_after_store m w
    generalize (Program.store w.1 w.2).foldl after m = m₁ at hfirst ⊢
    -- Without another store behind it, the first one is the last.
    cases ws with
    | nil => exact hfirst
    | cons v vs => exact hfirst.append (ih m₁) (List.cons_ne_nil v vs)

/-- A program of stores that is packed into an image and built with any layout does what it says,
whatever the registers hold when it starts. A run of as many steps as there are instructions ends
without a fault, and what it leaves in the space are the stores, in their order; `addr` and `a` are
those of the last one, and neither `c` nor `d` has been used. -/
theorem runLimited_of_stores (ws : List (Address × Nibble)) (l : Layout) (s : Space)
    (fits : l.romBase.toNat + (Program.stores ws).encode.length ≤ 4096)
    (built : l.space (.ofNibbles (Program.stores ws).encode) = .ok s) (m : Machine)
    (hspace : m.space = s) (hr : m.status = .running)
    (hiar : m.registers.iar.toNat = l.romBase.toNat)
    (hroom : m.cycles.toNat + (Program.stores ws).length < UInt64.size) (journal : Journal) :
    let limit := UInt64.ofNat (Program.stores ws).length
    let r := m.runLimited limit journal
    r.result = .ok limit ∧ Steps m (Program.stores ws) r.machine ∧
      r.machine.space = s.writes ws ∧
      r.machine.registers.c = m.registers.c ∧ r.machine.registers.d = m.registers.d ∧
      ∀ w, ws.getLast? = some w →
        r.machine.registers.addr = w.1 ∧ r.machine.registers.a = w.2 := by
  have hs : m.space.Mounts l.romBase (.ofNibbles (Program.stores ws).encode) := by
    rw [hspace]
    exact Layout.mounts_of_space built
  rw [Program.length_encode] at fits
  have hstart : m.registers.iar.toNat = (l.romBase.toNat + Program.size []) % 4096 := by
    have hlt := m.registers.iar.toNat_lt
    rw [Program.size_nil, Nat.add_zero, ← hiar]
    exact (Nat.mod_eq_of_lt hlt).symm
  obtain ⟨m', hsteps, -⟩ :=
    steps_of_straight [] (Program.stores ws) hs fits (Program.straight_stores ws) hr hstart
  have hlimit : (UInt64.ofNat (Program.stores ws).length).toNat = (Program.stores ws).length := by
    have hlt : (Program.stores ws).length < UInt64.size := by omega
    rw [UInt64.toNat_ofNat']
    exact Nat.mod_eq_of_lt hlt
  obtain ⟨hresult, hmachine⟩ := runLimited_of_steps hsteps hlimit.symm (by omega) journal
  -- The steps of the run are those of the program, so it has done what the program does.
  have hstored : Stored ws m m' := by
    rw [eq_foldl_of_steps hsteps]
    exact stored_foldl_after ws m
  intro limit r
  rw [show r.machine = m' from hmachine, ← hspace]
  exact ⟨hresult, hsteps, hstored.space, hstored.c, hstored.d, hstored.last⟩

/-- Stores into the program itself, at the display, at an address without a mapping, and into a
cell, two of which are hidden behind the display and the image. -/
theorem runLimited_of_stores_anywhere :
    let ws : List (Address × Nibble) := [(0x013, 5), (0x040, 9), (0xFFF, 1), (0x043, 7)]
    let l : Layout := { romBase := 0x00B, displayBase := 0x040, ram := [⟨0x040, 4⟩, ⟨0, 16⟩] }
    let s : Space := ⟨(l.mappings (.ofNibbles (Program.stores ws).encode)).toArray⟩
    let m : Machine := { registers := { d := 4, iar := 0x00B, addr := 0x013 }, space := s }
    l.romBase.toNat + (Program.stores ws).encode.length ≤ 4096 ∧
      l.space (.ofNibbles (Program.stores ws).encode) = .ok s ∧
      m.registers.iar.toNat = l.romBase.toNat ∧
      m.cycles.toNat + (Program.stores ws).length < UInt64.size ∧
      ∃ r, m.runLimited 32 (.empty none) = r ∧ r.result = .ok 32 ∧
        r.machine.space = s.writes ws ∧ r.machine.registers.addr = 0x043 := by
  intro ws l s m
  have fits : l.romBase.toNat + (Program.stores ws).encode.length ≤ 4096 := by decide
  have built : l.space (.ofNibbles (Program.stores ws).encode) = .ok s := rfl
  have hiar : m.registers.iar.toNat = l.romBase.toNat := by decide
  -- Four stores of eight instructions each take 32 steps.
  have hroom : m.cycles.toNat + (Program.stores ws).length < UInt64.size := by decide
  have hrun := runLimited_of_stores ws l s fits built m rfl rfl hiar hroom (.empty none)
  rw [show UInt64.ofNat (Program.stores ws).length = 32 by rfl] at hrun
  obtain ⟨hresult, -, hwritten, -, -, hlast⟩ := hrun
  obtain ⟨haddr, -⟩ := hlast (0x043, 7) rfl
  exact ⟨fits, built, hiar, hroom, _, rfl, hresult, hwritten, haddr⟩

end Machine

end NandMachine
