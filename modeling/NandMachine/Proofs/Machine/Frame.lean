import NandMachine.Proofs.Machine.Run
import NandMachine.Proofs.Memory.Item

/-!
# What a machine leaves alone

A machine works on a space whose shape is settled before it starts: no operation puts a mapping into
it, moves one, exchanges a device or touches an image. What is stored in it changes by one item at
a time, and only where a store is executed.

## Key results

- `alike_of_reachable`: the shape of the space lasts, whatever a host does with the machine
- `shape_lasts_and_steps_change_one_item`: both, with the item that a store changes
-/

namespace NandMachine.Machine

/-- Actions of a host keep ranges, kinds, sizes and images. -/
theorem alike_of_reachable {m m' : Machine} (h : Reachable m m') : m.space.Alike m'.space :=
  Space.alike_iff.mpr (blank_of_reachable h).symm

/-- The shape of the space lasts: after any actions of a host, whether they succeed or fault, there
are the same mappings in the same order, with the same ranges, kinds, sizes and images. Where a step
changes the space, it has executed a store, and the address that was in `addr` leads to an item; all
other items are as before. The item itself is written to with what was in `a`. -/
theorem shape_lasts_and_steps_change_one_item :
    (∀ m m' : Machine, Reachable m m' → m.space.Alike m'.space) ∧
    ∀ m : Machine,
      let s := m.space
      let s' := m.step.machine.space
      (s' ≠ s → m.step.result = .ok .str ∧
        ∃ p, s.slot? m.registers.addr = some p ∧ ∀ q ≠ p, s'.item? q = s.item? q) ∧
      (m.step.result = .ok .str → ∀ p, s.slot? m.registers.addr = some p →
        s'.item? p = (s.item? p).map (Item.write m.registers.a)) := by
  refine ⟨fun m m' h => alike_of_reachable h, ?_⟩
  intro m s s'
  constructor
  · intro changed
    have hstr : m.step.result = .ok .str :=
      Classical.byContradiction fun h => changed (space_step_of_ne_str h)
    have hwrite : s' = s.write m.registers.addr m.registers.a := space_step_of_str hstr
    refine ⟨hstr, ?_⟩
    cases hslot : s.slot? m.registers.addr with
    | none =>
      -- Nothing is stored behind the address, so nothing would have changed.
      exact absurd (hwrite.trans (Space.write_of_slot?_eq_none hslot _)) changed
    | some p =>
      refine ⟨p, rfl, fun q hq => ?_⟩
      rw [hwrite, Space.item?_write, hslot, if_neg fun h => hq (Option.some.inj h).symm]
  · intro hstr p hslot
    have hwrite : s' = s.write m.registers.addr m.registers.a := space_step_of_str hstr
    rw [hwrite, Space.item?_write, hslot, if_pos rfl]

/-- A store to a display behind which a cell is hidden: the display changes, the cell does not. -/
theorem store_changes_front_item :
    let space : Space :=
      ⟨#[.ofDevice 0 (.rom ⟨#[0x11, 0x51, 0x53]⟩), .ofDevice 0x100 .freshDisplay,
        .ofDevice 0x100 (.zeros 4)]⟩
    let m := ((start space).runLimited 3 (.empty none)).machine
    Reachable (start space) m.step.machine ∧ space.Alike m.step.machine.space ∧
      m.step.result = .ok .str ∧ m.space.slot? m.registers.addr = some (1, 0) ∧
      m.step.machine.space ≠ m.space ∧
      m.step.machine.space.item? (1, 0) = some (.display 5 1) ∧
      ∀ q ≠ (1, 0), m.step.machine.space.item? q = m.space.item? q := by
  intro space m
  obtain ⟨hshape, hstep⟩ := shape_lasts_and_steps_change_one_item
  have reached : Reachable (start space) m.step.machine :=
    .tail (.single (.runLimited 3 _)) .step
  have hstr : m.step.result = .ok .str := by decide +kernel
  -- The display is in front of the cells, so the store goes to it.
  have hslot : m.space.slot? m.registers.addr = some (1, 0) := by decide +kernel
  have changed : m.step.machine.space ≠ m.space := by decide +kernel
  obtain ⟨hframe, hitem⟩ := hstep m
  obtain ⟨-, p, hp, hothers⟩ := hframe changed
  obtain rfl : (1, 0) = p := Option.some.inj (hslot.symm.trans hp)
  have hbefore : m.space.item? (1, 0) = some (.display 0 0) := by decide +kernel
  have ha : m.registers.a = 5 := by decide +kernel
  refine ⟨reached, hshape _ _ reached, hstr, hslot, changed, ?_, hothers⟩
  rw [hitem hstr _ hslot, hbefore, ha]
  rfl

end NandMachine.Machine
