import Mathlib.Data.List.Induction
import NandMachine.Proofs.Layout.Build
import NandMachine.Proofs.Machine.Operation

/-!
# The output of a run

A layout puts its display behind the image and in front of all cells. So the display gets every
store to its address, unless the image covers that address and then it gets none. What shows at the
end of a run is the last one of these stores.

## Key results

- `space_of_ends`: a chain of steps does to a space what the stores in it do
- `Space.Shows.writes`: what the display of a layout shows after writes in a row
- `output_of_ends`: what shows after a chain of steps
-/

namespace NandMachine

/-- The nibble of the last one of some writes that goes to an address, and zero if none does. -/
def lastAt (a : Nat) (ws : List (Address × Nibble)) : Nibble :=
  ((ws.filter fun w => w.1.toNat = a).getLast?.map Prod.snd).getD 0

/-- One more write is the last one if it goes to the address. -/
theorem lastAt_concat (a : Nat) (ws : List (Address × Nibble)) (w : Address × Nibble) :
    lastAt a (ws ++ [w]) = if w.1.toNat = a then w.2 else lastAt a ws := by
  rw [lastAt, List.filter_append]
  by_cases h : w.1.toNat = a
  · simp [h]
  · simp [h, lastAt]

namespace Layout

/-- The image covers the address of the display. -/
def Hidden (l : Layout) (image : Rom) : Prop :=
  (Mapping.ofDevice l.romBase (.rom image)).Covers l.displayBase.toNat

instance (l : Layout) (image : Rom) : Decidable (l.Hidden image) :=
  inferInstanceAs (Decidable (Mapping.Covers _ _))

/-- What the display of a layout shows after writes in a row. -/
def shown (l : Layout) (image : Rom) (ws : List (Address × Nibble)) : Nibble :=
  if l.Hidden image then 0 else lastAt l.displayBase.toNat ws

end Layout

/-! ## The display of a layout -/

namespace Space

/-- The space starts with the image and the display of a layout, and the display shows a nibble. -/
structure Shows (s : Space) (l : Layout) (image : Rom) (n : Nibble) : Prop where
  front : s.Mounts l.romBase image
  second : ∃ writes, s.mappings[1]? = some ⟨l.displayBase, 1, .display n writes⟩

variable {s : Space} {l : Layout} {image : Rom} {n : Nibble}

/-- The first display of the space is that of the layout. -/
theorem Shows.output_eq (h : s.Shows l image n) : s.output = some n := by
  obtain ⟨writes, hsecond⟩ := h.second
  have hfront := h.front
  rw [Mounts] at hfront
  rw [← Array.getElem?_toList] at hfront hsecond
  rw [output, ← Array.findSome?_toList]
  -- The image in front shows nothing, so the search goes on to the second place.
  generalize s.mappings.toList = ms at hfront hsecond
  cases ms with
  | nil => cases hfront
  | cons first rest =>
    cases rest with
    | nil => cases hsecond
    | cons second rest =>
      obtain rfl := Option.some.inj hfront
      obtain rfl := Option.some.inj hsecond
      rfl

/-- The display answers for its address, unless the image does. -/
theorem Shows.resolve_iff (h : s.Shows l image n) (b : Address) :
    (s.resolve b).map Prod.fst = some 1 ↔ ¬ l.Hidden image ∧ b.toNat = l.displayBase.toNat := by
  obtain ⟨writes, hsecond⟩ := h.second
  constructor
  · -- An address that leads to the display is covered by it and not by the image in front.
    intro hresolve
    obtain ⟨⟨i, offset⟩, hfound, rfl⟩ := Option.map_eq_some_iff.mp hresolve
    obtain ⟨m, hfirst, -⟩ := resolve_eq_some_iff.mp hfound
    obtain rfl := Option.some.inj (hsecond.symm.trans hfirst.at_place)
    have hcovers := hfirst.covers
    simp only [Mapping.Covers] at hcovers
    have hb : b.toNat = l.displayBase.toNat := by omega
    refine ⟨?_, hb⟩
    rw [Layout.Hidden, ← hb]
    exact hfirst.before 0 Nat.one_pos _ h.front
  · -- The display covers one address, and only the image could answer for it instead.
    rintro ⟨hhidden, hb⟩
    have hfirst : s.First b 1 ⟨l.displayBase, 1, .display n writes⟩ := by
      refine ⟨hsecond, ⟨Nat.le_of_eq hb.symm, ?_⟩, fun j hj e he => ?_⟩
      · show b.toNat - l.displayBase.toNat < 1
        omega
      · obtain rfl : j = 0 := Nat.lt_one_iff.mp hj
        obtain rfl := Option.some.inj (h.front.symm.trans he)
        rw [hb]
        exact hhidden
    rw [resolve_of_first hfirst, Option.map_some]

/-- A write to the address of the display shows on it, unless the image takes the write. -/
theorem Shows.write (h : s.Shows l image n) (b : Address) (v : Nibble) :
    (s.write b v).Shows l image
      (if ¬ l.Hidden image ∧ b.toNat = l.displayBase.toNat then v else n) := by
  obtain ⟨writes, hsecond⟩ := h.second
  refine ⟨h.front.write b v, ?_⟩
  rw [getElem?_mappings_write, hsecond, Option.map_some]
  -- The second mapping changes only if the write is resolved to it.
  by_cases hb : (s.resolve b).map Prod.fst = some 1
  · rw [if_pos hb, if_pos ((h.resolve_iff b).mp hb)]
    exact ⟨writes + 1, rfl⟩
  · rw [if_neg hb, if_neg (fun hc => hb ((h.resolve_iff b).mpr hc))]
    exact ⟨writes, rfl⟩

/-- After writes in a row, a display shows the last one of those that it got. -/
theorem Shows.writes (h : s.Shows l image 0) (ws : List (Address × Nibble)) :
    (s.writes ws).Shows l image (l.shown image ws) := by
  -- Writes are looked at from the end, since the last one decides.
  induction ws using List.reverseRecOn with
  | nil =>
    have hnone : l.shown image [] = 0 := by
      rw [Layout.shown]
      split <;> rfl
    rw [hnone]
    exact h
  | append_singleton ws w ih =>
    have hlast := ih.write w.1 w.2
    have hshown : l.shown image (ws ++ [w]) =
        if ¬ l.Hidden image ∧ w.1.toNat = l.displayBase.toNat then w.2 else l.shown image ws := by
      rw [Layout.shown, lastAt_concat, Layout.shown]
      by_cases hhidden : l.Hidden image <;> simp [hhidden]
    rw [writes_append, hshown]
    exact hlast

end Space

/-- A new space of a layout shows zero. -/
theorem Layout.shows_of_space {l : Layout} {image : Rom} {s : Space} (h : l.space image = .ok s) :
    s.Shows l image 0 := by
  refine ⟨mounts_of_space h, 0, ?_⟩
  rw [← Array.getElem?_toList, mappings_of_space h]
  rfl

/-! ## The stores of a run -/

namespace Machine

/-- What the instructions that are executed one after the other store, and where. -/
def storesOf : Machine → List Instruction → List (Address × Nibble)
  | _, [] => []
  | m, i :: is =>
    (if i = .str then [(m.registers.addr, m.registers.a)] else []) ++ m.step.machine.storesOf is

/-- A chain of steps does to the space what the stores in it do. -/
theorem space_of_steps {m m' : Machine} {is : List Instruction} (h : Steps m is m') :
    m'.space = m.space.writes (m.storesOf is) := by
  -- Each step adds its own store, if it is one, in front of those of the others.
  induction h with
  | nil m => rfl
  | @cons m m' i is head tail ih =>
    rw [ih, storesOf, Space.writes_append, (executes_of_step_ok head).space]
    split <;> rfl

/-- A fault behind the steps leaves the space as it is. -/
theorem space_of_ends {m m' : Machine} {is : List Instruction} {f : Option Fault}
    (h : Ends m is f m') : m'.space = m.space.writes (m.storesOf is) := by
  cases h with
  | whole steps => exact space_of_steps steps
  | @fault last f steps faulty =>
    rw [← space_of_steps steps]
    exact space_step_of_ne_str fun hok => nomatch hok.symm.trans faulty

/-- What shows after a chain of steps is what the stores in it leave at the display. -/
theorem output_of_ends {l : Layout} {image : Rom} {s : Space} (built : l.space image = .ok s)
    {m : Machine} {is : List Instruction} {f : Option Fault} (h : Ends (start s) is f m) :
    m.space.output = some (l.shown image ((start s).storesOf is)) := by
  rw [space_of_ends h]
  exact ((Layout.shows_of_space built).writes _).output_eq

end Machine

end NandMachine
