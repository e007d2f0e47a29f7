import NandMachine.Proofs.Machine.Run

/-!
# Bounded runs

A bounded run takes as many steps as it is asked for, or as many as the count of cycles has room
for, or all in front of the first fault, whichever is the least. `runBelow` is the same run as a
loop over the count of cycles, which ends when the count has reached a bound; the count is not
allowed to start again at 0, so the loop ends. Two bounded runs in a row are one.

## Key results

- `exists_steps_or_fault`: a number of steps can be taken, or an earlier one faults
- `runFor_eq_runBelow`: counting steps and counting cycles come to the same
- `runLimited_add`: two bounded runs in a row are one
- `runLimited_counts`: what a bounded run counts, where it ends, and how it goes on
-/

namespace NandMachine.Machine

/-! ## The count of cycles -/

/-- The count of cycles does not start again at 0 as long as there is room. -/
theorem toNat_cycles_of_steps {m m' : Machine} {is : List Instruction} (h : Steps m is m')
    (room : m.cycles.toNat + is.length ≤ maxCycles) :
    m'.cycles.toNat = m.cycles.toNat + is.length := by
  have hmax : maxCycles = 2 ^ 64 - 1 := rfl
  rw [cycles_of_steps h, UInt64.toNat_add, UInt64.toNat_ofNat']
  omega

/-- The steps that a bounded run may take fit into the count. -/
theorem cycles_add_budget_le (m : Machine) (limit : UInt64) :
    m.cycles.toNat + m.budget limit ≤ maxCycles := by
  have hmax : maxCycles = 2 ^ 64 - 1 := rfl
  have hlt := m.cycles.toNat_lt
  rw [budget]
  omega

/-- So the steps of a bounded run are counted as numbers. -/
theorem toNat_cycles_of_budget {m m' : Machine} {is : List Instruction} {limit : UInt64}
    (h : Steps m is m') (hle : is.length ≤ m.budget limit) :
    m'.cycles.toNat = m.cycles.toNat + is.length := by
  have := m.cycles_add_budget_le limit
  exact toNat_cycles_of_steps h (by omega)

/-! ## Steps up to a fault -/

/-- A number of steps can be taken, or an earlier one faults. -/
theorem exists_steps_or_fault (n : Nat) (m : Machine) :
    (∃ is m', Steps m is m' ∧ is.length = n) ∨
      ∃ is last f, Steps m is last ∧ is.length < n ∧ last.step.result = .error f := by
  -- The first step decides, and the others are left to the induction.
  induction n generalizing m with
  | zero => exact .inl ⟨[], m, .nil m, rfl⟩
  | succ n ih =>
    cases hres : m.step.result with
    | error f => exact .inr ⟨[], m, f, .nil m, Nat.succ_pos n, hres⟩
    | ok i =>
      rcases ih m.step.machine with ⟨is, m', hsteps, hlen⟩ | ⟨is, last, f, hsteps, hlt, hf⟩
      · exact .inl ⟨i :: is, m', .cons hres hsteps, by rw [List.length_cons, hlen]⟩
      · exact .inr ⟨i :: is, last, f, .cons hres hsteps, Nat.succ_lt_succ hlt, hf⟩

/-- All runs that are allowed more steps than there are in front of a fault end with it. -/
theorem runFor_of_fault {m last : Machine} {is : List Instruction} {f : Fault}
    (h : Steps m is last) (hf : last.step.result = .error f) (j : Journal) :
    ∃ j', ∀ n, is.length < n → runFor n m j = (some f, last.step.machine, j') := by
  -- The journal does not depend on the limit, so it is found before the limit is given.
  induction h generalizing j with
  | nil m =>
    refine ⟨j.add m.step.events, fun n hlt => ?_⟩
    obtain ⟨n, rfl⟩ : ∃ k, n = k + 1 := ⟨n - 1, by omega⟩
    simp only [runFor, hf]
  | @cons m m' i is head tail ih =>
    obtain ⟨j', hj⟩ := ih hf (j.add m.step.events)
    refine ⟨j', fun n hlt => ?_⟩
    obtain ⟨n, rfl⟩ : ∃ k, n = k + 1 := ⟨n - 1, by omega⟩
    simp only [runFor, head]
    exact hj n (Nat.lt_of_succ_lt_succ hlt)

/-- What a run does behind a number of steps without a fault is a run of its own. -/
theorem runFor_add (a b : Nat) (m : Machine) (j : Journal) :
    runFor (a + b) m j =
      match runFor a m j with
      | (none, m', j') => runFor b m' j'
      | (some f, m', j') => (some f, m', j') := by
  -- By induction on the steps in front; a fault among them ends both sides.
  induction a generalizing m j with
  | zero => rw [Nat.zero_add, runFor]
  | succ a ih =>
    rw [Nat.succ_add, runFor, runFor]
    cases m.step.result with
    | error f => rfl
    | ok i => exact ih _ _

/-! ## The run as a loop over the count of cycles -/

/-- Steps while the count of cycles is below a bound, and ends at the first fault. -/
def runBelow (bound : UInt64) (m : Machine) (j : Journal) : Option Fault × Machine × Journal :=
  if _ : m.cycles < bound then
    match _ : m.step.result with
    | .error f => (some f, m.step.machine, j.add m.step.events)
    | .ok _ => runBelow bound m.step.machine (j.add m.step.events)
  else (none, m, j)
termination_by bound.toNat - m.cycles.toNat
decreasing_by
  -- Below a bound there is room for one cycle more.
  next below _ hok =>
  have hlt := UInt64.lt_iff_toNat_lt.mp below
  have hbound := bound.toNat_lt
  rw [cycles_of_step_ok hok, UInt64.toNat_add, UInt64.toNat_one]
  omega

theorem runBelow_of_not_lt {bound : UInt64} {m : Machine} (h : ¬ m.cycles < bound) (j : Journal) :
    runBelow bound m j = (none, m, j) := by
  rw [runBelow, dif_neg h]

theorem runBelow_of_lt {bound : UInt64} {m : Machine} (h : m.cycles < bound) (j : Journal) :
    runBelow bound m j =
      match m.step.result with
      | .error f => (some f, m.step.machine, j.add m.step.events)
      | .ok _ => runBelow bound m.step.machine (j.add m.step.events) := by
  rw [runBelow, dif_pos h]
  split <;> simp only [*]

/-- Counting steps and counting cycles come to the same, up to any bound. -/
theorem runFor_eq_runBelow {bound : UInt64} {n : Nat} {m : Machine}
    (h : m.cycles.toNat + n = bound.toNat) (j : Journal) : runFor n m j = runBelow bound m j := by
  induction n generalizing m j with
  | zero =>
    have hge : ¬ m.cycles < bound := by
      rw [UInt64.lt_iff_toNat_lt]
      omega
    rw [runFor, runBelow_of_not_lt hge]
  | succ n ih =>
    have hlt : m.cycles < bound := by
      rw [UInt64.lt_iff_toNat_lt]
      omega
    rw [runFor, runBelow_of_lt hlt]
    cases hres : m.step.result with
    | error f => rfl
    | ok i =>
      -- The bound is itself a count, so the count of cycles does not start again at 0.
      have hbound := bound.toNat_lt
      refine ih ?_ _
      rw [cycles_of_step_ok hres, UInt64.toNat_add, UInt64.toNat_one]
      omega

/-! ## Bounded runs -/

/-- A number as a count of cycles; one beyond all counts becomes the highest. -/
def saturated (n : Nat) : UInt64 := .ofNat (min n maxCycles)

/-- As a number, a count is no higher than the highest one. -/
@[simp] theorem toNat_saturated (n : Nat) : (saturated n).toNat = min n maxCycles := by
  have hmax : maxCycles = 2 ^ 64 - 1 := rfl
  rw [saturated, UInt64.toNat_ofNat']
  exact Nat.mod_eq_of_lt (by omega)

/-- What a bounded run may count up to: the sum with its limit, or the highest count. -/
theorem cycles_add_budget (m : Machine) (limit : UInt64) :
    m.cycles.toNat + m.budget limit = (saturated (m.cycles.toNat + limit.toNat)).toNat := by
  have hmax : maxCycles = 2 ^ 64 - 1 := rfl
  have hlt := m.cycles.toNat_lt
  rw [toNat_saturated, budget]
  omega

/-- A bounded run is the loop that ends when the count of cycles has grown by the limit, or is as
high as it can be. -/
theorem runLimited_eq_runBelow (m : Machine) (limit : UInt64) (j : Journal) :
    m.runLimited limit j =
      match runBelow (saturated (m.cycles.toNat + limit.toNat)) m j with
      | (some f, m', j') => ⟨.error f, m', j'⟩
      | (none, m', j') => ⟨.ok (m'.cycles - m.cycles), m', j'⟩ := by
  rw [← runFor_eq_runBelow (m.cycles_add_budget limit)]
  rfl

/-- The number of steps that a bounded run may take is a count. -/
theorem toNat_ofNat_budget (m : Machine) (limit : UInt64) :
    (UInt64.ofNat (m.budget limit)).toNat = m.budget limit := by
  rw [UInt64.toNat_ofNat']
  exact Nat.mod_eq_of_lt (Nat.lt_of_le_of_lt (Nat.min_le_left ..) limit.toNat_lt)

/-- A bounded run without a fault takes all the steps that it may. -/
theorem runLimited_of_budget {m m' : Machine} {is : List Instruction} {limit : UInt64}
    (h : Steps m is m') (hlen : is.length = m.budget limit) (j : Journal) :
    ∃ j', runFor (m.budget limit) m j = (none, m', j') ∧
      m.runLimited limit j = ⟨.ok (.ofNat (m.budget limit)), m', j'⟩ := by
  obtain ⟨j', hrun⟩ := runFor_of_steps h j
  rw [hlen] at hrun
  refine ⟨j', hrun, ?_⟩
  simp only [runLimited, hrun, cycles_sub_of_steps h, hlen]

/-- All bounded runs that may take the step end with the first fault. -/
theorem runLimited_of_fault {m last : Machine} {is : List Instruction} {f : Fault}
    (h : Steps m is last) (hf : last.step.result = .error f) (j : Journal) :
    ∃ j', (∀ n, is.length < n → runFor n m j = (some f, last.step.machine, j')) ∧
      ∀ limit, is.length < m.budget limit →
        m.runLimited limit j = ⟨.error f, last.step.machine, j'⟩ := by
  obtain ⟨j', hrun⟩ := runFor_of_fault h hf j
  refine ⟨j', hrun, fun limit hlt => ?_⟩
  simp only [runLimited, hrun _ hlt]

/-- A bounded run without a fault returns the number of steps that it may take. -/
theorem toNat_of_runLimited_ok {m : Machine} {limit x : UInt64} {j : Journal}
    (h : (m.runLimited limit j).result = .ok x) : x.toNat = m.budget limit := by
  rcases exists_steps_or_fault (m.budget limit) m with
    ⟨is, m', hsteps, hlen⟩ | ⟨is, last, f, hsteps, hlt, hf⟩
  · obtain ⟨j', -, hr⟩ := runLimited_of_budget hsteps hlen j
    rw [hr, Except.ok.injEq] at h
    rw [← h, toNat_ofNat_budget]
  · obtain ⟨j', -, hr⟩ := runLimited_of_fault hsteps hf j
    rw [hr limit hlt] at h
    exact nomatch h

/-- What is left to a run behind another one is what both together may take. -/
theorem budget_add {m m' : Machine} {limit : UInt64} (more : UInt64)
    (hcycles : m'.cycles.toNat = m.cycles.toNat + m.budget limit) :
    m.budget (saturated (limit.toNat + more.toNat)) = m.budget limit + m'.budget more := by
  simp only [budget, toNat_saturated] at hcycles ⊢
  omega

/-- Two bounded runs in a row are one, with the sum of the counts as its result. -/
theorem runLimited_add {m m' : Machine} {is : List Instruction} {limit : UInt64} (more : UInt64)
    (h : Steps m is m') (hlen : is.length = m.budget limit) (j : Journal) :
    let first := m.runLimited limit j
    let next := first.machine.runLimited more first.journal
    m.runLimited (saturated (limit.toNat + more.toNat)) j =
      { next with result := next.result.map (.ofNat (m.budget limit) + ·) } := by
  obtain ⟨j', hrun, hfirst⟩ := runLimited_of_budget h hlen j
  have hcycles : m'.cycles.toNat = m.cycles.toNat + m.budget limit := by
    rw [toNat_cycles_of_budget h (Nat.le_of_eq hlen), hlen]
  -- The budgets add up, so the steps of the whole run are split between both.
  have hsum : runFor (m.budget (saturated (limit.toNat + more.toNat))) m j =
      runFor (m'.budget more) m' j' := by
    rw [budget_add more hcycles, runFor_add, hrun]
  intro first next
  have hnext : next = m'.runLimited more j' := by
    simp only [next, first, hfirst]
  rw [hnext, runLimited, runLimited, hsum]
  split
  · rfl
  · next m'' _ _ =>
    -- The count of the whole run is that of the first one and that of the second.
    have hcount : m''.cycles - m.cycles = .ofNat (m.budget limit) + (m''.cycles - m'.cycles) := by
      rw [cycles_of_steps h, hlen]
      grind
    simp only [hcount, Except.map]

/-- Behind a fault nothing is left of a run with the sum of two limits. -/
theorem runLimited_add_of_fault {m last : Machine} {is : List Instruction} {f : Fault}
    {limit : UInt64} (more : UInt64) (h : Steps m is last) (hlt : is.length < m.budget limit)
    (hf : last.step.result = .error f) (j : Journal) :
    m.runLimited (saturated (limit.toNat + more.toNat)) j = m.runLimited limit j := by
  obtain ⟨j', -, hr⟩ := runLimited_of_fault h hf j
  have hle : m.budget limit ≤ m.budget (saturated (limit.toNat + more.toNat)) := by
    simp only [budget, toNat_saturated]
    omega
  rw [hr limit hlt, hr _ (Nat.lt_of_lt_of_le hlt hle)]

/-- What a bounded run counts, where it ends, and how it goes on. The run is a loop over the count
of cycles, which never starts again at 0. Without a fault it has taken as many steps as it was asked
for, or as the count had room for, and this is its result. With a fault it is the machine that the
first faulty step has left, with the steps in front of it counted. A run behind another one does
what is left of one run with the sum of their limits; behind a fault nothing is left. -/
theorem runLimited_counts (m : Machine) (limit more : UInt64) (journal : Journal) :
    let r := m.runLimited limit journal
    let next := r.machine.runLimited more r.journal
    let whole := m.runLimited (saturated (limit.toNat + more.toNat)) journal
    (r = match runBelow (saturated (m.cycles.toNat + limit.toNat)) m journal with
      | (some f, m', j') => ⟨.error f, m', j'⟩
      | (none, m', j') => ⟨.ok (m'.cycles - m.cycles), m', j'⟩) ∧
    (∀ is m', Steps m is m' → is.length ≤ m.budget limit →
      m'.cycles.toNat = m.cycles.toNat + is.length) ∧
    (∀ x, r.result = .ok x →
      x.toNat = min limit.toNat (maxCycles - m.cycles.toNat) ∧
      (∃ is, is.length = x.toNat ∧ Steps m is r.machine) ∧
      r.machine.cycles.toNat = m.cycles.toNat + x.toNat ∧
      whole = { next with result := next.result.map (x + ·) } ∧
      ∀ y, next.result = .ok y → (x + y).toNat = x.toNat + y.toNat) ∧
    ∀ f, r.result = .error f →
      (∃ is last, is.length < min limit.toNat (maxCycles - m.cycles.toNat) ∧ Steps m is last ∧
        last.step.result = .error f ∧ r.machine = last.step.machine ∧
        r.machine.cycles.toNat = m.cycles.toNat + is.length) ∧
      whole = r := by
  intro r next whole
  refine ⟨runLimited_eq_runBelow m limit journal, fun is m' => toNat_cycles_of_budget, ?_⟩
  rcases exists_steps_or_fault (m.budget limit) m with
    ⟨is, m', hsteps, hlen⟩ | ⟨is, last, f, hsteps, hlt, hf⟩
  · -- All steps that the run may take can be taken.
    obtain ⟨j', -, hr⟩ := runLimited_of_budget hsteps hlen journal
    have hcount := m.toNat_ofNat_budget limit
    have hcycles := toNat_cycles_of_budget hsteps (Nat.le_of_eq hlen)
    rw [show r = _ from hr]
    refine ⟨?_, fun _ => nofun⟩
    rintro x ⟨⟩
    refine ⟨hcount, ⟨is, hlen.trans hcount.symm, hsteps⟩, ?_, ?_, ?_⟩
    · rw [hcount, ← hlen]
      exact hcycles
    · exact runLimited_add more hsteps hlen journal
    · -- Both counts together are still a count of cycles.
      intro y hy
      have hnext := toNat_of_runLimited_ok hy
      have hle := r.machine.cycles_add_budget_le more
      have hmachine : r.machine = m' := congrArg Run.machine hr
      have hmax : maxCycles = 2 ^ 64 - 1 := rfl
      rw [hmachine] at hnext hle
      rw [UInt64.toNat_add]
      omega
  · -- One of them faults, which it would with any higher limit.
    obtain ⟨j', -, hr⟩ := runLimited_of_fault hsteps hf journal
    have hcycles := toNat_cycles_of_budget hsteps (Nat.le_of_lt hlt)
    rw [show whole = r from runLimited_add_of_fault more hsteps hlt hf journal,
      show r = _ from hr limit hlt]
    refine ⟨fun _ => nofun, ?_⟩
    rintro f' ⟨⟩
    refine ⟨⟨is, last, hlt, hsteps, hf, rfl, ?_⟩, rfl⟩
    rw [← hcycles]
    exact congrArg UInt64.toNat (cycles_of_step_error hf)

end NandMachine.Machine
