import NandMachine.Proofs.Machine.Limited

/-!
# Runs under a host

A run looks at the host's flag before every step, and what the host does with the flag may depend on
all that the steps have reported. `Host.sees` is what there is to be seen at each of these checks.
Up to the first check that finds the flag up, the run goes in lock-step with a bounded one. The fuel
of a run is the number of checks that it may make, so the theorems also say how many it needs.

## Key results

- `runWhile_of_quiet`: as long as the flag is down, a run does what a bounded one does
- `run_agrees_with_runLimited`: how a run ends, after how many checks, and with which machine
-/

namespace NandMachine

namespace Host

variable {σ : Type}

/-- The host's state at a check of the flag, counted from 0: it has seen all steps in front. -/
def stateAt (host : Host σ) (flag : σ) (m : Machine) : Nat → σ
  | 0 => flag
  | check + 1 => host.stateAt (host.observe flag m.step.events) m.step.machine check

/-- The flag as it is at a check, counted from 0. -/
def sees (host : Host σ) (flag : σ) (m : Machine) (check : Nat) : Bool :=
  host.raised (host.stateAt flag m check)

theorem sees_succ (host : Host σ) (flag : σ) (m : Machine) (check : Nat) :
    host.sees flag m (check + 1) =
      host.sees (host.observe flag m.step.events) m.step.machine check := rfl

/-- A host that goes by a sequence, whatever the machine does; its state is the next check. -/
def ofSequence (seen : Nat → Bool) : Host Nat := ⟨seen, fun check _ => check + 1⟩

/-- Every sequence is what some host shows at the checks of a run. -/
theorem sees_ofSequence (seen : Nat → Bool) (start : Nat) (m : Machine) (check : Nat) :
    (ofSequence seen).sees start m check = seen (start + check) := by
  -- The state of the host counts the checks, and the start is where it has begun.
  induction check generalizing start m with
  | zero => rfl
  | succ check ih =>
    rw [sees_succ, ih, Nat.add_comm check, ← Nat.add_assoc]
    rfl

end Host

namespace Machine

variable {σ : Type} {host : Host σ} {flag : σ} {m m' last : Machine} {is : List Instruction}

/-! ## Lock-step -/

/-- As long as the flag is down, a run does what a bounded one does. -/
theorem runWhile_of_quiet {k : Nat} (quiet : ∀ i < k, host.sees flag m i = false) (fuel : Nat)
    (j : Journal) :
    runWhile host (k + fuel) flag m j =
      match runFor k m j with
      | (none, m', j') => runWhile host fuel (host.stateAt flag m k) m' j'
      | (some f, m', j') => some (some f, m', j') := by
  -- The machine and the flag change with every step, so both are general.
  induction k generalizing flag m j with
  | zero => rw [Nat.zero_add, runFor, Host.stateAt]
  | succ k ih =>
    have hdown : host.raised flag = false := quiet 0 (Nat.succ_pos k)
    rw [Nat.succ_add, runWhile, runFor, hdown, if_neg Bool.false_ne_true]
    -- Both take the same step now, and the host sees what it reports.
    cases hres : m.step.result with
    | error f => simp only [hres]
    | ok i =>
      simp only [hres]
      exact ih (fun i hi => quiet (i + 1) (Nat.succ_lt_succ hi)) _

/-- Fewer steps than can be taken can be taken too. -/
theorem runFor_of_steps_of_le (h : Steps m is m') {n : Nat} (hle : n ≤ is.length) (j : Journal) :
    ∃ m'' j'', runFor n m j = (none, m'', j'') := by
  obtain ⟨j', hrun⟩ := runFor_of_steps h j
  rw [← Nat.add_sub_cancel' hle, runFor_add] at hrun
  split at hrun
  · next m'' j'' hn => exact ⟨m'', j'', hn⟩
  · exact nomatch hrun

/-- With no more checks than there are steps that can be taken, a run does not end under a flag
that is down. -/
theorem runWhile_eq_none (h : Steps m is m') {fuel : Nat} (hle : fuel ≤ is.length)
    (quiet : ∀ i < fuel, host.sees flag m i = false) (j : Journal) :
    runWhile host fuel flag m j = none := by
  obtain ⟨m'', j'', hrun⟩ := runFor_of_steps_of_le h hle j
  have hlock := runWhile_of_quiet quiet 0 j
  rw [hrun] at hlock
  exact hlock

/-- A run ends at the first check that finds the flag up. -/
theorem runWhile_of_raised (h : Steps m is m') {j j' : Journal}
    (hrun : runFor is.length m j = (none, m', j'))
    (quiet : ∀ i < is.length, host.sees flag m i = false)
    (up : host.sees flag m is.length = true) (fuel : Nat) :
    runWhile host fuel flag m j = if is.length < fuel then some (none, m', j') else none := by
  split
  · -- One check more than there are steps is what it takes to see the flag.
    next hlt =>
    obtain ⟨extra, rfl⟩ := Nat.exists_eq_add_of_lt hlt
    have hup : host.raised (host.stateAt flag m is.length) = true := up
    rw [Nat.add_assoc, runWhile_of_quiet quiet, hrun]
    simp only [runWhile, hup, if_true]
  · next hge =>
    have hle := Nat.le_of_not_lt hge
    exact runWhile_eq_none h hle (fun i hi => quiet i (Nat.lt_of_lt_of_le hi hle)) j

/-- A run ends with the first fault, and has looked at the flag for the last time before it. -/
theorem runWhile_of_fault {f : Fault} (h : Steps m is last) {j j' : Journal}
    (hrun : runFor (is.length + 1) m j = (some f, last.step.machine, j'))
    (quiet : ∀ i ≤ is.length, host.sees flag m i = false) (fuel : Nat) :
    runWhile host fuel flag m j =
      if is.length < fuel then some (some f, last.step.machine, j') else none := by
  split
  · -- There is a check in front of the faulty step as well.
    next hlt =>
    obtain ⟨extra, rfl⟩ := Nat.exists_eq_add_of_lt hlt
    rw [Nat.add_right_comm, runWhile_of_quiet (fun i hi => quiet i (Nat.le_of_lt_succ hi)), hrun]
  · next hge =>
    have hle := Nat.le_of_not_lt hge
    exact runWhile_eq_none h hle
      (fun i hi => quiet i (Nat.le_trans (Nat.le_of_lt hi) hle)) j

/-! ## Runs and bounded runs -/

/-- A run under a host, next to a bounded run. Should the flag be up at a check for the first time,
and all steps in front of the check succeed, then the run ends there with the number of steps, and
leaves the machine that the bounded run of as many steps leaves; with the flag up beforehand this
is the machine as it was. Should a step fault first, then the run ends as every bounded run does
that may take this step, whatever the flag does later. The fuel is the number of checks that the run
may make: it makes one in front of every step, and one more that finds the flag up. -/
theorem run_agrees_with_runLimited {σ : Type} (host : Host σ) (flag : σ) (m : Machine)
    (journal : Journal) (k : UInt64) (room : m.cycles.toNat + k.toNat < UInt64.size) :
    let r := m.runLimited k journal
    (∀ is m', Steps m is m' → is.length = k.toNat →
      (∀ i < k.toNat, host.sees flag m i = false) → host.sees flag m k.toNat = true →
        r.result = .ok k ∧ r.machine = m' ∧
        ∀ fuel, m.run host fuel flag journal =
          if k.toNat < fuel then some { r with journal := r.journal.add [.stopRequested k.toNat] }
          else none) ∧
    (host.raised flag = true → ∀ fuel, m.run host (fuel + 1) flag journal =
      some ⟨.ok 0, m, journal.add [.stopRequested 0]⟩) ∧
    ∀ is last f, Steps m is last → is.length < k.toNat → last.step.result = .error f →
      (∀ i ≤ is.length, host.sees flag m i = false) →
        r.result = .error f ∧ r.machine = last.step.machine ∧
        ∀ fuel, m.run host fuel flag journal = if is.length < fuel then some r else none := by
  have hbudget := budget_of_room room
  intro r
  refine ⟨?_, ?_, ?_⟩
  · -- The flag is seen in front of step number `k`, where the bounded run has used up its limit.
    intro is m' hsteps hlen quiet up
    obtain ⟨j', hrun, hr⟩ := runLimited_of_budget hsteps (hlen.trans hbudget.symm) journal
    rw [hbudget, UInt64.ofNat_toNat] at hr
    rw [hbudget, ← hlen] at hrun
    rw [← hlen] at quiet up
    have hcount : m'.cycles - m.cycles = k := by
      rw [cycles_sub_of_steps hsteps, hlen, UInt64.ofNat_toNat]
    rw [show r = _ from hr]
    refine ⟨rfl, rfl, fun fuel => ?_⟩
    rw [run, runWhile_of_raised hsteps hrun quiet up, hlen]
    by_cases hlt : k.toNat < fuel
    · simp only [if_pos hlt, hcount]
    · simp only [if_neg hlt]
  · intro up fuel
    simp only [run, runWhile, up, if_true, UInt64.sub_self]
    rfl
  · -- Both runs come to the same fault, the one under the host without another look at the flag.
    intro is last f hsteps hlt hf quiet
    obtain ⟨j', hrun, hr⟩ := runLimited_of_fault hsteps hf journal
    rw [show r = _ from hr k (hbudget.symm ▸ hlt)]
    refine ⟨rfl, rfl, fun fuel => ?_⟩
    rw [run, runWhile_of_fault hsteps (hrun _ (Nat.lt_succ_self _)) quiet]
    by_cases hlt : is.length < fuel
    · simp only [if_pos hlt]
    · simp only [if_neg hlt]

/-- A machine that shows a nibble on its display and has no instruction behind that. -/
def showFive : Machine where
  registers := { addr := 0x100 }
  space := (Space.empty.register (.ofDevice 0 (.rom ⟨#[0x15, 0x37]⟩))).register
    (.ofDevice 0x100 .freshDisplay)

/-- The machine under a host that waits for a nibble on the display, and under one that raises the
flag while the third step faults. -/
theorem run_agrees_with_runLimited_of_showFive :
    let journal := Journal.empty (some .info)
    showFive.cycles.toNat + (10 : UInt64).toNat < UInt64.size ∧
      (∃ r, showFive.run (.afterWrites 1) 3 0 journal = some r ∧ r.result = .ok 2 ∧
        Steps showFive [.ldi 5, .str] r.machine) ∧
      showFive.run (.afterWrites 1) 2 0 journal = none ∧
      showFive.run (.ofSequence fun check => 2 < check) 3 0 journal =
        some (showFive.runLimited 10 journal) ∧
      (showFive.runLimited 10 journal).result = .error (.illegalInstruction 7 3) := by
  intro journal
  -- Both instructions are executed before the nibble 7 is found.
  have hsteps : Steps showFive [.ldi 5, .str] showFive.step.machine.step.machine :=
    .cons (by rfl) (.cons (by rfl) (.nil _))
  obtain ⟨hstop, -, -⟩ :=
    run_agrees_with_runLimited (.afterWrites 1) 0 showFive journal 2 (by decide)
  obtain ⟨hresult, hmachine, hrun⟩ :=
    hstop _ _ hsteps rfl (by decide +kernel) (by decide +kernel)
  obtain ⟨-, -, hfault⟩ :=
    run_agrees_with_runLimited (.ofSequence fun check => 2 < check) 0 showFive journal 10
      (by decide)
  obtain ⟨herror, -, hend⟩ :=
    hfault _ _ (.illegalInstruction 7 3) hsteps (by decide) (by with_unfolding_all rfl)
      fun i hi => by
        rw [Host.sees_ofSequence, Nat.zero_add]
        exact decide_eq_false (Nat.not_lt_of_le hi)
  exact ⟨by decide, ⟨_, hrun 3, hresult, hmachine ▸ hsteps⟩, hrun 2, hend 3, herror⟩

end Machine

end NandMachine
