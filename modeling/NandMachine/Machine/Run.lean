import NandMachine.Machine

/-!
# Runs

A run takes steps until one faults. It can also end because a number of steps has been taken, or
because the host has raised a flag, which is looked at before every step. What the host does with
the flag may depend on everything that the steps report.
-/

namespace NandMachine

/-- The count of cycles that has no room for another one. -/
def maxCycles : Nat := UInt64.size - 1

/-- What comes of a run of the machine. -/
structure Run where
  /-- The number of instructions that were executed, or the fault that ended the run. -/
  result : Except Fault UInt64
  machine : Machine
  journal : Journal

/-- The host's side of a run: a flag, and how it changes with what a step reports. -/
structure Host (σ : Type) where
  raised : σ → Bool
  observe : σ → List Event → σ

namespace Host

/-- A host that never raises the flag. -/
def never : Host Unit := ⟨fun _ => false, fun _ _ => ()⟩

/-- A host that raises the flag once a number of nibbles has been written to displays; its state is
the count of those that it has seen. With a number of zero it never does. -/
def afterWrites (writes : Nat) : Host Nat where
  raised seen := 0 < writes && writes ≤ seen
  observe seen events := seen + events.countP fun e => e matches .displayWrite _

end Host

namespace Machine

/-- Steps up to a number of times, and ends at the first fault. -/
def runFor : Nat → Machine → Journal → Option Fault × Machine × Journal
  | 0, m, j => (none, m, j)
  | n + 1, m, j =>
    let s := m.step
    -- A step that faults reports too.
    let j := j.add s.events
    match s.result with
    | .error f => (some f, s.machine, j)
    | .ok _ => runFor n s.machine j

/-- The number of steps that a run may take: as many as are asked for, but no more than the count
of cycles has room for. -/
def budget (m : Machine) (limit : UInt64) : Nat := min limit.toNat (maxCycles - m.cycles.toNat)

/-- Runs up to a number of steps. -/
def runLimited (m : Machine) (limit : UInt64) (j : Journal) : Run :=
  match runFor (m.budget limit) m j with
  | (some f, m', j) => ⟨.error f, m', j⟩
  | (none, m', j) => ⟨.ok (m'.cycles - m.cycles), m', j⟩

/-- Steps until a fault or until the flag is up; nothing if `fuel` steps are not enough. -/
def runWhile {σ : Type} (host : Host σ) :
    Nat → σ → Machine → Journal → Option (Option Fault × Machine × Journal)
  | 0, _, _, _ => none
  | fuel + 1, flag, m, j =>
    -- The flag comes first: a run under a raised flag does not even fault.
    if host.raised flag then some (none, m, j)
    else
      let s := m.step
      let j := j.add s.events
      match s.result with
      | .error f => some (some f, s.machine, j)
      | .ok _ => runWhile host fuel (host.observe flag s.events) s.machine j

/-- Runs until a fault or until the flag is up; nothing if `fuel` steps are not enough. -/
def run {σ : Type} (host : Host σ) (fuel : Nat) (flag : σ) (m : Machine) (j : Journal) :
    Option Run :=
  match runWhile host fuel flag m j with
  | none => none
  | some (some f, m', j) => some ⟨.error f, m', j⟩
  | some (none, m', j) =>
    let count := m'.cycles - m.cycles
    some ⟨.ok count, m', j.add [.stopRequested count.toNat]⟩

end Machine

end NandMachine
