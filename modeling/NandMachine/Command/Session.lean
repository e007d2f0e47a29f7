import NandMachine.Command.Options
import NandMachine.Files
import NandMachine.Machine.Json
import NandMachine.Machine.Run
import NandMachine.Text.Terminal

/-!
# Sessions

A session reads the layout, reads the image, builds the machine and runs it, in this order; the
first of these that fails ends it. What a session does is a function of the files and the options:
its exit status, what it writes to standard output, and its reports on standard error. Events are
reported as lines of a log, which may be meant for a terminal; the message of a failure is reported
as it is.
-/

namespace NandMachine.Command

/-- Why a machine cannot be started. -/
inductive StartError
  | layout (cause : LayoutError)
  | rom (cause : RomError)
deriving DecidableEq

/-- The report of a command that ends before its machine can run. -/
def StartError.message : StartError → String
  | layout cause => cause.message
  | rom cause => cause.message

/-- The machine that the options ask for, and what is reported until it can run. -/
def boot (files : FileReader) (o : Options) : Except StartError Machine × List Event :=
  let layout := match o.config with
    | some path => Layout.load files path
    | none => .ok {}
  -- The image is not even looked for unless there is a layout.
  match layout with
  | .error e => (.error (.layout e), [])
  | .ok layout =>
    match Rom.load files o.rom with
    | (.error e, loading) => (.error (.rom e), loading)
    | (.ok image, loading) =>
      let loading := loading ++ [.imageSize o.rom image.size]
      match layout.build image with
      | (.error e, building) => (.error (.layout (.misfit e)), loading ++ building)
      | (.ok space, building) => (.ok (.start space), loading ++ building)

/-- What a session leaves behind. -/
structure Outcome where
  exit : UInt8
  stdout : String
  /-- The reports on standard error, each of which is followed by a line feed. -/
  stderr : List String
deriving DecidableEq

/-- The lines on standard error; a report with line feeds in it takes up several. -/
def Outcome.lines (o : Outcome) : List String := o.stderr.flatMap Text.lines

/-- The report of an event; its level takes up five places. -/
def eventLine (e : Event) : String :=
  let name := e.level.name
  String.ofList (List.replicate (5 - name.length) ' ') ++ name ++ " " ++ Text.forTerminal e.text

/-- The lines of all events in a journal. -/
def journalLines (j : Journal) : List String := j.events.toList.map eventLine

/-- The last report of a session whose run has ended without a fault. -/
def ending (o : Options) (cycles : UInt64) : Event :=
  match o.maxCycles with
  | some _ => .limitReached cycles.toNat
  | none => .stopped cycles.toNat

/-- What a session writes to standard output in the end. -/
def finalOutput (o : Options) (m : Machine) : String :=
  if o.dumpState then m.dump.pretty ++ "\n" else ""

/-- What a run of a machine leaves behind. -/
def conclude (o : Options) (r : Run) : Outcome :=
  match r.result with
  | .ok cycles => ⟨0, finalOutput o r.machine, journalLines (r.journal.add [ending o cycles])⟩
  | .error f =>
    ⟨1, finalOutput o r.machine, journalLines r.journal ++ ["emulation aborted: " ++ f.message]⟩

/-- The run that the options ask for; nothing if `fuel` steps are not enough without a limit. -/
def runMachine (o : Options) (fuel : Nat) (m : Machine) (j : Journal) : Option Run :=
  match o.maxCycles with
  | some limit => some (m.runLimited limit j)
  | none => m.run Host.never fuel () j

/-- A whole session; nothing if `fuel` steps are not enough without a limit. -/
def session (files : FileReader) (least : Option Level) (fuel : Nat) (o : Options) :
    Option Outcome :=
  -- The reports in front of the run and those of the run are kept in the same journal.
  match boot files o with
  | (.error e, events) =>
    some ⟨1, "", journalLines ((Journal.empty least).add events) ++ [e.message]⟩
  | (.ok m, events) =>
    (runMachine o fuel m ((Journal.empty least).add events)).map (conclude o)

/-! ### Sessions as they are written

A run can be long, or go on for ever, so its reports are not kept until it ends. It is taken in
stretches, and what a stretch reports is written before the next one starts.
-/

/-- The most steps in one stretch. -/
def stride : Nat := 4096

/-- A run that is under way. -/
structure Progress where
  /-- The machine as the run has found it. -/
  first : Machine
  now : Machine
  /-- The number of steps that are left, if there is a limit. -/
  left : Option Nat

namespace Progress

/-- The run that the options ask for, in front of its first step. -/
def start (o : Options) (m : Machine) : Progress := ⟨m, m, o.maxCycles.map m.budget⟩

/-- The number of steps in the next stretch. -/
def steps (p : Progress) : Nat := p.left.elim stride (min · stride)

/-- The run that has come to an end, without what it has reported. -/
def ended (p : Progress) (least : Option Level) (fault : Option Fault) (m : Machine) : Run where
  result := match fault with
    | some f => .error f
    | none => .ok (m.cycles - p.first.cycles)
  machine := m
  journal := .empty least

/-- The run behind a stretch that has led to a machine. -/
def behind (p : Progress) (m : Machine) : Progress :=
  { p with now := m, left := p.left.map (· - p.steps) }

/-- One stretch: the lines that it reports, and the run that has come to an end or goes on. -/
def advance (p : Progress) (least : Option Level) : List String × (Run ⊕ Progress) :=
  let (fault, m, j) := p.now.runFor p.steps (.empty least)
  (journalLines j,
    if fault.isSome || p.left = some p.steps then .inl (p.ended least fault m)
    else .inr (p.behind m))

/-- One stretch after the other; nothing if `n` of them are not enough. -/
def finish (least : Option Level) : Nat → Progress → Option (List String × Run)
  -- A run that goes on for ever has no outcome, so the number of stretches is bounded.
  | 0, _ => none
  | n + 1, p =>
    match p.advance least with
    | (lines, .inl r) => some (lines, r)
    | (lines, .inr p') => (finish least n p').map fun (more, r) => (lines ++ more, r)

end Progress

/-- What is reported in front of a run, and the run if there is one. -/
def opening (files : FileReader) (least : Option Level) (o : Options) :
    List String × Option Progress :=
  match boot files o with
  | (.error e, events) =>
    (journalLines ((Journal.empty least).add events) ++ [e.message], none)
  | (.ok m, events) => (journalLines ((Journal.empty least).add events), some (.start o m))

/-- A whole session as it is written; nothing if `n` stretches are not enough. -/
def streamed (files : FileReader) (least : Option Level) (n : Nat) (o : Options) :
    Option Outcome :=
  match opening files least o with
  | (lines, none) => some ⟨1, "", lines⟩
  | (lines, some p) => (p.finish least n).map fun (more, r) =>
    let outcome := conclude o r
    { outcome with stderr := lines ++ more ++ outcome.stderr }

end NandMachine.Command
