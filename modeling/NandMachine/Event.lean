import NandMachine.Instruction
import NandMachine.Memory.Device

/-!
# Events

What the machine and its memory report is data: an event has a level, a message and perhaps named
values. A journal keeps the events of its level and the levels above.
-/

namespace NandMachine

/-- How important an event is. -/
inductive Level
  | error
  | warn
  | info
  | debug
  | trace
deriving DecidableEq, Inhabited

namespace Level

/-- The place of a level, the most important one first. -/
def rank : Level → Nat
  | error => 0
  | warn => 1
  | info => 2
  | debug => 3
  | trace => 4

/-- The levels, the most important one first. -/
def all : List Level := [error, warn, info, debug, trace]

/-- The name of a level in a log line. -/
def name : Level → String
  | error => "ERROR"
  | warn => "WARN"
  | info => "INFO"
  | debug => "DEBUG"
  | trace => "TRACE"

end Level

/-- What the machine, its memory and the command report. -/
inductive Event
  /-- A device answers from an address on, up to another one that is not included. -/
  | mapped (kind : DeviceKind) (base stop : Nat)
  | readUnmapped (a : Address)
  | writeUnmapped (n : Nibble) (a : Address)
  /-- A nibble was written to a display. -/
  | displayWrite (n : Nibble)
  /-- A write to an image was refused. -/
  | romWrite (offset : Nat)
  | writePastEnd (n : Nibble) (kind : DeviceKind) (a : Address)
  | illegalInstruction (opcode : Nibble) (a : Address)
  /-- An instruction is about to be executed; its operands have been fetched. -/
  | executing (i : Instruction) (a : Address) (registers : Registers)
  /-- A run ended because the host wanted it to. -/
  | stopRequested (cycles : Nat)
  | imageLoaded (bytes : Nat) (path : String)
  | imageSize (path : String) (nibbles : Nat)
  | limitReached (cycles : Nat)
  | stopped (cycles : Nat)
deriving DecidableEq

namespace Event

/-- The level of an event. -/
def level : Event → Level
  | illegalInstruction _ _ => .error
  | romWrite _ => .warn
  | displayWrite _ | limitReached _ | stopped _ => .info
  | executing _ _ _ => .trace
  | mapped _ _ _ | readUnmapped _ | writeUnmapped _ _ | writePastEnd _ _ _ | stopRequested _
  | imageLoaded _ _ | imageSize _ _ => .debug

/-- The message of an event, without its named values. -/
def message : Event → String
  | mapped kind base stop =>
    "mapped " ++ kind.name ++ " at " ++ HexStyle.address.write base ++ ".."
      ++ HexStyle.address.write stop
  | readUnmapped a => "read from unmapped address " ++ a.digits
  | writeUnmapped n a =>
    "write of " ++ n.digit ++ " to unmapped address " ++ a.digits ++ " ignored"
  | displayWrite n => "wrote " ++ n.digit ++ " to DBGOUT"
  | romWrite offset => "attempt to write to ROM at offset " ++ HexStyle.lower.write offset
  | writePastEnd n kind a =>
    "write of " ++ n.digit ++ " past end of " ++ kind.name ++ " at " ++ a.digits ++ " ignored"
  | illegalInstruction opcode a => "illegal instruction " ++ opcode.digit ++ " at " ++ a.digits
  | executing i _ _ => i.text
  | stopRequested cycles => "stop requested after " ++ toString cycles ++ " cycles"
  | imageLoaded bytes path => "loaded " ++ toString bytes ++ " bytes from " ++ path
  | imageSize path nibbles => path ++ ": " ++ toString nibbles ++ " nibbles"
  | limitReached cycles => "reached cycle limit after " ++ toString cycles ++ " instructions"
  | stopped cycles => "stopped after " ++ toString cycles ++ " instructions"

/-- The named values of an event. -/
def values : Event → List (String × String)
  | executing _ a registers => [("iar", a.digits), ("regs", registers.text)]
  | _ => []

/-- The message with the named values behind it. -/
def text (e : Event) : String :=
  e.message ++ String.join (e.values.map fun v => " " ++ v.1 ++ "=" ++ v.2)

end Event

/-- Events in the order in which they were reported. -/
structure Journal where
  /-- The least important level that is kept; none keeps nothing. -/
  threshold : Option Level
  events : Array Event := #[]

namespace Journal

/-- A journal without events. -/
def empty (threshold : Option Level) : Journal := { threshold }

/-- The journal keeps events of a level. -/
def keeps (j : Journal) (l : Level) : Bool :=
  match j.threshold with
  | none => false
  | some least => l.rank ≤ least.rank

/-- Puts events behind those of the journal. -/
def add (j : Journal) (events : List Event) : Journal :=
  -- The threshold stays the same, so it may be asked for each event anew.
  events.foldl (fun j e => if j.keeps e.level then { j with events := j.events.push e } else j) j

@[simp] theorem add_nil (j : Journal) : j.add [] = j := rfl

/-- Events are put into a journal one by one. -/
theorem add_cons (j : Journal) (e : Event) (es : List Event) :
    j.add (e :: es) =
      (if j.keeps e.level then { j with events := j.events.push e } else j).add es :=
  rfl

/-- Events that come in two parts are put into a journal one part after the other. -/
theorem add_append (j : Journal) (es fs : List Event) : j.add (es ++ fs) = (j.add es).add fs :=
  List.foldl_append

/-- A journal keeps events of the same levels, whatever is put into it. -/
@[simp] theorem threshold_add (j : Journal) (es : List Event) :
    (j.add es).threshold = j.threshold := by
  induction es generalizing j with
  | nil => rfl
  | cons e es ih =>
    rw [add_cons, ih]
    split <;> rfl

/-- A journal holds, behind what it held before, those of the events that it keeps. -/
theorem toList_events_add (j : Journal) (es : List Event) :
    (j.add es).events.toList = j.events.toList ++ es.filter fun e => j.keeps e.level := by
  induction es generalizing j with
  | nil => simp
  | cons e es ih =>
    -- The event in front changes what is held, and not what is kept.
    have same : ∀ l, ({ j with events := j.events.push e } : Journal).keeps l = j.keeps l :=
      fun _ => rfl
    rw [add_cons, ih]
    by_cases h : j.keeps e.level <;> simp [h, same]

end Journal

end NandMachine
