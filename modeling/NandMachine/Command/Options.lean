import NandMachine.Event

/-!
# Options of the command line

The command takes the path of an image and a few options. The arguments are read one by one; the
first that asks for help or for the version decides, unless an earlier one is wrong.
-/

namespace NandMachine.Command

/-- What the command says about its version. -/
def versionText : String := "nibble-emu 0.1.0\n"

/-- How the command is called. -/
def usageText : String := "Usage: nibble-emu [OPTIONS] <ROM>\n"

/-- What the command says about itself. -/
def helpText : String :=
  "Run a ROM image on the 4-bit NAND machine\n\n" ++ usageText ++ "\n"
    ++ "Arguments:\n"
    ++ "  <ROM>                     Path to the raw ROM image\n\n"
    ++ "Options:\n"
    ++ "  -c, --config <CONFIG>     JSON file describing the address-space layout\n"
    ++ "  -m, --max-cycles <COUNT>  Stop after this many instructions\n"
    ++ "      --dump-state          Print the final machine state as JSON on stdout\n"
    ++ "  -v, --verbose             Report more: once for debug, twice for each instruction\n"
    ++ "  -h, --help                Print help\n"
    ++ "  -V, --version             Print version\n"

/-- What the command is asked to run. -/
structure Options where
  rom : String
  config : Option String := none
  /-- The number of instructions to stop after; otherwise the machine runs until a fault. -/
  maxCycles : Option UInt64 := none
  /-- Write the final state. -/
  dumpState : Bool := false
  /-- How often more events were asked for. -/
  verbosity : Nat := 0
deriving DecidableEq

/-- What the arguments ask for. -/
inductive Request
  | run (options : Options)
  | help
  | version
  /-- The arguments make no sense. -/
  | refused
deriving DecidableEq

/-- The options that have a value. -/
inductive Valued
  | config
  | maxCycles
deriving DecidableEq

/-- What the arguments read so far say. -/
structure Draft where
  rom : Option String := none
  config : Option String := none
  maxCycles : Option UInt64 := none
  dumpState : Bool := false
  verbosity : Nat := 0
  /-- The option whose value is the next argument. -/
  waiting : Option Valued := none
  /-- All arguments that follow are paths. -/
  literal : Bool := false
deriving DecidableEq

/-- Reading goes on, or the request is known. -/
abbrev Reading := Except Request Draft

/-- A number of sixty-four bits: decimal digits, perhaps behind a plus sign. -/
def parseCount (s : String) : Option UInt64 :=
  let digits := match s.toList with
    | '+' :: cs => cs
    | cs => cs
  if digits.isEmpty || !digits.all Char.isDigit then none
  else
    let n := Nat.ofDigitChars 10 digits 0
    if n < UInt64.size then some (UInt64.ofNat n) else none

namespace Draft

/-- The value of an option; an option may be given once. -/
def setValue (d : Draft) (option : Valued) (value : String) : Reading :=
  let d := { d with waiting := none }
  match option with
  | .config =>
    match d.config with
    | some _ => .error .refused
    | none => .ok { d with config := some value }
  | .maxCycles =>
    match d.maxCycles, parseCount value with
    | none, some n => .ok { d with maxCycles := some n }
    | _, _ => .error .refused

/-- An option whose value is the next argument. -/
def awaitValue (d : Draft) (option : Valued) : Reading :=
  .ok { d with waiting := some option }

/-- A path, of which there may be one. -/
def addPath (d : Draft) (path : String) : Reading :=
  match d.rom with
  | some _ => .error .refused
  | none => .ok { d with rom := some path }

/-- Letters behind a single dash. The rest of the letters behind an option with a value is that
value, perhaps behind an equals sign. -/
def addLetters (d : Draft) : List Char → Reading
  | [] => .ok d
  | 'v' :: cs => addLetters { d with verbosity := d.verbosity + 1 } cs
  -- Help and version are given at once, so what follows has no say.
  | 'h' :: _ => .error .help
  | 'V' :: _ => .error .version
  | 'c' :: cs => valueLetters d .config cs
  | 'm' :: cs => valueLetters d .maxCycles cs
  | _ :: _ => .error .refused
where
  /-- The letters behind an option with a value. -/
  valueLetters (d : Draft) (option : Valued) : List Char → Reading
    | [] => d.awaitValue option
    | '=' :: cs => d.setValue option (String.ofList cs)
    | cs => d.setValue option (String.ofList cs)

/-- A name behind two dashes, with a value if there is an equals sign. -/
def addName (d : Draft) (name : String) (value : Option String) : Reading :=
  match name, value with
  | "config", some v => d.setValue .config v
  | "config", none => d.awaitValue .config
  | "max-cycles", some v => d.setValue .maxCycles v
  | "max-cycles", none => d.awaitValue .maxCycles
  | "verbose", none => .ok { d with verbosity := d.verbosity + 1 }
  | "dump-state", none => if d.dumpState then .error .refused else .ok { d with dumpState := true }
  | "help", none => .error .help
  | "version", none => .error .version
  | _, _ => .error .refused

/-- The name and the value of an argument behind two dashes. -/
def splitName (cs : List Char) : String × Option String :=
  match cs.dropWhile (· != '=') with
  | [] => (String.ofList cs, none)
  | _ :: value => (String.ofList (cs.takeWhile (· != '=')), some (String.ofList value))

/-- One more argument. An option cannot be the value of another one. -/
def add (d : Draft) (arg : String) : Reading :=
  if d.literal then d.addPath arg
  else match arg.toList, d.waiting with
    -- A lone dash is no option, so it can be a value or a path.
    | '-' :: _ :: _, some _ => .error .refused
    | ['-', '-'], none => .ok { d with literal := true }
    | '-' :: '-' :: cs, none =>
      let (name, value) := splitName cs
      d.addName name value
    | '-' :: c :: cs, none => d.addLetters (c :: cs)
    | _, some option => d.setValue option arg
    | _, none => d.addPath arg

/-- What the arguments ask for once all are read. -/
def finish (d : Draft) : Request :=
  match d.rom, d.waiting with
  | some rom, none =>
    .run { rom, config := d.config, maxCycles := d.maxCycles, dumpState := d.dumpState,
           verbosity := d.verbosity }
  -- There is no path, or the last option has no value.
  | _, _ => .refused

end Draft

/-- What the arguments ask for. -/
def Request.ofArguments (args : List String) : Request :=
  match args.foldlM Draft.add {} with
  | .ok d => d.finish
  | .error r => r

/-- The least important level to report: one that is asked for by name, or else one that goes with
the verbosity. A name may be written in either case; `off` keeps nothing. -/
def threshold (named : Option String) (verbosity : Nat) : Option Level :=
  let byVerbosity := match verbosity with
    | 0 => Level.info
    | 1 => .debug
    | _ => .trace
  match named with
  | none => some byVerbosity
  | some name =>
    let name := String.ofList (name.toList.map Char.toUpper)
    if name = "OFF" then none
    else some ((Level.all.find? fun l => l.name == name).getD byVerbosity)

end NandMachine.Command
