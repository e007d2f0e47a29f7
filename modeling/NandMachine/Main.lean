import NandMachine.Command.Session

/-!
# The command

The command reads its arguments, the files that they name and the environment, and writes a session
stretch by stretch. Everything but the reading and writing is a function: `streamed` puts the same
stretches together, and leaves the same outcome as the session.
-/

namespace NandMachine.Command

/-- Why the system could not read a file. -/
def causeOf : IO.Error → FileError
  | .noFileOrDirectory .. | .noSuchThing .. => .notFound
  | .inappropriateType _ code _ =>
    if code = 21 then .isADirectory else .notADirectory
  | e => .other (toString e)

/-- The bytes of one file. -/
def readFile (path : String) : IO (Except FileError ByteArray) := do
  try
    return .ok (← IO.FS.readBinFile path)
  catch e =>
    return .error (causeOf e)

/-- The files that the options name. -/
def readFiles (o : Options) : IO FileReader := do
  let found ← (o.config.toList ++ [o.rom]).mapM fun path => return (path, ← readFile path)
  return fun path => (found.lookup path).getD (.error .notFound)

/-- Writes lines to standard error. -/
def report (lines : List String) : IO Unit :=
  lines.forM fun line => IO.eprintln line

/-- Takes one stretch of a run after the other, and writes what each of them reports. -/
partial def drive (least : Option Level) (p : Progress) : IO Run := do
  let (lines, next) := p.advance least
  report lines
  match next with
  | .inl r => return r
  | .inr p => drive least p

/-- A session with the files of the system. -/
def runSession (o : Options) : IO UInt32 := do
  let files ← readFiles o
  let least := threshold (← IO.getEnv "RUST_LOG") o.verbosity
  let (lines, start) := opening files least o
  report lines
  match start with
  | none => return 1
  | some p =>
    let outcome := conclude o (← drive least p)
    report outcome.stderr
    IO.print outcome.stdout
    return outcome.exit.toUInt32

end NandMachine.Command

open NandMachine.Command in
/-- The command line. -/
def main (args : List String) : IO UInt32 := do
  match Request.ofArguments args with
  | .run o => runSession o
  | .help =>
    IO.print helpText
    return 0
  | .version =>
    IO.print versionText
    return 0
  | .refused =>
    IO.eprint usageText
    return 1
