import NandMachine.Event
import NandMachine.Layout.Json

/-!
# Files

The files that a command can read, as a tree of directories. A path is followed part by part from
the working directory; nothing is known of what lies outside of it. The bytes of a file are an
image, whatever they are; a layout is read from JSON text, which may stand in a file.
-/

namespace NandMachine

/-- Why a file cannot be read. -/
inductive FileError
  | notFound
  /-- A file stands where the path goes on. -/
  | notADirectory
  | isADirectory
  | nameTooLong
  /-- The path has a character that no path may have. -/
  | nulInPath
  /-- The contents are no text. -/
  | notUnicode
  /-- Some other reason that the system gave. -/
  | other (message : String)
deriving DecidableEq

/-- The reason in the words of the system. -/
def FileError.message : FileError → String
  | notFound => "No such file or directory (os error 2)"
  | notADirectory => "Not a directory (os error 20)"
  | isADirectory => "Is a directory (os error 21)"
  | nameTooLong => "File name too long (os error 36)"
  | nulInPath => "file name contained an unexpected NUL byte"
  | notUnicode => "stream did not contain valid UTF-8"
  | other message => message

/-- Where files come from: the bytes behind a path. -/
abbrev FileReader := String → Except FileError ByteArray

/-- A file or a directory, with all that is in it. -/
inductive FileTree
  | file (bytes : ByteArray)
  | directory (entries : List (String × FileTree))

namespace FileTree

/-- A directory of which nothing is known. -/
def unknown : FileTree := directory []

/-- What a path leads to. `parents` are the directories around the tree, the innermost first. -/
def follow (parents : List FileTree) (t : FileTree) : List String → Except FileError FileTree
  | [] => .ok t
  | name :: names =>
    match t with
    -- Whatever follows, even an empty part, wants a directory here.
    | file _ => .error .notADirectory
    | directory entries =>
      if name = "" ∨ name = "." then follow parents t names
      else if name = ".." then
        match parents with
        -- The directory around the working directory is not known.
        | [] => follow [] unknown names
        | p :: ps => follow ps p names
      else if 255 < name.utf8ByteSize then .error .nameTooLong
      else match entries.lookup name with
        | none => .error .notFound
        | some t' => follow (t :: parents) t' names

/-- The bytes behind a path. A path from the root leads nowhere that is known. -/
def read (t : FileTree) : FileReader := fun path =>
  -- The system looks at the path as a whole before it follows any part of it.
  if path.contains '\x00' then .error .nulInPath
  else if path = "" then .error .notFound
  else if 4096 ≤ path.utf8ByteSize then .error .nameTooLong
  else
    let start := if path.startsWith "/" then unknown else t
    match follow [] start (path.splitOn "/") with
    | .error e => .error e
    | .ok (directory _) => .error .isADirectory
    | .ok (file bytes) => .ok bytes

end FileTree

/-- The text of a file, if its bytes are one. -/
def textOfBytes (bytes : ByteArray) : Except FileError String :=
  match String.fromUTF8? bytes with
  | some text => .ok text
  | none => .error .notUnicode

/-! ### What is read from files -/

/-- The file of an image cannot be read. -/
structure RomError where
  path : String
  cause : FileError
deriving DecidableEq

/-- The report of a command that cannot read its image. -/
def RomError.message (e : RomError) : String :=
  "cannot read ROM image " ++ e.path ++ ": " ++ e.cause.message

/-- The image in a file, and the report of it. -/
def Rom.load (files : FileReader) (path : String) : Except RomError Rom × List Event :=
  match files path with
  | .error e => (.error ⟨path, e⟩, [])
  | .ok bytes => (.ok ⟨bytes.data⟩, [.imageLoaded bytes.size path])

/-- Why there is no layout, or no space with it. -/
inductive LayoutError
  | unreadable (path : String) (cause : FileError)
  | malformed (cause : Json.ReadError)
  /-- The layout does not fit into the address space. -/
  | misfit (cause : MappingError)
deriving DecidableEq

/-- The report of a command that has no layout. -/
def LayoutError.message : LayoutError → String
  | unreadable path cause => "cannot read config " ++ path ++ ": " ++ cause.message
  | malformed cause => "invalid config: " ++ cause.message
  | misfit cause => "invalid layout: " ++ cause.message

namespace Layout

/-- The layout that a text stands for. -/
def parse (text : String) : Except LayoutError Layout :=
  (codec.parse text).mapError .malformed

/-- The layout in a file. -/
def load (files : FileReader) (path : String) : Except LayoutError Layout :=
  match files path >>= textOfBytes with
  | .error e => .error (.unreadable path e)
  | .ok text => parse text

end Layout

end NandMachine
