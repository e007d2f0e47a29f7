import NandMachine.Json.Document
import NandMachine.Text.Quoted
import NandMachine.Text.Value

/-!
# Reading values of a type

A reader takes a JSON value apart and says what is wrong with it first, in the order of the text.
Records are described by their fields, `Schema`, and may be written as objects or as arrays of
their fields; choices are described by their names, and may be written as a name or as an object
with that name as its only key.
-/

namespace NandMachine.Json

/-- What a reader is waiting for. -/
inductive Expected
  | number (width : String)
  | boolean
  | sequence
  | array (length : Nat)
  | unit
  | record (name : String)
  | alternative
  | fieldsOf (type name : String)
deriving DecidableEq

/-- What is expected, as it stands in a message. -/
def Expected.text : Expected → String
  | number width => width
  | boolean => "a boolean"
  | sequence => "a sequence"
  | array length => "an array of length " ++ toString length
  | unit => "unit"
  | record name => "struct " ++ name
  | alternative => "struct variant"
  | fieldsOf type name => "struct variant " ++ type ++ "::" ++ name

/-- What a reader has found. -/
inductive Found
  | null
  | bool (b : Bool)
  | integer (value : Int)
  | floating
  | string (s : String)
  | sequence
  | map
  /-- The bare name of an alternative that has fields. -/
  | name
deriving DecidableEq

/-- What has been found, as it stands in a message. -/
def Found.text : Found → String
  | null => "null"
  | bool b => "boolean `" ++ Text.bool b ++ "`"
  | integer value => "integer `" ++ toString value ++ "`"
  | floating => "floating point"
  | string s => "string " ++ Text.quoted s
  | sequence => "sequence"
  | map => "map"
  | name => "unit variant"

/-- Why a text is not a value of a type. -/
inductive ReadError
  | syntaxError
  | invalidType (found : Found) (expected : Expected)
  /-- An integer out of the range that is expected. -/
  | invalidValue (value : Int) (expected : Expected)
  /-- An array with too few items. -/
  | invalidLength (length : Nat) (expected : Expected)
  /-- An array with too few items for the fields of a record. -/
  | tooFewFields (length : Nat) (expected : Expected) (fields : Nat)
  | missingField (name : String)
  | duplicateField (name : String)
  | unknownField (name : String) (fields : List String)
  | unknownName (name : String) (names : List String)
deriving DecidableEq

/-- A name in a message. -/
def ticked (s : String) : String := "`" ++ s ++ "`"

/-- The names that would have been right, of which there are at least two. -/
def choice : List String → String
  | [a, b] => ticked a ++ " or " ++ ticked b
  | names => "one of " ++ ", ".intercalate (names.map ticked)

/-- The message of an error. Every syntax error is written as `<syntax>`, and the line and the
column that stand behind a message are left out: the text of a malformed layout is not, to the
letter, what the command prints. -/
def ReadError.message : ReadError → String
  | syntaxError => "<syntax>"
  | invalidType found expected => "invalid type: " ++ found.text ++ ", expected " ++ expected.text
  | invalidValue value expected =>
    "invalid value: " ++ (Found.integer value).text ++ ", expected " ++ expected.text
  | invalidLength length expected =>
    "invalid length " ++ toString length ++ ", expected " ++ expected.text
  | tooFewFields length expected fields =>
    "invalid length " ++ toString length ++ ", expected " ++ expected.text ++ " with "
      ++ toString fields ++ (if fields = 1 then " element" else " elements")
  | missingField name => "missing field " ++ ticked name
  | duplicateField name => "duplicate field " ++ ticked name
  | unknownField name fields => "unknown field " ++ ticked name ++ ", expected " ++ choice fields
  | unknownName name names => "unknown variant " ++ ticked name ++ ", expected " ++ choice names

/-- A reader of values of a type. -/
abbrev Reader (α : Type) := Value → Except ReadError α

/-! ### Simple values -/

/-- The error for a value of the wrong kind. -/
def mismatch (v : Value) (expected : Expected) : ReadError :=
  match v with
  | .broken | .string none => .syntaxError
  | .null => .invalidType .null expected
  | .bool b => .invalidType (.bool b) expected
  | .number n =>
    match n.kind with
    | .integer value => .invalidType (.integer value) expected
    | .floating => .invalidType .floating expected
    -- Such a number is an error of the text, whatever is expected in its place.
    | .tooLarge => .syntaxError
  | .string (some s) => .invalidType (.string s) expected
  | .array _ => .invalidType .sequence expected
  | .object _ => .invalidType .map expected

/-- A natural number below a limit; `width` is its name in messages. -/
def readNat (limit : Nat) (width : String) : Reader Nat
  | .number n =>
    match n.kind with
    | .integer value =>
      -- An integer of the wrong size is an integer all the same, and the message shows it.
      if 0 ≤ value ∧ value < limit then .ok value.toNat
      else .error (.invalidValue value (.number width))
    | .floating => .error (.invalidType .floating (.number width))
    | .tooLarge => .error .syntaxError
  | v => .error (mismatch v (.number width))

/-- A number of eight bits. -/
def readByte : Reader UInt8 := fun v => (readNat UInt8.size "u8" v).map UInt8.ofNat

/-- A number of sixteen bits. -/
def readWord : Reader UInt16 := fun v => (readNat UInt16.size "u16" v).map UInt16.ofNat

/-- A number of sixty-four bits. -/
def readSize : Reader UInt64 := fun v => (readNat UInt64.size "usize" v).map UInt64.ofNat

/-- A truth value. -/
def readBool : Reader Bool
  | .bool b => .ok b
  | v => .error (mismatch v .boolean)

/-- Any value at all, which is only looked at for its form. -/
def readWhole : Reader Unit := fun v => if v.whole then .ok () else .error .syntaxError

/-! ### Arrays -/

/-- The values of all items. An item that is wrong comes before anything behind it. -/
def readItems {α : Type} (read : Reader α) : Items → Except ReadError (List α)
  | .closed => .ok []
  | .cut => .error .syntaxError
  | .cons item rest => do
    let a ← read item
    let as ← readItems read rest
    return a :: as

/-- A list of any length. -/
def readList {α : Type} (read : Reader α) : Reader (List α)
  | .array items => readItems read items
  | v => .error (mismatch v .sequence)

/-- The value of the next item, and the items behind it; `missing` says what is wrong if there is
none. -/
def readItem {α : Type} (missing : ReadError) (read : Reader α) :
    Items → Except ReadError (α × Items)
  | .closed => .error missing
  | .cut => .error .syntaxError
  | .cons item rest => do
    let a ← read item
    return (a, rest)

/-- No item is left. -/
def readEnd : Items → Except ReadError Unit
  | .closed => .ok ()
  | _ => .error .syntaxError

/-- Three values, no more and no less. -/
def readThree {α : Type} (read : Reader α) : Reader (α × α × α)
  | .array items => do
    let (a, items) ← readItem (.invalidLength 0 (.array 3)) read items
    let (b, items) ← readItem (.invalidLength 1 (.array 3)) read items
    let (c, items) ← readItem (.invalidLength 2 (.array 3)) read items
    -- A fourth item is an error of the text, while a missing one has its own message.
    readEnd items
    return (a, b, c)
  | v => .error (mismatch v (.array 3))

/-! ### Records -/

/-- A field of a record that is filled in step by step. -/
structure Field (σ : Type) where
  name : String
  isSet : σ → Bool
  set : σ → Reader σ

/-- A field that is kept as an optional part of the record. -/
def Field.part {σ α : Type} (name : String) (get : σ → Option α) (put : σ → α → σ)
    (read : Reader α) : Field σ where
  name := name
  isSet s := (get s).isSome
  set s v := (read v).map (put s)

/-- How a record is written. -/
structure Schema (σ : Type) where
  expected : Expected
  /-- The fields in their order. -/
  fields : List (Field σ)
  /-- Keys other than those of the fields are refused; otherwise their values are passed over. -/
  closedKeys : Bool := false
  optional : Bool := false

namespace Schema
variable {σ : Type}

/-- The members of an object, filled in one by one. A key is judged before its value. -/
def readMembers (schema : Schema σ) (s : σ) : Members → Except ReadError σ
  | .closed =>
    match schema.fields.find? fun f => !schema.optional && !f.isSet s with
    | some f => .error (.missingField f.name)
    | none => .ok s
  | .cut => .error .syntaxError
  | .cons none _ _ => .error .syntaxError
  | .cons (some key) value rest =>
    match schema.fields.find? fun f => f.name == key with
    | some f =>
      -- A repeated key is refused before its value is looked at.
      if f.isSet s then .error (.duplicateField f.name)
      else do
        let s ← f.set s value
        readMembers schema s rest
    | none =>
      -- A key that is passed over still needs a value that is JSON.
      if schema.closedKeys then .error (.unknownField key (schema.fields.map Field.name))
      else do
        readWhole value
        readMembers schema s rest

/-- The items of an array, one for each field in order; `count` items are in front. -/
def readFields (schema : Schema σ) (count : Nat) (s : σ) :
    List (Field σ) → Items → Except ReadError σ
  | [], items => do
    readEnd items
    return s
  | _ :: _, .closed =>
    if schema.optional then .ok s
    else .error (.tooFewFields count schema.expected schema.fields.length)
  | _ :: _, .cut => .error .syntaxError
  | f :: fs, .cons item rest => do
    let s ← f.set s item
    readFields schema (count + 1) s fs rest

/-- A record that starts from what is filled in at first. -/
def read (schema : Schema σ) (s : σ) : Reader σ
  | .object members => schema.readMembers s members
  | .array items => schema.readFields 0 s schema.fields items
  | v => .error (mismatch v schema.expected)

end Schema

/-! ### Choices -/

/-- What goes with the name of an alternative. -/
inductive Content (α : Type)
  | plain (a : α)
  | fields (read : Reader α)

/-- The value behind the name of an alternative. -/
def Content.read {α : Type} : Content α → Reader α
  | plain a, .null => .ok a
  | plain _, v => .error (mismatch v .unit)
  | fields read, v => read v

/-- One of several named alternatives. -/
def readChoice {α : Type} (alternatives : List (String × Content α)) : Reader α
  | .string (some name) =>
    match alternatives.lookup name with
    | some (.plain a) => .ok a
    | some (.fields _) => .error (.invalidType .name .alternative)
    | none => .error (.unknownName name (alternatives.map Prod.fst))
  | .object (.cons (some name) value rest) =>
    match alternatives.lookup name with
    | some content => do
      -- What is wrong with the contents comes before a second key.
      let a ← content.read value
      match rest with
      | .closed => return a
      | _ => .error .syntaxError
    | none => .error (.unknownName name (alternatives.map Prod.fst))
  | _ => .error .syntaxError

/-! ### Documents -/

/-- A type with a written form and a reader for it. -/
structure Codec (α : Type) where
  write : α → Value
  read : Reader α

namespace Codec
variable {α : Type}

/-- The value that a text holds; nothing but blanks may stand behind it. -/
def parse (codec : Codec α) (text : String) : Except ReadError α := do
  let document := Document.ofText text
  let a ← codec.read document.value
  if document.clean then return a else .error .syntaxError

/-- The text of a value without blanks. -/
def compact (codec : Codec α) (a : α) : String := (codec.write a).compact

/-- The text of a value with a line for each of its parts. -/
def pretty (codec : Codec α) (a : α) : String := (codec.write a).pretty

/-- Lists of values as arrays. -/
def list (codec : Codec α) : Codec (List α) where
  write as := .list (as.map codec.write)
  read := readList codec.read

end Codec

end NandMachine.Json
