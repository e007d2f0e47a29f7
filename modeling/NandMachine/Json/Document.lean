import NandMachine.Json.Value

/-!
# JSON documents

A document is one value with nothing but blanks around it. It is put together from the tokens one
by one: the state says what may come next, and holds the brackets that are still open. A token
that may not come, and the end of the text inside a value, cut the document off where it stands.
-/

namespace NandMachine.Json

/-- A value and whether the text ends with it. -/
structure Document where
  value : Value
  /-- Only blanks stand behind the value. -/
  clean : Bool

/-- A bracket that is open around the value that is read. -/
inductive Frame
  /-- An array with the items in front of the value, the last one first. -/
  | array (items : List Value)
  /-- An object with the members in front of the value, the last one first, and the value's key. -/
  | object (members : List (Str × Value)) (key : Str)

/-- What may come next, and what has been read. Items and members are kept last one first. -/
inductive State
  /-- A value is due. -/
  | value (frames : List Frame)
  /-- An array has been opened: a value or its end is due. -/
  | firstItem (frames : List Frame)
  /-- A comma or the end of an array is due. -/
  | afterItem (items : List Value) (frames : List Frame)
  /-- An object has been opened: a key or its end is due. -/
  | firstKey (frames : List Frame)
  /-- A key is due. -/
  | nextKey (members : List (Str × Value)) (frames : List Frame)
  /-- A colon is due. -/
  | colon (members : List (Str × Value)) (key : Str) (frames : List Frame)
  /-- A comma or the end of an object is due. -/
  | afterMember (members : List (Str × Value)) (frames : List Frame)
  /-- The value is complete. -/
  | done (v : Value)
  /-- Something stands behind the value, or the value has been cut off. -/
  | stopped (v : Value)

/-- The items of an array from a list that holds the last one first. -/
def Items.ofReversed (items : List Value) (ending : Items) : Items :=
  items.foldl (fun rest item => .cons item rest) ending

/-- The members of an object from a list that holds the last one first. -/
def Members.ofReversed (members : List (Str × Value)) (ending : Members) : Members :=
  members.foldl (fun rest member => .cons member.1 member.2 rest) ending

namespace State

/-- A complete value in the innermost open bracket. -/
def deliver (v : Value) : List Frame → State
  | [] => done v
  | .array items :: frames => afterItem (v :: items) frames
  | .object members key :: frames => afterMember ((key, v) :: members) frames

/-- A value that has been cut off, with the open brackets around it cut off as well. -/
def abandon (v : Value) : List Frame → Value
  | [] => v
  | .array items :: frames => abandon (.array (.ofReversed (v :: items) .cut)) frames
  | .object members key :: frames =>
    abandon (.object (.ofReversed ((key, v) :: members) .cut)) frames

/-- What has been read when nothing that may come does. -/
def cutOff : State → Value
  | value frames => abandon .broken frames
  | firstItem frames => abandon (.array .cut) frames
  | afterItem items frames => abandon (.array (.ofReversed items .cut)) frames
  | firstKey frames => abandon (.object .cut) frames
  | nextKey members frames => abandon (.object (.ofReversed members .cut)) frames
  | colon members key frames =>
    abandon (.object (.ofReversed ((key, .broken) :: members) .cut)) frames
  | afterMember members frames => abandon (.object (.ofReversed members .cut)) frames
  | done v | stopped v => v

/-- The state after a token where a value is due, if a value may start with it. -/
def startValue? (frames : List Frame) : Token → Option State
  | .null => some (deliver .null frames)
  | .bool b => some (deliver (.bool b) frames)
  | .number n => some (deliver (.number n) frames)
  | .string s => some (deliver (.string s) frames)
  | .leftBracket => some (firstItem frames)
  | .leftBrace => some (firstKey frames)
  | _ => none

/-- The state after a token, if the token may come. -/
def next? : State → Token → Option State
  | value frames, t => startValue? frames t
  | firstItem frames, .rightBracket => some (deliver (.array .closed) frames)
  | firstItem frames, t => startValue? (.array [] :: frames) t
  | afterItem items frames, .comma => some (value (.array items :: frames))
  | afterItem items frames, .rightBracket =>
    some (deliver (.array (.ofReversed items .closed)) frames)
  | firstKey frames, .rightBrace => some (deliver (.object .closed) frames)
  | firstKey frames, .string key => some (colon [] key frames)
  | nextKey members frames, .string key => some (colon members key frames)
  | colon members key frames, .colon => some (value (.object members key :: frames))
  | afterMember members frames, .comma => some (nextKey members frames)
  | afterMember members frames, .rightBrace =>
    some (deliver (.object (.ofReversed members .closed)) frames)
  | _, _ => none

/-- The state after a token. -/
def next (s : State) (t : Token) : State :=
  match next? s t with
  | some s => s
  | none => stopped s.cutOff

/-- The document of a text that ends in a state. -/
def document : State → Document
  | done v => ⟨v, true⟩
  | s => ⟨s.cutOff, false⟩

end State

namespace Document

/-- The document of a row of tokens. -/
def ofTokens (ts : List Token) : Document :=
  (ts.foldl State.next (.value [])).document

/-- The document of a text. -/
def ofText (text : String) : Document :=
  ofTokens (Token.ofChars text.toList)

end Document

end NandMachine.Json
