import NandMachine.Json.Token

/-!
# JSON values

A JSON value as a reader sees it who goes from left to right: at the first error the value that was
due is `broken`, every list around it is `cut`, and nothing follows. So a reader of the tree meets
what is wrong with a text in the order of the text, and a value is `whole` when nothing is.
-/

namespace NandMachine.Json

mutual

/-- A value, as far as it can be read. -/
inductive Value
  /-- The text goes wrong where a value is due. -/
  | broken
  | null
  | bool (b : Bool)
  | number (n : Number)
  | string (s : Str)
  | array (items : Items)
  | object (members : Members)

/-- The items of an array. -/
inductive Items
  /-- The end of the array. -/
  | closed
  /-- The text goes wrong where an item or the end is due. -/
  | cut
  | cons (item : Value) (rest : Items)

/-- The members of an object, repeated keys included. -/
inductive Members
  /-- The end of the object. -/
  | closed
  /-- The text goes wrong where a member or the end is due. -/
  | cut
  | cons (key : Str) (value : Value) (rest : Members)

end

mutual

/-- Nothing is wrong with the text of the value. -/
def Value.whole : Value → Bool
  | .broken => false
  | .null | .bool _ | .number _ | .string _ => true
  | .array items => items.whole
  | .object members => members.whole

/-- Nothing is wrong with the text of the items. -/
def Items.whole : Items → Bool
  | .closed => true
  | .cut => false
  | .cons item rest => item.whole && rest.whole

/-- Nothing is wrong with the text of the members. -/
def Members.whole : Members → Bool
  | .closed => true
  | .cut => false
  | .cons _ value rest => value.whole && rest.whole

end

/-- A list of values as the items of an array. -/
def Items.ofList : List Value → Items
  | [] => .closed
  | v :: vs => .cons v (ofList vs)

/-- A list of named values as the members of an object. -/
def Members.ofList : List (String × Value) → Members
  | [] => .closed
  | (k, v) :: ms => .cons (some k) v (ofList ms)

namespace Value

/-- A natural number. -/
def nat (n : Nat) : Value := .number (.ofNat n)

/-- A string that has a text. -/
def text (s : String) : Value := .string (some s)

/-- An array of values. -/
def list (vs : List Value) : Value := .array (.ofList vs)

/-- An object with named values. -/
def record (ms : List (String × Value)) : Value := .object (.ofList ms)

end Value

/-! ### Writing -/

/-- The line that starts inside brackets of a given depth: in the compact form there are no lines,
in the other form a line starts with two blanks for each bracket around it. -/
def lineBreak : Option Nat → List Char
  | none => []
  | some depth => '\n' :: List.replicate (2 * depth) ' '

/-- The blank between a key and its value, which the compact form leaves out. -/
def keySpace : Option Nat → List Char
  | none => []
  | some _ => [' ']

/-- The characters of a number. -/
def Number.chars (n : Number) : List Char :=
  (if n.negative then ['-'] else []) ++ n.whole
    ++ (if n.fraction = [] then [] else '.' :: n.fraction)
    ++ match n.exponent with
      | none => []
      | some (false, digits) => 'e' :: digits
      | some (true, digits) => 'e' :: '-' :: digits

mutual

/-- The characters of a value inside brackets of a given depth, or without lines. -/
def Value.chars (depth : Option Nat) : Value → List Char
  | .broken => []
  | .null => ['n', 'u', 'l', 'l']
  | .bool true => ['t', 'r', 'u', 'e']
  | .bool false => ['f', 'a', 'l', 's', 'e']
  | .number n => n.chars
  | .string s => s.quote
  | .array items => '[' :: items.chars depth true
  | .object members => '{' :: members.chars depth true

/-- The characters of items and of the closing bracket; `first` says that no item is in front. -/
def Items.chars (depth : Option Nat) (first : Bool) : Items → List Char
  | .closed => (if first then [] else lineBreak depth) ++ [']']
  | .cut => []
  | .cons item rest =>
    (if first then [] else [',']) ++ lineBreak (depth.map (· + 1))
      ++ item.chars (depth.map (· + 1)) ++ rest.chars depth false

/-- The characters of members and of the closing brace; `first` says that no member is in front. -/
def Members.chars (depth : Option Nat) (first : Bool) : Members → List Char
  | .closed => (if first then [] else lineBreak depth) ++ ['}']
  | .cut => []
  | .cons key value rest =>
    (if first then [] else [',']) ++ lineBreak (depth.map (· + 1)) ++ key.quote ++ [':']
      ++ keySpace depth ++ value.chars (depth.map (· + 1)) ++ rest.chars depth false

end

namespace Value

/-- The text without blanks. -/
def compact (v : Value) : String := String.ofList (v.chars none)

/-- The text with a line for each item and each member. -/
def pretty (v : Value) : String := String.ofList (v.chars (some 0))

end Value

end NandMachine.Json
