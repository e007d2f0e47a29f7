/-!
# Values as text

Every hexadecimal text of the machine is written by `HexStyle.write`; a style says how the digits
above nine look, whether `0x` stands in front, and how a short number is filled up. A value with
named parts is shown as `Name { part: value, part: value }` and a list of values as
`[value, value]`.
-/

namespace NandMachine

/-- How a number is written in base 16. -/
structure HexStyle where
  /-- Write the digits above nine as capital letters. -/
  capital : Bool := false
  /-- Put the mark `0x` in front. -/
  marked : Bool := false
  /-- The least number of characters, the mark included. -/
  width : Nat := 0
  /-- Fill up with zeros behind the mark, and otherwise with blanks in front of it. -/
  zeroFill : Bool := false
deriving DecidableEq, Repr

namespace HexStyle

/-- The digits of `n`, without mark and filling. -/
def digits (style : HexStyle) (n : Nat) : List Char :=
  if style.capital then (Nat.toDigits 16 n).map Char.toUpper else Nat.toDigits 16 n

/-- The mark in front of the digits. -/
def mark (style : HexStyle) : List Char :=
  if style.marked then ['0', 'x'] else []

/-- The characters of a number: mark, filling and digits, in the order that the style wants. -/
def chars (style : HexStyle) (n : Nat) : List Char :=
  let digits := style.digits n
  let missing := style.width - (style.mark.length + digits.length)
  -- Zeros belong to the number and stand behind the mark; blanks do not.
  if style.zeroFill then style.mark ++ List.replicate missing '0' ++ digits
  else List.replicate missing ' ' ++ style.mark ++ digits

/-- The text of a number. -/
def write (style : HexStyle) (n : Nat) : String :=
  String.ofList (style.chars n)

/-- Lower-case digits and nothing else. -/
def lower : HexStyle := {}

/-- Capital digits and nothing else. -/
def upper : HexStyle := { capital := true }

/-- Three capital digits at least: the way addresses are written. -/
def address : HexStyle := { capital := true, width := 3, zeroFill := true }

end HexStyle

namespace Text

/-- A value with named parts. -/
def record (name : String) (parts : List (String × String)) : String :=
  name ++ " \x7b " ++ ", ".intercalate (parts.map fun p => p.1 ++ ": " ++ p.2) ++ " \x7d"

/-- A list of values. -/
def list (values : List String) : String :=
  "[" ++ ", ".intercalate values ++ "]"

/-- A truth value. -/
def bool (b : Bool) : String :=
  if b then "true" else "false"

end Text

end NandMachine
