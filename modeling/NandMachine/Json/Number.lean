/-!
# JSON numbers

A number of JSON text is kept as its digits. What it stands for is a second step, `Number.kind`:
an integer of 64 bits, some other number that a binary double can hold, or a number past the range
of doubles, which no reader accepts.
-/

namespace NandMachine.Json

/-- A number as it is written. -/
structure Number where
  /-- A minus sign stands in front. -/
  negative : Bool
  /-- The digits in front of the point. -/
  whole : List Char
  /-- The digits behind the point; a number without a point has none. -/
  fraction : List Char
  /-- Whether the exponent is negative, and its digits. -/
  exponent : Option (Bool × List Char)
deriving DecidableEq

/-- What a number stands for. -/
inductive Number.Kind
  /-- An integer from -2^63 to 2^64 - 1. -/
  | integer (value : Int)
  /-- Any other number in the range of doubles, minus zero among them. -/
  | floating
  /-- A number past the range of doubles. -/
  | tooLarge
deriving DecidableEq

namespace Number

/-- A natural number in decimal digits. -/
def ofNat (n : Nat) : Number := ⟨false, Nat.toDigits 10 n, [], none⟩

/-- The value of a string of decimal digits. -/
def value (digits : List Char) : Nat := Nat.ofDigitChars 10 digits 0

/-! ### The range of doubles

The digits are gathered into a significand of 64 bits with a decimal exponent beside it. Both the
significand and the power of ten are rounded to doubles, and then their product; the number is too
large if that product is. -/

/-- A significand and the power of ten that goes with it. -/
structure Scaled where
  significand : Nat
  exponent : Int
deriving DecidableEq

/-- The largest significand. -/
def maxSignificand : Nat := UInt64.size - 1

/-- Gathers digits in front of the point. From the first digit that has no room on, a digit only
raises the exponent. -/
def gatherWhole (s : Scaled) : List Char → Scaled
  | [] => s
  | c :: cs =>
    let grown := 10 * s.significand + (c.toNat - '0'.toNat)
    if grown ≤ maxSignificand then gatherWhole { s with significand := grown } cs
    else { s with exponent := s.exponent + (cs.length + 1) }

/--
Gathers digits behind the point. From the first digit that has no room on, digits are dropped.
-/
def gatherFraction (s : Scaled) : List Char → Scaled
  | [] => s
  | c :: cs =>
    let grown := 10 * s.significand + (c.toNat - '0'.toNat)
    if grown ≤ maxSignificand then gatherFraction ⟨grown, s.exponent - 1⟩ cs else s

/-- The significand and the decimal exponent of a number. -/
def scaled (n : Number) : Scaled :=
  let s := gatherFraction (gatherWhole ⟨0, 0⟩ n.whole) n.fraction
  match n.exponent with
  | none => s
  | some (false, digits) => { s with exponent := s.exponent + value digits }
  | some (true, digits) => { s with exponent := s.exponent - value digits }

/-- A natural number rounded to 53 significant bits, a tie to the even neighbour. -/
def roundToDouble (n : Nat) : Nat :=
  let dropped := n.log2 + 1 - 53
  let kept := n >>> dropped
  let rest := n - kept <<< dropped
  let unit := 1 <<< dropped
  -- A number that is kept exactly leaves no rest, so it is no tie.
  if 2 * rest > unit ∨ (2 * rest = unit ∧ kept % 2 = 1) then
    (kept + 1) <<< dropped
  else kept <<< dropped

/-- The least exact product that is rounded past the largest double. -/
def doubleLimit : Nat := 1 <<< 1024 - 1 <<< 970

/-- The value lies past the largest double. -/
def Scaled.isTooLarge (s : Scaled) : Bool :=
  -- A significand below 2^64 without a positive exponent is always in range.
  s.significand != 0 &&
    (decide (308 < s.exponent) ||
      (decide (0 ≤ s.exponent) &&
        decide (doubleLimit ≤
          roundToDouble s.significand * roundToDouble (Nat.pow 10 s.exponent.toNat))))

/-- What the number stands for. -/
def kind (n : Number) : Kind :=
  -- A minus sign is fine for an integer, but minus zero is none.
  let magnitude := value n.whole
  if n.fraction = [] ∧ n.exponent = none ∧ n.negative = false ∧ magnitude < UInt64.size then
    .integer magnitude
  else if n.fraction = [] ∧ n.exponent = none ∧ n.negative = true ∧ 0 < magnitude ∧
      2 * magnitude ≤ UInt64.size then
    .integer (-magnitude)
  else if n.scaled.isTooLarge then .tooLarge
  else .floating

@[simp] theorem value_toDigits (n : Nat) : value (Nat.toDigits 10 n) = n :=
  Nat.ofDigitChars_ten_toDigits

/-- A number of 64 bits is written as the integer that it is. -/
theorem kind_ofNat {n : Nat} (h : n < UInt64.size) : (ofNat n).kind = .integer n := by
  have fits : value (ofNat n).whole < UInt64.size := by rwa [ofNat, value_toDigits]
  -- Neither a sign nor a point nor an exponent is written.
  rw [kind, if_pos ⟨rfl, rfl, rfl, fits⟩, ofNat, value_toDigits]

end Number

end NandMachine.Json
