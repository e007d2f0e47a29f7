import NandMachine.Text.Value

/-!
# Nibbles

A nibble is the machine's unit of data, a value from 0 to 15. It is kept in a byte whose high half
is clear; the proof field says so, so that every way of making a nibble has to keep it. Proofs
work on the view `Nibble.toNat`, for which each operation has one lemma.
-/

namespace NandMachine

/-- A value of four bits, kept in the low half of a byte. -/
structure Nibble where
  /-- The byte that holds the value. -/
  byte : UInt8
  /-- The high half of the byte is clear. -/
  byte_lt : byte.toNat < 16
deriving DecidableEq

namespace Nibble

/-- The value as a natural number. -/
def toNat (n : Nibble) : Nat := n.byte.toNat

theorem toNat_lt (n : Nibble) : n.toNat < 16 := n.byte_lt

/-- Nibbles with the same value are the same. -/
theorem ext {a b : Nibble} (h : a.toNat = b.toNat) : a = b := by
  cases a; cases b
  exact mk.injEq .. |>.mpr (UInt8.toNat_inj.mp h)

/-- Two nibbles are equal exactly if their values are. -/
theorem ext_iff {a b : Nibble} : a = b ↔ a.toNat = b.toNat :=
  ⟨fun h => h ▸ rfl, ext⟩

/-! ### Ways to make a nibble -/

/-- The low half of a byte; the high half is dropped. -/
def ofByte (b : UInt8) : Nibble :=
  ⟨b &&& 15, by
    rw [UInt8.toNat_and]
    exact Nat.and_lt_two_pow _ (n := 4) (by decide)⟩

/-- The high half of a byte. -/
def highHalf (b : UInt8) : Nibble :=
  ⟨b >>> 4, by
    have := b.toNat_lt
    simp only [UInt8.toNat_shiftRight, UInt8.reduceToNat, Nat.reduceMod, Nat.shiftRight_eq_div_pow]
    omega⟩

/-- The low half of a byte. -/
def lowHalf (b : UInt8) : Nibble := ofByte b

/-- A number, reduced modulo 16. -/
def ofNat (n : Nat) : Nibble := ofByte (UInt8.ofNat n)

instance (n : Nat) : OfNat Nibble n := ⟨ofNat n⟩

instance : Inhabited Nibble := ⟨0⟩

/-- The high half of a byte is dropped. -/
@[simp] theorem toNat_ofByte (b : UInt8) : (ofByte b).toNat = b.toNat % 16 := by
  show (b &&& 15).toNat = _
  rw [UInt8.toNat_and]
  exact Nat.and_two_pow_sub_one_eq_mod b.toNat 4

@[simp] theorem toNat_highHalf (b : UInt8) : (highHalf b).toNat = b.toNat / 16 := by
  show (b >>> 4).toNat = _
  simp only [UInt8.toNat_shiftRight, UInt8.reduceToNat, Nat.reduceMod, Nat.shiftRight_eq_div_pow,
    Nat.reducePow]

@[simp] theorem toNat_lowHalf (b : UInt8) : (lowHalf b).toNat = b.toNat % 16 :=
  toNat_ofByte b

@[simp] theorem toNat_ofNat (n : Nat) : (ofNat n).toNat = n % 16 := by
  rw [ofNat, toNat_ofByte, UInt8.toNat_ofNat']
  omega

@[simp] theorem toNat_zero : (0 : Nibble).toNat = 0 := rfl

@[simp] theorem ofByte_byte (n : Nibble) : ofByte n.byte = n :=
  ext (by rw [toNat_ofByte]; exact Nat.mod_eq_of_lt n.byte_lt)

/-- A property of all nibbles is one of the numbers below 16. -/
theorem forall_iff {p : Nibble → Prop} : (∀ n, p n) ↔ ∀ k : Fin 16, p (ofNat k) :=
  ⟨fun h k => h _, fun h n => by
    have : ofNat (⟨n.toNat, n.toNat_lt⟩ : Fin 16) = n :=
      ext (by rw [toNat_ofNat]; exact Nat.mod_eq_of_lt n.toNat_lt)
    exact this ▸ h _⟩

instance {p : Nibble → Prop} [DecidablePred p] : Decidable (∀ n, p n) :=
  decidable_of_iff' _ forall_iff

/-! ### Operations -/

/-- Zero. -/
def isZero (n : Nibble) : Bool := n.byte == 0

/-- The complement of the bits that both have: the machine's only logic operation. -/
def nand (a b : Nibble) : Nibble := ofByte (~~~(a.byte &&& b.byte))

/-- Bits 3 and 2, which name the first register of a pair. -/
def upperPair (n : Nibble) : UInt8 := (n.byte >>> 2) &&& 3

/-- Bits 1 and 0, which name the second register of a pair. -/
def lowerPair (n : Nibble) : UInt8 := n.byte &&& 3

instance : Ord Nibble := ⟨fun a b => compare a.byte b.byte⟩

/-- Two nibbles in one byte, the first in the high half. -/
def pack (high low : Nibble) : UInt8 := high.byte <<< 4 ||| low.byte

/-- The test for zero finds exactly the nibble 0. -/
theorem isZero_iff {n : Nibble} : n.isZero = true ↔ n = 0 := by
  revert n; decide

/-- The value of a NAND is what is missing from 15 in the common bits. -/
theorem toNat_nand (a b : Nibble) : (a.nand b).toNat = 15 - (a.toNat &&& b.toNat) := by
  revert a b; decide

@[simp] theorem highHalf_pack (a b : Nibble) : highHalf (pack a b) = a := by
  revert a b; decide

@[simp] theorem lowHalf_pack (a b : Nibble) : lowHalf (pack a b) = b := by
  revert a b; decide

/-- No bit is lost when two nibbles share a byte. -/
theorem toNat_pack (a b : Nibble) : (pack a b).toNat = 16 * a.toNat + b.toNat := by
  revert a b; decide

/-- A byte is what its halves are packed into. -/
@[simp] theorem pack_halves (b : UInt8) : pack (highHalf b) (lowHalf b) = b := by
  -- A byte is sixteen times its high half and its low half.
  apply UInt8.toNat_inj.mp
  rw [toNat_pack, toNat_highHalf, toNat_lowHalf]
  exact Nat.div_add_mod b.toNat 16

/-! ### Texts -/

/-- The capital hexadecimal digit. -/
def digit (n : Nibble) : String := HexStyle.upper.write n.toNat

/-- The value with its mark, such as `0xa`. -/
def text (n : Nibble) : String := ({ marked := true } : HexStyle).write n.toNat

/-- The nibble that a hexadecimal digit of either case stands for. -/
def ofDigit? (c : Char) : Option Nibble :=
  if '0' ≤ c ∧ c ≤ '9' then some (ofNat (c.toNat - '0'.toNat))
  else if 'a' ≤ c ∧ c ≤ 'f' then some (ofNat (c.toNat - 'a'.toNat + 10))
  else if 'A' ≤ c ∧ c ≤ 'F' then some (ofNat (c.toNat - 'A'.toNat + 10))
  else none

end Nibble

end NandMachine
