import NandMachine.Nibble

/-!
# Addresses

An address has twelve bits. The instruction set writes it one nibble at a time, so it is kept as
three limbs; `Address.toNat` is the number they spell, and the lemmas of this file say what each
operation does to that number. Above 4095 everything starts again at 0.
-/

namespace NandMachine

/-- The number of addresses. -/
def addressCount : Nat := 4096

/-- An address of twelve bits, as its three nibbles. -/
structure Address where
  low : Nibble
  mid : Nibble
  high : Nibble
deriving DecidableEq, Inhabited

namespace Address

/-- The number that the limbs spell in base 16. -/
def toNat (a : Address) : Nat := 256 * a.high.toNat + 16 * a.mid.toNat + a.low.toNat

/-- An address is below 4096. -/
theorem toNat_lt (a : Address) : a.toNat < 4096 := by
  have := a.low.toNat_lt
  have := a.mid.toNat_lt
  have := a.high.toNat_lt
  simp only [toNat]
  omega

/-- Addresses with the same number are the same. -/
theorem ext_toNat {a b : Address} (h : a.toNat = b.toNat) : a = b := by
  -- The limbs are the digits of the number in base 16, so the number has only one spelling.
  have := a.low.toNat_lt
  have := a.mid.toNat_lt
  have := b.low.toNat_lt
  have := b.mid.toNat_lt
  obtain ⟨al, am, ah⟩ := a
  obtain ⟨bl, bm, bh⟩ := b
  simp only [toNat] at *
  obtain rfl : al = bl := Nibble.ext (by omega)
  obtain rfl : am = bm := Nibble.ext (by omega)
  obtain rfl : ah = bh := Nibble.ext (by omega)
  rfl

/-- Two addresses have the same number exactly if they are equal. -/
theorem toNat_inj {a b : Address} : a.toNat = b.toNat ↔ a = b :=
  ⟨ext_toNat, fun h => h ▸ rfl⟩

/-! ### Words -/

/-- The low twelve bits of a word. -/
def ofWord (w : UInt16) : Address :=
  ⟨Nibble.ofByte w.toUInt8, Nibble.ofByte (w >>> 4).toUInt8, Nibble.ofByte (w >>> 8).toUInt8⟩

/-- The limbs side by side in one word. -/
def toWord (a : Address) : UInt16 :=
  a.high.byte.toUInt16 <<< 8 ||| a.mid.byte.toUInt16 <<< 4 ||| a.low.byte.toUInt16

/-- A number, reduced modulo 4096. -/
def ofNat (n : Nat) : Address := ofWord (UInt16.ofNat n)

instance (n : Nat) : OfNat Address n := ⟨ofNat n⟩

/-- A word is reduced modulo 4096. -/
theorem toNat_ofWord (w : UInt16) : (ofWord w).toNat = w.toNat % 4096 := by
  simp only [toNat, ofWord, Nibble.toNat_ofByte, UInt16.toNat_toUInt8, UInt16.toNat_shiftRight,
    UInt16.reduceToNat, Nat.reduceMod, Nat.shiftRight_eq_div_pow, Nat.reducePow]
  omega

/-- A number is reduced modulo 4096. -/
theorem toNat_ofNat (n : Nat) : (ofNat n).toNat = n % 4096 := by
  rw [ofNat, toNat_ofWord, UInt16.toNat_ofNat']
  omega

@[simp] theorem ofNat_toNat (a : Address) : ofNat a.toNat = a :=
  ext_toNat (by rw [toNat_ofNat]; exact Nat.mod_eq_of_lt a.toNat_lt)

/-- The word of an address is its number. -/
theorem toNat_toWord (a : Address) : a.toWord.toNat = a.toNat := by
  have hl : a.low.byte.toNat < 2 ^ 4 := a.low.byte_lt
  have hm : a.mid.byte.toNat < 2 ^ 4 := a.mid.byte_lt
  have hh := a.high.byte_lt
  -- The limbs have no bit in common, so putting them side by side adds them up.
  have step : a.mid.byte.toNat <<< 4 ||| a.low.byte.toNat
      = 16 * a.mid.byte.toNat + a.low.byte.toNat := by
    rw [← Nat.shiftLeft_add_eq_or_of_lt hl, Nat.shiftLeft_eq]
    omega
  have hml : a.mid.byte.toNat <<< 4 ||| a.low.byte.toNat < 2 ^ 8 := by
    rw [step]
    omega
  have wide : a.high.byte.toNat <<< 8 ||| (a.mid.byte.toNat <<< 4 ||| a.low.byte.toNat)
      = a.toNat := by
    rw [← Nat.shiftLeft_add_eq_or_of_lt hml, step, Nat.shiftLeft_eq, toNat]
    simp only [Nibble.toNat]
    omega
  -- No limb is shifted out of the word.
  have eh : a.high.byte.toNat <<< 8 % 2 ^ 16 = a.high.byte.toNat <<< 8 := by
    rw [Nat.shiftLeft_eq]
    exact Nat.mod_eq_of_lt (by omega)
  have em : a.mid.byte.toNat <<< 4 % 2 ^ 16 = a.mid.byte.toNat <<< 4 := by
    rw [Nat.shiftLeft_eq]
    exact Nat.mod_eq_of_lt (by omega)
  rw [← wide, ← Nat.or_assoc]
  simp only [toWord, UInt16.toNat_or, UInt16.toNat_shiftLeft, UInt8.toNat_toUInt16,
    UInt16.reduceToNat, Nat.reduceMod, eh, em]

/-- An address comes back from its word. -/
@[simp] theorem ofWord_toWord (a : Address) : ofWord a.toWord = a :=
  ext_toNat (by
    rw [toNat_ofWord, toNat_toWord]
    exact Nat.mod_eq_of_lt a.toNat_lt)

/-! ### The following address -/

/-- The following address; after the last one comes address 0. -/
def next (a : Address) : Address := ofWord (a.toWord + 1)

/-- Behind 4095 comes 0. -/
theorem toNat_next (a : Address) : a.next.toNat = (a.toNat + 1) % 4096 := by
  have := a.toNat_lt
  rw [next, toNat_ofWord, UInt16.toNat_add, toNat_toWord]
  simp only [UInt16.toNat_one]
  omega

/-- The address `k` places further on. -/
def advance (a : Address) (k : Nat) : Address := ofNat (a.toNat + k)

/-- Moving on adds to the number, modulo 4096. -/
theorem toNat_advance (a : Address) (k : Nat) : (a.advance k).toNat = (a.toNat + k) % 4096 :=
  toNat_ofNat _

@[simp] theorem advance_zero (a : Address) : a.advance 0 = a := ofNat_toNat a

/-- The places behind the following address are counted from one on. -/
theorem next_advance (a : Address) (k : Nat) : a.next.advance k = a.advance (k + 1) :=
  ext_toNat (by
    rw [toNat_advance, toNat_advance, toNat_next]
    omega)

/-! ### Texts -/

/-- Three capital digits. -/
def digits (a : Address) : String := HexStyle.address.write a.toNat

/-- The address with its type's name, such as `Addr12(0FF)`. -/
def text (a : Address) : String := "Addr12(" ++ a.digits ++ ")"

end Address

end NandMachine
