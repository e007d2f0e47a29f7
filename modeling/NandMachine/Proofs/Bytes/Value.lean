import NandMachine.Instruction.Code

/-!
# Values made of bytes

The type of nibbles promises that the byte behind a nibble is below 16, and everything that makes a
nibble has to prove it. What is carried out is the work on the bytes, though, and a promise that is
part of a type cannot be seen to be kept. So addresses, registers and instructions are given a
second time here, with bytes in the place of nibbles and no promise about them, and with operations
that do what is done to the bytes: no byte is masked but where an operation says so. `bytes` forgets
the promise of a value, and it takes each operation to the one of the same name on bytes.

## Key results

- `made_iff`: the bytes that the operations on nibbles can make are those up to 15
- `Registers.exists_bytes`, `Address.exists_bytes`: values without larger bytes keep the promise
- `Instruction.decode_bytes`: decoding works on bytes as it does on nibbles
-/

namespace NandMachine.Bytewise

/-! ## Nibbles -/

/-- The low half of a byte. -/
def lowHalf (b : UInt8) : UInt8 := b &&& 15

/-- The high half of a byte. -/
def highHalf (b : UInt8) : UInt8 := b >>> 4

/-- The complement of the common bits, of which the low half is kept. -/
def nand (a b : UInt8) : UInt8 := ~~~(a &&& b) &&& 15

/-- Two bytes in one, side by side if both are in range. -/
def pack (high low : UInt8) : UInt8 := high <<< 4 ||| low

/-- The bytes of nibbles: two constants, and what the operations make of any bytes or of bytes that
have been made like this before. A byte that is read from a text counts by its low half. -/
inductive Made : UInt8 → Prop
  | zeros : Made 0
  | ones : Made 15
  | lowHalf (b : UInt8) : Made (lowHalf b)
  | highHalf (b : UInt8) : Made (highHalf b)
  | nand {a b : UInt8} (ha : Made a) (hb : Made b) : Made (nand a b)

/-- No byte of a list is above 15. -/
def InRange (bs : List UInt8) : Prop := ∀ b ∈ bs, b ≤ 15

@[simp] theorem inRange_nil : InRange [] := nofun

@[simp] theorem inRange_cons {b : UInt8} {bs : List UInt8} :
    InRange (b :: bs) ↔ b ≤ 15 ∧ InRange bs := List.forall_mem_cons

@[simp] theorem inRange_append {bs cs : List UInt8} :
    InRange (bs ++ cs) ↔ InRange bs ∧ InRange cs := List.forall_mem_append

@[simp] theorem inRange_flatMap {α : Type} {f : α → List UInt8} {as : List α} :
    InRange (as.flatMap f) ↔ ∀ a ∈ as, InRange (f a) := List.forall_mem_flatMap

/-- The low half of a byte is in range. -/
theorem lowHalf_le (b : UInt8) : lowHalf b ≤ 15 := by
  rw [UInt8.le_iff_toNat_le, lowHalf, UInt8.toNat_and]
  exact Nat.and_le_right

/-- The high half of a byte is in range. -/
theorem highHalf_le (b : UInt8) : highHalf b ≤ 15 := by
  rw [UInt8.le_iff_toNat_le]
  -- A shift by four is a division by sixteen.
  have h := (Nibble.highHalf b).toNat_lt
  exact Nat.le_of_lt_succ h

/-- A byte in range is its own low half. -/
theorem lowHalf_of_le {b : UInt8} (h : b ≤ 15) : lowHalf b = b := by
  have hlt : b.toNat < 16 := Nat.lt_succ_of_le (UInt8.le_iff_toNat_le.mp h)
  exact congrArg Nibble.byte (Nibble.ofByte_byte ⟨b, hlt⟩)

/-- The bytes that the operations on nibbles can make are those up to 15. -/
theorem made_iff {b : UInt8} : Made b ↔ b ≤ 15 := by
  constructor
  · intro h
    -- The last operation that made the byte left no more than four bits.
    cases h with
    | zeros | ones => decide
    | lowHalf b => exact lowHalf_le b
    | highHalf b => exact highHalf_le b
    | nand ha hb => exact lowHalf_le _
  · intro h
    -- A byte in range is the low half of itself, and so can be made.
    rw [← lowHalf_of_le h]
    exact .lowHalf b

/-- Two nibbles in one byte are both found again. -/
theorem halves_pack {a b : UInt8} (ha : a ≤ 15) (hb : b ≤ 15) :
    highHalf (pack a b) = a ∧ lowHalf (pack a b) = b ∧
      (pack a b).toNat = 16 * a.toNat + b.toNat := by
  -- With the bounds at hand the bytes are nibbles, for which it is known.
  let high : Nibble := ⟨a, Nat.lt_succ_of_le (UInt8.le_iff_toNat_le.mp ha)⟩
  let low : Nibble := ⟨b, Nat.lt_succ_of_le (UInt8.le_iff_toNat_le.mp hb)⟩
  exact ⟨congrArg Nibble.byte (Nibble.highHalf_pack high low),
    congrArg Nibble.byte (Nibble.lowHalf_pack high low), Nibble.toNat_pack high low⟩

/-! ## Addresses -/

/-- An address as three bytes. -/
structure Address where
  low : UInt8
  mid : UInt8
  high : UInt8
deriving DecidableEq

namespace Address

/-- The bytes that stand for nibbles. -/
def stored (a : Address) : List UInt8 := [a.low, a.mid, a.high]

/-- The low twelve bits of a word. -/
def ofWord (w : UInt16) : Address :=
  ⟨lowHalf w.toUInt8, lowHalf (w >>> 4).toUInt8, lowHalf (w >>> 8).toUInt8⟩

/-- The limbs side by side in one word. Nothing is masked, so a limb out of range spills over. -/
def toWord (a : Address) : UInt16 :=
  a.high.toUInt16 <<< 8 ||| a.mid.toUInt16 <<< 4 ||| a.low.toUInt16

/-- The following address. -/
def next (a : Address) : Address := ofWord (a.toWord + 1)

end Address

/-! ## Registers -/

/-- The register file with bytes for nibbles. -/
structure Registers where
  a : UInt8 := 0
  b : UInt8 := 0
  c : UInt8 := 0
  d : UInt8 := 0
  iar : Address := ⟨0, 0, 0⟩
  addr : Address := ⟨0, 0, 0⟩
deriving DecidableEq

namespace Registers

/-- The bytes that stand for nibbles. -/
def stored (rs : Registers) : List UInt8 :=
  [rs.a, rs.b, rs.c, rs.d] ++ rs.iar.stored ++ rs.addr.stored

/-- The byte in a register. -/
def get (rs : Registers) : Register → UInt8
  | .a => rs.a
  | .b => rs.b
  | .c => rs.c
  | .d => rs.d

/-- The register file with a byte in one register. -/
def set (rs : Registers) (r : Register) (b : UInt8) : Registers :=
  match r with
  | .a => { rs with a := b }
  | .b => { rs with b := b }
  | .c => { rs with c := b }
  | .d => { rs with d := b }

/-- Moves the instruction address on by one. -/
def advance (rs : Registers) : Registers := { rs with iar := rs.iar.next }

/-- Moves the instruction address to a target. -/
def jump (rs : Registers) (target : Address) : Registers := { rs with iar := target }

end Registers

/-! ## Instructions -/

/-- An instruction with bytes for nibbles. -/
inductive Instruction
  | ldi (value : UInt8)
  | lod
  | str
  | sar
  | sap
  | mov (src dst : Register)
  | jmp (target : Address)
  | rjp
  | jz (target : Address)
  | nand (first second : Register)
deriving DecidableEq

/-- The operation that a byte stands for. -/
def opcode? (code : UInt8) : Option Opcode :=
  match code with
  | 0x1 => some .ldi
  | 0x2 => some .lod
  | 0x3 => some .str
  | 0x4 => some .sar
  | 0x5 => some .sap
  | 0x6 => some .mov
  | 0x8 => some .jmp
  | 0x9 => some .rjp
  | 0xA => some .jz
  | 0xD => some .nand
  | _ => none

/-- The registers that the bits of a byte name. -/
def registerPair (b : UInt8) : Register × Register :=
  (.ofIndex ((b >>> 2) &&& 3), .ofIndex (b &&& 3))

namespace Instruction

/-- The bytes that stand for nibbles. -/
def stored : Instruction → List UInt8
  | ldi value => [value]
  | jmp target | jz target => target.stored
  | lod | str | sar | sap | mov _ _ | rjp | nand _ _ => []

/-- The number of an operation, as a nibble. -/
def code (i : Instruction) : UInt8 :=
  lowHalf <| match i with
    | ldi _ => 0x1
    | lod => 0x2
    | str => 0x3
    | sar => 0x4
    | sap => 0x5
    | mov _ _ => 0x6
    | jmp _ => 0x8
    | rjp => 0x9
    | jz _ => 0xA
    | nand _ _ => 0xD

/-- The bytes behind the operation code. -/
def operands : Instruction → List UInt8
  | ldi value => [value]
  | mov first second | nand first second => [lowHalf (first.index <<< 2 ||| second.index)]
  | jmp target | jz target => [target.high, target.mid, target.low]
  | lod | str | sar | sap | rjp => []

/-- The bytes of an instruction in the order of their addresses. -/
def encode (i : Instruction) : List UInt8 := i.code :: i.operands

section
variable {σ : Type}

/-- An address from three bytes of a source, high limb first. -/
def decodeAddress (next : σ → UInt8 × σ) (s : σ) : Address × σ :=
  let (high, s) := next s
  let (mid, s) := next s
  let (low, s) := next s
  (⟨low, mid, high⟩, s)

/-- The instruction with a given operation code, or the code itself if it stands for none. -/
def decode (next : σ → UInt8 × σ) (code : UInt8) (s : σ) : Except UInt8 Instruction × σ :=
  match opcode? code with
  | none => (.error code, s)
  | some .ldi =>
    let (value, s) := next s
    (.ok (.ldi value), s)
  | some .lod => (.ok .lod, s)
  | some .str => (.ok .str, s)
  | some .sar => (.ok .sar, s)
  | some .sap => (.ok .sap, s)
  | some .mov =>
    let (pair, s) := next s
    (.ok (.mov (registerPair pair).1 (registerPair pair).2), s)
  | some .jmp =>
    let (target, s) := decodeAddress next s
    (.ok (.jmp target), s)
  | some .rjp => (.ok .rjp, s)
  | some .jz =>
    let (target, s) := decodeAddress next s
    (.ok (.jz target), s)
  | some .nand =>
    let (pair, s) := next s
    (.ok (.nand (registerPair pair).1 (registerPair pair).2), s)

end

/-- The bytes of an encoded instruction are in range if its operands are. -/
theorem inRange_encode {i : Instruction} (h : InRange i.stored) : InRange i.encode := by
  -- The code is masked, whatever the operands are.
  have hcode : i.code ≤ 15 := lowHalf_le _
  cases i with
  | ldi value => exact inRange_cons.mpr ⟨hcode, h⟩
  | lod | str | sar | sap | rjp => exact inRange_cons.mpr ⟨hcode, inRange_nil⟩
  | mov first second | nand first second => simp [encode, operands, hcode, lowHalf_le]
  | jmp target | jz target =>
    -- The limbs are written in the other order.
    simp only [stored, Address.stored, inRange_cons, inRange_nil, and_true] at h
    simp [encode, operands, hcode, h]

end Instruction

end NandMachine.Bytewise

namespace NandMachine

open Bytewise (InRange)

/-! ## Nibbles without their promise -/

/-- The byte of a nibble is in range. -/
theorem Nibble.byte_le (n : Nibble) : n.byte ≤ 15 :=
  UInt8.le_iff_toNat_le.mpr (Nat.le_of_lt_succ n.byte_lt)

/-- A byte up to 15 is that of a nibble. -/
theorem Nibble.exists_byte {b : UInt8} (h : b ≤ 15) : ∃ n : Nibble, n.byte = b :=
  ⟨⟨b, Nat.lt_succ_of_le (UInt8.le_iff_toNat_le.mp h)⟩, rfl⟩

namespace Address

/-- The address as its bytes. -/
def bytes (a : Address) : Bytewise.Address := ⟨a.low.byte, a.mid.byte, a.high.byte⟩

/-- The bytes of an address are in range. -/
theorem inRange_bytes (a : Address) : InRange a.bytes.stored := by
  simp [bytes, Bytewise.Address.stored, Nibble.byte_le]

/-- An address without larger bytes is that of nibbles. -/
theorem exists_bytes {a : Bytewise.Address} (h : InRange a.stored) :
    ∃ x : Address, x.bytes = a := by
  obtain ⟨low, mid, high⟩ := a
  simp only [Bytewise.Address.stored, Bytewise.inRange_cons, Bytewise.inRange_nil, and_true] at h
  obtain ⟨low, rfl⟩ := Nibble.exists_byte h.1
  obtain ⟨mid, rfl⟩ := Nibble.exists_byte h.2.1
  obtain ⟨high, rfl⟩ := Nibble.exists_byte h.2.2
  exact ⟨⟨low, mid, high⟩, rfl⟩

@[simp] theorem toWord_bytes (a : Address) : a.bytes.toWord = a.toWord := rfl

end Address

/-- The word of an address in range has no more than twelve bits. -/
theorem Bytewise.Address.toNat_toWord_lt {a : Bytewise.Address} (h : InRange a.stored) :
    a.toWord.toNat < 4096 := by
  obtain ⟨x, rfl⟩ := NandMachine.Address.exists_bytes h
  rw [NandMachine.Address.toWord_bytes, NandMachine.Address.toNat_toWord]
  exact x.toNat_lt

namespace Registers

/-- The register file as its bytes. -/
def bytes (rs : Registers) : Bytewise.Registers :=
  ⟨rs.a.byte, rs.b.byte, rs.c.byte, rs.d.byte, rs.iar.bytes, rs.addr.bytes⟩

/-- The bytes of a register file are in range. -/
theorem inRange_bytes (rs : Registers) : InRange rs.bytes.stored := by
  simp [bytes, Bytewise.Registers.stored, Nibble.byte_le, Address.inRange_bytes]

/-- A register file without larger bytes is that of nibbles. -/
theorem exists_bytes {rs : Bytewise.Registers} (h : InRange rs.stored) :
    ∃ x : Registers, x.bytes = rs := by
  obtain ⟨a, b, c, d, iar, addr⟩ := rs
  simp only [Bytewise.Registers.stored, Bytewise.inRange_append, Bytewise.inRange_cons,
    Bytewise.inRange_nil, and_true] at h
  obtain ⟨⟨⟨ha, hb, hc, hd⟩, hiar⟩, haddr⟩ := h
  obtain ⟨a, rfl⟩ := Nibble.exists_byte ha
  obtain ⟨b, rfl⟩ := Nibble.exists_byte hb
  obtain ⟨c, rfl⟩ := Nibble.exists_byte hc
  obtain ⟨d, rfl⟩ := Nibble.exists_byte hd
  obtain ⟨iar, rfl⟩ := Address.exists_bytes hiar
  obtain ⟨addr, rfl⟩ := Address.exists_bytes haddr
  exact ⟨⟨a, b, c, d, iar, addr⟩, rfl⟩

@[simp] theorem get_bytes (rs : Registers) (r : Register) : rs.bytes.get r = (rs.get r).byte := by
  cases r <;> rfl

@[simp] theorem set_bytes (rs : Registers) (r : Register) (n : Nibble) :
    rs.bytes.set r n.byte = (rs.set r n).bytes := by
  cases r <;> rfl

end Registers

namespace Instruction

/-- The instruction with the bytes of its operands. -/
def bytes : Instruction → Bytewise.Instruction
  | ldi value => .ldi value.byte
  | lod => .lod
  | str => .str
  | sar => .sar
  | sap => .sap
  | mov src dst => .mov src dst
  | jmp target => .jmp target.bytes
  | rjp => .rjp
  | jz target => .jz target.bytes
  | nand first second => .nand first second

/-- The bytes of an instruction are in range. -/
theorem inRange_bytes (i : Instruction) : InRange i.bytes.stored := by
  cases i with
  | ldi value => simp [bytes, Bytewise.Instruction.stored, Nibble.byte_le]
  | jmp target | jz target => exact target.inRange_bytes
  | lod | str | sar | sap | mov | rjp | nand => exact Bytewise.inRange_nil

/-- Encoding works on bytes as it does on nibbles. -/
theorem encode_bytes (i : Instruction) : i.bytes.encode = i.encode.map Nibble.byte := by
  cases i <;> rfl

/-- The instruction of a decoding, or the nibble that is none, without its promise. -/
def resultBytes : Except IllegalOpcode Instruction → Except UInt8 Bytewise.Instruction
  | .ok i => .ok i.bytes
  | .error e => .error e.opcode.byte

variable {σ τ : Type} {next : σ → Nibble × σ} {nextByte : τ → UInt8 × τ} {f : σ → τ}

/-- An address is taken from bytes as it is from nibbles. -/
theorem decodeAddress_bytes (h : ∀ s, nextByte (f s) = ((next s).1.byte, f (next s).2)) (s : σ) :
    Bytewise.Instruction.decodeAddress nextByte (f s) =
      ((decodeAddress next s).1.bytes, f (decodeAddress next s).2) := by
  simp only [Bytewise.Instruction.decodeAddress, h]
  rfl

/-- A source of bytes that goes along with a source of nibbles is decoded like that one. -/
theorem decode_bytes (h : ∀ s, nextByte (f s) = ((next s).1.byte, f (next s).2)) (code : Nibble)
    (s : σ) :
    Bytewise.Instruction.decode nextByte code.byte (f s) =
      (resultBytes (decode next code s).1, f (decode next code s).2) := by
  -- A nibble's operation is looked up by its byte.
  have hcode : Bytewise.opcode? code.byte = Opcode.ofCode? code := rfl
  unfold Bytewise.Instruction.decode decode
  rw [hcode]
  cases Opcode.ofCode? code with
  | none => rfl
  | some o =>
    -- Operations differ only in what they take from the source: a nibble, an address or nothing.
    cases o with
    | ldi | mov | nand =>
      simp only [h]
      rfl
    | jmp | jz =>
      simp only [decodeAddress_bytes h]
      rfl
    | lod | str | sar | sap | rjp => rfl

end Instruction

end NandMachine
