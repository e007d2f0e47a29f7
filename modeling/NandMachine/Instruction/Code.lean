import NandMachine.Instruction

/-!
# Instructions as nibbles

An instruction is written as its operation code and then its operands, addresses high limb first.
Reading takes the operands one by one from a source with a state, so that the same reader serves a
list of nibbles and a machine that fetches from memory. The two directions are separate
definitions; `decodeList_encode_append` says that reading undoes writing, whatever follows.
-/

namespace NandMachine

/-- A nibble that stands for no operation. -/
structure IllegalOpcode where
  opcode : Nibble
deriving DecidableEq

/-- The text of a refusal to decode. -/
def IllegalOpcode.message (e : IllegalOpcode) : String :=
  "illegal opcode " ++ e.opcode.digit

namespace Instruction

/-! ### Writing -/

/-- The nibbles behind the operation code. -/
def operands : Instruction → List Nibble
  | ldi value => [value]
  | mov src dst => [Register.pair src dst]
  | nand first second => [Register.pair first second]
  | jmp target | jz target => [target.high, target.mid, target.low]
  | lod | str | sar | sap | rjp => []

/-- The nibbles of an instruction in the order of their addresses. -/
def encode (i : Instruction) : List Nibble := i.opcode.code :: i.operands

/-- There are as many operand nibbles as the operation wants. -/
theorem length_operands (i : Instruction) : i.operands.length = i.opcode.operandCount := by
  cases i <;> rfl

/-- An instruction is written as as many nibbles as it takes up. -/
@[simp] theorem length_encode (i : Instruction) : i.encode.length = i.size := by
  rw [encode, List.length_cons, length_operands, size, Nat.add_comm]

/-! ### Reading -/

section
variable {σ : Type}

/-- An address from three nibbles of a source, high limb first. -/
def decodeAddress (next : σ → Nibble × σ) (s : σ) : Address × σ :=
  let (high, s) := next s
  let (mid, s) := next s
  let (low, s) := next s
  (⟨low, mid, high⟩, s)

/-- The instruction with a given operation code; its operands are taken from the source. A nibble
that stands for no operation takes nothing. -/
def decode (next : σ → Nibble × σ) (code : Nibble) (s : σ) :
    Except IllegalOpcode Instruction × σ :=
  match Opcode.ofCode? code with
  | none => (.error ⟨code⟩, s)
  | some .ldi =>
    let (value, s) := next s
    (.ok (.ldi value), s)
  | some .lod => (.ok .lod, s)
  | some .str => (.ok .str, s)
  | some .sar => (.ok .sar, s)
  | some .sap => (.ok .sap, s)
  -- One nibble names two registers.
  | some .mov =>
    let (pair, s) := next s
    (.ok (.mov (Register.first pair) (Register.second pair)), s)
  -- An address has three nibbles, of which the high one comes first.
  | some .jmp =>
    let (target, s) := decodeAddress next s
    (.ok (.jmp target), s)
  | some .rjp => (.ok .rjp, s)
  | some .jz =>
    let (target, s) := decodeAddress next s
    (.ok (.jz target), s)
  | some .nand =>
    let (pair, s) := next s
    (.ok (.nand (Register.first pair) (Register.second pair)), s)

end

/-- The first nibble of a list and the others; a missing nibble counts as zero. -/
def takeNibble : List Nibble → Nibble × List Nibble
  | [] => (0, [])
  | n :: ns => (n, ns)

/-- The instruction at the front of a list. -/
def decodeList (ns : List Nibble) : Except IllegalOpcode Instruction :=
  let (code, rest) := takeNibble ns
  (decode takeNibble code rest).1

/-- Reading behind the operation code undoes writing, and leaves what follows. -/
theorem decode_code (i : Instruction) (rest : List Nibble) :
    decode takeNibble i.opcode.code (i.operands ++ rest) = (.ok i, rest) := by
  cases i <;> simp [decode, decodeAddress, opcode, operands, takeNibble]

/-- Reading undoes writing, whatever follows. -/
@[simp] theorem decodeList_encode_append (i : Instruction) (rest : List Nibble) :
    decodeList (i.encode ++ rest) = .ok i := by
  show (decode takeNibble i.opcode.code (i.operands ++ rest)).1 = _
  rw [decode_code]

/-! ### Listings -/

/-- The number of nibbles that a reading of a list takes up: an illegal operation code is one
nibble. -/
def width : Except IllegalOpcode Instruction → Nat
  | .ok i => i.size
  | .error _ => 1

/-- A reading takes up a nibble at least, so a listing comes to its end. -/
theorem width_pos (r : Except IllegalOpcode Instruction) : 0 < width r := by
  cases r with
  | ok i => exact i.size_pos
  | error e => exact Nat.one_pos

/-- A list read from its front to its end, each reading with its position; the last instruction
may want more nibbles than there are. -/
def listing (position : Nat) : List Nibble → List (Nat × Except IllegalOpcode Instruction)
  | [] => []
  | n :: ns =>
    let item := decodeList (n :: ns)
    (position, item) :: listing (position + width item) ((n :: ns).drop (width item))
termination_by ns => ns.length
decreasing_by
  have := width_pos (decodeList (n :: ns))
  simp only [List.length_drop, List.length_cons]
  omega

end Instruction

/-- A program: instructions in the order of their addresses. -/
abbrev Program := List Instruction

namespace Program

/-- The nibbles of all instructions in order. -/
def encode (p : Program) : List Nibble := p.flatMap Instruction.encode

/-- The number of nibbles that all instructions take up. -/
def size (p : Program) : Nat := p.foldr (fun i n => i.size + n) 0

@[simp] theorem encode_cons (i : Instruction) (p : Program) :
    encode (i :: p) = i.encode ++ encode p := rfl

@[simp] theorem size_nil : size [] = 0 := rfl

@[simp] theorem size_cons (i : Instruction) (p : Program) : size (i :: p) = i.size + size p := rfl

/-- A program is written as as many nibbles as it takes up. -/
@[simp] theorem length_encode (p : Program) : (encode p).length = size p := by
  induction p with
  | nil => rfl
  | cons i p ih => simp [ih]

end Program

end NandMachine
