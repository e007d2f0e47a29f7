import NandMachine.Instruction.Code

/-!
# Decoding from any source

The decoder takes operands from a source with a state. These lemmas say that the state plays no
part: a source is decoded like the list of nibbles that it yields, it is asked for as many of them
as the operation has operands, and for none if there is no operation.

## Key results

- `decode_of_some`: a legal operation code takes its operands from the source and no more
- `decodeList_take`: nibbles behind the operands have no influence
-/

namespace NandMachine.Instruction

variable {σ : Type}

/-- The next nibbles of a source, and the source behind them. -/
def pull (next : σ → Nibble × σ) : Nat → σ → List Nibble × σ
  | 0, s => ([], s)
  | k + 1, s =>
    let (n, s) := next s
    let (ns, s) := pull next k s
    (n :: ns, s)

/-- A nibble that stands for no operation leaves the source as it is. -/
theorem decode_of_none (next : σ → Nibble × σ) {code : Nibble} (s : σ)
    (h : Opcode.ofCode? code = none) : decode next code s = (.error ⟨code⟩, s) := by
  simp only [decode, h]

/-- An operation code takes its operands from the source, which is then read like a list of them. -/
theorem decode_of_some (next : σ → Nibble × σ) {code : Nibble} {o : Opcode} (s : σ)
    (h : Opcode.ofCode? code = some o) :
    decode next code s =
      (decodeList (code :: (pull next o.operandCount s).1), (pull next o.operandCount s).2) := by
  cases o <;> simp [decode, decodeList, decodeAddress, takeNibble, pull, Opcode.operandCount, h]

/-- A list in front of which no operation stands is refused. -/
theorem decodeList_of_none {code : Nibble} (ns : List Nibble) (h : Opcode.ofCode? code = none) :
    decodeList (code :: ns) = .error ⟨code⟩ := by
  show (decode takeNibble code ns).1 = _
  rw [decode_of_none takeNibble ns h]

/-- A list with an operation code in front is an instruction of that operation. -/
theorem decodeList_of_some {code : Nibble} {o : Opcode} (ns : List Nibble)
    (h : Opcode.ofCode? code = some o) :
    ∃ i : Instruction, i.opcode = o ∧ decodeList (code :: ns) = .ok i := by
  cases o <;>
    simp only [decodeList, takeNibble, decode, h, Except.ok.injEq, exists_eq_right', opcode]

/-- Nibbles behind the operands have no influence. -/
theorem decodeList_take {code : Nibble} {o : Opcode} (ns : List Nibble)
    (h : Opcode.ofCode? code = some o) :
    decodeList (code :: ns.take o.operandCount) = decodeList (code :: ns) := by
  -- No operation has more than three operands.
  rcases ns with _ | ⟨a, _ | ⟨b, _ | ⟨c, rest⟩⟩⟩ <;> cases o <;>
    simp [decodeList, decode, decodeAddress, takeNibble, h, Opcode.operandCount]

/-- The operation code of a decoded instruction is the nibble at the front. -/
theorem ofCode?_of_decodeList {code : Nibble} {ns : List Nibble} {i : Instruction}
    (h : decodeList (code :: ns) = .ok i) : Opcode.ofCode? code = some i.opcode := by
  cases ho : Opcode.ofCode? code with
  | none =>
    rw [decodeList_of_none ns ho] at h
    exact nomatch h
  | some o =>
    obtain ⟨j, hj, hd⟩ := decodeList_of_some ns ho
    rw [hd, Except.ok.injEq] at h
    rw [← h, hj]

end NandMachine.Instruction
