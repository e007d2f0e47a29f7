import NandMachine.Proofs.Instruction.Source

/-!
# The tables of the decoder

What a nibble means as an operation code is laid down more than once: the decoder takes one operand
after the other as it goes, a table says how many there are, and an instruction knows its code and
its size by itself. A table that was out of step with the others would set the instruction address
beside the next instruction. Here they are compared for all nibbles and all sources of operands. A
source may yield a different nibble every time that it is asked, so a stream together with a count
of the questions is the most general one.

## Key results

- `operandCount?_eq`: the table of counts knows the same operations as the decoder
- `decodeList_eq_decode_ofStream`: a list is decoded like a stream that goes on with zeros
- `decoder_agrees_with_tables`: all tables agree, and the decoder asks for as many nibbles as they
  say
-/

namespace NandMachine

namespace Opcode

/-- The number of nibbles that follow a nibble, if it stands for an operation. -/
def operandCount? (n : Nibble) : Option Nat :=
  match n.byte with
  | 0x1 | 0x6 | 0xD => some 1
  | 0x2 | 0x3 | 0x4 | 0x5 | 0x9 => some 0
  | 0x8 | 0xA => some 3
  | _ => none

/-- The table of counts knows the same operations as the decoder. -/
theorem operandCount?_eq (n : Nibble) : operandCount? n = (ofCode? n).map operandCount := by
  revert n; decide

end Opcode

namespace Instruction

variable {σ : Type}

/-- The size of an instruction goes by the table of counts. -/
theorem size_eq (i : Instruction) : i.size = 1 + (Opcode.operandCount? i.opcode.code).getD 0 := by
  rw [Opcode.operandCount?_eq, Opcode.ofCode?_code]
  rfl

/-- The instruction with an operation code that goes on with a list of nibbles. -/
def ofOperands (o : Opcode) (ns : List Nibble) : Instruction :=
  (decodeList (o.code :: ns)).toOption.getD default

/-- A list with an operation code in front is decoded, whatever follows. -/
theorem decodeList_code (o : Opcode) (ns : List Nibble) :
    decodeList (o.code :: ns) = .ok (ofOperands o ns) := by
  obtain ⟨i, -, hi⟩ := decodeList_of_some ns (Opcode.ofCode?_code o)
  rw [ofOperands, hi]
  rfl

/-- The instruction belongs to the operation that it was made for. -/
@[simp] theorem opcode_ofOperands (o : Opcode) (ns : List Nibble) :
    (ofOperands o ns).opcode = o := by
  have h := ofCode?_of_decodeList (decodeList_code o ns)
  rw [Opcode.ofCode?_code] at h
  exact (Option.some.inj h).symm

/-- The decoder asks for the operands of the operation, and the instruction is made of them. -/
theorem decode_code_eq (next : σ → Nibble × σ) (o : Opcode) (s : σ) :
    decode next o.code s =
      (.ok (ofOperands o (pull next o.operandCount s).1), (pull next o.operandCount s).2) := by
  rw [decode_of_some next s (Opcode.ofCode?_code o), decodeList_code]

/-! ## Streams -/

/-- A stream as a source. Its state counts how often it has been asked. -/
def ofStream (f : Nat → Nibble) (asked : Nat) : Nibble × Nat := (f asked, asked + 1)

/-- A stream counts the questions that it has been asked. -/
theorem pull_ofStream (f : Nat → Nibble) (k asked : Nat) :
    (pull (ofStream f) k asked).2 = asked + k := by
  induction k generalizing asked with
  | zero => rfl
  | succ k ih =>
    show (pull (ofStream f) k (asked + 1)).2 = _
    rw [ih]
    omega

/-- What is left of a list yields the nibble at the place that has been reached. -/
theorem takeNibble_drop (ns : List Nibble) (asked : Nat) :
    takeNibble (ns.drop asked) = (ns.getD asked 0, ns.drop (asked + 1)) := by
  -- The place counts down along the list; behind the end there is a zero.
  induction ns generalizing asked with
  | nil => simp [takeNibble]
  | cons n ns ih =>
    cases asked with
    | zero => rfl
    | succ asked => simpa using ih asked

/-- A list goes on like a stream that has zeros behind the list. -/
theorem pull_takeNibble_drop (ns : List Nibble) (k asked : Nat) :
    (pull takeNibble k (ns.drop asked)).1 =
      (pull (ofStream fun j => ns.getD j 0) k asked).1 := by
  -- What is left of the list and the count of the stream move on together.
  induction k generalizing asked with
  | zero => rfl
  | succ k ih =>
    rw [pull, takeNibble_drop]
    show ns.getD asked 0 :: (pull takeNibble k (ns.drop (asked + 1))).1 = _
    rw [ih]
    rfl

/-- A list is decoded like a stream that goes on with zeros. -/
theorem decodeList_eq_decode_ofStream (ns : List Nibble) :
    decodeList ns = (decode (ofStream fun j => ns.tail.getD j 0) (ns.headD 0) 0).1 := by
  cases ns with
  | nil => rfl
  | cons code ns =>
    show (decode takeNibble code ns).1 = (decode (ofStream fun j => ns.getD j 0) code 0).1
    -- Only the operands are asked for, and of those both yield the same.
    cases ho : Opcode.ofCode? code with
    | none => rw [decode_of_none _ _ ho, decode_of_none _ _ ho]
    | some o =>
      have hpull := pull_takeNibble_drop ns o.operandCount 0
      rw [List.drop_zero] at hpull
      rw [decode_of_some _ _ ho, decode_of_some _ _ ho, hpull]

/-- All tables agree. A nibble without a count of operands is refused by the decoder: it is reported
itself, and the source is left as it was. With a count, the decoder succeeds and leaves the source
as it is behind so many questions; the instruction is a function of the answers alone, its code is
the nibble, and its size is the count and one more. A stream is asked exactly as often as the count
says, and decoding fails exactly if there is no count. A list is decoded like a stream that yields
what is behind its first nibble, and then zeros. -/
theorem decoder_agrees_with_tables :
    (∀ code : Nibble,
      match Opcode.operandCount? code with
      | none => ∀ {σ : Type} (next : σ → Nibble × σ) (s : σ),
        decode next code s = (.error ⟨code⟩, s)
      | some k => ∃ make : List Nibble → Instruction,
        (∀ ns, (make ns).opcode.code = code ∧ (make ns).size = 1 + k) ∧
        ∀ {σ : Type} (next : σ → Nibble × σ) (s : σ),
          decode next code s = (.ok (make (pull next k s).1), (pull next k s).2)) ∧
    (∀ (code : Nibble) (f : Nat → Nibble),
      (decode (ofStream f) code 0).2 = (Opcode.operandCount? code).getD 0 ∧
      ((∃ e, (decode (ofStream f) code 0).1 = .error e) ↔ Opcode.operandCount? code = none)) ∧
    (∀ i : Instruction, i.size = 1 + (Opcode.operandCount? i.opcode.code).getD 0) ∧
    ∀ ns : List Nibble,
      decodeList ns = (decode (ofStream fun j => ns.tail.getD j 0) (ns.headD 0) 0).1 := by
  refine ⟨fun code => ?_, fun code f => ?_, size_eq, decodeList_eq_decode_ofStream⟩
  · rw [Opcode.operandCount?_eq]
    cases ho : Opcode.ofCode? code with
    | none =>
      intro σ next s
      exact decode_of_none next s ho
    | some o =>
      obtain rfl := Opcode.code_of_ofCode? ho
      -- The answers alone make the instruction, so the function does not depend on the source.
      refine ⟨ofOperands o, fun ns => ⟨?_, ?_⟩, fun next s => decode_code_eq next o s⟩
      · rw [opcode_ofOperands]
      · rw [size, opcode_ofOperands]
  · rw [Opcode.operandCount?_eq]
    cases ho : Opcode.ofCode? code with
    | none =>
      rw [decode_of_none _ _ ho]
      exact ⟨rfl, fun _ => rfl, fun _ => ⟨⟨code⟩, rfl⟩⟩
    | some o =>
      obtain rfl := Opcode.code_of_ofCode? ho
      rw [decode_code_eq]
      constructor
      · rw [pull_ofStream, Nat.zero_add]
        rfl
      · simp

end Instruction

end NandMachine
