import NandMachine.Proofs.Instruction.Source

/-!
# Listings

A listing reads a list of nibbles from its front to its end. `Walk` says the same by positions: what
stands at a position is read, and the walk goes on behind it. Writing the readings back gives the
nibbles that were read, whether they are instructions or not. Only the last instruction can want
more nibbles than there are, and those that it misses are written back as zeros.

## Key results

- `writeBack_decodeList`: a reading holds all of the nibbles that it takes up
- `listing_of_walk`, `exists_walk_listing`: a listing is the walk that goes on to the end
- `writeBack_of_walk`: a walk holds all of the nibbles between its ends
- `listing_loses_nothing`: a list of nibbles is found again in its listing
-/

namespace NandMachine.Instruction

/-! ## One reading -/

/-- The nibbles of a reading: an instruction is encoded, and a nibble that stands for no operation
is itself. -/
def writeBack : Except IllegalOpcode Instruction → List Nibble
  | .ok i => i.encode
  | .error e => [e.opcode]

/-- A reading takes up no more than four nibbles. -/
theorem width_le_four (r : Except IllegalOpcode Instruction) : width r ≤ 4 := by
  cases r with
  | ok i => exact i.size_le_four
  | error e => exact Nat.le_add_left 1 3

/-- A list that is asked for more nibbles than it has goes on with zeros. -/
theorem pull_takeNibble (k : Nat) (ns : List Nibble) :
    (pull takeNibble k ns).1 = ns.take k ++ List.replicate (k - ns.length) 0 := by
  -- Nibble by nibble; an empty list yields a zero and stays empty.
  induction k generalizing ns with
  | zero => simp [pull]
  | succ k ih =>
    cases ns with
    | nil => simp [pull, takeNibble, ih, List.replicate_succ]
    | cons n ns => simp [pull, takeNibble, ih]

/-- The operands of a decoded instruction are the nibbles behind its operation code. -/
theorem operands_of_decodeList {code : Nibble} {ns : List Nibble} {i : Instruction}
    (h : decodeList (code :: ns) = .ok i) :
    i.operands = ns.take i.opcode.operandCount ++
      List.replicate (i.opcode.operandCount - ns.length) 0 := by
  rw [← pull_takeNibble]
  have ho := ofCode?_of_decodeList h
  have hd : (decode takeNibble code ns).1 = .ok i := h
  -- Each operation takes its operands apart in its own way, and the encoder puts them together.
  cases hi : i.opcode <;> rw [hi] at ho <;>
    simp only [decode, decodeAddress, ho, Except.ok.injEq] at hd <;> subst hd <;>
    simp [operands, pull, Opcode.operandCount]

/-- A reading holds all of the nibbles that it takes up. -/
theorem writeBack_decodeList {ns : List Nibble} (h : 0 < ns.length) :
    writeBack (decodeList ns) =
      ns.take (width (decodeList ns)) ++
        List.replicate (width (decodeList ns) - ns.length) 0 := by
  obtain ⟨code, ns, rfl⟩ := List.exists_cons_of_length_pos h
  cases hd : decodeList (code :: ns) with
  | error e =>
    -- Had the code stood for an operation, the reading would not have failed.
    have hnone : Opcode.ofCode? code = none := by
      cases ho : Opcode.ofCode? code with
      | none => rfl
      | some o =>
        obtain ⟨i, -, hi⟩ := decodeList_of_some ns ho
        rw [hi] at hd
        exact nomatch hd
    rw [decodeList_of_none ns hnone, Except.error.injEq] at hd
    simp [writeBack, width, ← hd]
  | ok i =>
    have hcode : i.opcode.code = code := Opcode.code_of_ofCode? (ofCode?_of_decodeList hd)
    have hwidth : width (.ok i) = i.opcode.operandCount + 1 := Nat.add_comm 1 _
    rw [hwidth, List.take_succ_cons, List.length_cons, Nat.add_sub_add_right, List.cons_append,
      ← operands_of_decodeList hd]
    exact congrArg (· :: i.operands) hcode

/-! ## Walks -/

/-- Reads a list from a position on. What stands at a position is read and listed, and the next
position is behind it. Whether the walk goes on is open, but at the end of the list there is nothing
to read. -/
inductive Walk (ns : List Nibble) :
    Nat → List (Nat × Except IllegalOpcode Instruction) → Nat → Prop
  | stay (position : Nat) : Walk ns position [] position
  | read {position stop : Nat} {items : List (Nat × Except IllegalOpcode Instruction)}
      (inside : position < ns.length)
      (rest : Walk ns (position + width (decodeList (ns.drop position))) items stop) :
      Walk ns position ((position, decodeList (ns.drop position)) :: items) stop

variable {ns : List Nibble} {position stop : Nat}
  {items : List (Nat × Except IllegalOpcode Instruction)}

/-- A walk goes forward. -/
theorem le_of_walk (h : Walk ns position items stop) : position ≤ stop := by
  induction h with
  | stay => exact Nat.le_refl _
  | read inside rest ih => omega

/-- A listing goes on behind its first reading. -/
theorem listing_drop (inside : position < ns.length) :
    listing position (ns.drop position) =
      (position, decodeList (ns.drop position)) ::
        listing (position + width (decodeList (ns.drop position)))
          (ns.drop (position + width (decodeList (ns.drop position)))) := by
  rw [← List.drop_drop]
  obtain ⟨n, rest, hdrop⟩ := List.exists_cons_of_length_pos
    (l := ns.drop position) (by rw [List.length_drop]; omega)
  rw [hdrop, listing]

/-- Nothing is listed behind the end. -/
theorem listing_of_length_le (h : ns.length ≤ position) :
    listing position (ns.drop position) = [] := by
  rw [List.drop_eq_nil_of_le h, listing]

/-- A listing begins with the items of any walk from its position. -/
theorem listing_of_walk (h : Walk ns position items stop) :
    listing position (ns.drop position) = items ++ listing stop (ns.drop stop) := by
  induction h with
  | stay => rfl
  | read inside rest ih => rw [listing_drop inside, ih, List.cons_append]

/-- A listing is a walk that has come to the end. -/
theorem exists_walk_listing (ns : List Nibble) (position : Nat) :
    ∃ stop, Walk ns position (listing position (ns.drop position)) stop ∧ ns.length ≤ stop := by
  -- Every reading takes up a nibble at least, so that fewer of them are left behind it.
  induction hleft : ns.length - position using Nat.strongRecOn generalizing position with
  | _ left ih =>
  -- There is something to read, or the end has been reached.
  rcases Nat.lt_or_ge position ns.length with inside | outside
  · have hpos := width_pos (decodeList (ns.drop position))
    have hless : ns.length - (position + width (decodeList (ns.drop position))) < left := by omega
    obtain ⟨stop, hwalk, hend⟩ := ih _ hless _ rfl
    rw [listing_drop inside]
    exact ⟨stop, .read inside hwalk, hend⟩
  · rw [listing_of_length_le outside]
    exact ⟨position, .stay position, outside⟩

/-- Where a walk ends is decided by its last reading. -/
theorem last_of_walk (h : Walk ns position items stop) :
    items = [] ∧ stop = position ∨
      ∃ p r, items.getLast? = some (p, r) ∧ p < ns.length ∧ stop = p + width r := by
  induction h with
  | stay => exact .inl ⟨rfl, rfl⟩
  | @read position stop items inside rest ih =>
    refine .inr ?_
    -- The walk ends with this reading, or goes on and ends with a later one.
    rcases ih with ⟨rfl, rfl⟩ | ⟨p, r, hlast, hp, hstop⟩
    · exact ⟨position, _, rfl, inside, rfl⟩
    · exact ⟨p, r, by rw [List.getLast?_cons, hlast]; rfl, hp, hstop⟩

/-- A walk holds all of the nibbles between its ends, and zeros for those that are missing. -/
theorem writeBack_of_walk (h : Walk ns position items stop) (inside : position ≤ ns.length) :
    items.flatMap (fun item => writeBack item.2) =
      (ns.drop position).take (stop - position) ++ List.replicate (stop - ns.length) 0 := by
  -- Reading by reading; only at the last one can nibbles be missing.
  induction h with
  | stay position =>
    have hnone : position - ns.length = 0 := by omega
    simp [hnone]
  | @read position stop items hlt rest ih =>
    have hlen : (ns.drop position).length = ns.length - position := List.length_drop ..
    rw [List.flatMap_cons, writeBack_decodeList (by omega), hlen]
    generalize width (decodeList (ns.drop position)) = w at rest ih
    have hle := le_of_walk rest
    rcases Nat.lt_or_ge ns.length (position + w) with hpast | hwithin
    · -- This is the last reading: there is nothing behind it.
      obtain ⟨rfl, rfl⟩ : items = [] ∧ stop = position + w := by
        cases rest with
        | stay => exact ⟨rfl, rfl⟩
        | read inside => omega
      have hmissing : position + w - ns.length = w - (ns.length - position) := by omega
      rw [List.flatMap_nil, List.append_nil, hmissing, Nat.add_sub_cancel_left]
    · -- Nothing is missing here, and the others go on where this reading ends.
      have hwhole : w - (ns.length - position) = 0 := by omega
      have hsplit : stop - position = w + (stop - (position + w)) := by omega
      rw [ih hwithin, hwhole, List.replicate_zero, List.append_nil, ← List.append_assoc, hsplit,
        List.take_add, List.drop_drop]

/-! ## Listings of arbitrary nibbles -/

/-- A list of nibbles, legal or not, is found again in its listing. The walk through the list comes
to its end, and its readings, written back, are the list itself, with up to three zeros behind it.
There are zeros only if the last reading is an instruction that stands in the list and ends behind
it, and then they are the nibbles that it misses. -/
theorem listing_loses_nothing (ns : List Nibble) :
    ∃ k ≤ 3, Walk ns 0 (listing 0 ns) (ns.length + k) ∧
      (listing 0 ns).flatMap (fun item => writeBack item.2) = ns ++ List.replicate k 0 ∧
      (k ≠ 0 → ∃ p i, (listing 0 ns).getLast? = some (p, .ok i) ∧
        p < ns.length ∧ p + i.size = ns.length + k) := by
  obtain ⟨stop, hwalk, hend⟩ := exists_walk_listing ns 0
  rw [List.drop_zero] at hwalk
  obtain ⟨k, rfl⟩ := Nat.exists_eq_add_of_le hend
  have hback := writeBack_of_walk hwalk (Nat.zero_le _)
  rw [List.drop_zero, Nat.sub_zero, Nat.add_sub_cancel_left,
    List.take_of_length_le (Nat.le_add_right ..)] at hback
  -- Without a reading there is no list to be read; otherwise the last reading starts inside the
  -- list and takes up four nibbles at most.
  rcases last_of_walk hwalk with ⟨-, hstop⟩ | ⟨p, r, hlast, hp, hstop⟩
  · have hk : k = 0 := by omega
    exact ⟨k, by omega, hwalk, hback, fun h => absurd hk h⟩
  · have hfour := width_le_four r
    refine ⟨k, by omega, hwalk, hback, fun h => ?_⟩
    cases r with
    | ok i => exact ⟨p, i, hlast, hp, hstop.symm⟩
    | error e =>
      -- A nibble that stands for no operation is in the list itself.
      have hone : width (.error e) = 1 := rfl
      omega

end NandMachine.Instruction
