import NandMachine.Proofs.Machine.Step

/-!
# Addresses as numbers

An address is kept as three limbs, and it is changed one limb at a time or by carrying one into all
of them. As a word it follows the arithmetic of numbers below 4096: an `Edit` of the limbs is the
replacement of a digit in base 16, or an addition modulo 4096. That carries over to fetching, which
moves the instruction address on by one every time: fetching in a row reads the addresses in a row.

## Key results

- `map_trace`: the words of an address that is edited are the numbers that arithmetic gives
- `Machine.pull_fetch`: what fetching in a row yields, and what it leaves
- `addresses_follow_numbers`: both together
-/

namespace NandMachine

namespace Address

/-! ## Edits -/

/-- What can be done to an address: it is made anew, one of its limbs is replaced, or it moves on
by one. -/
inductive Edit
  | ofWord (w : UInt16)
  | ofLimbs (low mid high : Nibble)
  | setLow (n : Nibble)
  | setMid (n : Nibble)
  | setHigh (n : Nibble)
  | increment

/-- The number with another digit in base 16. The place of the digit is a power of 16. -/
def setDigit (x place digit : Nat) : Nat :=
  x / (16 * place) * (16 * place) + digit * place + x % place

namespace Edit

/-- The address after an edit. -/
def apply (a : Address) : Edit → Address
  | ofWord w => .ofWord w
  | ofLimbs low mid high => ⟨low, mid, high⟩
  | setLow n => { a with low := n }
  | setMid n => { a with mid := n }
  | setHigh n => { a with high := n }
  | increment => a.next

/-- What an edit returns: the address as it was, if it has moved on. -/
def returned (a : Address) : Edit → Option Address
  | increment => some a
  | ofWord _ | ofLimbs _ _ _ | setLow _ | setMid _ | setHigh _ => none

/-- The number after an edit. -/
def number (x : Nat) : Edit → Nat
  | ofWord w => w.toNat % 4096
  | ofLimbs low mid high => low.toNat + 16 * mid.toNat + 256 * high.toNat
  | setLow n => setDigit x 1 n.toNat
  | setMid n => setDigit x 16 n.toNat
  | setHigh n => setDigit x 256 n.toNat
  | increment => (x + 1) % 4096

/-- The number that an edit returns. -/
def returnedNumber (x : Nat) : Edit → Option Nat
  | increment => some x
  | ofWord _ | ofLimbs _ _ _ | setLow _ | setMid _ | setHigh _ => none

/-- One edit of the limbs is one step of arithmetic. -/
theorem toNat_apply (a : Address) (e : Edit) : (e.apply a).toNat = e.number a.toNat := by
  have hlow := a.low.toNat_lt
  have hmid := a.mid.toNat_lt
  have hhigh := a.high.toNat_lt
  cases e with
  | ofWord w => exact toNat_ofWord w
  | ofLimbs low mid high =>
    simp only [apply, number, toNat]
    omega
  | setLow n | setMid n | setHigh n =>
    -- The other limbs are the digits above and below.
    simp only [apply, number, setDigit, toNat]
    omega
  | increment => exact toNat_next a

end Edit

/-- What an address goes through: for each edit what it returns, and the address behind it. -/
def trace (a : Address) : List Edit → List (Option Address × Address)
  | [] => []
  | e :: es => (e.returned a, e.apply a) :: trace (e.apply a) es

/-- What a number goes through. -/
def numbers (x : Nat) : List Edit → List (Option Nat × Nat)
  | [] => []
  | e :: es => (e.returnedNumber x, e.number x) :: numbers (e.number x) es

/-- The words of an address that is edited are the numbers that arithmetic gives. -/
theorem map_trace (a : Address) (es : List Edit) :
    (trace a es).map (fun p => (p.1.map fun old => old.toWord.toNat, p.2.toWord.toNat)) =
      numbers a.toWord.toNat es := by
  -- The edits go on from the address that the first one has left.
  induction es generalizing a with
  | nil => rfl
  | cons e es ih =>
    have happly : (e.apply a).toWord.toNat = e.number a.toWord.toNat := by
      rw [toNat_toWord, toNat_toWord, Edit.toNat_apply]
    have hreturned : (e.returned a).map (fun old => old.toWord.toNat) =
        e.returnedNumber a.toWord.toNat := by
      cases e <;> rfl
    rw [trace, List.map_cons, ih, happly, hreturned, numbers]

/-- An address that is so far behind another one, from the word of that one. -/
theorem advance_eq (a : Address) (k : Nat) :
    a.advance k = .ofNat ((a.toWord.toNat + k) % 4096) := by
  apply ext_toNat
  rw [toNat_advance, toNat_ofNat, toNat_toWord, Nat.mod_mod]

end Address

/-! ## Fetching in a row -/

/-- Nibbles in a row are those at the addresses in a row. -/
theorem Space.readFrom_eq_map (s : Space) (a : Address) (n : Nat) :
    s.readFrom a n = (List.range n).map fun k => s.read (a.advance k) := by
  apply List.ext_getElem?
  intro k
  by_cases h : k < n
  · rw [getElem?_readFrom s a h]
    simp [h]
  · rw [List.getElem?_eq_none (by rw [length_readFrom]; omega)]
    simp [h]

namespace Machine

/-- Fetching in a row yields the nibbles in a row, and moves the instruction address behind them. -/
theorem pull_fetch (m : Machine) (n : Nat) :
    Instruction.pull fetch n m =
      (m.space.readFrom m.registers.iar n,
        { m with registers.iar := m.registers.iar.advance n }) := by
  induction n generalizing m with
  | zero =>
    rw [Instruction.pull, Space.readFrom, Address.advance_zero]
  | succ n ih =>
    show (m.space.read m.registers.iar :: (Instruction.pull fetch n m.fetch.2).1,
      (Instruction.pull fetch n m.fetch.2).2) = _
    rw [ih]
    -- The first fetch has moved the instruction address on by one, and nothing else.
    show (_, { m with registers.iar := m.registers.iar.next.advance n }) = _
    rw [Address.next_advance]
    rfl

end Machine

/-- An address is its number. Whatever edits are made to an address, in whatever order, its word and
what is returned on the way are the numbers that arithmetic gives, and at every point the limbs are
those of the word. A machine, halted or not, that fetches a number of nibbles in a row gets what is
stored at its instruction address and the following ones, modulo 4096; the instruction address has
moved on by that number, modulo 4096, and nothing else has changed. -/
theorem addresses_follow_numbers :
    (∀ (a : Address) (es : List Address.Edit),
      (Address.trace a es).map (fun p => (p.1.map fun old => old.toWord.toNat, p.2.toWord.toNat)) =
        Address.numbers a.toWord.toNat es ∧
      (Address.trace a es).map (fun p => Address.ofWord p.2.toWord) =
        (Address.trace a es).map Prod.snd) ∧
    ∀ (m : Machine) (n : Nat),
      let iar := m.registers.iar.toWord.toNat
      Instruction.pull Machine.fetch n m =
        ((List.range n).map fun k => m.space.read (.ofNat ((iar + k) % 4096)),
          { m with registers.iar := .ofNat ((iar + n) % 4096) }) := by
  refine ⟨fun a es => ⟨Address.map_trace a es, ?_⟩, fun m n => ?_⟩
  · simp only [Address.ofWord_toWord]
  · intro iar
    rw [Machine.pull_fetch, Space.readFrom_eq_map]
    simp only [Address.advance_eq, iar]

/-- A carry through all limbs, and then a new limb in the middle. -/
example :
    Address.numbers 0x0FF [.increment, .setMid 7, .ofWord 0xFFFF, .increment] =
      [(some 0x0FF, 0x100), (none, 0x170), (none, 0xFFF), (some 0xFFF, 0)] := by
  decide

end NandMachine
