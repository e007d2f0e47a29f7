import NandMachine.Address
import NandMachine.Text.Value

/-!
# Registers

Four registers hold a nibble each, and two hold an address: `iar` is where the next nibble is
fetched, `addr` is where loads and stores go.
-/

namespace NandMachine

/-- The registers that an instruction can name. -/
inductive Register
  | a
  | b
  | c
  | d
deriving DecidableEq, Inhabited

namespace Register

/-- The register that the two low bits of a byte name. -/
def ofIndex (i : UInt8) : Register :=
  -- Only two bits count, so every byte names a register.
  match i &&& 3 with
  | 0 => a
  | 1 => b
  | 2 => c
  | _ => d

/-- The two bits that name a register. -/
def index : Register → UInt8
  | a => 0
  | b => 1
  | c => 2
  | d => 3

/-- The registers in the order of their indices. -/
def all : List Register := [a, b, c, d]

theorem mem_all (r : Register) : r ∈ all := by
  cases r <;> decide

instance {p : Register → Prop} [DecidablePred p] : Decidable (∀ r, p r) :=
  decidable_of_iff (∀ r ∈ all, p r) ⟨fun h r => h r (mem_all r), fun h r _ => h r⟩

/-- The letter of a register. -/
def name : Register → String
  | a => "A"
  | b => "B"
  | c => "C"
  | d => "D"

/-! ### Pairs

An operand can name two registers, the first in its upper half and the second in its lower half. -/

/-- The nibble that names two registers. -/
def pair (first second : Register) : Nibble :=
  Nibble.ofByte (first.index <<< 2 ||| second.index)

/-- The register in the upper half of a pair. -/
def first (n : Nibble) : Register := ofIndex n.upperPair

/-- The register in the lower half of a pair. -/
def second (n : Nibble) : Register := ofIndex n.lowerPair

@[simp] theorem first_pair (r s : Register) : first (pair r s) = r := by
  cases r <;> cases s <;> rfl

@[simp] theorem second_pair (r s : Register) : second (pair r s) = s := by
  cases r <;> cases s <;> rfl

/-- Every nibble is the pair of two registers. -/
@[simp] theorem pair_first_second (n : Nibble) : pair (first n) (second n) = n := by
  revert n; decide

end Register

/-- The register file. All registers start at zero. -/
structure Registers where
  a : Nibble := 0
  b : Nibble := 0
  c : Nibble := 0
  d : Nibble := 0
  /-- Where the next nibble is fetched. -/
  iar : Address := 0
  /-- Where loads and stores go. -/
  addr : Address := 0
deriving DecidableEq, Inhabited

namespace Registers

/-- The register file of a machine that has just been started. -/
def zero : Registers := {}

/-- The nibble in a register. -/
def get (rs : Registers) : Register → Nibble
  | .a => rs.a
  | .b => rs.b
  | .c => rs.c
  | .d => rs.d

/-- The register file with a nibble in one register. -/
def set (rs : Registers) (r : Register) (n : Nibble) : Registers :=
  match r with
  | .a => { rs with a := n }
  | .b => { rs with b := n }
  | .c => { rs with c := n }
  | .d => { rs with d := n }

/-- Moves the instruction address on by one. -/
def advance (rs : Registers) : Registers := { rs with iar := rs.iar.next }

/-- Moves the instruction address to a target. -/
def jump (rs : Registers) (target : Address) : Registers := { rs with iar := target }

@[simp] theorem get_set_self (rs : Registers) (r : Register) (n : Nibble) :
    (rs.set r n).get r = n := by
  cases r <;> rfl

/-- The other registers keep what they hold. -/
theorem get_set_of_ne (rs : Registers) {r s : Register} (n : Nibble) (h : s ≠ r) :
    (rs.set r n).get s = rs.get s := by
  cases r <;> cases s <;> first | rfl | exact absurd rfl h

@[simp] theorem iar_set (rs : Registers) (r : Register) (n : Nibble) :
    (rs.set r n).iar = rs.iar := by
  cases r <;> rfl

@[simp] theorem addr_set (rs : Registers) (r : Register) (n : Nibble) :
    (rs.set r n).addr = rs.addr := by
  cases r <;> rfl

/-- All registers with their names in one line. -/
def text (rs : Registers) : String :=
  Text.record "Registers" [("a", rs.a.text), ("b", rs.b.text), ("c", rs.c.text), ("d", rs.d.text),
    ("iar", rs.iar.text), ("addr", rs.addr.text)]

end Registers

end NandMachine
