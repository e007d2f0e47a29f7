import NandMachine.Nibble

/-!
# Images

An image is a string of bytes with two nibbles in each, the high half first. It has no header: the
bytes of a file are an image. Proofs work on the view `Rom.nibbles`: `get_eq` says that an access by
position is one to this list, and `nibbles_ofNibbles` that an image holds what it was made of.
-/

namespace NandMachine

/-- A read-only image. -/
structure Rom where
  bytes : Array UInt8 := #[]
deriving DecidableEq, Inhabited

namespace Rom

/-- The bytes of a list of nibbles, two in each; zero fills up an odd list. -/
def packBytes : List Nibble → List UInt8
  | [] => []
  | [high] => [Nibble.pack high 0]
  | high :: low :: rest => Nibble.pack high low :: packBytes rest

/-- The nibbles of a list of bytes. -/
def unpackBytes (bytes : List UInt8) : List Nibble :=
  bytes.flatMap fun b => [Nibble.highHalf b, Nibble.lowHalf b]

/-- The image that holds a list of nibbles. -/
def ofNibbles (ns : List Nibble) : Rom := ⟨(packBytes ns).toArray⟩

/-- The nibbles of an image in the order of their addresses. -/
def nibbles (r : Rom) : List Nibble := unpackBytes r.bytes.toList

/-- The number of nibbles, twice that of the bytes. -/
def size (r : Rom) : Nat := 2 * r.bytes.size

/-- The image has no byte. -/
def isEmpty (r : Rom) : Bool := r.bytes.isEmpty

/-- The nibble at a position: half of the byte that holds it, and zero past the end. -/
def get (r : Rom) (i : Nat) : Nibble :=
  match r.bytes[i / 2]? with
  | some b => if i % 2 = 0 then Nibble.highHalf b else Nibble.lowHalf b
  | none => 0

/-- There are as many nibbles as the size says. -/
@[simp] theorem length_nibbles (r : Rom) : r.nibbles.length = r.size := by
  obtain ⟨⟨bytes⟩⟩ := r
  show (unpackBytes bytes).length = 2 * bytes.length
  -- The size counts two for each byte, and a byte unpacks to two nibbles.
  induction bytes with
  | nil => rfl
  | cons b bs ih =>
    show (unpackBytes bs).length + 1 + 1 = _
    rw [ih, List.length_cons]
    omega

/-! ### Packing and unpacking -/

@[simp] theorem unpackBytes_nil : unpackBytes [] = [] := rfl

/-- The halves of the first byte come first, the high one in front. -/
@[simp] theorem unpackBytes_cons (b : UInt8) (bs : List UInt8) :
    unpackBytes (b :: bs) = Nibble.highHalf b :: Nibble.lowHalf b :: unpackBytes bs := rfl

/-- Packing undoes unpacking. -/
@[simp] theorem packBytes_unpackBytes (bs : List UInt8) : packBytes (unpackBytes bs) = bs := by
  induction bs with
  | nil => rfl
  | cons b bs ih => rw [unpackBytes_cons, packBytes, ih, Nibble.pack_halves]

/-- Unpacking undoes packing, but for the zero behind an odd list. -/
theorem unpackBytes_packBytes (ns : List Nibble) :
    unpackBytes (packBytes ns) = ns ++ List.replicate (ns.length % 2) 0 := by
  -- The cases are those of packing: nothing left, one nibble without a partner, two nibbles.
  fun_induction packBytes ns with
  | case1 => rfl
  | case2 high => simp
  | case3 high low rest ih =>
    have parity : (rest.length + 1 + 1) % 2 = rest.length % 2 := by omega
    simp [ih, parity]

/-- An image holds the nibbles that it was made of, and a zero behind an odd number of them. -/
theorem nibbles_ofNibbles (ns : List Nibble) :
    (ofNibbles ns).nibbles = ns ++ List.replicate (ns.length % 2) 0 :=
  unpackBytes_packBytes ns

/-- The nibble at a position is the one in the list of all nibbles. -/
theorem get_eq (r : Rom) (i : Nat) : r.get i = r.nibbles[i]?.getD 0 := by
  obtain ⟨⟨bytes⟩⟩ := r
  simp only [get, nibbles, List.getElem?_toArray]
  -- Two positions lie in each byte; behind the first byte, the search goes on two positions further
  -- on.
  induction bytes generalizing i with
  | nil => rfl
  | cons b bs ih =>
    match i with
    | 0 => rfl
    | 1 => rfl
    | i + 2 =>
      have half : (i + 2) / 2 = i / 2 + 1 := by omega
      have parity : (i + 2) % 2 = i % 2 := by omega
      rw [unpackBytes_cons, half, parity, List.getElem?_cons_succ, ih]
      rfl

end Rom

end NandMachine
