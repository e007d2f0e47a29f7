/-!
# JSON strings

The inside of a JSON string is a row of characters and of escapes. An escape may stand for half of
a surrogate pair, so a string is gathered in two steps: `scan` finds its end and the units in it,
and `join` pairs the surrogates up. A string with an unpaired surrogate is well formed but has no
text. `scan_quote` says that scanning undoes quoting.
-/

namespace NandMachine.Json

/-- The text of a string; a string with an unpaired surrogate has none. -/
abbrev Str := Option String

namespace Str

/-- What a string is made of before surrogates are paired up. -/
inductive Piece
  /-- A character that stands for itself. -/
  | char (c : Char)
  /-- A number of four hexadecimal digits. -/
  | unit (u : Nat)
deriving DecidableEq

/-- The value of a hexadecimal digit of either case. -/
def hexDigit? (c : Char) : Option Nat :=
  if '0' ≤ c ∧ c ≤ '9' then some (c.toNat - '0'.toNat)
  else if 'a' ≤ c ∧ c ≤ 'f' then some (c.toNat - 'a'.toNat + 10)
  else if 'A' ≤ c ∧ c ≤ 'F' then some (c.toNat - 'A'.toNat + 10)
  else none

/-- The number of four hexadecimal digits. -/
def unit? (a b c d : Char) : Option Nat := do
  let a ← hexDigit? a
  let b ← hexDigit? b
  let c ← hexDigit? c
  let d ← hexDigit? d
  return 4096 * a + 256 * b + 16 * c + d

/-- The character of an escape of one letter. -/
def escape? : Char → Option Char
  | '"' => some '"'
  | '\\' => some '\\'
  | '/' => some '/'
  | 'b' => some '\x08'
  | 'f' => some '\x0c'
  | 'n' => some '\n'
  | 'r' => some '\r'
  | 't' => some '\t'
  | _ => none

/-- The pieces of a string up to its closing quote, put behind those found so far, and the text
behind the quote. Control characters have to be escaped. -/
def scan (found : List Piece) : List Char → Option (List Piece × List Char)
  -- The text ends before the closing quote.
  | [] => none
  | '"' :: rest => some (found.reverse, rest)
  -- With fewer than four characters behind it, the letter falls to the next case, which refuses it.
  | '\\' :: 'u' :: a :: b :: c :: d :: rest =>
    match unit? a b c d with
    | some u => scan (.unit u :: found) rest
    | none => none
  | '\\' :: e :: rest =>
    match escape? e with
    | some c => scan (.char c :: found) rest
    | none => none
  -- A backslash comes to this case only as the last character of the text.
  | c :: rest => if c.toNat < 32 ∨ c = '\\' then none else scan (.char c :: found) rest

/-- The characters of a row of pieces: a leading surrogate has to stand before a trailing one. -/
def join : List Piece → Option (List Char)
  | [] => some []
  | .char c :: ps => (join ps).map (c :: ·)
  | .unit u :: ps =>
    if u < 0xD800 ∨ 0xE000 ≤ u then (join ps).map (Char.ofNat u :: ·)
    -- A trailing surrogate that no leading one stands in front of.
    else if 0xDC00 ≤ u then none
    else match ps with
      | .unit v :: ps =>
        if 0xDC00 ≤ v ∧ v < 0xE000 then
          (join ps).map (Char.ofNat (0x10000 + 1024 * (u - 0xD800) + (v - 0xDC00)) :: ·)
        else none
      | _ => none

/-- The text of a row of pieces. -/
def ofPieces (ps : List Piece) : Str := (join ps).map String.ofList

/-! ### Quoting -/

/-- A character inside a string. -/
def quoteChar (c : Char) : List Char :=
  if c = '"' then ['\\', '"']
  else if c = '\\' then ['\\', '\\']
  else if c = '\x08' then ['\\', 'b']
  else if c = '\x0c' then ['\\', 'f']
  else if c = '\n' then ['\\', 'n']
  else if c = '\r' then ['\\', 'r']
  else if c = '\t' then ['\\', 't']
  else if c.toNat < 32 then
    ['\\', 'u', '0', '0', Nat.digitChar (c.toNat / 16), Nat.digitChar (c.toNat % 16)]
  else [c]

/-- A string with its quotes; the string without a text is written as a lone surrogate. -/
def quote : Str → List Char
  | some s => '"' :: s.toList.flatMap quoteChar ++ ['"']
  | none => ['"', '\\', 'u', 'd', '8', '0', '0', '"']

/-- The piece that a quoted character is scanned as. -/
def pieceOf (c : Char) : Piece :=
  if c.toNat < 32 ∧ c ∉ ['\x08', '\x0c', '\n', '\r', '\t'] then .unit c.toNat else .char c

/-- A control character comes back from the four digits that it is escaped as. -/
theorem unit?_control : ∀ k : Fin 32,
    unit? '0' '0' (Nat.digitChar (k / 16)) (Nat.digitChar (k % 16)) = some k.val := by
  decide

/-- A character that needs no escape is taken as it is. -/
theorem scan_plain (found : List Piece) {c : Char} (rest : List Char) (hq : c ≠ '"')
    (hb : c ≠ '\\') (hc : 32 ≤ c.toNat) :
    scan found (c :: rest) = scan (.char c :: found) rest := by
  have plain : ¬(c.toNat < 32 ∨ c = '\\') := fun h => h.elim (fun hlt => by omega) hb
  rw [scan, if_neg plain]
  · -- The escapes of the scanner begin with a quote or a backslash.
    exact hq
  · rintro _ _ _ _ _ h
    exact absurd h hb
  · rintro _ _ h
    exact absurd h hb

/-- What a character is quoted as is scanned as one piece. -/
theorem scan_quoteChar (found : List Piece) (c : Char) (rest : List Char) :
    scan found (quoteChar c ++ rest) = scan (pieceOf c :: found) rest := by
  by_cases hc : c.toNat < 32
  -- A control character is written as a letter or as its number.
  · by_cases hs : c ∈ ['\x08', '\x0c', '\n', '\r', '\t']
    · simp only [List.mem_cons, List.not_mem_nil, or_false] at hs
      rcases hs with rfl | rfl | rfl | rfl | rfl <;> simp [quoteChar, pieceOf, scan, escape?]
    · have hu := unit?_control ⟨c.toNat, hc⟩
      simp only [List.mem_cons, List.not_mem_nil, or_false, not_or] at hs
      obtain ⟨h8, hf, hn, hr, ht⟩ := hs
      have hq : c ≠ '"' := by rintro rfl; revert hc; decide
      have hb : c ≠ '\\' := by rintro rfl; revert hc; decide
      simp [quoteChar, pieceOf, scan, hc, hq, hb, h8, hf, hn, hr, ht, hu]
  -- Any other character stands for itself, unless it is a quote or a backslash.
  · by_cases hq : c = '"'
    · subst hq; simp [quoteChar, pieceOf, scan, escape?]
    · by_cases hb : c = '\\'
      · subst hb; simp [quoteChar, pieceOf, scan, escape?]
      · have h8 : c ≠ '\x08' := by rintro rfl; revert hc; decide
        have hf : c ≠ '\x0c' := by rintro rfl; revert hc; decide
        have hn : c ≠ '\n' := by rintro rfl; revert hc; decide
        have hr : c ≠ '\r' := by rintro rfl; revert hc; decide
        have ht : c ≠ '\t' := by rintro rfl; revert hc; decide
        simp only [quoteChar, pieceOf, hq, hb, h8, hf, hn, hr, ht, hc, if_false, false_and,
          List.cons_append, List.nil_append]
        exact scan_plain found rest hq hb (by omega)

/-- Scanning undoes quoting, whatever follows the string. -/
theorem scan_quote (found : List Piece) (cs rest : List Char) :
    scan found (cs.flatMap quoteChar ++ '"' :: rest)
      = some (found.reverse ++ cs.map pieceOf, rest) := by
  -- Piece by piece, since what follows a quoted character has no say in how it is scanned.
  induction cs generalizing found with
  | nil => simp [scan]
  | cons c cs ih => simp [scan_quoteChar, ih]

/-- The piece of a character stands for it, whatever follows. -/
theorem join_cons_pieceOf (c : Char) (ps : List Piece) :
    join (pieceOf c :: ps) = (join ps).map (c :: ·) := by
  by_cases h : c.toNat < 32 ∧ c ∉ ['\x08', '\x0c', '\n', '\r', '\t']
  · -- A control character is too small to be half of a surrogate pair.
    have : c.toNat < 0xD800 := by omega
    rw [pieceOf, if_pos h, join.eq_def]
    simp only [this, true_or, if_true, Char.ofNat_toNat]
  · rw [pieceOf, if_neg h, join]

/-- Pieces of characters are joined to these characters. -/
@[simp] theorem join_map_pieceOf (cs : List Char) : join (cs.map pieceOf) = some cs := by
  induction cs with
  | nil => rfl
  | cons c cs ih => rw [List.map_cons, join_cons_pieceOf, ih]; rfl

/-- The text of the pieces of a quoted string is that string. -/
@[simp] theorem ofPieces_map_pieceOf (s : String) :
    ofPieces (s.toList.map pieceOf) = some s := by
  simp [ofPieces]

end Str

end NandMachine.Json
