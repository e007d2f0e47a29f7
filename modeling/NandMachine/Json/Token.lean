import NandMachine.Json.Number
import NandMachine.Json.Str

/-!
# JSON tokens

`Token.ofChars` cuts a text into tokens. Where the text goes on with something that is no token,
the row of tokens ends with `bad`; a text that simply stops has no such mark.
-/

namespace NandMachine.Json

/-- The words of JSON text. -/
inductive Token
  | leftBracket
  | rightBracket
  | leftBrace
  | rightBrace
  | comma
  | colon
  | null
  | bool (b : Bool)
  | number (n : Number)
  | string (s : Str)
  /-- No token; nothing behind it is looked at. -/
  | bad
deriving DecidableEq

namespace Token

/-! ### Numbers -/

/-- The digits in front of the point; a leading zero stands alone. -/
def scanWhole : List Char → Option (List Char × List Char)
  | [] => none
  | c :: rest =>
    if c = '0' then
      -- A digit behind a leading zero is no number at all.
      if (rest.takeWhile Char.isDigit).isEmpty then some (['0'], rest) else none
    else if c.isDigit then some (c :: rest.takeWhile Char.isDigit, rest.dropWhile Char.isDigit)
    else none

/-- The point and the digits behind it, of which there is at least one. -/
def scanFraction : List Char → Option (List Char × List Char)
  | [] => some ([], [])
  | c :: rest =>
    if c = '.' then
      if (rest.takeWhile Char.isDigit).isEmpty then none
      else some (rest.takeWhile Char.isDigit, rest.dropWhile Char.isDigit)
    else some ([], c :: rest)

/-- The sign of an exponent; none counts as plus. -/
def scanSign : List Char → Bool × List Char
  | '+' :: rest => (false, rest)
  | '-' :: rest => (true, rest)
  | cs => (false, cs)

/-- The exponent with its sign and its digits, of which there is at least one. -/
def scanExponent : List Char → Option (Option (Bool × List Char) × List Char)
  | [] => some (none, [])
  | c :: rest =>
    if c = 'e' ∨ c = 'E' then
      let (negative, rest) := scanSign rest
      if (rest.takeWhile Char.isDigit).isEmpty then none
      else some (some (negative, rest.takeWhile Char.isDigit), rest.dropWhile Char.isDigit)
    else some (none, c :: rest)

/-- A number without its minus sign. -/
def scanMagnitude (negative : Bool) (cs : List Char) : Option (Number × List Char) := do
  let (whole, cs) ← scanWhole cs
  let (fraction, cs) ← scanFraction cs
  let (exponent, cs) ← scanExponent cs
  return (⟨negative, whole, fraction, exponent⟩, cs)

/-! ### Tokens -/

/-- The token at the front of a text that starts with no blank, and the text behind it. -/
def scan : List Char → Option (Token × List Char)
  | '[' :: rest => some (leftBracket, rest)
  | ']' :: rest => some (rightBracket, rest)
  | '{' :: rest => some (leftBrace, rest)
  | '}' :: rest => some (rightBrace, rest)
  | ',' :: rest => some (comma, rest)
  | ':' :: rest => some (colon, rest)
  | '"' :: rest => (Str.scan [] rest).map fun (ps, rest) => (string (Str.ofPieces ps), rest)
  | '-' :: rest => (scanMagnitude true rest).map fun (n, rest) => (number n, rest)
  | 'n' :: 'u' :: 'l' :: 'l' :: rest => some (null, rest)
  | 't' :: 'r' :: 'u' :: 'e' :: rest => some (bool true, rest)
  | 'f' :: 'a' :: 'l' :: 's' :: 'e' :: rest => some (bool false, rest)
  | cs => (scanMagnitude false cs).map fun (n, rest) => (number n, rest)

/-- The characters that may stand between tokens. -/
def isBlank (c : Char) : Bool := c == ' ' || c == '\t' || c == '\n' || c == '\r'

/-! ### A token takes up text -/

/-- The digits in front of the point take up a character at least. -/
theorem length_scanWhole {cs ds rest : List Char} (h : scanWhole cs = some (ds, rest)) :
    rest.length < cs.length := by
  cases cs with
  | nil => simp [scanWhole] at h
  | cons c cs =>
    have := (List.dropWhile_sublist Char.isDigit (l := cs)).length_le
    simp only [scanWhole] at h
    -- A zero stands alone; any other digit goes on with those behind it.
    split at h
    · split at h
      · simp only [Option.some.injEq, Prod.mk.injEq] at h
        simp [← h.2]
      · simp at h
    · split at h
      · simp only [Option.some.injEq, Prod.mk.injEq] at h
        rw [← h.2, List.length_cons]
        omega
      · simp at h

/-- A fraction takes up characters or none. -/
theorem length_scanFraction {cs ds rest : List Char} (h : scanFraction cs = some (ds, rest)) :
    rest.length ≤ cs.length := by
  cases cs with
  | nil => simp_all [scanFraction]
  | cons c cs =>
    have := (List.dropWhile_sublist Char.isDigit (l := cs)).length_le
    simp only [scanFraction] at h
    split at h
    · split at h
      · simp at h
      · simp only [Option.some.injEq, Prod.mk.injEq] at h
        rw [← h.2, List.length_cons]
        omega
    · simp only [Option.some.injEq, Prod.mk.injEq] at h
      simp [← h.2]

/-- A sign takes up a character or none. -/
theorem length_scanSign (cs : List Char) : (scanSign cs).2.length ≤ cs.length := by
  rw [scanSign.eq_def]
  split <;> simp

/-- An exponent takes up characters or none. -/
theorem length_scanExponent {cs rest : List Char} {e : Option (Bool × List Char)}
    (h : scanExponent cs = some (e, rest)) : rest.length ≤ cs.length := by
  cases cs with
  | nil => simp_all [scanExponent]
  | cons c cs =>
    -- The sign and the digits are both taken from the front of what is left.
    have h₁ := length_scanSign cs
    have h₂ := (List.dropWhile_sublist Char.isDigit (l := (scanSign cs).2)).length_le
    simp only [scanExponent] at h
    split at h
    · split at h
      · simp at h
      · simp only [Option.some.injEq, Prod.mk.injEq] at h
        rw [← h.2, List.length_cons]
        omega
    · simp only [Option.some.injEq, Prod.mk.injEq] at h
      simp [← h.2]

/-- A number takes up a character at least. -/
theorem length_scanMagnitude {negative : Bool} {cs rest : List Char} {n : Number}
    (h : scanMagnitude negative cs = some (n, rest)) : rest.length < cs.length := by
  simp only [scanMagnitude, Option.bind_eq_bind, Option.bind_eq_some_iff, Option.pure_def,
    Option.some.injEq, Prod.mk.injEq, Prod.exists] at h
  obtain ⟨_, r₁, h₁, _, r₂, h₂, _, r₃, h₃, _, rfl⟩ := h
  have := length_scanWhole h₁
  have := length_scanFraction h₂
  have := length_scanExponent h₃
  omega

end Token

/-- The closing quote of a string takes up a character at least. -/
theorem Str.length_scan {found ps : List Str.Piece} {cs rest : List Char}
    (h : Str.scan found cs = some (ps, rest)) : rest.length < cs.length := by
  fun_induction Str.scan found cs <;> simp only [List.length_cons, List.length_nil] <;> grind

namespace Token

/-- A token takes up a character at least, so a text has an end of its tokens. -/
theorem length_scan {cs rest : List Char} {t : Token} (h : scan cs = some (t, rest)) :
    rest.length < cs.length := by
  have string_case : ∀ {cs' : List Char},
      (Str.scan [] cs').map (fun (ps, rest) => (string (Str.ofPieces ps), rest))
        = some (t, rest) → rest.length < cs'.length := by
    intro cs' h
    obtain ⟨⟨ps, r⟩, hs, he⟩ := Option.map_eq_some_iff.mp h
    obtain ⟨_, rfl⟩ := Prod.mk.injEq .. ▸ he
    exact Str.length_scan hs
  have number_case : ∀ {negative : Bool} {cs' : List Char},
      (scanMagnitude negative cs').map (fun (n, rest) => (number n, rest)) = some (t, rest) →
        rest.length < cs'.length := by
    intro negative cs' h
    obtain ⟨⟨n, r⟩, hs, he⟩ := Option.map_eq_some_iff.mp h
    obtain ⟨_, rfl⟩ := Prod.mk.injEq .. ▸ he
    exact length_scanMagnitude hs
  rw [scan.eq_def] at h
  split at h
  -- Only strings and numbers are longer than the characters that the scanner matches.
  case h_7 => exact Nat.lt_succ_of_lt (string_case h)
  case h_8 => exact Nat.lt_succ_of_lt (number_case h)
  case h_12 => exact number_case h
  all_goals
    simp only [Option.some.injEq, Prod.mk.injEq] at h
    simp only [← h.2, List.length_cons]
    omega

/-- The tokens of a text. -/
def ofChars : List Char → List Token
  | [] => []
  | c :: cs =>
    if isBlank c then ofChars cs
    else match _h : scan (c :: cs) with
      -- What follows is not looked at, so nothing comes behind this token.
      | none => [bad]
      | some (t, rest) => t :: ofChars rest
termination_by cs => cs.length
decreasing_by
  · simp
  · exact length_scan _h

end Token

end NandMachine.Json
