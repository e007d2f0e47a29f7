import NandMachine.Json.Document

/-!
# Texts of values

A text spells a value if it is cut into the tokens of the value, whatever the blanks in between and
however the strings are quoted, and the tokens of a whole value are put together to the value again.
Both forms of the text that is written for a value spell it. What is cut off at the end of a number
depends on what follows, so the tokens of a number are only known where it cannot go on. Everything
else ends with its last character.

## Key results

- `Token.scanWhole_toDigits`: the digits of a natural number are scanned to their end
- `Value.ofChars_chars`: the tokens of the text of a value
- `Value.foldl_tokens`: the value of a row of tokens
- `Value.Spelled.ofText_eq`: the document of a text that spells a value
- `Value.Plain.spelled`, `Value.Plain.spelled_chars`: both forms of the text of a value spell it,
  with blanks behind or without
-/

namespace NandMachine.Json

/-! ## Values without flaws -/

mutual

/-- Everything in the value has a text of its own: it is whole, its numbers are natural, and its
strings are without lone surrogates. -/
def Value.Plain : Value → Prop
  | .broken => False
  | .null | .bool _ => True
  | .number n => ∃ k, n = .ofNat k
  | .string s => s.isSome
  | .array items => items.Plain
  | .object members => members.Plain

/-- Everything in the items has a text of its own. -/
def Items.Plain : Items → Prop
  | .closed => True
  | .cut => False
  | .cons item rest => item.Plain ∧ rest.Plain

/-- Everything in the members has a text of its own. -/
def Members.Plain : Members → Prop
  | .closed => True
  | .cut => False
  | .cons key value rest => key.isSome ∧ value.Plain ∧ rest.Plain

end

mutual

/-- The tokens of a value. -/
def Value.tokens : Value → List Token
  | .broken => []
  | .null => [.null]
  | .bool b => [.bool b]
  | .number n => [.number n]
  | .string s => [.string s]
  | .array items => .leftBracket :: items.tokens true
  | .object members => .leftBrace :: members.tokens true

/-- The tokens of items and of the closing bracket; `first` says that no item is in front. -/
def Items.tokens (first : Bool) : Items → List Token
  | .closed => [.rightBracket]
  | .cut => []
  | .cons item rest => (if first then [] else [.comma]) ++ item.tokens ++ rest.tokens false

/-- The tokens of members and of the closing brace; `first` says that no member is in front. -/
def Members.tokens (first : Bool) : Members → List Token
  | .closed => [.rightBrace]
  | .cut => []
  | .cons key value rest =>
    (if first then [] else [.comma]) ++ .string key :: .colon :: value.tokens ++ rest.tokens false

end

namespace Token

/-! ## Cutting a text -/

@[simp] theorem ofChars_nil : ofChars [] = [] := by
  unfold ofChars
  rfl

/-- A blank in front of a text is passed over. -/
theorem ofChars_of_isBlank {c : Char} (h : isBlank c = true) (cs : List Char) :
    ofChars (c :: cs) = ofChars cs := by
  rw [ofChars, if_pos h]

/-- The token that is scanned at the front of a text comes first. -/
theorem ofChars_of_scan {c : Char} {cs rest : List Char} {t : Token} (h : isBlank c = false)
    (hscan : scan (c :: cs) = some (t, rest)) : ofChars (c :: cs) = t :: ofChars rest := by
  rw [ofChars, h, if_neg Bool.false_ne_true]
  -- The two outcomes of the scanner, of which the hypothesis leaves one.
  split
  · next hnone =>
    rw [hnone] at hscan
    cases hscan
  · next hsome =>
    rw [hsome] at hscan
    cases hscan
    rfl

/-- Any number of blanks in front of a text are passed over. -/
theorem ofChars_blanks_append {blanks : List Char} (h : ∀ c ∈ blanks, isBlank c = true)
    (cs : List Char) : ofChars (blanks ++ cs) = ofChars cs := by
  induction blanks with
  | nil => rfl
  | cons c blanks ih =>
    obtain ⟨hc, hblanks⟩ := List.forall_mem_cons.mp h
    rw [List.cons_append, ofChars_of_isBlank hc, ih hblanks]

/-- There is no token in a text of blanks. -/
theorem ofChars_of_blanks {blanks : List Char} (h : ∀ c ∈ blanks, isBlank c = true) :
    ofChars blanks = [] := by
  have happend := ofChars_blanks_append h []
  rwa [List.append_nil, ofChars_nil] at happend

/-- The start of a line is made of blanks. -/
@[simp] theorem ofChars_lineBreak (depth : Option Nat) (cs : List Char) :
    ofChars (lineBreak depth ++ cs) = ofChars cs := by
  cases depth with
  | none => rfl
  | some depth =>
    refine ofChars_blanks_append (List.forall_mem_cons.mpr ⟨rfl, fun c hc => ?_⟩) cs
    rw [List.eq_of_mem_replicate hc]
    rfl

/-- What stands behind a colon is made of blanks. -/
@[simp] theorem ofChars_keySpace (depth : Option Nat) (cs : List Char) :
    ofChars (keySpace depth ++ cs) = ofChars cs := by
  cases depth with
  | none => rfl
  | some depth => exact ofChars_of_isBlank rfl cs

theorem ofChars_leftBracket (cs : List Char) : ofChars ('[' :: cs) = leftBracket :: ofChars cs :=
  ofChars_of_scan rfl rfl

theorem ofChars_rightBracket (cs : List Char) : ofChars (']' :: cs) = rightBracket :: ofChars cs :=
  ofChars_of_scan rfl rfl

theorem ofChars_leftBrace (cs : List Char) : ofChars ('{' :: cs) = leftBrace :: ofChars cs :=
  ofChars_of_scan rfl rfl

theorem ofChars_rightBrace (cs : List Char) : ofChars ('}' :: cs) = rightBrace :: ofChars cs :=
  ofChars_of_scan rfl rfl

theorem ofChars_comma (cs : List Char) : ofChars (',' :: cs) = comma :: ofChars cs :=
  ofChars_of_scan rfl rfl

theorem ofChars_colon (cs : List Char) : ofChars (':' :: cs) = colon :: ofChars cs :=
  ofChars_of_scan rfl rfl

/-- A string in its quotes is a token. -/
theorem ofChars_quote {s : Str} (h : s.isSome) (cs : List Char) :
    ofChars (s.quote ++ cs) = string s :: ofChars cs := by
  obtain ⟨text, rfl⟩ := Option.isSome_iff_exists.mp h
  rw [Str.quote, List.cons_append, List.cons_append, List.append_assoc, List.singleton_append]
  refine ofChars_of_scan rfl ?_
  rw [scan, Str.scan_quote]
  simp

/-! ## Numbers -/

/-- A number in front of the text ends there. -/
def EndsNumber : List Char → Prop
  | [] => True
  | c :: _ => c.isDigit = false ∧ c ≠ '.' ∧ c ≠ 'e' ∧ c ≠ 'E'

/-- A number ends in front of blanks, and at the end of the text. -/
theorem endsNumber_of_blanks {cs : List Char} (h : ∀ c ∈ cs, isBlank c = true) :
    EndsNumber cs := by
  cases cs with
  | nil => trivial
  | cons c cs =>
    have hc := h c List.mem_cons_self
    simp only [isBlank, Bool.or_eq_true, beq_iff_eq] at hc
    rcases hc with ((rfl | rfl) | rfl) | rfl <;>
      exact ⟨rfl, by decide, by decide, by decide⟩

/-- Leading zeros are not written: a number that starts with a zero has no other digit. -/
theorem toDigits_eq_cons (n : Nat) :
    ∃ c cs, Nat.toDigits 10 n = c :: cs ∧ (c = '0' → cs = []) := by
  -- The induction is on the number without its last digit, which is where the first digit comes
  -- from.
  induction n using Nat.strongRecOn with
  | ind n ih =>
    by_cases hlt : n < 10
    · exact ⟨n.digitChar, [], Nat.toDigits_of_lt_base hlt, fun _ => rfl⟩
    · obtain ⟨c, cs, hdigits, hzero⟩ := ih (n / 10) (by omega)
      refine ⟨c, cs ++ [(n % 10).digitChar], ?_, fun hc => ?_⟩
      · rw [Nat.toDigits_of_base_le (by decide) (by omega), hdigits, List.cons_append]
      · -- The number without its last digit is at least 1, so its digits are not those of 0.
        have hvalue := Number.value_toDigits (n / 10)
        rw [hdigits, hc, hzero hc] at hvalue
        have : Number.value ['0'] = 0 := rfl
        omega

/-- The digits of a natural number are scanned to their end. -/
theorem scanWhole_toDigits (n : Nat) {rest : List Char} (h : EndsNumber rest) :
    scanWhole (Nat.toDigits 10 n ++ rest) = some (Nat.toDigits 10 n, rest) := by
  -- The rest gives no digit to the number, and loses none to it.
  have htake : rest.takeWhile Char.isDigit = [] := by
    cases rest with
    | nil => rfl
    | cons c cs => rw [List.takeWhile_cons, h.1, if_neg Bool.false_ne_true]
  have hdrop : rest.dropWhile Char.isDigit = rest := by
    cases rest with
    | nil => rfl
    | cons c cs => rw [List.dropWhile_cons, h.1, if_neg Bool.false_ne_true]
  have hall : ∀ c ∈ Nat.toDigits 10 n, c.isDigit := fun _ hc =>
    Nat.isDigit_of_mem_toDigits (by decide) (by decide) hc
  obtain ⟨c, cs, hdigits, hzero⟩ := toDigits_eq_cons n
  rw [hdigits] at hall ⊢
  obtain ⟨hc, hcs⟩ := List.forall_mem_cons.mp hall
  rw [List.cons_append, scanWhole]
  -- A zero in front stands alone; any other digit takes all digits behind it.
  split
  · next hc0 =>
    rw [hzero hc0, hc0, List.nil_append, htake]
    rfl
  · rw [List.takeWhile_append_of_pos hcs, List.dropWhile_append_of_pos hcs, htake, hdrop,
      List.append_nil]

/-- A natural number is written in its digits and nothing else. -/
@[simp] theorem chars_ofNat (n : Nat) : (Number.ofNat n).chars = Nat.toDigits 10 n := by
  simp [Number.chars, Number.ofNat]

/-- A natural number is scanned to its end, as a number without fraction and exponent. -/
theorem scanMagnitude_toDigits (n : Nat) {rest : List Char} (h : EndsNumber rest) :
    scanMagnitude false (Nat.toDigits 10 n ++ rest) = some (.ofNat n, rest) := by
  -- A rest that ends the number starts neither a fraction nor an exponent.
  have hfraction : scanFraction rest = some ([], rest) := by
    cases rest with
    | nil => rfl
    | cons c cs => rw [scanFraction, if_neg h.2.1]
  have hexponent : scanExponent rest = some (none, rest) := by
    cases rest with
    | nil => rfl
    | cons c cs => rw [scanExponent, if_neg (not_or.mpr h.2.2)]
  rw [scanMagnitude, scanWhole_toDigits n h]
  simp [hfraction, hexponent, Number.ofNat]

/-- Only a number starts with a digit. -/
theorem scan_of_isDigit {c : Char} (h : c.isDigit) (cs : List Char) :
    scan (c :: cs) = (scanMagnitude false (c :: cs)).map fun (n, rest) => (number n, rest) := by
  unfold scan
  split
  -- The last case of the scanner is that of numbers; the others begin with another character.
  case h_12 => rfl
  all_goals
    next heq =>
      cases heq
      exact absurd h (by decide)

/-- A digit is no blank. -/
theorem isBlank_of_isDigit {c : Char} (h : c.isDigit) : isBlank c = false := by
  by_cases hblank : isBlank c = true
  · simp only [isBlank, Bool.or_eq_true, beq_iff_eq] at hblank
    rcases hblank with ((rfl | rfl) | rfl) | rfl <;> exact absurd h (by decide)
  · exact Bool.eq_false_iff.mpr hblank

/-- The digits of a natural number are a token, where the number ends. -/
theorem ofChars_toDigits (n : Nat) {rest : List Char} (h : EndsNumber rest) :
    ofChars (Nat.toDigits 10 n ++ rest) = number (.ofNat n) :: ofChars rest := by
  have hscan := scanMagnitude_toDigits n h
  -- The scanner wants to see the first digit.
  obtain ⟨c, cs, hdigits, -⟩ := toDigits_eq_cons n
  have hc : c.isDigit :=
    Nat.isDigit_of_mem_toDigits (by decide) (by decide) (hdigits ▸ List.mem_cons_self)
  rw [hdigits, List.cons_append] at hscan ⊢
  refine ofChars_of_scan (isBlank_of_isDigit hc) ?_
  rw [scan_of_isDigit hc, hscan]
  rfl

end Token

/-! ## The tokens of a text -/

open Token (ofChars EndsNumber)

/-- Behind an item stands something else than a number. -/
theorem endsNumber_items (depth : Option Nat) {items : Items} (h : items.Plain) (cs : List Char) :
    EndsNumber (items.chars depth false ++ cs) := by
  cases items with
  | closed => cases depth <;> simp [Items.chars, lineBreak, EndsNumber]
  | cut => exact h.elim
  | cons item rest => simp [Items.chars, EndsNumber]

/-- Behind the value of a member stands something else than a number. -/
theorem endsNumber_members (depth : Option Nat) {members : Members} (h : members.Plain)
    (cs : List Char) : EndsNumber (members.chars depth false ++ cs) := by
  cases members with
  | closed => cases depth <;> simp [Members.chars, lineBreak, EndsNumber]
  | cut => exact h.elim
  | cons key value rest => simp [Members.chars, EndsNumber]

mutual

/-- Both forms of the text of a value are cut into the tokens of the value. -/
theorem Value.ofChars_chars {v : Value} (h : v.Plain) (depth : Option Nat) {cs : List Char}
    (hcs : EndsNumber cs) : ofChars (v.chars depth ++ cs) = v.tokens ++ ofChars cs := by
  cases v with
  | broken => exact h.elim
  | null => exact Token.ofChars_of_scan rfl rfl
  | bool b => cases b <;> exact Token.ofChars_of_scan rfl rfl
  | number n =>
    -- Only here does it matter what the text goes on with.
    obtain ⟨k, rfl⟩ := h
    rw [Value.chars, Token.chars_ofNat, Token.ofChars_toDigits k hcs]
    rfl
  | string s => exact Token.ofChars_quote h cs
  | array items =>
    rw [Value.chars, List.cons_append, Token.ofChars_leftBracket,
      Items.ofChars_chars h depth true cs]
    rfl
  | object members =>
    rw [Value.chars, List.cons_append, Token.ofChars_leftBrace,
      Members.ofChars_chars h depth true cs]
    rfl

/-- The text of items is cut into their tokens, whatever stands behind the bracket. -/
theorem Items.ofChars_chars {items : Items} (h : items.Plain) (depth : Option Nat) (first : Bool)
    (cs : List Char) :
    ofChars (items.chars depth first ++ cs) = items.tokens first ++ ofChars cs := by
  cases items with
  | closed =>
    cases first <;> simp [Items.chars, Items.tokens, Token.ofChars_rightBracket]
  | cut => exact h.elim
  | cons item rest =>
    -- The item is followed by a comma, by a line or by the bracket.
    have hitem := Value.ofChars_chars h.1 (depth.map (· + 1)) (endsNumber_items depth h.2 cs)
    have hrest := Items.ofChars_chars h.2 depth false cs
    cases first <;>
      simp [Items.chars, Items.tokens, Token.ofChars_comma, hitem, hrest]

/-- The text of members is cut into their tokens, whatever stands behind the brace. -/
theorem Members.ofChars_chars {members : Members} (h : members.Plain) (depth : Option Nat)
    (first : Bool) (cs : List Char) :
    ofChars (members.chars depth first ++ cs) = members.tokens first ++ ofChars cs := by
  cases members with
  | closed =>
    cases first <;> simp [Members.chars, Members.tokens, Token.ofChars_rightBrace]
  | cut => exact h.elim
  | cons key value rest =>
    -- A value ends in front of the next member as an item does in front of the next item.
    have hvalue := Value.ofChars_chars h.2.1 (depth.map (· + 1)) (endsNumber_members depth h.2.2 cs)
    have hrest := Members.ofChars_chars h.2.2 depth false cs
    cases first <;>
      simp [Members.chars, Members.tokens, Token.ofChars_comma, Token.ofChars_colon,
        Token.ofChars_quote h.1, hvalue, hrest]

end

/-! ## The value of a row of tokens -/

/-- Items are whole if the first one is and the others are. -/
theorem Items.whole_cons {item : Value} {rest : Items} :
    (Items.cons item rest).whole = true ↔ item.whole = true ∧ rest.whole = true := by
  rw [whole, Bool.and_eq_true]

/-- Members are whole if the value of the first one is and the others are. -/
theorem Members.whole_cons {key : Str} {value : Value} {rest : Members} :
    (Members.cons key value rest).whole = true ↔ value.whole = true ∧ rest.whole = true := by
  rw [whole, Bool.and_eq_true]

mutual

/-- Nothing is wrong with what has a text of its own. -/
theorem Value.Plain.whole {v : Value} (h : v.Plain) : v.whole = true := by
  cases v with
  | broken => exact h.elim
  | null | bool | number | string => rfl
  | array items => exact Items.Plain.whole h
  | object members => exact Members.Plain.whole h

/-- Nothing is wrong with items that have a text of their own. -/
theorem Items.Plain.whole {items : Items} (h : items.Plain) : items.whole = true := by
  cases items with
  | closed => rfl
  | cut => exact h.elim
  | cons item rest => exact Items.whole_cons.mpr ⟨Value.Plain.whole h.1, Items.Plain.whole h.2⟩

/-- Nothing is wrong with members that have a text of their own. -/
theorem Members.Plain.whole {members : Members} (h : members.Plain) : members.whole = true := by
  cases members with
  | closed => rfl
  | cut => exact h.elim
  | cons key value rest =>
    exact Members.whole_cons.mpr ⟨Value.Plain.whole h.2.1, Members.Plain.whole h.2.2⟩

end

namespace State

/-- The end of an array is no item, so a value is read in the same way whether or not it is the
first item. -/
theorem foldl_firstItem {v : Value} (h : v.whole = true) (frames : List Frame) (ts : List Token) :
    (v.tokens ++ ts).foldl next (firstItem frames) =
      (v.tokens ++ ts).foldl next (value (.array [] :: frames)) := by
  cases v with
  | broken => exact absurd h Bool.false_ne_true
  | null | bool | number | string | array | object => rfl

end State

open State (next deliver)

mutual

/-- Where a value is due, the tokens of a value put it there. -/
theorem Value.foldl_tokens {v : Value} (h : v.whole = true) (frames : List Frame) :
    v.tokens.foldl next (.value frames) = deliver v frames := by
  cases v with
  | broken => exact absurd h Bool.false_ne_true
  | null | bool | number | string => rfl
  | array items => exact Items.foldl_tokens_first h frames
  | object members => exact Members.foldl_tokens_first h frames

/-- Where an array has been opened, the tokens of items complete it. -/
theorem Items.foldl_tokens_first {items : Items} (h : items.whole = true) (frames : List Frame) :
    (items.tokens true).foldl next (.firstItem frames) = deliver (.array items) frames := by
  cases items with
  | closed => rfl
  | cut => exact absurd h Bool.false_ne_true
  | cons item rest =>
    obtain ⟨hitem, hrest⟩ := Items.whole_cons.mp h
    rw [Items.tokens, if_pos rfl, List.nil_append, State.foldl_firstItem hitem, List.foldl_append,
      Value.foldl_tokens hitem]
    exact Items.foldl_tokens_behind hrest [item] frames

/-- Behind some items, the tokens of the others complete the array. -/
theorem Items.foldl_tokens_behind {rest : Items} (h : rest.whole = true) (items : List Value)
    (frames : List Frame) :
    (rest.tokens false).foldl next (.afterItem items frames) =
      deliver (.array (.ofReversed items rest)) frames := by
  cases rest with
  | closed => rfl
  | cut => exact absurd h Bool.false_ne_true
  | cons item rest =>
    obtain ⟨hitem, hrest⟩ := Items.whole_cons.mp h
    rw [Items.tokens, if_neg Bool.false_ne_true, List.foldl_append, List.singleton_append,
      List.foldl_cons]
    -- Behind the comma a value is due, in front of which there are the items so far.
    show (rest.tokens false).foldl next
      (item.tokens.foldl next (.value (.array items :: frames))) = _
    rw [Value.foldl_tokens hitem]
    exact Items.foldl_tokens_behind hrest (item :: items) frames

/-- Where an object has been opened, the tokens of members complete it. -/
theorem Members.foldl_tokens_first {members : Members} (h : members.whole = true)
    (frames : List Frame) :
    (members.tokens true).foldl next (.firstKey frames) = deliver (.object members) frames := by
  cases members with
  | closed => rfl
  | cut => exact absurd h Bool.false_ne_true
  | cons key value rest =>
    obtain ⟨hvalue, hrest⟩ := Members.whole_cons.mp h
    rw [Members.tokens, if_pos rfl, List.nil_append, List.cons_append, List.cons_append,
      List.foldl_cons, List.foldl_cons, List.foldl_append]
    -- Behind the key and the colon a value is due.
    show (rest.tokens false).foldl next
      (value.tokens.foldl next (.value (.object [] key :: frames))) = _
    rw [Value.foldl_tokens hvalue]
    exact Members.foldl_tokens_behind hrest [(key, value)] frames

/-- Behind some members, the tokens of the others complete the object. -/
theorem Members.foldl_tokens_behind {rest : Members} (h : rest.whole = true)
    (members : List (Str × Value)) (frames : List Frame) :
    (rest.tokens false).foldl next (.afterMember members frames) =
      deliver (.object (.ofReversed members rest)) frames := by
  cases rest with
  | closed => rfl
  | cut => exact absurd h Bool.false_ne_true
  | cons key value rest =>
    obtain ⟨hvalue, hrest⟩ := Members.whole_cons.mp h
    rw [Members.tokens, if_neg Bool.false_ne_true, List.singleton_append, List.cons_append,
      List.cons_append, List.cons_append, List.foldl_cons, List.foldl_cons, List.foldl_cons,
      List.foldl_append]
    -- Behind the comma, the key and the colon a value is due.
    show (rest.tokens false).foldl next
      (value.tokens.foldl next (.value (.object members key :: frames))) = _
    rw [Value.foldl_tokens hvalue]
    exact Members.foldl_tokens_behind hrest ((key, value) :: members) frames

end

/-! ## Documents -/

/-- A text spells a value with nothing wrong in it: it is cut into the tokens of the value. -/
structure Value.Spelled (v : Value) (text : String) : Prop where
  whole : v.whole = true
  tokens : Token.ofChars text.toList = v.tokens

/-- The document of a text that spells a value is that value, with nothing behind it. -/
theorem Value.Spelled.ofText_eq {v : Value} {text : String} (h : v.Spelled text) :
    Document.ofText text = ⟨v, true⟩ := by
  rw [Document.ofText, h.tokens, Document.ofTokens, Value.foldl_tokens h.whole]
  rfl

/-- Both forms of the text of a value spell it, also with blanks behind. -/
theorem Value.Plain.spelled {v : Value} (h : v.Plain) (depth : Option Nat) {blanks : List Char}
    (hblanks : ∀ c ∈ blanks, Token.isBlank c = true) :
    v.Spelled (String.ofList (v.chars depth ++ blanks)) := by
  refine ⟨Value.Plain.whole h, ?_⟩
  rw [String.toList_ofList, Value.ofChars_chars h depth (Token.endsNumber_of_blanks hblanks),
    Token.ofChars_of_blanks hblanks, List.append_nil]

/-- Both forms of the text of a value spell it. -/
theorem Value.Plain.spelled_chars {v : Value} (h : v.Plain) (depth : Option Nat) :
    v.Spelled (String.ofList (v.chars depth)) := by
  have hspelled := h.spelled depth (List.forall_mem_nil _)
  rwa [List.append_nil] at hspelled

end NandMachine.Json
