import NandMachine.Text.Quoted

/-!
# Text for a terminal

A line of a log may hold foreign text, such as a path. The control characters with which that text
could steer a terminal are spelled out; all others, line feeds and tabs among them, are written as
they are. `isSteering_of_mem_forTerminal` says that nothing is left that could steer a terminal.

A text that is written with a line feed behind it takes up one line for each line feed. A carriage
return in front of a line feed belongs to the end of the line and not to its text.
-/

namespace NandMachine.Text

/-- Bell, backspace, form feed and escape; delete, and the control characters behind it. -/
def isSteering (c : Char) : Bool :=
  c == '\x07' || c == '\x08' || c == '\x0c' || c == '\x1b' || (0x7F ≤ c.toNat && c.toNat ≤ 0x9F)

/-- A character of a log line. One of seven bits is spelled out with two digits. -/
def terminalChar (c : Char) : List Char :=
  if !isSteering c then [c]
  else if c.toNat < 0x80 then
    ['\\', 'x', Nat.digitChar (c.toNat / 16), Nat.digitChar (c.toNat % 16)]
  else byNumber c

/-- A text with everything spelled out that could steer a terminal. -/
def forTerminal (s : String) : String :=
  String.ofList (s.toList.flatMap terminalChar)

/-- A line without the carriage return that may stand at its end. -/
def lineText (line : List Char) : List Char :=
  if line.getLast? = some '\r' then line.dropLast else line

/-- The lines that a text takes up when a line feed is written behind it. -/
def lines (s : String) : List String :=
  (s.toList.splitOn '\n').map fun line => String.ofList (lineText line)

/-! ### Nothing that steers is left -/

/-- All steering characters are among the first 160. -/
theorem lt_of_isSteering {c : Char} (h : isSteering c = true) : c.toNat < 160 := by
  simp only [isSteering, Bool.or_eq_true, beq_iff_eq, Bool.and_eq_true, decide_eq_true_eq] at h
  rcases h with (((rfl | rfl) | rfl) | rfl) | h
  · decide
  · decide
  · decide
  · decide
  · omega

/-- What a character below 160 is written as does not steer. -/
theorem all_terminalChar_ofNat :
    ((List.range 160).all fun k => (terminalChar (Char.ofNat k)).all fun d => !isSteering d)
      = true := by
  decide +kernel

/-- No character steers that stands for a character of a log line. -/
theorem isSteering_of_mem_terminalChar {c d : Char} (h : d ∈ terminalChar c) :
    isSteering d = false := by
  -- A steering character is one of 160, for which the table above has the answer; any other one
  -- stands for itself.
  by_cases hc : isSteering c = true
  · have below := List.all_eq_true.mp all_terminalChar_ofNat c.toNat
      (List.mem_range.mpr (lt_of_isSteering hc))
    rw [Char.ofNat_toNat] at below
    simpa using List.all_eq_true.mp below d h
  · rw [terminalChar, if_pos (by simpa using hc), List.mem_singleton] at h
    rw [h]
    exact Bool.eq_false_iff.mpr hc

/-- No character of a log line steers a terminal. -/
theorem isSteering_of_mem_forTerminal {s : String} {d : Char} (h : d ∈ (forTerminal s).toList) :
    isSteering d = false := by
  rw [forTerminal, String.toList_ofList, List.mem_flatMap] at h
  obtain ⟨c, _, hd⟩ := h
  exact isSteering_of_mem_terminalChar hd

end NandMachine.Text
