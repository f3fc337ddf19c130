/-
Module: StyledWidgets.Text.Exposed
Purpose: Which characters of a text are exposed, that is, neither escaped by a backslash nor part
  of a quoted string, and the cutting of a text at exposed separators.
Main exports: opensString, stringLength, Mark, mark, splitExposed, cutExposed
-/

namespace StyledWidgets.Text

/-- A quote opens a string only at the start of a text or right after a character that ends a
word, so the apostrophe of `it's` is plain text. -/
def opensString (before : Option Char) (c : Char) : Bool :=
  (c == '"' || c == '\'') &&
    match before with
    | none => true
    | some b =>
        b == ' ' || b == '\t' || b == '\n' || b == '\r' || b == ':' || b == ',' || b == '(' ||
          b == '\x7b' || b == ';'

/-- The number of characters from after an opening quote through the matching closing one. A
string that reaches a line break, a brace or the end of the text is not closed. A backslash takes
the next character with it. -/
def stringLength (quote : Char) : List Char → Option Nat
  | [] => none
  | '\\' :: _ :: rest => (stringLength quote rest).map (· + 2)
  | c :: rest =>
      if c = quote then some 1
      else if c = '\n' ∨ c = '\x7b' ∨ c = '\x7d' then none
      else (stringLength quote rest).map (· + 1)

/-- A character of a text together with whether it is exposed. -/
structure Mark where
  char : Char
  exposed : Bool
  deriving Repr, DecidableEq, Inhabited

namespace Mark

/-- The mark is the given character, exposed. -/
def isExposed (m : Mark) (c : Char) : Bool := m.exposed && m.char == c

end Mark

/-- Mark the characters of a text. `before` is the preceding character, and the next `shielded`
characters are hidden by an escape or a string that has been opened already. A quote that opens
no closed string is exposed like any other character. -/
def mark (before : Option Char) (shielded : Nat) : List Char → List Mark
  | [] => []
  | c :: rest =>
      match shielded with
      | left + 1 => ⟨c, false⟩ :: mark (some c) left rest
      | 0 =>
          if c = '\\' then ⟨c, false⟩ :: mark (some c) 1 rest
          else
            match if opensString before c then stringLength c rest else none with
            | some length => ⟨c, false⟩ :: mark (some c) length rest
            | none => ⟨c, true⟩ :: mark (some c) 0 rest

/-- Mark the characters of a text that stands on its own. -/
def marks (text : List Char) : List Mark := mark none 0 text

/-- The characters of a marked text. -/
def unmarked (marked : List Mark) : List Char := marked.map Mark.char

/-- Cut a marked text at its exposed separators. There is always at least one piece. -/
def splitMarked (separator : Char) : List Mark → List (List Char)
  | [] => [[]]
  | m :: rest =>
      let pieces := splitMarked separator rest
      if m.isExposed separator then [] :: pieces
      else
        match pieces with
        | [] => [[m.char]]
        | piece :: later => (m.char :: piece) :: later

/-- Cut a text at its exposed separators. -/
def splitExposed (separator : Char) (text : List Char) : List (List Char) :=
  splitMarked separator (marks text)

/-- The marked text before and after the first exposed occurrence of a character. -/
def cutMarked (needle : Char) : List Mark → Option (List Char × List Mark)
  | [] => none
  | m :: rest =>
      if m.isExposed needle then some ([], rest)
      else (cutMarked needle rest).map fun (found, later) => (m.char :: found, later)

/-- The text before and after the first exposed occurrence of a character. -/
def cutExposed (needle : Char) (text : List Char) : Option (List Char × List Char) :=
  (cutMarked needle (marks text)).map fun (found, later) => (found, unmarked later)

/-! ### Marking and cutting lose nothing -/

theorem unmarked_mark (before : Option Char) (shielded : Nat) (text : List Char) :
    unmarked (mark before shielded text) = text := by
  induction text generalizing before shielded with
  | nil => simp [mark, unmarked]
  | cons c rest ih =>
      have step : ∀ b k, (mark b k rest).map Mark.char = rest := ih
      unfold mark
      split
      · simp [unmarked, step]
      · split
        · simp [unmarked, step]
        · split <;> simp [unmarked, step]

theorem splitMarked_ne_nil (separator : Char) (marked : List Mark) :
    splitMarked separator marked ≠ [] := by
  cases marked with
  | nil => simp [splitMarked]
  | cons m rest =>
      simp only [splitMarked]
      split
      · simp
      · split <;> simp

end StyledWidgets.Text
