/-
Module: StyledWidgets.Text.Blank
Purpose: The two notions of white space: the Unicode property, by which text is trimmed, and the
  five ASCII characters that separate the words of a style sheet.
Main exports: isBlank, isSpace, trimStart, trimEnd, trim
-/

namespace StyledWidgets.Text

/-- The ranges of code points with the Unicode property `White_Space`, ascending. -/
def blankRanges : List (Nat × Nat) :=
  [(0x09, 0x0D), (0x20, 0x20), (0x85, 0x85), (0xA0, 0xA0), (0x1680, 0x1680), (0x2000, 0x200A),
    (0x2028, 0x2029), (0x202F, 0x202F), (0x205F, 0x205F), (0x3000, 0x3000)]

/-- The character has the Unicode property `White_Space`. -/
def isBlank (c : Char) : Bool :=
  blankRanges.any fun range => decide (range.1 ≤ c.toNat ∧ c.toNat ≤ range.2)

/-- The character separates words: space, tab, line feed, form feed or carriage return. -/
def isSpace (c : Char) : Bool :=
  c == ' ' || c == '\t' || c == '\n' || c == '\x0c' || c == '\r'

/-- Drop the blank characters at the start. -/
def trimStart (text : List Char) : List Char := text.dropWhile isBlank

/-- Drop the blank characters at the end. -/
def trimEnd (text : List Char) : List Char := (text.reverse.dropWhile isBlank).reverse

/-- Drop the blank characters at both ends. -/
def trim (text : List Char) : List Char := trimEnd (trimStart text)

/-- Drop the blank characters at both ends. -/
def trimmed (text : String) : String := String.ofList (trim text.toList)

/-- Lower the ASCII letters and keep everything else. -/
def lower (text : List Char) : List Char := text.map Char.toLower

end StyledWidgets.Text
