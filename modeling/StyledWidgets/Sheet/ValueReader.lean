/-
Module: StyledWidgets.Sheet.ValueReader
Purpose: The values written behind the colon of a declaration.
Main exports: ValueToken, valueTokens, Value.ofWord?, Value.ofCall?, readValues
-/
import StyledWidgets.Sheet.Alpha
import StyledWidgets.Sheet.Property
import StyledWidgets.Sheet.Value

namespace StyledWidgets.Sheet

open StyledWidgets.Text

/-! ### Tokens -/

/-- A piece of the text of a declaration. -/
inductive ValueToken where
  /-- The raw text between two equal quotes. -/
  | quoted (text : List Char)
  /-- A run of characters up to white space, a comma or a parenthesis. -/
  | word (text : List Char)
  /-- A word right before an opening parenthesis, and the raw text up to the closing one. -/
  | call (name arguments : List Char)
  deriving Repr, DecidableEq, Inhabited

/-- Where the reading of tokens stands. -/
inductive ValueScan where
  | between
  | inQuotes (quote : Char) (sofar : List Char)
  | inWord (sofar : List Char)
  | inCall (name sofar : List Char)
  deriving Repr, DecidableEq, Inhabited

/-- Blanks and commas separate tokens. -/
def separatesValues (c : Char) : Bool := isSpace c || c == ','

/-- Read tokens one character at a time. Quotes and parentheses that stay open reach to the end
of the text; a quote inside a word is an ordinary character. -/
def scanValues : ValueScan → List Char → List ValueToken
  | .between, [] => []
  | .inQuotes _ sofar, [] => [.quoted sofar]
  | .inWord sofar, [] => [.word sofar]
  | .inCall name sofar, [] => [.call name sofar]
  | .between, c :: rest =>
      if separatesValues c then scanValues .between rest
      else if c = '"' ∨ c = '\'' then scanValues (.inQuotes c []) rest
      else if c = '(' then scanValues (.inCall [] []) rest
      else scanValues (.inWord [c]) rest
  | .inQuotes quote sofar, c :: rest =>
      if c = quote then .quoted sofar :: scanValues .between rest
      else scanValues (.inQuotes quote (sofar ++ [c])) rest
  | .inWord sofar, c :: rest =>
      if separatesValues c then .word sofar :: scanValues .between rest
      else if c = '(' then scanValues (.inCall sofar []) rest
      else scanValues (.inWord (sofar ++ [c])) rest
  | .inCall name sofar, c :: rest =>
      if c = ')' then .call name sofar :: scanValues .between rest
      else scanValues (.inCall name (sofar ++ [c])) rest

/-- The tokens of a text. -/
def valueTokens (text : List Char) : List ValueToken := scanValues .between text

/-! ### Single values -/

/-- The text starts like a number: with a digit, or with a sign or a point before a digit or a
point. -/
def startsNumber : List Char → Bool
  | first :: rest =>
      first.isDigit ||
        ((first == '-' || first == '+' || first == '.') &&
          match rest with
          | second :: _ => second.isDigit || second == '.'
          | [] => false)
  | [] => false

/-- The text before a final `px`. -/
def beforePx? (text : List Char) : Option (List Char) :=
  match text.reverse with
  | 'x' :: 'p' :: before => some before.reverse
  | _ => none

/-- Cut a text at every occurrence of a character. -/
def splitAll (separator : Char) (text : List Char) : List (List Char) := text.splitOn separator

/-- A channel written as a whole number, clamped to its range. -/
def channelOfInt (text : List Char) : UInt8 :=
  UInt8.ofNat (max 0 (min 255 (lenientInt text))).toNat

/-- The color written by the arguments of `rgb` or `rgba`: three channels and an optional alpha.
Further arguments are ignored. -/
def colorOfArguments? (arguments : List Char) : Option Color :=
  match (splitAll ',' arguments).map trim with
  | red :: green :: blue :: rest =>
      let alpha :=
        match rest with
        | alpha :: _ => alphaOf alpha
        | [] => 255
      some ⟨channelOfInt red, channelOfInt green, channelOfInt blue, alpha⟩
  | _ => none

/-- The text between two quotes of the given kind that stand at its two ends. -/
def between? (quote : Char) (text : List Char) : Option (List Char) :=
  match text with
  | first :: rest =>
      if first = quote then
        match rest.reverse with
        | last :: inner => if last = quote then some inner.reverse else none
        | [] => none
      else none
  | [] => none

/-- Take the quotes off a text that is quoted at both ends. -/
def unquoted (text : List Char) : List Char :=
  ((between? '"' text).or (between? '\'' text)).getD text

namespace Value

/-- The value of a word: a color behind a hash, a length or a number, a keyword, or the name of a
color. -/
def ofWord? (word : List Char) : Option Value :=
  match word with
  | '#' :: digits => (Color.ofHex? digits).map .color
  | _ =>
      if startsNumber word then
        match beforePx? (lower word) with
        | some size => some (.length (lenientInt size))
        | none => some (.number (lenientInt word))
      else
        match Keyword.ofName? word with
        | some known => some (.keyword known)
        | none => (Color.ofName? word).map .color

/-- The value of a function: a color, or a location with or without quotes. -/
def ofCall? (name arguments : List Char) : Option Value :=
  let known := String.ofList (lower name)
  if known = "rgb" ∨ known = "rgba" then (colorOfArguments? arguments).map .color
  else if known = "url" then some (.uri (String.ofList (unquoted (trim arguments))))
  else none

/-- The value of a token, if it is one of its own. -/
def ofToken? : ValueToken → Option Value
  | .quoted _ => none
  | .word word => ofWord? word
  | .call name arguments => ofCall? name arguments

end Value

/-! ### All values of a declaration -/

/-- The text that a token contributes to the free text of a font. -/
def ValueToken.freeText? : ValueToken → Option (List Char)
  | .quoted text => some text
  | .word text => if (Value.ofWord? text).isNone then some text else none
  | .call _ _ => none

/-- Drop the quotes of both kinds at both ends. -/
def trimQuotes (text : List Char) : List Char :=
  let isQuote := fun c => c == '"' || c == '\''
  ((text.dropWhile isQuote).reverse.dropWhile isQuote).reverse

/-- The family named by a whole text. -/
def readFamily (text : List Char) : List Value :=
  let family := trim (trimQuotes (trim text))
  if family = [] then [] else [.string (String.ofList family)]

/-- The values of a declaration of a property. Tokens without a value are dropped, except that a
font keeps them: joined by spaces they become its last value. A font family takes the whole text
as its only value. -/
def readValues (property : Property) (text : List Char) : List Value :=
  match property with
  | .fontFamily => readFamily text
  | _ =>
      let tokens := valueTokens text
      let values := tokens.filterMap Value.ofToken?
      let free := if property.acceptsText then tokens.filterMap ValueToken.freeText? else []
      if free = [] then values
      else values ++ [.string (String.ofList (List.intercalate [' '] free))]

end StyledWidgets.Sheet
