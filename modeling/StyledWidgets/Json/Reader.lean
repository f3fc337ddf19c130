/-
Module: StyledWidgets.Json.Reader
Purpose: The strict reading of JSON documents: no comments, no trailing commas, no control
  characters in strings.
Main exports: readJson?
-/
import StyledWidgets.Json.Value
import StyledWidgets.Sheet.Color

namespace StyledWidgets.JsonReader

/-! ### Strings -/

/-- A unit of a string: a character, or a 16-bit code written as an escape that belongs to a
surrogate pair. -/
inductive StringUnit where
  | char (c : Char)
  | half (code : Nat)
  deriving Repr, DecidableEq, Inhabited

/-- The code is the first of a surrogate pair. -/
def isHighHalf (code : Nat) : Bool := decide (0xD800 ≤ code ∧ code < 0xDC00)

/-- The code is the second of a surrogate pair. -/
def isLowHalf (code : Nat) : Bool := decide (0xDC00 ≤ code ∧ code < 0xE000)

/-- The unit of a 16-bit code. -/
def unitOf (code : Nat) : StringUnit :=
  if isHighHalf code || isLowHalf code then .half code else .char (Char.ofNat code)

/-- The code written by four hexadecimal digits. -/
def codeOf? (a b c d : Char) : Option Nat := do
  let a ← Sheet.hexValue? a
  let b ← Sheet.hexValue? b
  let c ← Sheet.hexValue? c
  let d ← Sheet.hexValue? d
  return ((a * 16 + b) * 16 + c) * 16 + d

/-- The character of a one-letter escape. -/
def escaped? (c : Char) : Option Char :=
  if c = '"' ∨ c = '\\' ∨ c = '/' then some c
  else if c = 'b' then some '\x08'
  else if c = 'f' then some '\x0c'
  else if c = 'n' then some '\n'
  else if c = 'r' then some '\r'
  else if c = 't' then some '\t'
  else none

/-- Put a unit in front of what was read behind it. -/
def consUnit (unit : StringUnit) (read : Option (List StringUnit × List Char)) :
    Option (List StringUnit × List Char) :=
  read.map fun (units, rest) => (unit :: units, rest)

/-- Read the units of a string behind its opening quote, through the closing one. -/
def readUnits : List Char → Option (List StringUnit × List Char)
  | [] => none
  | '"' :: rest => some ([], rest)
  | '\\' :: 'u' :: a :: b :: c :: d :: rest =>
      match codeOf? a b c d with
      | some code => consUnit (unitOf code) (readUnits rest)
      | none => none
  | '\\' :: c :: rest =>
      match escaped? c with
      | some plain => consUnit (.char plain) (readUnits rest)
      | none => none
  | c :: rest => if c.toNat < 0x20 ∨ c = '\\' then none else consUnit (.char c) (readUnits rest)

/-- The text of units: each first half of a surrogate pair is joined with the second half right
behind it, and any other half denotes nothing. -/
def textOf? : List StringUnit → Option (List Char)
  | [] => some []
  | .char c :: rest => (textOf? rest).map (c :: ·)
  | .half high :: .half low :: rest =>
      if isHighHalf high && isLowHalf low then
        let code := 0x10000 + (high - 0xD800) * 0x400 + (low - 0xDC00)
        (textOf? rest).map (Char.ofNat code :: ·)
      else none
  | .half _ :: _ => none

/-- Read a string behind its opening quote. -/
def readString (text : List Char) : Option (JsonString × List Char) :=
  (readUnits text).map fun (units, rest) => ((textOf? units).map String.ofList, rest)

/-! ### Numbers -/

/-- The value of a run of digits. -/
def digitsValue (digits : List Char) : Nat :=
  digits.foldl (fun value c => value * 10 + (c.toNat - '0'.toNat)) 0

/-- Read the fraction of a number, if there is one; whether there is, and the rest. -/
def readFraction : List Char → Option (Bool × List Char)
  | '.' :: rest =>
      if (rest.takeWhile Char.isDigit).isEmpty then none
      else some (true, rest.dropWhile Char.isDigit)
  | text => some (false, text)

/-- Read the exponent of a number, if there is one; whether there is, and the rest. -/
def readExponent : List Char → Option (Bool × List Char)
  | mark :: rest =>
      if mark = 'e' ∨ mark = 'E' then
        let digits :=
          match rest with
          | '+' :: digits => digits
          | '-' :: digits => digits
          | digits => digits
        if (digits.takeWhile Char.isDigit).isEmpty then none
        else some (true, digits.dropWhile Char.isDigit)
      else some (false, mark :: rest)
  | [] => some (false, [])

/-- The whole number written by digits and a sign; a zero with a minus sign is not one. -/
def wholeOf? (negative : Bool) (digits : List Char) : Option Int :=
  let value := digitsValue digits
  if negative then (if value = 0 then none else some (-(value : Int))) else some value

/-- Read a number without its sign. A zero is not followed by further digits. -/
def readUnsigned (negative : Bool) (text : List Char) : Option (JsonValue × List Char) := do
  let digits := text.takeWhile Char.isDigit
  let rest := text.dropWhile Char.isDigit
  if digits.isEmpty then none
  if digits.head? = some '0' ∧ digits.length ≠ 1 then none
  let (hasFraction, rest) ← readFraction rest
  let (hasExponent, rest) ← readExponent rest
  return (.number (if hasFraction || hasExponent then none else wholeOf? negative digits), rest)

/-- Read a number. -/
def readNumber : List Char → Option (JsonValue × List Char)
  | '-' :: rest => readUnsigned true rest
  | text => readUnsigned false text

/-! ### Documents -/

/-- The character may stand between any two tokens. -/
def isJsonSpace (c : Char) : Bool := c == ' ' || c == '\n' || c == '\t' || c == '\r'

/-- Drop the space at the start. -/
def skipSpace (text : List Char) : List Char := text.dropWhile isJsonSpace

/-- Read a value that is not made of others. -/
def readScalar : List Char → Option (JsonValue × List Char)
  | 'n' :: 'u' :: 'l' :: 'l' :: rest => some (.null, rest)
  | 't' :: 'r' :: 'u' :: 'e' :: rest => some (.bool true, rest)
  | 'f' :: 'a' :: 'l' :: 's' :: 'e' :: rest => some (.bool false, rest)
  | '"' :: rest => (readString rest).map fun (text, rest) => (.string text, rest)
  | text => readNumber text

/-- Read the key of a member and its colon. -/
def readKey (text : List Char) : Option (JsonString × List Char) :=
  match skipSpace text with
  | '"' :: rest =>
      match readString rest with
      | some (key, rest) =>
          match skipSpace rest with
          | ':' :: rest => some (key, rest)
          | _ => none
      | none => none
  | _ => none

mutual

/-- Read a value with at most `steps` steps down or along. -/
def readValue : Nat → List Char → Option (JsonValue × List Char)
  | 0, _ => none
  | steps + 1, text =>
      match skipSpace text with
      | '[' :: rest =>
          match skipSpace rest with
          | ']' :: rest => some (.array [], rest)
          | rest => (readItems steps rest).map fun (items, rest) => (.array items, rest)
      | '\x7b' :: rest =>
          match skipSpace rest with
          | '\x7d' :: rest => some (.object [], rest)
          | rest => (readMembers steps rest).map fun (members, rest) => (.object members, rest)
      | text => readScalar text

/-- Read the items of an array, of which there is at least one, through the closing bracket. -/
def readItems : Nat → List Char → Option (List JsonValue × List Char)
  | 0, _ => none
  | steps + 1, text =>
      match readValue steps text with
      | none => none
      | some (item, rest) =>
          match skipSpace rest with
          | ',' :: rest =>
              (readItems steps rest).map fun (items, rest) => (item :: items, rest)
          | ']' :: rest => some ([item], rest)
          | _ => none

/-- Read the members of an object, of which there is at least one, through the closing brace. -/
def readMembers : Nat → List Char → Option (List (JsonString × JsonValue) × List Char)
  | 0, _ => none
  | steps + 1, text =>
      match readKey text with
      | none => none
      | some (key, rest) =>
          match readValue steps rest with
          | none => none
          | some (value, rest) =>
              match skipSpace rest with
              | ',' :: rest =>
                  (readMembers steps rest).map fun (members, rest) =>
                    ((key, value) :: members, rest)
              | '\x7d' :: rest => some ([(key, value)], rest)
              | _ => none

end

end StyledWidgets.JsonReader

namespace StyledWidgets

/-- Read a document; nothing but space may follow it. Reading takes at most two steps for each
character. -/
def readJson? (text : List Char) : Option JsonValue :=
  match JsonReader.readValue (2 * text.length + 2) text with
  | some (value, rest) => if (JsonReader.skipSpace rest).isEmpty then some value else none
  | none => none

end StyledWidgets
