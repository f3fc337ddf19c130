/-
Module: StyledWidgets.Text.LenientInt
Purpose: Whole numbers read from the start of any text, clamped to 32 bits.
Main exports: lenientInt
-/
import StyledWidgets.Text.Blank

namespace StyledWidgets.Text

/-- The value of a decimal digit. -/
def digitValue (c : Char) : Nat := c.toNat - '0'.toNat

/-- One more than the largest 32-bit whole number; running values stop here. -/
def intCap : Nat := Nat.pow 2 31

/-- The value of a run of digits, held at the cap at every digit so that it never grows. -/
def cappedValue (digits : List Char) : Nat :=
  digits.foldl (fun value c => min (value * 10 + digitValue c) intCap) 0

/-- Bring a number into the range of 32-bit whole numbers. -/
def clampInt (value : Int) : Int := max (-(intCap : Int)) (min ((intCap : Int) - 1) value)

/-- The number at the start of a text, after blanks: an optional sign and the digits that follow
it. Without digits it is zero; outside 32 bits it is the nearest number inside. -/
def lenientInt (text : List Char) : Int :=
  match trimStart text with
  | '-' :: digits => clampInt (-(cappedValue (digits.takeWhile Char.isDigit) : Int))
  | '+' :: digits => clampInt (cappedValue (digits.takeWhile Char.isDigit))
  | digits => clampInt (cappedValue (digits.takeWhile Char.isDigit))

end StyledWidgets.Text
