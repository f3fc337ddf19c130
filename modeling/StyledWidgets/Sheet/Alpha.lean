/-
Module: StyledWidgets.Sheet.Alpha
Purpose: The alpha channel written as a decimal fraction.
Main exports: DecimalText, DecimalText.ofChars?, alphaOf
-/
import StyledWidgets.Number.Rounding
import StyledWidgets.Text.LenientInt

namespace StyledWidgets.Sheet

open StyledWidgets.Text StyledWidgets.Number

/-- What a decimal text denotes. -/
inductive DecimalText where
  /-- No number. -/
  | undefined
  /-- Larger than every number, or smaller than every number. -/
  | infinite (negative : Bool)
  /-- The digits, read as one whole number, times a power of ten. -/
  | finite (negative : Bool) (digits : List Char) (exponent : Int)
  deriving Repr, DecidableEq, Inhabited

namespace DecimalText

/-- The value of a run of digits. -/
def wholeValue (digits : List Char) : Nat :=
  digits.foldl (fun value c => value * 10 + digitValue c) 0

/-- The exponent behind the digits: nothing, or an `e`, a sign and at least one digit. -/
def exponentOf? : List Char → Option Int
  | [] => some 0
  | mark :: rest =>
      if mark = 'e' ∨ mark = 'E' then
        let (negative, digits) :=
          match rest with
          | '-' :: digits => (true, digits)
          | '+' :: digits => (false, digits)
          | digits => (false, digits)
        if digits ≠ [] ∧ digits.all Char.isDigit then
          let size : Int := wholeValue digits
          some (if negative then -size else size)
        else none
      else none

/-- A number without its sign: a word for infinity or for no number, or digits with an optional
point, at least one digit in all, and an optional exponent. -/
def unsignedOf? (negative : Bool) (text : List Char) : Option DecimalText :=
  let word := String.ofList (lower text)
  if word = "inf" ∨ word = "infinity" then some (.infinite negative)
  else if word = "nan" then some .undefined
  else
    let whole := text.takeWhile Char.isDigit
    let rest := text.dropWhile Char.isDigit
    let (fraction, rest) :=
      match rest with
      | '.' :: behind => (behind.takeWhile Char.isDigit, behind.dropWhile Char.isDigit)
      | _ => ([], rest)
    if whole = [] ∧ fraction = [] then none
    else
      (exponentOf? rest).map fun exponent =>
        .finite negative (whole ++ fraction) (exponent - fraction.length)

/-- The denotation of a decimal text, with an optional sign; `none` if it is not one. -/
def ofChars? : List Char → Option DecimalText
  | '-' :: rest => unsignedOf? true rest
  | '+' :: rest => unsignedOf? false rest
  | text => unsignedOf? false text

end DecimalText

/-- A fraction of 255 as a channel. The fraction is held in 24 binary digits, and so is its
product with 255, before it goes to the nearest whole number, a half up. -/
def channelOfFraction (value : Fraction) : UInt8 :=
  let held := value.toBits 24
  if held.den ≤ held.num then 255
  else
    let product := (held.scale 255).toBits 24
    UInt8.ofNat (divHalfUp product.num product.den)

/-- The alpha channel written by a text: a fraction of one, clamped to the range from zero to one.
A text that is no number gives zero. A power of ten far outside the range decides alone, so that
no large power is computed. -/
def alphaOf (text : List Char) : UInt8 :=
  match DecimalText.ofChars? text with
  | none | some .undefined => 0
  | some (.infinite negative) => if negative then 0 else 255
  | some (.finite negative digits exponent) =>
      let significant := digits.dropWhile (· == '0')
      let magnitude : Int := significant.length + exponent
      if negative ∨ significant = [] ∨ magnitude < -10 then 0
      else if 1 < magnitude then 255
      else
        let value := DecimalText.wholeValue significant
        match exponent with
        | .ofNat up => channelOfFraction ⟨value * Nat.pow 10 up, 1⟩
        | .negSucc down => channelOfFraction ⟨value, Nat.pow 10 (down + 1)⟩

end StyledWidgets.Sheet
