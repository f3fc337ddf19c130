/-
Module: StyledWidgets.Number.FixedPoint
Purpose: Floating-point numbers that are not negative, as exact fractions and as decimal text with
  a fixed number of places.
Main exports: Fraction.ofFloat, fixedPoint
-/
import StyledWidgets.Number.Rounding

namespace StyledWidgets.Number

/-- The exact value of a finite number of 64 bits that is not negative: 52 bits of significand, to
which a leading bit belongs unless the exponent is zero, and 11 bits of exponent. -/
def Fraction.ofFloat (value : Float) : Fraction :=
  let bits : Nat := value.toBits.toNat
  let significand : Nat := bits % Nat.pow 2 52
  let exponent : Nat := bits / Nat.pow 2 52 % Nat.pow 2 11
  if exponent = 0 then (Fraction.mk significand 1).shift (-1074)
  else (Fraction.mk (Nat.pow 2 52 + significand) 1).shift ((exponent : Int) - 1075)

/-- The digits of a number, with zeros in front up to a number of places. -/
def paddedDigits (places value : Nat) : List Char :=
  let digits := Nat.toDigits 10 value
  List.replicate (places - digits.length) '0' ++ digits

/-- The text of a fraction with at least one digit after the point: the nearest number with so many
places, where a half goes to the even neighbour. -/
def Fraction.fixedPoint (places : Nat) (value : Fraction) : String :=
  let rounded := divHalfEven (value.num * Nat.pow 10 places) value.den
  String.ofList (Nat.toDigits 10 (rounded / Nat.pow 10 places) ++
    '.' :: paddedDigits places (rounded % Nat.pow 10 places))

/-- The text of a number that is not negative with a fixed number of places. -/
def fixedPoint (places : Nat) (value : Float) : String :=
  (Fraction.ofFloat value).fixedPoint places

end StyledWidgets.Number
