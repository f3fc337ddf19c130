/-
Module: StyledWidgets.Number.Rounding
Purpose: Rounding of exact fractions: to the nearest whole number, and to the nearest fraction
  with a limited number of binary digits.
Main exports: Fraction, divHalfUp, divHalfEven, Fraction.toBits
-/

namespace StyledWidgets.Number

/-- A quotient of natural numbers; the denominator is meant to be positive. -/
structure Fraction where
  num : Nat
  den : Nat
  deriving Repr, DecidableEq, Inhabited

/-- The whole number nearest to a quotient; a half goes up. -/
def divHalfUp (num den : Nat) : Nat := (2 * num + den) / (2 * den)

/-- The whole number nearest to a quotient; a half goes to the even neighbour. -/
def divHalfEven (num den : Nat) : Nat :=
  let below := num / den
  let rest := num % den
  if 2 * rest < den then below
  else if den < 2 * rest then below + 1
  else if below % 2 = 0 then below else below + 1

namespace Fraction

/-- The fraction times a whole number. -/
def scale (value : Fraction) (factor : Nat) : Fraction := ⟨value.num * factor, value.den⟩

/-- The fraction times two to an exponent. -/
def shift (value : Fraction) (exponent : Int) : Fraction :=
  match exponent with
  | .ofNat up => ⟨value.num * Nat.pow 2 up, value.den⟩
  | .negSucc down => ⟨value.num, value.den * Nat.pow 2 (down + 1)⟩

/-- The nearest fraction with at most `bits` binary digits before its trailing zeros; a tie goes
to the even last digit. The exponent is not limited. -/
def toBits (bits : Nat) (value : Fraction) : Fraction :=
  if value.num = 0 then ⟨0, 1⟩
  else
    -- The leading binary digit of the quotient stands at `guess` or one place below.
    let guess : Int := (value.num.log2 : Int) - value.den.log2
    let scaled := value.shift ((bits : Int) - 1 - guess)
    let exponent := if scaled.num < Nat.pow 2 (bits - 1) * scaled.den then guess - 1 else guess
    let place := exponent - ((bits : Int) - 1)
    let aligned := value.shift (-place)
    (Fraction.mk (divHalfEven aligned.num aligned.den) 1).shift place

end Fraction

end StyledWidgets.Number
