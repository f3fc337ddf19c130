/-
Module: StyledWidgets.Number.Reckoned
Purpose: What machines reckon with: integers of 32 bits. A sum that does not fit into a word wraps
  around, and it is remembered that some sum has not fitted.
Main exports: wrapped, Reckoned, word
-/

namespace StyledWidgets

/-- The integer that a 32-bit word holds in two's complement when another one is written into it. -/
def wrapped (n : Int) : Int := (Int32.ofInt n).toInt

/-- What a computation on words gives. Where overflow is checked, the program stops at the first
number that does not fit, so it gives the value only if nothing has overflowed; where overflow is
not checked, it gives the value in any case. -/
@[ext]
structure Reckoned (α : Type) where
  value : α
  /-- Some number on the way has not fitted into a word. -/
  overflowed : Bool := false
  deriving Repr, DecidableEq, Inhabited

instance : Monad Reckoned where
  pure value := ⟨value, false⟩
  bind first next :=
    ⟨(next first.value).value, first.overflowed || (next first.value).overflowed⟩

/-- Write a number into a word. -/
def word (n : Int) : Reckoned Int := ⟨wrapped n, wrapped n ≠ n⟩

/-- The largest word and one more. -/
example : (word 2147483647).overflowed = false ∧ word 2147483648 = ⟨-2147483648, true⟩ := by decide

end StyledWidgets
