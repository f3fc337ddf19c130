/-
Module: StyledWidgets.Toolkit.Retry
Purpose: Repeating an operation while the graphics device is lost.
Main exports: retryOnDeviceLoss
-/
import StyledWidgets.Toolkit.Error

namespace StyledWidgets

/-- Run an operation and, as long as it fails retryably and `more` further attempts are allowed,
recreate the resources and run it again. The last outcome is the result. -/
def retryFrom {m : Type → Type} [Monad m] {α : Type} (operation : m (Except ToolkitError α))
    (recreate : m Unit) : Nat → m (Except ToolkitError α)
  | 0 => operation
  | more + 1 => do
      match ← operation with
      | .ok value => pure (.ok value)
      | .error failure =>
          if failure.isRetryable then do
            recreate
            retryFrom operation recreate more
          else pure (.error failure)

/-- Run an operation at most `maxAttempts` times, but at least once, recreating the resources
between two attempts. Only the loss of the device leads to another attempt. -/
def retryOnDeviceLoss {m : Type → Type} [Monad m] {α : Type} (maxAttempts : Nat)
    (operation : m (Except ToolkitError α)) (recreate : m Unit) : m (Except ToolkitError α) :=
  retryFrom operation recreate (maxAttempts - 1)

end StyledWidgets
