/-
Module: StyledWidgets.Toolkit.Settings
Purpose: The settings of styling, repainting and retrying.
Main exports: StyleSettings, RepaintSettings, RetrySettings, Settings
-/

namespace StyledWidgets

/-- Settings of style resolution. -/
structure StyleSettings where
  /-- Pseudo states that no selector asks about share one rule. -/
  aliasPseudoStates : Bool := true
  /-- The family of text without a font family. -/
  defaultFontFamily : String := "Segoe UI"
  /-- The size in pixels of text without a font size. -/
  defaultFontSize : Int := 12
  deriving Repr, DecidableEq, Inhabited

/-- Settings of the search for what has to be repainted. -/
structure RepaintSettings where
  /-- A region of more rectangles collapses into its bounding rectangle. -/
  maxRegionRects : Nat := 16
  /-- Siblings that are declared never to overlap are not examined. -/
  honorNonOverlap : Bool := true
  deriving Repr, DecidableEq, Inhabited

/-- Settings of painting again after the loss of the device. -/
structure RetrySettings where
  /-- The number of attempts, the first one included. -/
  maxAttempts : Nat := 3
  deriving Repr, DecidableEq, Inhabited

/-- One attempt and no more. -/
def RetrySettings.once : RetrySettings := ⟨1⟩

/-- All settings of an application. -/
structure Settings where
  style : StyleSettings := {}
  repaint : RepaintSettings := {}
  retry : RetrySettings := {}
  logFilter : Option String := none
  deriving Repr, DecidableEq, Inhabited

end StyledWidgets
