/-
Module: StyledWidgets.Widget.Basic
Purpose: Widgets and their identities.
Main exports: WidgetId, Widget
-/
import StyledWidgets.Geometry.Rect
import StyledWidgets.Sheet.PseudoClass

namespace StyledWidgets

open StyledWidgets.Sheet

/-- The identity of a widget. It is never given to another widget, so an old identity finds
nothing rather than a stranger. -/
structure WidgetId where
  raw : Nat
  deriving Repr, DecidableEq, Inhabited

/-- The text of a widget identity. -/
def WidgetId.text (id : WidgetId) : String := "widget#" ++ Nat.repr id.raw

/-- A widget. One without a parent is a top-level window. -/
structure Widget where
  typeName : String
  objectName : String := ""
  /-- Position and size relative to the parent. -/
  geometry : Rect := Rect.zero
  visible : Bool := true
  /-- Painting covers the whole rectangle and nothing shines through. -/
  isOpaque : Bool := false
  /-- The children lie side by side, never on top of each other. -/
  childrenNeverOverlap : Bool := false
  ignoresSheets : Bool := false
  pseudo : PseudoMask := PseudoMask.empty
  text : String := ""
  /-- The animation frame counter; it starts again at zero after the largest word. -/
  frame : UInt32 := 0
  parent : Option WidgetId := none
  /-- The children from the bottom to the top. -/
  children : List WidgetId := []
  deriving Repr, DecidableEq, Inhabited

end StyledWidgets
