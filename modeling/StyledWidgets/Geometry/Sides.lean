/-
Module: StyledWidgets.Geometry.Sides
Purpose: One value for each side of a box, the expansion of short lists to four sides, and the
  shrinking of a rectangle by the widths of its sides.
Main exports: Side, Sides, Sides.expand?, Edges, Rect.deflate
-/
import StyledWidgets.Geometry.Rect

namespace StyledWidgets

/-- The sides of a box, clockwise from the top. -/
inductive Side where
  | top
  | right
  | bottom
  | left
  deriving Repr, DecidableEq, Inhabited

/-- One value for each side of a box. -/
structure Sides (α : Type) where
  top : α
  right : α
  bottom : α
  left : α
  deriving Repr, DecidableEq, Inhabited

namespace Sides

variable {α β γ : Type}

/-- The same value on every side. -/
def uniform (value : α) : Sides α := ⟨value, value, value, value⟩

/-- The value of one side. -/
def get (sides : Sides α) : Side → α
  | .top => sides.top
  | .right => sides.right
  | .bottom => sides.bottom
  | .left => sides.left

/-- Replace the value of one side. -/
def set (sides : Sides α) (side : Side) (value : α) : Sides α :=
  match side with
  | .top => { sides with top := value }
  | .right => { sides with right := value }
  | .bottom => { sides with bottom := value }
  | .left => { sides with left := value }

/-- Apply a function on every side. -/
def map (f : α → β) (sides : Sides α) : Sides β :=
  ⟨f sides.top, f sides.right, f sides.bottom, f sides.left⟩

/-- Combine two families side by side. -/
def zipWith (f : α → β → γ) (a : Sides α) (b : Sides β) : Sides γ :=
  ⟨f a.top b.top, f a.right b.right, f a.bottom b.bottom, f a.left b.left⟩

/-- Expand a list to four sides: one value serves all sides, two serve the vertical and the
horizontal pair, three leave the left side equal to the right one. Values after the fourth are
ignored and an empty list gives nothing. -/
def expand? : List α → Option (Sides α)
  | [] => none
  | [all] => some ⟨all, all, all, all⟩
  | [vertical, horizontal] => some ⟨vertical, horizontal, vertical, horizontal⟩
  | [top, horizontal, bottom] => some ⟨top, horizontal, bottom, horizontal⟩
  | top :: right :: bottom :: left :: _ => some ⟨top, right, bottom, left⟩

end Sides

/-- A width in pixels for each side of a box. -/
abbrev Edges := Sides Int

namespace Edges

/-- No width on any side. -/
def zero : Edges := Sides.uniform 0

/-- No side has a width. -/
def isZero (edges : Edges) : Bool := decide (edges = zero)

end Edges

namespace Rect

/-- Shrink a rectangle by the widths of its sides. The result never has a negative size: where
the widths exceed the rectangle, it is empty at the shrunk top-left corner. -/
def deflate (rect : Rect) (edges : Edges) : Rect :=
  let left := rect.x + edges.left
  let top := rect.y + edges.top
  let right := max (rect.right - edges.right) left
  let bottom := max (rect.bottom - edges.bottom) top
  ofEdges left top right bottom

end Rect

end StyledWidgets
