/-
Module: StyledWidgets.Geometry.Rect
Purpose: Points and axis-parallel rectangles in whole pixels, in exact numbers. What is reckoned
  with on words is in StyledWidgets.Geometry.ReckonedRegion.
Main exports: Point, Rect, Rect.containsPoint, Rect.intersect, Rect.united, Rect.subtract
-/

namespace StyledWidgets

/-- A pixel, or the offset between two pixels. -/
structure Point where
  x : Int
  y : Int
  deriving Repr, DecidableEq, Inhabited

/-- A rectangle given by its top-left corner and its size. A rectangle whose width or height is
not positive is empty: it covers no pixel, whatever its corner. -/
structure Rect where
  x : Int
  y : Int
  width : Int
  height : Int
  deriving Repr, DecidableEq, Inhabited

namespace Rect

/-- The empty rectangle at the origin. -/
def zero : Rect := ⟨0, 0, 0, 0⟩

/-- The rectangle between four edges; the right and bottom edges are exclusive. -/
def ofEdges (left top right bottom : Int) : Rect := ⟨left, top, right - left, bottom - top⟩

/-- The rectangle at the origin with the size of `rect`. -/
def atOrigin (rect : Rect) : Rect := ⟨0, 0, rect.width, rect.height⟩

/-- The first column to the right of the rectangle. -/
def right (rect : Rect) : Int := rect.x + rect.width

/-- The first row below the rectangle. -/
def bottom (rect : Rect) : Int := rect.y + rect.height

/-- The rectangle covers no pixel. -/
def isEmpty (rect : Rect) : Bool := decide (rect.width ≤ 0 ∨ rect.height ≤ 0)

/-- The number of pixels covered. -/
def area (rect : Rect) : Int := if rect.isEmpty then 0 else rect.width * rect.height

/-- The pixel at `(x, y)` is covered. -/
def containsPoint (rect : Rect) (x y : Int) : Bool :=
  decide (rect.x ≤ x ∧ x < rect.right ∧ rect.y ≤ y ∧ y < rect.bottom)

/-- Every pixel of `other` is covered, judged by the edges; an empty `other` is contained. -/
def containsRect (rect other : Rect) : Bool :=
  other.isEmpty ||
    decide (rect.x ≤ other.x ∧ rect.y ≤ other.y ∧
      other.right ≤ rect.right ∧ other.bottom ≤ rect.bottom)

/-- The rectangle moved by `(dx, dy)`. -/
def movedBy (rect : Rect) (dx dy : Int) : Rect :=
  ⟨rect.x + dx, rect.y + dy, rect.width, rect.height⟩

/-- The pixels of both rectangles; the zero rectangle if there is none. -/
def intersect (a b : Rect) : Rect :=
  let left := max a.x b.x
  let top := max a.y b.y
  let right := min a.right b.right
  let bottom := min a.bottom b.bottom
  if right ≤ left ∨ bottom ≤ top then zero else ofEdges left top right bottom

/-- Some pixel belongs to both rectangles. -/
def intersects (a b : Rect) : Bool := !(a.intersect b).isEmpty

/-- The smallest rectangle around both. An empty rectangle does not contribute. -/
def united (a b : Rect) : Rect :=
  if a.isEmpty then b
  else if b.isEmpty then a
  else ofEdges (min a.x b.x) (min a.y b.y) (max a.right b.right) (max a.bottom b.bottom)

/-- The pixels of `a` outside `b`, as at most four disjoint bands: the full rows above and below
the cut, then the parts to its left and to its right. -/
def subtract (a b : Rect) : List Rect :=
  let cut := a.intersect b
  if cut.isEmpty then
    if a.isEmpty then [] else [a]
  else
    [ ofEdges a.x a.y a.right cut.y,
      ofEdges a.x cut.bottom a.right a.bottom,
      ofEdges a.x cut.y cut.x cut.bottom,
      ofEdges cut.right cut.y a.right cut.bottom ].filter fun band => !band.isEmpty

end Rect

end StyledWidgets
