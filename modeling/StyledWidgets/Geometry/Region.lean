/-
Module: StyledWidgets.Geometry.Region
Purpose: Sets of pixels held as lists of rectangles that do not overlap.
Main exports: Region, Region.unionRect, Region.subtractRect, Region.intersectRegion,
  Region.simplify
-/
import StyledWidgets.Geometry.Rect

namespace StyledWidgets

/-- A set of pixels. The order of the rectangles records how the set was put together; two
regions may cover the same pixels with different rectangles. -/
structure Region where
  rects : List Rect
  deriving Repr, DecidableEq, Inhabited

namespace Region

/-- The region without pixels. -/
def empty : Region := ⟨[]⟩

/-- No rectangle is held. -/
def isEmpty (region : Region) : Bool := region.rects.isEmpty

/-- The sum of the areas of the rectangles. -/
def area (region : Region) : Int :=
  region.rects.foldr (fun rect total => rect.area + total) 0

/-- The pixel at `(x, y)` belongs to the region. -/
def containsPoint (region : Region) (x y : Int) : Bool :=
  region.rects.any fun rect => rect.containsPoint x y

/-- Some pixel of `rect` belongs to the region. -/
def intersectsRect (region : Region) (rect : Rect) : Bool :=
  region.rects.any fun part => part.intersects rect

/-- The smallest rectangle around the region. -/
def boundingRect (region : Region) : Rect := region.rects.foldl Rect.united Rect.zero

/-- The part of `rect` that no rectangle of `covered` touches, cut piece by piece. -/
def uncovered (rect : Rect) (covered : List Rect) : List Rect :=
  covered.foldl (fun pieces other => pieces.flatMap fun piece => piece.subtract other) [rect]

/-- Add a rectangle: only its uncovered part is appended, so nothing overlaps. -/
def unionRect (region : Region) (rect : Rect) : Region :=
  if rect.isEmpty then region else ⟨region.rects ++ uncovered rect region.rects⟩

/-- The pixels of one rectangle. -/
def ofRect (rect : Rect) : Region := empty.unionRect rect

/-- Add the rectangles of another region, one after the other. -/
def unionRegion (region other : Region) : Region := other.rects.foldl unionRect region

/-- The pixels of some rectangle of the list. -/
def ofRects (rects : List Rect) : Region := rects.foldl unionRect empty

/-- Take the pixels of a rectangle out. -/
def subtractRect (region : Region) (rect : Rect) : Region :=
  if rect.isEmpty then region else ⟨region.rects.flatMap fun part => part.subtract rect⟩

/-- Keep only the pixels of a rectangle. -/
def intersectRect (region : Region) (rect : Rect) : Region :=
  ⟨(region.rects.map fun part => part.intersect rect).filter fun part => !part.isEmpty⟩

/-- Keep only the pixels of another region. The rectangles of either operand do not overlap, so
neither do their pairwise intersections. -/
def intersectRegion (region other : Region) : Region :=
  ⟨region.rects.flatMap fun a =>
    (other.rects.map fun b => a.intersect b).filter fun part => !part.isEmpty⟩

/-- Move every pixel by `(dx, dy)`. -/
def movedBy (region : Region) (dx dy : Int) : Region :=
  ⟨region.rects.map fun rect => rect.movedBy dx dy⟩

/-- Replace the region by its bounding rectangle once it holds more than `maxRects` rectangles;
one rectangle is always allowed. -/
def simplify (region : Region) (maxRects : Nat) : Region :=
  if region.rects.length > max maxRects 1 then ⟨[region.boundingRect]⟩ else region

end Region

end StyledWidgets
