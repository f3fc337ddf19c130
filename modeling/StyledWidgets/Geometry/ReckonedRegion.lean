/-
Module: StyledWidgets.Geometry.ReckonedRegion
Purpose: Rectangles and regions reckoned with on words: what the operations on them give when every
  edge, corner and size has to fit into 32 bits.
Main exports: Rect.reckonIntersect, Rect.reckonUnited, Rect.reckonSubtract, Region.reckonUnionRect,
  Region.reckonSubtractRect, Region.reckonIntersectRegion
-/
import StyledWidgets.Geometry.Region
import StyledWidgets.Number.Reckoned

namespace StyledWidgets

namespace Rect

def reckonRight (rect : Rect) : Reckoned Int := word (rect.x + rect.width)

def reckonBottom (rect : Rect) : Reckoned Int := word (rect.y + rect.height)

/-- The rectangle between four edges. -/
def reckonEdges (left top right bottom : Int) : Reckoned Rect := do
  return ⟨left, top, ← word (right - left), ← word (bottom - top)⟩

def reckonMovedBy (rect : Rect) (dx dy : Int) : Reckoned Rect := do
  return ⟨← word (rect.x + dx), ← word (rect.y + dy), rect.width, rect.height⟩

def reckonIntersect (a b : Rect) : Reckoned Rect := do
  let left := max a.x b.x
  let top := max a.y b.y
  let right := min (← a.reckonRight) (← b.reckonRight)
  let bottom := min (← a.reckonBottom) (← b.reckonBottom)
  if right ≤ left ∨ bottom ≤ top then return zero
  else reckonEdges left top right bottom

def reckonIntersects (a b : Rect) : Reckoned Bool := do
  return !(← a.reckonIntersect b).isEmpty

def reckonUnited (a b : Rect) : Reckoned Rect := do
  if a.isEmpty then return b
  else if b.isEmpty then return a
  else
    let right := max (← a.reckonRight) (← b.reckonRight)
    let bottom := max (← a.reckonBottom) (← b.reckonBottom)
    reckonEdges (min a.x b.x) (min a.y b.y) right bottom

/-- The bands of `a` around its cut with `b`. -/
def reckonSubtract (a b : Rect) : Reckoned (List Rect) := do
  let cut ← a.reckonIntersect b
  if cut.isEmpty then
    return if a.isEmpty then [] else [a]
  else
    let right ← a.reckonRight
    let bottom ← a.reckonBottom
    let cutRight ← cut.reckonRight
    let cutBottom ← cut.reckonBottom
    let bands :=
      [ ← reckonEdges a.x a.y right cut.y,
        ← reckonEdges a.x cutBottom right bottom,
        ← reckonEdges a.x cut.y cut.x cutBottom,
        ← reckonEdges cutRight cut.y right cutBottom ]
    return bands.filter fun band => !band.isEmpty

end Rect

namespace Region

/-- Some pixel of `rect` belongs to the region. Rectangles behind the first that has one are not
looked at. -/
def reckonIntersectsRect (region : Region) (rect : Rect) : Reckoned Bool :=
  region.rects.anyM fun part => part.reckonIntersects rect

def reckonBoundingRect (region : Region) : Reckoned Rect :=
  region.rects.foldlM Rect.reckonUnited Rect.zero

def reckonUncovered (rect : Rect) (covered : List Rect) : Reckoned (List Rect) :=
  covered.foldlM
    (fun pieces other => do return (← pieces.mapM fun piece => piece.reckonSubtract other).flatten)
    [rect]

def reckonUnionRect (region : Region) (rect : Rect) : Reckoned Region := do
  if rect.isEmpty then return region
  else return ⟨region.rects ++ (← reckonUncovered rect region.rects)⟩

def reckonUnionRegion (region other : Region) : Reckoned Region :=
  other.rects.foldlM reckonUnionRect region

def reckonSubtractRect (region : Region) (rect : Rect) : Reckoned Region := do
  if rect.isEmpty then return region
  else return ⟨(← region.rects.mapM fun part => part.reckonSubtract rect).flatten⟩

def reckonIntersectRect (region : Region) (rect : Rect) : Reckoned Region := do
  return ⟨(← region.rects.mapM fun part => part.reckonIntersect rect).filter fun part =>
    !part.isEmpty⟩

def reckonIntersectRegion (region other : Region) : Reckoned Region := do
  let cuts ← region.rects.mapM fun a => do
    return (← other.rects.mapM fun b => a.reckonIntersect b).filter fun part => !part.isEmpty
  return ⟨cuts.flatten⟩

def reckonMovedBy (region : Region) (dx dy : Int) : Reckoned Region := do
  return ⟨← region.rects.mapM fun rect => rect.reckonMovedBy dx dy⟩

def reckonSimplify (region : Region) (maxRects : Nat) : Reckoned Region := do
  if region.rects.length > max maxRects 1 then return ⟨[← region.reckonBoundingRect]⟩
  else return region

end Region

end StyledWidgets
