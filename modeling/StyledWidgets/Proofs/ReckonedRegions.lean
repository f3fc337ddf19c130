/-
Module: StyledWidgets.Proofs.ReckonedRegions
Purpose: Rectangles and regions reckoned with on words are those of exact numbers unless a word
  overflows.
Main exports: Rect.reckonIntersect_yields, Rect.reckonSubtract_yields,
  Region.reckonUnionRegion_yields, Region.reckonIntersectRegion_yields,
  Region.reckonSimplify_yields
-/
import StyledWidgets.Geometry.ReckonedRegion
import StyledWidgets.Proofs.Reckonings

namespace StyledWidgets

open Reckoned

namespace Rect

variable {a b rect : Rect}

theorem reckonRight_yields : rect.reckonRight.Yields rect.right := word_yields _

theorem reckonBottom_yields : rect.reckonBottom.Yields rect.bottom := word_yields _

theorem reckonEdges_yields {left top right bottom : Int} :
    (reckonEdges left top right bottom).Yields (ofEdges left top right bottom) :=
  (word_yields _).bind ((word_yields _).map _)

theorem reckonMovedBy_yields {dx dy : Int} :
    (rect.reckonMovedBy dx dy).Yields (rect.movedBy dx dy) :=
  (word_yields _).bind ((word_yields _).map _)

theorem reckonIntersect_yields : (a.reckonIntersect b).Yields (a.intersect b) := by
  refine reckonRight_yields.bind (reckonRight_yields.bind ?_)
  refine reckonBottom_yields.bind (reckonBottom_yields.bind ?_)
  rw [intersect]
  dsimp only
  split
  · exact .pure _
  · exact reckonEdges_yields

theorem reckonIntersects_yields : (a.reckonIntersects b).Yields (a.intersects b) :=
  reckonIntersect_yields.map _

theorem reckonUnited_yields : (a.reckonUnited b).Yields (a.united b) := by
  rw [reckonUnited, united]
  split
  · exact .pure b
  · split
    · exact .pure a
    · exact reckonRight_yields.bind (reckonRight_yields.bind
        (reckonBottom_yields.bind (reckonBottom_yields.bind reckonEdges_yields)))

theorem reckonSubtract_yields : (a.reckonSubtract b).Yields (a.subtract b) := by
  refine reckonIntersect_yields.bind ?_
  rw [subtract]
  dsimp only
  split
  · exact .pure _
  · refine reckonRight_yields.bind (reckonBottom_yields.bind ?_)
    refine reckonRight_yields.bind (reckonBottom_yields.bind ?_)
    exact reckonEdges_yields.bind
      (reckonEdges_yields.bind (reckonEdges_yields.bind (reckonEdges_yields.map _)))

end Rect

namespace Region

open Rect

variable {region other : Region} {rect : Rect}

theorem reckonIntersectsRect_yields :
    (region.reckonIntersectsRect rect).Yields (region.intersectsRect rect) :=
  .anyM (fun _ => reckonIntersects_yields) _

theorem reckonBoundingRect_yields : region.reckonBoundingRect.Yields region.boundingRect :=
  .foldlM (fun _ _ => reckonUnited_yields) _ _

theorem reckonUncovered_yields (covered : List Rect) :
    (reckonUncovered rect covered).Yields (uncovered rect covered) :=
  .foldlM (fun _ _ => (Yields.mapM (fun _ => reckonSubtract_yields) _).map _) _ _

theorem reckonUnionRect_yields : (region.reckonUnionRect rect).Yields (region.unionRect rect) := by
  rw [reckonUnionRect, unionRect]
  split
  · exact .pure region
  · exact (reckonUncovered_yields _).map _

theorem reckonUnionRegion_yields :
    (region.reckonUnionRegion other).Yields (region.unionRegion other) :=
  .foldlM (fun _ _ => reckonUnionRect_yields) _ _

theorem reckonSubtractRect_yields :
    (region.reckonSubtractRect rect).Yields (region.subtractRect rect) := by
  rw [reckonSubtractRect, subtractRect]
  split
  · exact .pure region
  · exact (Yields.mapM (fun _ => reckonSubtract_yields) _).map _

theorem reckonIntersectRect_yields :
    (region.reckonIntersectRect rect).Yields (region.intersectRect rect) :=
  (Yields.mapM (fun _ => reckonIntersect_yields) _).map _

theorem reckonIntersectRegion_yields :
    (region.reckonIntersectRegion other).Yields (region.intersectRegion other) :=
  (Yields.mapM (fun _ => (Yields.mapM (fun _ => reckonIntersect_yields) _).map _) _).map _

theorem reckonMovedBy_yields {dx dy : Int} :
    (region.reckonMovedBy dx dy).Yields (region.movedBy dx dy) :=
  (Yields.mapM (fun _ => Rect.reckonMovedBy_yields) _).map _

theorem reckonSimplify_yields (maxRects : Nat) :
    (region.reckonSimplify maxRects).Yields (region.simplify maxRects) := by
  rw [reckonSimplify, simplify]
  split
  · exact reckonBoundingRect_yields.map _
  · exact .pure region

end Region

end StyledWidgets
