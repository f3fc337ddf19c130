/-
Module: StyledWidgets.Inspect.Geometry
Purpose: Documents of rectangles, regions and the widths of sides, for tools that look inside.
Main exports: Rect.toJson, Region.toJson, Edges.toJson
-/
import StyledWidgets.Geometry.Region
import StyledWidgets.Geometry.Sides
import StyledWidgets.Json.Value

namespace StyledWidgets

/-- A rectangle as the list of its corner and its size. -/
def Rect.toJson (rect : Rect) : JsonValue :=
  .list .int [rect.x, rect.y, rect.width, rect.height]

/-- A region as the list of its rectangles, in the order in which it holds them. -/
def Region.toJson (region : Region) : JsonValue := .list Rect.toJson region.rects

/-- The widths of the sides, clockwise from the top. -/
def Edges.toJson (edges : Edges) : JsonValue :=
  .list .int [edges.top, edges.right, edges.bottom, edges.left]

end StyledWidgets
