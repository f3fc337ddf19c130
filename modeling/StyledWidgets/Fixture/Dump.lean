/-
Module: StyledWidgets.Fixture.Dump
Purpose: The texts that fixtures are compared with: rules one per line, and resolved styles as
  indented lines.
Main exports: dumpRules, dumpStyle
-/
import StyledWidgets.Style.Stylist

namespace StyledWidgets

open StyledWidgets.Sheet StyledWidgets.Style

/-- The rules in their order, each on a line. -/
def dumpRules (rules : List StyleRule) : String :=
  String.join (rules.map fun rule => rule.text ++ "\n")

/-- The widths of four sides, clockwise from the top. -/
def Edges.text (edges : Edges) : String :=
  String.intercalate " "
    [Int.repr edges.top, Int.repr edges.right, Int.repr edges.bottom, Int.repr edges.left]

/-- What a layer is painted with. -/
def Style.Brush.text : Brush → String
  | .color shade => shade.text
  | .image location => "url(" ++ location ++ ")"

/-- The line of one background layer. -/
def dumpLayer (layer : BackgroundLayer) : String :=
  "background " ++ layer.brush.text ++ " clip=" ++ layer.clip.name ++
    " frames=" ++ Nat.repr layer.frameCount

/-- The line about text. -/
def dumpText (text : TextStyle) : String :=
  "text " ++ text.color.text ++ " \"" ++ text.family ++ "\" " ++ Int.repr text.size ++
    "px weight=" ++ Int.repr text.weight

/-- The line of the widths of a box, unless they are all zero. -/
def dumpEdges (name : String) (edges : Edges) : Option String :=
  if edges.isZero then none else some (name ++ " " ++ edges.text)

/-- The lines of an appearance: layers from the bottom, the widths of the border, text, margin and
padding where there are any, and whether something shines through. -/
def dumpAppearance (appearance : Appearance) : List String :=
  appearance.backgrounds.map dumpLayer ++
    (appearance.border.map fun border => "border " ++ border.widths.text).toList ++
    (appearance.text.map dumpText).toList ++
    (dumpEdges "margin" appearance.margin).toList ++
    (dumpEdges "padding" appearance.padding).toList ++
    ["opaque=" ++ (if appearance.isOpaque then "true" else "false")]

/-- A resolved style as indented lines. -/
def dumpStyle (style : ResolvedStyle) : String :=
  let lines :=
    match style with
    | some made => dumpAppearance made.appearance
    | none => ["invalid"]
  String.join (lines.map fun line => "  " ++ line ++ "\n")

end StyledWidgets
