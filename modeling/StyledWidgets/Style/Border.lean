/-
Module: StyledWidgets.Style.Border
Purpose: Borders, their corners and border images.
Main exports: BorderSide, Border, Border.ofMerge?, BorderImage.ofValues?
-/
import StyledWidgets.Geometry.Sides
import StyledWidgets.Style.Merge

namespace StyledWidgets.Style

open StyledWidgets.Sheet

/-- How a line is drawn. -/
inductive LineStyle where
  | none
  | solid
  | dashed
  | dotted
  | double
  deriving Repr, DecidableEq, Inhabited

/-- The name of a line style. -/
def LineStyle.name : LineStyle → String
  | .none => "None"
  | .solid => "Solid"
  | .dashed => "Dashed"
  | .dotted => "Dotted"
  | .double => "Double"

/-- The line style that a keyword names. -/
def LineStyle.ofKeyword? : Keyword → Option LineStyle
  | .noneWord => some .none
  | .solid => some .solid
  | .dashed => some .dashed
  | .dotted => some .dotted
  | .double => some .double
  | _ => Option.none

/-- The line style that a value names. -/
def LineStyle.ofValue? (value : Value) : Option LineStyle :=
  value.keyword?.bind LineStyle.ofKeyword?

/-- One side of a border. -/
structure BorderSide where
  width : Int := 0
  style : LineStyle := .solid
  color : Color := Color.black
  deriving Repr, DecidableEq, Inhabited

namespace BorderSide

/-- Take one value of a shorthand, whose values may stand in any order. The style `none` also takes
the width away. -/
def add (side : BorderSide) : Value → BorderSide
  | .length n | .number n => { side with width := n }
  | .color shade => { side with color := shade }
  | .keyword .transparent => { side with color := Color.transparent }
  | .keyword word =>
      match LineStyle.ofKeyword? word with
      | some .none => { side with style := .none, width := 0 }
      | some style => { side with style := style }
      | none => side
  | .uri _ | .string _ => side

/-- Take the values of a shorthand. -/
def addAll (side : BorderSide) (values : List Value) : BorderSide := values.foldl add side

/-- The width that the side takes up. -/
def effectiveWidth (side : BorderSide) : Int :=
  match side.style with
  | .none => 0
  | _ => max side.width 0

end BorderSide

/-- The radii of the corners, clockwise from the top left. -/
structure Corners where
  topLeft : Int := 0
  topRight : Int := 0
  bottomRight : Int := 0
  bottomLeft : Int := 0
  deriving Repr, DecidableEq, Inhabited

/-- No corner is rounded. -/
def Corners.isZero (corners : Corners) : Bool := decide (corners = {})

/-- The border of a box. -/
structure Border where
  sides : Sides BorderSide := Sides.uniform {}
  radii : Corners := {}
  deriving Repr, DecidableEq, Inhabited

namespace Border

/-- The widths that the sides take up. -/
def widths (border : Border) : Edges := border.sides.map BorderSide.effectiveWidth

/-- Change one side. -/
def onSide (border : Border) (side : Side) (change : BorderSide → BorderSide) : Border :=
  { border with sides := border.sides.set side (change (border.sides.get side)) }

/-- The change made by the shorthand of one side. -/
def sideShorthand? (merge : Merge) (property : Property) (side : Side) :
    Option (Border → Border) :=
  (merge.get? property).map fun declaration border =>
    border.onSide side fun line => line.addAll declaration.values

/-- The change made by values for all sides. -/
def allSides? {α : Type} (values : List α) (set : BorderSide → α → BorderSide) :
    Option (Border → Border) :=
  (Sides.expand? values).map fun expanded border =>
    { border with sides := border.sides.zipWith set expanded }

/-- The change made by the property of one side. -/
def oneSide? {α : Type} (value : Option α) (side : Side) (set : BorderSide → α → BorderSide) :
    Option (Border → Border) :=
  value.map fun value border => border.onSide side fun line => set line value

/-- The change made by the radius of one corner. -/
def corner? (merge : Merge) (property : Property) (set : Corners → Int → Corners) :
    Option (Border → Border) :=
  (merge.int? property).map fun radius border => { border with radii := set border.radii radius }

/-- Set the width of a side. -/
def setWidth (side : BorderSide) (width : Int) : BorderSide := { side with width := width }

/-- Set the color of a side. -/
def setColor (side : BorderSide) (color : Color) : BorderSide := { side with color := color }

/-- Set the style of a side; the width stays. -/
def setStyle (side : BorderSide) (style : LineStyle) : BorderSide := { side with style := style }

/-- The first line style among the values of a property. -/
def style? (merge : Merge) (property : Property) : Option LineStyle :=
  (merge.values property).findSome? LineStyle.ofValue?

/-- The changes that the declarations make to a border, in the order in which they are made: the
shorthand of the border, those of the sides, the properties of all sides, those of one side, and
the radii. -/
def changes (merge : Merge) : List (Option (Border → Border)) :=
  [ (merge.get? .border).map fun declaration border =>
      { border with sides := border.sides.map fun line => line.addAll declaration.values },
    sideShorthand? merge .borderTop .top,
    sideShorthand? merge .borderRight .right,
    sideShorthand? merge .borderBottom .bottom,
    sideShorthand? merge .borderLeft .left,
    allSides? (merge.ints .borderWidth) setWidth,
    allSides? ((merge.values .borderColor).filterMap Value.color?) setColor,
    allSides? ((merge.values .borderStyle).filterMap LineStyle.ofValue?) setStyle,
    oneSide? (merge.int? .borderTopWidth) .top setWidth,
    oneSide? (merge.int? .borderRightWidth) .right setWidth,
    oneSide? (merge.int? .borderBottomWidth) .bottom setWidth,
    oneSide? (merge.int? .borderLeftWidth) .left setWidth,
    oneSide? (merge.color? .borderTopColor) .top setColor,
    oneSide? (merge.color? .borderRightColor) .right setColor,
    oneSide? (merge.color? .borderBottomColor) .bottom setColor,
    oneSide? (merge.color? .borderLeftColor) .left setColor,
    oneSide? (style? merge .borderTopStyle) .top setStyle,
    oneSide? (style? merge .borderRightStyle) .right setStyle,
    oneSide? (style? merge .borderBottomStyle) .bottom setStyle,
    oneSide? (style? merge .borderLeftStyle) .left setStyle,
    (Sides.expand? (merge.ints .borderRadius)).map fun radii border =>
      { border with radii := ⟨radii.top, radii.right, radii.bottom, radii.left⟩ },
    corner? merge .borderTopLeftRadius fun radii radius => { radii with topLeft := radius },
    corner? merge .borderTopRightRadius fun radii radius => { radii with topRight := radius },
    corner? merge .borderBottomRightRadius fun radii radius => { radii with bottomRight := radius },
    corner? merge .borderBottomLeftRadius fun radii radius => { radii with bottomLeft := radius } ]

/-- The border that declarations describe; none if they say nothing about it. -/
def ofMerge? (merge : Merge) : Option Border :=
  match (changes merge).filterMap id with
  | [] => none
  | made => some (made.foldl (fun border change => change border) {})

end Border

/-- How the middle parts of a border image fill their sides. -/
inductive BorderImageFill where
  | stretch
  | tiled
  deriving Repr, DecidableEq, Inhabited

/-- The name of a way to fill. -/
def BorderImageFill.name : BorderImageFill → String
  | .stretch => "Stretch"
  | .tiled => "Repeat"

/-- An image cut into nine parts around a box. -/
structure BorderImage where
  location : String
  slices : Edges
  fill : BorderImageFill
  deriving Repr, DecidableEq, Inhabited

/-- The location of a location value. -/
def uri? : Value → Option String
  | .uri location => some location
  | _ => none

/-- The border image that values describe; a location is needed, the slices default to zero, and
the first keyword alone decides how the parts fill. -/
def BorderImage.ofValues? (values : List Value) : Option BorderImage :=
  (values.findSome? uri?).map fun location =>
    { location := location
      slices := (Sides.expand? (values.filterMap Value.int?)).getD Edges.zero
      fill := if values.findSome? Value.keyword? = some .repeatBoth then .tiled else .stretch }

end StyledWidgets.Style
