/-
Module: StyledWidgets.Style.Appearance
Purpose: Everything that whoever paints a widget has to know about its style.
Main exports: Appearance, Appearance.ofMerge, Appearance.contentRect, Appearance.layerRect
-/
import StyledWidgets.Style.Border
import StyledWidgets.Style.TextStyle

namespace StyledWidgets.Style

open StyledWidgets.Sheet

/-- Wishes for the size of a widget. -/
structure SizeWishes where
  width : Option Int := none
  height : Option Int := none
  minWidth : Option Int := none
  minHeight : Option Int := none
  maxWidth : Option Int := none
  maxHeight : Option Int := none
  deriving Repr, DecidableEq, Inhabited

/-- The wishes that declarations describe. -/
def SizeWishes.ofMerge (merge : Merge) : SizeWishes :=
  { width := merge.int? .width
    height := merge.int? .height
    minWidth := merge.int? .minWidth
    minHeight := merge.int? .minHeight
    maxWidth := merge.int? .maxWidth
    maxHeight := merge.int? .maxHeight }

/-- The shape of the pointer. -/
inductive Cursor where
  | arrow
  | hand
  | textBeam
  | wait
  | progress
  | crosshair
  | help
  | moving
  | notAllowed
  | resizeVertical
  | resizeHorizontal
  | resizeRising
  | resizeFalling
  /-- A shape from a file. -/
  | custom (location : String)
  deriving Repr, DecidableEq, Inhabited

/-- The pointer shape that a keyword names. -/
def Cursor.ofKeyword? : Keyword → Option Cursor
  | .arrow | .defaultWord => some .arrow
  | .hand | .pointer => some .hand
  | .textWord => some .textBeam
  | .wait => some .wait
  | .progress => some .progress
  | .crosshair => some .crosshair
  | .help => some .help
  | .moveWord => some .moving
  | .notAllowed => some .notAllowed
  | .nsResize => some .resizeVertical
  | .ewResize => some .resizeHorizontal
  | .neswResize => some .resizeRising
  | .nwseResize => some .resizeFalling
  | _ => none

/-- The pointer shape that a value describes. -/
def Cursor.ofValue? : Value → Option Cursor
  | .uri location => some (.custom location)
  | .keyword word => Cursor.ofKeyword? word
  | _ => none

/-- Everything that whoever paints a widget has to know about its style. -/
structure Appearance where
  /-- The layers of the background, the bottom one first. -/
  backgrounds : List BackgroundLayer := []
  border : Option Border := none
  borderImage : Option BorderImage := none
  text : Option TextStyle := none
  margin : Edges := Edges.zero
  padding : Edges := Edges.zero
  size : SizeWishes := {}
  cursor : Option Cursor := none
  /-- Painting covers the whole rectangle of the widget and nothing shines through. -/
  isOpaque : Bool := false
  /-- The largest number of animation frames among the layers. -/
  frameCount : Nat := 1
  deriving Repr, DecidableEq, Inhabited

/-- The widths that a shorthand and the properties of single sides declare for a box. -/
def boxEdges (merge : Merge) (shorthand : Property) (single : Sides Property) : Edges :=
  let all := (Sides.expand? (merge.ints shorthand)).getD Edges.zero
  all.zipWith (fun width property => (merge.int? property).getD width) single

/-- The layers that declarations describe: one or two from the properties of a single aspect, at
the bottom, then one or two from each background declaration. -/
def layersOf (merge : Merge) : List BackgroundLayer :=
  let aspects :=
    merge.values .backgroundColor ++ merge.values .backgroundImage ++
      merge.values .backgroundRepeat ++ merge.values .backgroundPosition ++
      merge.values .backgroundClip
  let base := aspects.foldl LayerDraft.add {}
  let base :=
    match merge.get? .backgroundSize with
    | some declaration => base.addSize declaration.values
    | none => base
  base.layers ++ merge.backgrounds.flatMap fun declaration =>
    (declaration.values.foldl LayerDraft.add {}).layers

/-- The layers hide everything behind a box with square corners: some layer fills the whole
rectangle, or the border box where there is no margin, with an opaque color. -/
def coversBox (layers : List BackgroundLayer) (margin : Edges) : Bool :=
  layers.any fun layer =>
    layer.isOpaqueFill &&
      (layer.clip == .margin || (layer.clip == .border && margin.isZero))

namespace Appearance

/-- The appearance that declarations describe. -/
def ofMerge (merge : Merge) (settings : StyleSettings) : Appearance :=
  let backgrounds := layersOf merge
  let border := Border.ofMerge? merge
  let margin := boxEdges merge .margin ⟨.marginTop, .marginRight, .marginBottom, .marginLeft⟩
  let padding :=
    boxEdges merge .padding ⟨.paddingTop, .paddingRight, .paddingBottom, .paddingLeft⟩
  let squareCorners :=
    match border with
    | some border => border.radii.isZero
    | none => true
  { backgrounds := backgrounds
    border := border
    borderImage := (merge.get? .borderImage).bind fun declaration =>
      BorderImage.ofValues? declaration.values
    text := TextStyle.ofMerge? merge settings
    margin := margin
    padding := padding
    size := SizeWishes.ofMerge merge
    cursor := (merge.values .cursor).findSome? Cursor.ofValue?
    isOpaque := squareCorners && coversBox backgrounds margin
    frameCount := ((backgrounds.map BackgroundLayer.frameCount).max?).getD 1 }

/-- The widths that the border takes up. -/
def borderWidths (appearance : Appearance) : Edges :=
  match appearance.border with
  | some border => border.widths
  | none => Edges.zero

/-- The box of the border: the rectangle of the widget without its margin. -/
def borderRect (appearance : Appearance) (rect : Rect) : Rect := rect.deflate appearance.margin

/-- The box inside the border. -/
def paddingRect (appearance : Appearance) (rect : Rect) : Rect :=
  (appearance.borderRect rect).deflate appearance.borderWidths

/-- The box for text and children. -/
def contentRect (appearance : Appearance) (rect : Rect) : Rect :=
  (appearance.paddingRect rect).deflate appearance.padding

/-- The box that a layer paints. -/
def layerRect (appearance : Appearance) (layer : BackgroundLayer) (rect : Rect) : Rect :=
  match layer.clip with
  | .margin => rect
  | .border => appearance.borderRect rect
  | .padding => appearance.paddingRect rect
  | .content => appearance.contentRect rect

end Appearance

end StyledWidgets.Style
