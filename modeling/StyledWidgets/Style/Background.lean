/-
Module: StyledWidgets.Style.Background
Purpose: Background layers and how the values of declarations describe them.
Main exports: BackgroundLayer, BackgroundLayer.frameFor, LayerDraft, LayerDraft.layers
-/
import StyledWidgets.Sheet.Value

namespace StyledWidgets.Style

open StyledWidgets.Sheet

/-- What a layer is painted with. -/
inductive Brush where
  | color (shade : Color)
  /-- An image by its location; it is loaded by whoever paints. -/
  | image (location : String)
  deriving Repr, DecidableEq, Inhabited

/-- In which directions an image is repeated. -/
inductive Tiling where
  | both
  | horizontal
  | vertical
  | never
  deriving Repr, DecidableEq, Inhabited

/-- The name of a tiling. -/
def Tiling.name : Tiling → String
  | .both => "Repeat"
  | .horizontal => "RepeatX"
  | .vertical => "RepeatY"
  | .never => "NoRepeat"

/-- A place along the horizontal axis. -/
inductive HorizontalAlign where
  | left
  | center
  | right
  deriving Repr, DecidableEq, Inhabited

/-- The name of a horizontal place. -/
def HorizontalAlign.name : HorizontalAlign → String
  | .left => "Left"
  | .center => "Center"
  | .right => "Right"

/-- A place along the vertical axis. -/
inductive VerticalAlign where
  | top
  | center
  | bottom
  deriving Repr, DecidableEq, Inhabited

/-- The name of a vertical place. -/
def VerticalAlign.name : VerticalAlign → String
  | .top => "Top"
  | .center => "Center"
  | .bottom => "Bottom"

/-- Where an image stands in its box. -/
structure BackgroundPosition where
  horizontal : HorizontalAlign := .left
  vertical : VerticalAlign := .top
  dx : Int := 0
  dy : Int := 0
  deriving Repr, DecidableEq, Inhabited

/-- The box that a layer is clipped to. -/
inductive ClipBox where
  /-- The whole rectangle of the widget. -/
  | margin
  | border
  | padding
  | content
  deriving Repr, DecidableEq, Inhabited

/-- The name of a box. -/
def ClipBox.name : ClipBox → String
  | .margin => "Margin"
  | .border => "Border"
  | .padding => "Padding"
  | .content => "Content"

/-- The size of an image. -/
inductive BackgroundSize where
  | auto
  | stretch
  | contain
  | cover
  | fixed (width height : Int)
  deriving Repr, DecidableEq, Inhabited

/-- One layer of a background. -/
structure BackgroundLayer where
  brush : Brush
  tiling : Tiling := .both
  position : BackgroundPosition := {}
  clip : ClipBox := .border
  size : BackgroundSize := .auto
  /-- The number of animation frames in the image, at least one. -/
  frameCount : Nat := 1
  deriving Repr, DecidableEq, Inhabited

namespace BackgroundLayer

/-- The frame of the layer that a frame counter shows. -/
def frameFor (layer : BackgroundLayer) (frame : Nat) : Nat :=
  if layer.frameCount ≤ 1 then 0 else frame % layer.frameCount

/-- The layer covers its box with a color that nothing shines through. -/
def isOpaqueFill (layer : BackgroundLayer) : Bool :=
  match layer.brush with
  | .color shade => shade.isOpaque
  | .image _ => false

end BackgroundLayer

/-- A layer, or two, while their values are read. -/
structure LayerDraft where
  color : Option Color := none
  image : Option String := none
  tiling : Tiling := .both
  position : BackgroundPosition := {}
  /-- A horizontal place has been named. -/
  horizontalSet : Bool := false
  /-- A horizontal offset has been given. -/
  offsetSeen : Bool := false
  clip : ClipBox := .border
  size : BackgroundSize := .auto
  frameCount : Nat := 1
  deriving Repr, DecidableEq, Inhabited

namespace LayerDraft

/-- Place the image along the horizontal axis. -/
def placeHorizontal (draft : LayerDraft) (align : HorizontalAlign) : LayerDraft :=
  { draft with position := { draft.position with horizontal := align }, horizontalSet := true }

/-- Place the image along the vertical axis. -/
def placeVertical (draft : LayerDraft) (align : VerticalAlign) : LayerDraft :=
  { draft with position := { draft.position with vertical := align } }

/-- Take a length: the first one is the horizontal offset, every later one the vertical. -/
def addOffset (draft : LayerDraft) (offset : Int) : LayerDraft :=
  let position :=
    if draft.offsetSeen then { draft.position with dy := offset }
    else { draft.position with dx := offset }
  { draft with position := position, offsetSeen := true }

/-- Take a keyword. The first `center` serves both axes unless the horizontal place is named
already; then it is the vertical one. -/
def addKeyword (draft : LayerDraft) : Keyword → LayerDraft
  | .transparent => { draft with color := some Color.transparent }
  | .repeatBoth => { draft with tiling := .both }
  | .repeatX => { draft with tiling := .horizontal }
  | .repeatY => { draft with tiling := .vertical }
  | .noRepeat => { draft with tiling := .never }
  | .stretch => { draft with size := .stretch }
  | .contain => { draft with size := .contain }
  | .cover => { draft with size := .cover }
  | .left => draft.placeHorizontal .left
  | .right => draft.placeHorizontal .right
  | .top => draft.placeVertical .top
  | .bottom => draft.placeVertical .bottom
  | .center =>
      if draft.horizontalSet then draft.placeVertical .center
      else (draft.placeHorizontal .center).placeVertical .center
  | .margin => { draft with clip := .margin }
  | .border => { draft with clip := .border }
  | .padding => { draft with clip := .padding }
  | .content => { draft with clip := .content }
  | _ => draft

/-- Take one value. A number without a unit counts animation frames. -/
def add (draft : LayerDraft) : Value → LayerDraft
  | .color shade => { draft with color := some shade }
  | .uri location => { draft with image := some location }
  | .number n => { draft with frameCount := (max n 1).toNat }
  | .length n => draft.addOffset n
  | .keyword word => draft.addKeyword word
  | .string _ => draft

/-- Take the values of a size: one number for both directions or one for each. Without numbers the
keywords count. -/
def addSize (draft : LayerDraft) (values : List Value) : LayerDraft :=
  match values.filterMap Value.int? with
  | [] => (values.filterMap Value.keyword?).foldl addKeyword draft
  | [side] => { draft with size := .fixed side side }
  | width :: height :: _ => { draft with size := .fixed width height }

/-- The layers described: a color, and an image above it. A color fills its box evenly, so only
the clip matters to it. -/
def layers (draft : LayerDraft) : List BackgroundLayer :=
  (match draft.color with
    | some shade => [{ brush := .color shade, clip := draft.clip }]
    | none => []) ++
  (match draft.image with
    | some location =>
        [{ brush := .image location, tiling := draft.tiling, position := draft.position,
           clip := draft.clip, size := draft.size, frameCount := draft.frameCount }]
    | none => [])

end LayerDraft

end StyledWidgets.Style
