/-
Module: StyledWidgets.Inspect.Appearance
Purpose: Documents of appearances, for tools that look inside.
Main exports: BackgroundLayer.toJson, Border.toJson, TextStyle.toJson, Appearance.toJson
-/
import StyledWidgets.Inspect.Geometry
import StyledWidgets.Inspect.Sheet
import StyledWidgets.Style.Appearance

namespace StyledWidgets.Style

open StyledWidgets.Sheet

/-! ### Backgrounds and borders -/

/-- What a layer is painted with. -/
def Brush.toJson : Brush → JsonValue
  | .color shade => .record [("color", shade.toJson)]
  | .image location => .record [("image", .text location)]

/-- The places along both axes and the offsets. -/
def BackgroundPosition.toJson (position : BackgroundPosition) : JsonValue :=
  .array [.text position.horizontal.name, .text position.vertical.name, .int position.dx,
    .int position.dy]

/-- The size of an image: a word, or its width and height. -/
def BackgroundSize.toJson : BackgroundSize → JsonValue
  | .auto => .text "Auto"
  | .stretch => .text "Stretch"
  | .contain => .text "Contain"
  | .cover => .text "Cover"
  | .fixed width height => .list .int [width, height]

/-- One layer of a background. -/
def BackgroundLayer.toJson (layer : BackgroundLayer) : JsonValue :=
  .record
    [ ("brush", layer.brush.toJson),
      ("repeat", .text layer.tiling.name),
      ("position", layer.position.toJson),
      ("clip", .text layer.clip.name),
      ("size", layer.size.toJson),
      ("frames", .nat layer.frameCount) ]

/-- One side of a border. -/
def BorderSide.toJson (side : BorderSide) : JsonValue :=
  .record
    [ ("width", .int side.width), ("style", .text side.style.name), ("color", side.color.toJson) ]

/-- The radii of the corners, clockwise from the top left. -/
def Corners.toJson (corners : Corners) : JsonValue :=
  .list .int [corners.topLeft, corners.topRight, corners.bottomRight, corners.bottomLeft]

/-- A border, with the widths that it takes up. -/
def Border.toJson (border : Border) : JsonValue :=
  .record
    [ ("top", border.sides.top.toJson), ("right", border.sides.right.toJson),
      ("bottom", border.sides.bottom.toJson), ("left", border.sides.left.toJson),
      ("radii", border.radii.toJson), ("widths", border.widths.toJson) ]

/-- An image around a box. -/
def BorderImage.toJson (image : BorderImage) : JsonValue :=
  .record
    [ ("uri", .text image.location), ("slices", Edges.toJson image.slices),
      ("repeat", .text image.fill.name) ]

/-! ### Text -/

/-- A shadow behind text. -/
def TextShadow.toJson (shadow : TextShadow) : JsonValue :=
  .array [.int shadow.dx, .int shadow.dy, .int shadow.blur, shadow.color.toJson]

/-- A line around the letters of text. -/
def TextOutline.toJson (outline : TextOutline) : JsonValue :=
  .array [.int outline.width, outline.color.toJson]

/-- The look of text. -/
def TextStyle.toJson (text : TextStyle) : JsonValue :=
  .record
    [ ("family", .text text.family), ("size", .int text.size), ("weight", .int text.weight),
      ("style", .text text.slant.name), ("color", text.color.toJson),
      ("align", .text text.align.name), ("vertical", .text text.vertical.name),
      ("decoration", .text text.decoration.name),
      ("shadow", .orNull TextShadow.toJson text.shadow),
      ("outline", .orNull TextOutline.toJson text.outline) ]

/-! ### Appearances -/

/-- The shape of the pointer: a word, or the location of a file. -/
def Cursor.toJson : Cursor → JsonValue
  | .arrow => .text "Arrow"
  | .hand => .text "Hand"
  | .textBeam => .text "IBeam"
  | .wait => .text "Wait"
  | .progress => .text "Progress"
  | .crosshair => .text "Crosshair"
  | .help => .text "Help"
  | .moving => .text "Move"
  | .notAllowed => .text "NotAllowed"
  | .resizeVertical => .text "ResizeNS"
  | .resizeHorizontal => .text "ResizeEW"
  | .resizeRising => .text "ResizeNESW"
  | .resizeFalling => .text "ResizeNWSE"
  | .custom location => .record [("custom", .text location)]

/-- The wishes for the size: the size itself, the smallest and the largest one, width first. -/
def SizeWishes.toJson (size : SizeWishes) : JsonValue :=
  .list (.orNull .int)
    [size.width, size.height, size.minWidth, size.minHeight, size.maxWidth, size.maxHeight]

/-- An appearance. -/
def Appearance.toJson (appearance : Appearance) : JsonValue :=
  .record
    [ ("backgrounds", .list BackgroundLayer.toJson appearance.backgrounds),
      ("border", .orNull Border.toJson appearance.border),
      ("border_image", .orNull BorderImage.toJson appearance.borderImage),
      ("text", .orNull TextStyle.toJson appearance.text),
      ("margin", appearance.margin.toJson),
      ("padding", appearance.padding.toJson),
      ("size", appearance.size.toJson),
      ("cursor", .orNull Cursor.toJson appearance.cursor),
      ("opaque", .bool appearance.isOpaque),
      ("frame_count", .nat appearance.frameCount) ]

end StyledWidgets.Style
