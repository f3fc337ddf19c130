/-
Module: StyledWidgets.Sheet.Property
Purpose: The properties that a declaration can set.
Main exports: Property, Property.name, Property.ofName?, Property.acceptsText
-/
import StyledWidgets.Text.Blank

namespace StyledWidgets.Sheet

open StyledWidgets.Text

/-- A property that a declaration can set. -/
inductive Property where
  /-- Keeps the background layers of weaker rules below a `none` of a stronger one. -/
  | inheritBackground
  /-- One background layer for each declaration; the layers stack. -/
  | background
  | backgroundClip
  | backgroundColor
  | backgroundImage
  | backgroundPosition
  | backgroundRepeat
  | backgroundSize
  | border
  | borderBottom
  | borderBottomColor
  | borderBottomLeftRadius
  | borderBottomRightRadius
  | borderBottomStyle
  | borderBottomWidth
  | borderColor
  | borderImage
  | borderLeft
  | borderLeftColor
  | borderLeftStyle
  | borderLeftWidth
  | borderRadius
  | borderRight
  | borderRightColor
  | borderRightStyle
  | borderRightWidth
  | borderStyle
  | borderTop
  | borderTopColor
  | borderTopLeftRadius
  | borderTopRightRadius
  | borderTopStyle
  | borderTopWidth
  | borderWidth
  | color
  | cursor
  | font
  | fontFamily
  | fontSize
  | fontStyle
  | fontWeight
  | height
  | margin
  | marginBottom
  | marginLeft
  | marginRight
  | marginTop
  | maxHeight
  | maxWidth
  | minHeight
  | minWidth
  | padding
  | paddingBottom
  | paddingLeft
  | paddingRight
  | paddingTop
  | textAlign
  | textDecoration
  | textOutline
  | textShadow
  | width
  deriving Repr, DecidableEq, Inhabited

namespace Property

/-- All properties in the order of their names. -/
def all : List Property :=
  [.inheritBackground, .background, .backgroundClip, .backgroundColor, .backgroundImage,
    .backgroundPosition, .backgroundRepeat, .backgroundSize, .border, .borderBottom,
    .borderBottomColor, .borderBottomLeftRadius, .borderBottomRightRadius,
    .borderBottomStyle, .borderBottomWidth, .borderColor, .borderImage, .borderLeft,
    .borderLeftColor, .borderLeftStyle, .borderLeftWidth, .borderRadius, .borderRight,
    .borderRightColor, .borderRightStyle, .borderRightWidth, .borderStyle, .borderTop,
    .borderTopColor, .borderTopLeftRadius, .borderTopRightRadius, .borderTopStyle,
    .borderTopWidth, .borderWidth, .color, .cursor, .font, .fontFamily, .fontSize,
    .fontStyle, .fontWeight, .height, .margin, .marginBottom, .marginLeft, .marginRight,
    .marginTop, .maxHeight, .maxWidth, .minHeight, .minWidth, .padding, .paddingBottom,
    .paddingLeft, .paddingRight, .paddingTop, .textAlign, .textDecoration, .textOutline,
    .textShadow, .width]

/-- The name of a property in a style sheet. -/
def name : Property → String
  | .inheritBackground => "-inherit-background"
  | .background => "background"
  | .backgroundClip => "background-clip"
  | .backgroundColor => "background-color"
  | .backgroundImage => "background-image"
  | .backgroundPosition => "background-position"
  | .backgroundRepeat => "background-repeat"
  | .backgroundSize => "background-size"
  | .border => "border"
  | .borderBottom => "border-bottom"
  | .borderBottomColor => "border-bottom-color"
  | .borderBottomLeftRadius => "border-bottom-left-radius"
  | .borderBottomRightRadius => "border-bottom-right-radius"
  | .borderBottomStyle => "border-bottom-style"
  | .borderBottomWidth => "border-bottom-width"
  | .borderColor => "border-color"
  | .borderImage => "border-image"
  | .borderLeft => "border-left"
  | .borderLeftColor => "border-left-color"
  | .borderLeftStyle => "border-left-style"
  | .borderLeftWidth => "border-left-width"
  | .borderRadius => "border-radius"
  | .borderRight => "border-right"
  | .borderRightColor => "border-right-color"
  | .borderRightStyle => "border-right-style"
  | .borderRightWidth => "border-right-width"
  | .borderStyle => "border-style"
  | .borderTop => "border-top"
  | .borderTopColor => "border-top-color"
  | .borderTopLeftRadius => "border-top-left-radius"
  | .borderTopRightRadius => "border-top-right-radius"
  | .borderTopStyle => "border-top-style"
  | .borderTopWidth => "border-top-width"
  | .borderWidth => "border-width"
  | .color => "color"
  | .cursor => "cursor"
  | .font => "font"
  | .fontFamily => "font-family"
  | .fontSize => "font-size"
  | .fontStyle => "font-style"
  | .fontWeight => "font-weight"
  | .height => "height"
  | .margin => "margin"
  | .marginBottom => "margin-bottom"
  | .marginLeft => "margin-left"
  | .marginRight => "margin-right"
  | .marginTop => "margin-top"
  | .maxHeight => "max-height"
  | .maxWidth => "max-width"
  | .minHeight => "min-height"
  | .minWidth => "min-width"
  | .padding => "padding"
  | .paddingBottom => "padding-bottom"
  | .paddingLeft => "padding-left"
  | .paddingRight => "padding-right"
  | .paddingTop => "padding-top"
  | .textAlign => "text-align"
  | .textDecoration => "text-decoration"
  | .textOutline => "text-outline"
  | .textShadow => "text-shadow"
  | .width => "width"

/-- The property with a name; blanks around it are ignored and ASCII letters of either case are
equal. -/
def ofName? (text : List Char) : Option Property :=
  let wanted := String.ofList (lower (trim text))
  all.find? fun property => property.name == wanted

/-- Words without a meaning of their own are kept as free text. -/
def acceptsText : Property → Bool
  | .font | .fontFamily => true
  | _ => false

/-- The property contributes to the background layers. -/
def isBackground : Property → Bool
  | .background | .backgroundClip | .backgroundColor | .backgroundImage
  | .backgroundPosition | .backgroundRepeat | .backgroundSize => true
  | _ => false

end Property

end StyledWidgets.Sheet
