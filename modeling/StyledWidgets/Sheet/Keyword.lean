/-
Module: StyledWidgets.Sheet.Keyword
Purpose: The words with a meaning of their own among the values of declarations.
Main exports: Keyword, Keyword.name, Keyword.ofName?
-/
import StyledWidgets.Text.Blank

namespace StyledWidgets.Sheet

open StyledWidgets.Text

/-- A recognised word. -/
inductive Keyword where
  | arrow
  | bold
  | border
  | bottom
  | center
  | contain
  | content
  | cover
  | crosshair
  | dashed
  | defaultWord
  | dotted
  | double
  | ewResize
  | falseWord
  | hand
  | help
  | italic
  | justify
  | left
  | light
  | lineThrough
  | margin
  | moveWord
  | neswResize
  | noRepeat
  | noneWord
  | normal
  | notAllowed
  | nsResize
  | nwseResize
  | oblique
  | overline
  | padding
  | pointer
  | progress
  | repeatBoth
  | repeatX
  | repeatY
  | right
  | solid
  | stretch
  | textWord
  | top
  | transparent
  | trueWord
  | underline
  | wait
  deriving Repr, DecidableEq, Inhabited

namespace Keyword

/-- All keywords in the order of their names. -/
def all : List Keyword :=
  [.arrow, .bold, .border, .bottom, .center, .contain, .content, .cover, .crosshair,
    .dashed, .defaultWord, .dotted, .double, .ewResize, .falseWord, .hand, .help, .italic,
    .justify, .left, .light, .lineThrough, .margin, .moveWord, .neswResize, .noRepeat,
    .noneWord, .normal, .notAllowed, .nsResize, .nwseResize, .oblique, .overline, .padding,
    .pointer, .progress, .repeatBoth, .repeatX, .repeatY, .right, .solid, .stretch,
    .textWord, .top, .transparent, .trueWord, .underline, .wait]

/-- The spelling of a keyword. -/
def name : Keyword → String
  | .arrow => "arrow"
  | .bold => "bold"
  | .border => "border"
  | .bottom => "bottom"
  | .center => "center"
  | .contain => "contain"
  | .content => "content"
  | .cover => "cover"
  | .crosshair => "crosshair"
  | .dashed => "dashed"
  | .defaultWord => "default"
  | .dotted => "dotted"
  | .double => "double"
  | .ewResize => "ew-resize"
  | .falseWord => "false"
  | .hand => "hand"
  | .help => "help"
  | .italic => "italic"
  | .justify => "justify"
  | .left => "left"
  | .light => "light"
  | .lineThrough => "line-through"
  | .margin => "margin"
  | .moveWord => "move"
  | .neswResize => "nesw-resize"
  | .noRepeat => "no-repeat"
  | .noneWord => "none"
  | .normal => "normal"
  | .notAllowed => "not-allowed"
  | .nsResize => "ns-resize"
  | .nwseResize => "nwse-resize"
  | .oblique => "oblique"
  | .overline => "overline"
  | .padding => "padding"
  | .pointer => "pointer"
  | .progress => "progress"
  | .repeatBoth => "repeat"
  | .repeatX => "repeat-x"
  | .repeatY => "repeat-y"
  | .right => "right"
  | .solid => "solid"
  | .stretch => "stretch"
  | .textWord => "text"
  | .top => "top"
  | .transparent => "transparent"
  | .trueWord => "true"
  | .underline => "underline"
  | .wait => "wait"

/-- The keyword with a spelling; ASCII letters of either case are equal. -/
def ofName? (text : List Char) : Option Keyword :=
  let wanted := String.ofList (lower text)
  all.find? fun keyword => keyword.name == wanted

end Keyword

end StyledWidgets.Sheet
