/-
Module: StyledWidgets.Style.TextStyle
Purpose: The look of text.
Main exports: TextStyle, TextStyle.ofMerge?
-/
import StyledWidgets.Style.Background
import StyledWidgets.Style.Merge
import StyledWidgets.Toolkit.Settings

namespace StyledWidgets.Style

open StyledWidgets.Sheet

/-- The slant of a font. -/
inductive FontSlant where
  | normal
  | italic
  | oblique
  deriving Repr, DecidableEq, Inhabited

/-- The name of a slant. -/
def FontSlant.name : FontSlant → String
  | .normal => "Normal"
  | .italic => "Italic"
  | .oblique => "Oblique"

/-- The horizontal alignment of text. -/
inductive TextAlign where
  | left
  | center
  | right
  | justify
  deriving Repr, DecidableEq, Inhabited

/-- The name of an alignment. -/
def TextAlign.name : TextAlign → String
  | .left => "Left"
  | .center => "Center"
  | .right => "Right"
  | .justify => "Justify"

/-- A line along text. -/
inductive TextDecoration where
  | none
  | underline
  | overline
  | lineThrough
  deriving Repr, DecidableEq, Inhabited

/-- The name of a decoration. -/
def TextDecoration.name : TextDecoration → String
  | .none => "None"
  | .underline => "Underline"
  | .overline => "Overline"
  | .lineThrough => "LineThrough"

/-- A shadow behind text. -/
structure TextShadow where
  dx : Int
  dy : Int
  blur : Int
  color : Color
  deriving Repr, DecidableEq, Inhabited

/-- A line around the letters of text. -/
structure TextOutline where
  width : Int
  color : Color
  deriving Repr, DecidableEq, Inhabited

/-- The look of text. -/
structure TextStyle where
  family : String
  size : Int
  weight : Int := 400
  slant : FontSlant := .normal
  color : Color := Color.black
  align : TextAlign := .left
  vertical : VerticalAlign := .center
  decoration : TextDecoration := .none
  shadow : Option TextShadow := Option.none
  outline : Option TextOutline := Option.none
  deriving Repr, DecidableEq, Inhabited

namespace TextStyle

/-- The look of text about which nothing is declared. -/
def standard (settings : StyleSettings) : TextStyle :=
  { family := settings.defaultFontFamily, size := settings.defaultFontSize }

/-- Take a value as a font weight: a keyword, or a number from 1 to 1000. -/
def addWeight (text : TextStyle) : Value → TextStyle
  | .keyword .bold => { text with weight := 700 }
  | .keyword .light => { text with weight := 300 }
  | .keyword .normal => { text with weight := 400 }
  | .number n => { text with weight := max 1 (min 1000 n) }
  | _ => text

/-- Take a keyword as a slant. -/
def addSlant (text : TextStyle) : Keyword → TextStyle
  | .italic => { text with slant := .italic }
  | .oblique => { text with slant := .oblique }
  | .normal => { text with slant := .normal }
  | _ => text

/-- Take one value of the font shorthand. A number that is a positive multiple of a hundred is a
weight; any other number or length is a size. -/
def addFont (text : TextStyle) (value : Value) : TextStyle :=
  match value with
  | .number n =>
      if 100 ≤ n ∧ n % 100 = 0 then text.addWeight value else { text with size := n }
  | .length n => { text with size := n }
  | .string family => { text with family := family }
  | .keyword .italic => text.addSlant .italic
  | .keyword .oblique => text.addSlant .oblique
  | .keyword _ => text.addWeight value
  | .uri _ | .color _ => text

/-- Take a keyword as an alignment along either axis; `center` is horizontal. -/
def addAlign (text : TextStyle) : Keyword → TextStyle
  | .left => { text with align := .left }
  | .right => { text with align := .right }
  | .center => { text with align := .center }
  | .justify => { text with align := .justify }
  | .top => { text with vertical := .top }
  | .bottom => { text with vertical := .bottom }
  | _ => text

/-- The decoration that a keyword names. -/
def decorationOf : Keyword → TextDecoration
  | .underline => .underline
  | .overline => .overline
  | .lineThrough => .lineThrough
  | _ => .none

/-- The shadow that values describe: two offsets, an optional blur and an optional color. -/
def shadowOf? (values : List Value) : Option TextShadow :=
  let color := (values.findSome? Value.color?).getD Color.black
  match values.filterMap Value.int? with
  | dx :: dy :: rest => some ⟨dx, dy, rest.headD 0, color⟩
  | _ => Option.none

/-- The outline that values describe: a width and an optional color. -/
def outlineOf? (values : List Value) : Option TextOutline :=
  (values.findSome? Value.int?).map fun width =>
    ⟨width, (values.findSome? Value.color?).getD Color.black⟩

/-- The properties about text. -/
def properties : List Property :=
  [.color, .font, .fontFamily, .fontSize, .fontStyle, .fontWeight, .textAlign, .textDecoration,
    .textOutline, .textShadow]

/-- Take the font properties: the shorthand first, then the single ones over it. -/
def withFont (text : TextStyle) (merge : Merge) : TextStyle :=
  let text := (merge.values .font).foldl addFont text
  let text :=
    match merge.values .fontFamily with
    | .string family :: _ => { text with family := family }
    | _ => text
  let text := { text with size := (merge.int? .fontSize).getD text.size }
  let text := (merge.values .fontWeight).foldl addWeight text
  (merge.keywords .fontStyle).foldl addSlant text

/-- The look of text that declarations describe; none if they say nothing about text. -/
def ofMerge? (merge : Merge) (settings : StyleSettings) : Option TextStyle :=
  if properties.all fun property => (merge.get? property).isNone then Option.none
  else
    let text := (standard settings).withFont merge
    let text := { text with color := (merge.color? .color).getD text.color }
    let text := (merge.keywords .textAlign).foldl addAlign text
    some
      { text with
        decoration :=
          match (merge.keywords .textDecoration).head? with
          | some word => decorationOf word
          | Option.none => text.decoration
        shadow := shadowOf? (merge.values .textShadow)
        outline := outlineOf? (merge.values .textOutline) }

end TextStyle

end StyledWidgets.Style
