/-
Module: StyledWidgets.Sheet.Value
Purpose: The values of declarations and their text.
Main exports: Value, Value.text, Value.int?, Value.keyword?, Value.color?
-/
import StyledWidgets.Sheet.Color
import StyledWidgets.Sheet.Keyword

namespace StyledWidgets.Sheet

/-- One value of a declaration. -/
inductive Value where
  /-- A number without a unit; fractions are cut off. -/
  | number (n : Int)
  /-- A length in pixels. -/
  | length (n : Int)
  /-- A recognised word. -/
  | keyword (word : Keyword)
  /-- The location of an image or another file. -/
  | uri (location : String)
  /-- A color. -/
  | color (shade : Color)
  /-- Free text; only font properties keep it. -/
  | string (text : String)
  deriving Repr, DecidableEq, Inhabited

namespace Value

/-- The size of a number or a length. -/
def int? : Value → Option Int
  | .number n | .length n => some n
  | _ => none

/-- The word of a keyword. -/
def keyword? : Value → Option Keyword
  | .keyword word => some word
  | _ => none

/-- The color of a color value, or of the keyword for the transparent color. -/
def color? : Value → Option Color
  | .color shade => some shade
  | .keyword .transparent => some Color.transparent
  | _ => none

/-- The text of a value as it is written in a declaration. Locations and free text stand as they
are, without escapes. -/
def text : Value → String
  | .number n => Int.repr n
  | .length n => Int.repr n ++ "px"
  | .keyword word => word.name
  | .uri location => "url(" ++ location ++ ")"
  | .color shade => shade.text
  | .string text => "\"" ++ text ++ "\""

end Value

end StyledWidgets.Sheet
