/-
Module: StyledWidgets.Sheet.Color
Purpose: Colors of four channels, their hexadecimal text and the colors that have names.
Main exports: Color, Color.text, Color.ofHex?, Color.ofName?
-/
import StyledWidgets.Text.Blank

namespace StyledWidgets.Sheet

open StyledWidgets.Text

/-- A color; an alpha of 255 is opaque and one of 0 shows nothing. -/
structure Color where
  red : UInt8
  green : UInt8
  blue : UInt8
  alpha : UInt8
  deriving Repr, DecidableEq, Inhabited

/-- The value of a hexadecimal digit of either case. -/
def hexValue? (c : Char) : Option Nat :=
  if '0' ≤ c ∧ c ≤ '9' then some (c.toNat - '0'.toNat)
  else if 'a' ≤ c ∧ c ≤ 'f' then some (c.toNat - 'a'.toNat + 10)
  else if 'A' ≤ c ∧ c ≤ 'F' then some (c.toNat - 'A'.toNat + 10)
  else none

namespace Color

/-- The color that shows nothing. -/
def transparent : Color := ⟨0, 0, 0, 0⟩

/-- Opaque black. -/
def black : Color := ⟨0, 0, 0, 255⟩

/-- The opaque color of three channels. -/
def ofRgb (red green blue : UInt8) : Color := ⟨red, green, blue, 255⟩

/-- Nothing shines through the color. -/
def isOpaque (color : Color) : Bool := color.alpha == 255

/-- The channels in one word, red in the highest byte and alpha in the lowest. -/
def toWord (color : Color) : UInt32 :=
  (color.red.toUInt32 <<< 24) ||| (color.green.toUInt32 <<< 16) |||
    (color.blue.toUInt32 <<< 8) ||| color.alpha.toUInt32

/-- The color packed in a word. -/
def ofWord (word : UInt32) : Color :=
  ⟨(word >>> 24).toUInt8, (word >>> 16).toUInt8, (word >>> 8).toUInt8, word.toUInt8⟩

/-- A channel as two lower-case hexadecimal digits. -/
def hexByte (channel : UInt8) : List Char :=
  [Nat.digitChar (channel.toNat / 16), Nat.digitChar (channel.toNat % 16)]

/-- The text of a color: a hash and eight digits, alpha last. -/
def text (color : Color) : String :=
  String.ofList ('#' :: (hexByte color.red ++ hexByte color.green ++
    hexByte color.blue ++ hexByte color.alpha))

/-- The channel written by two hexadecimal digits. -/
def channelOf (high low : Nat) : UInt8 := UInt8.ofNat (high * 16 + low)

/-- The color written by hexadecimal digits after a hash: one or two digits for each of red,
green and blue, or two for each channel including alpha. -/
def ofHex? (digits : List Char) : Option Color :=
  match digits.mapM hexValue? with
  | some [r, g, b] => some (ofRgb (channelOf r r) (channelOf g g) (channelOf b b))
  | some [r, r', g, g', b, b'] => some (ofRgb (channelOf r r') (channelOf g g') (channelOf b b'))
  | some [r, r', g, g', b, b', a, a'] =>
      some ⟨channelOf r r', channelOf g g', channelOf b b', channelOf a a'⟩
  | _ => none

/-- The colors that have names. -/
def named : List (String × Color) :=
  [ ("black", ofRgb 0 0 0), ("blue", ofRgb 0 0 255), ("gray", ofRgb 128 128 128),
    ("green", ofRgb 0 128 0), ("grey", ofRgb 128 128 128), ("orange", ofRgb 255 165 0),
    ("red", ofRgb 255 0 0), ("white", ofRgb 255 255 255), ("yellow", ofRgb 255 255 0) ]

/-- The color with a name; ASCII letters of either case are equal. -/
def ofName? (name : List Char) : Option Color :=
  named.lookup (String.ofList (lower name))

end Color

end StyledWidgets.Sheet
