/-
Module: StyledWidgets.Sheet.Reader
Purpose: The reading of style sheets. Nothing makes reading fail: a part that cannot be
  understood is left out together with no more than the unit around it.
Main exports: readDeclarations, blocksOf, readSheet, parseSheet, parseDeclarations
-/
import StyledWidgets.Sheet.Rule
import StyledWidgets.Sheet.SelectorReader
import StyledWidgets.Sheet.ValueReader
import StyledWidgets.Text.Comment

namespace StyledWidgets.Sheet

open StyledWidgets.Text

/-! ### Declarations -/

/-- Read one declaration: a property name, an exposed colon and at least one value. -/
def readDeclaration? (text : List Char) : Option Declaration :=
  match cutExposed ':' text with
  | none => none
  | some (name, values) =>
      match Property.ofName? name with
      | none => none
      | some property =>
          match readValues property values with
          | [] => none
          | values => some ⟨property, values⟩

/-- Read the declarations of a block, cut at its exposed semicolons. A declaration that cannot be
read is left out. -/
def readDeclarations (block : List Char) : List Declaration :=
  (splitExposed ';' block).filterMap readDeclaration?

/-! ### Rules -/

/-- A piece of a sheet: the text in front of a block, and the block. -/
structure Block where
  selectors : List Char
  body : List Char
  deriving Repr, DecidableEq, Inhabited

mutual

/-- The text in front of the next block, the inside of that block and the blocks behind it. A block
starts at an exposed opening brace; text that no block follows belongs to none. -/
def blockAhead? : List Mark → Option (Block × List Block)
  | [] => none
  | m :: rest =>
      if m.isExposed '\x7b' then
        let (body, later) := blockInside rest
        some (⟨[], body⟩, later)
      else
        (blockAhead? rest).map fun (block, later) =>
          ({ block with selectors := m.char :: block.selectors }, later)

/-- The rest of the inside of a block, through an exposed closing brace or the end of the text, and
the blocks behind it. -/
def blockInside : List Mark → List Char × List Block
  | [] => ([], [])
  | m :: rest =>
      if m.isExposed '\x7d' then
        match blockAhead? rest with
        | none => ([], [])
        | some (block, later) => ([], block :: later)
      else
        let (body, later) := blockInside rest
        (m.char :: body, later)

end

/-- The blocks of a marked text. -/
def blocksMarked (marked : List Mark) : List Block :=
  match blockAhead? marked with
  | none => []
  | some (block, later) => block :: later

/-- The blocks of a text. -/
def blocksOf (text : List Char) : List Block := blocksMarked (marks text)

/-- Read the selectors of a rule, cut at exposed commas. A selector that cannot be read is left
out. -/
def readSelectors (text : List Char) : List Selector :=
  (splitExposed ',' text).filterMap fun part => readSelector? (trim part)

/-- Read a block as a rule with the given order, unless no selector or no declaration of it can
be read. -/
def readRule? (order : Nat) (block : Block) : Option StyleRule :=
  match readSelectors block.selectors, readDeclarations block.body with
  | [], _ => none
  | _, [] => none
  | selectors, declarations => some ⟨selectors, declarations, order⟩

/-- Read blocks as rules, numbering those that can be read. -/
def readRules (order : Nat) : List Block → List StyleRule
  | [] => []
  | block :: rest =>
      match readRule? order block with
      | none => readRules order rest
      | some rule => rule :: readRules (order + 1) rest

/-- A text whose last visible character is no closing brace is a block for every widget. -/
def withUniversalBlock (text : List Char) : List Char :=
  if (trimEnd text).getLast? = some '\x7d' then text
  else '*' :: '\x7b' :: (text ++ ['\x7d'])

/-- Read the rules of a style sheet. -/
def readSheet (text : List Char) : List StyleRule :=
  readRules 0 (blocksOf (withUniversalBlock (stripComments text)))

/-- The rules of a style sheet. -/
def parseSheet (text : String) : List StyleRule := readSheet text.toList

/-- The declarations of the inside of a block. -/
def parseDeclarations (text : String) : List Declaration := readDeclarations text.toList

/-- The selector written by a text, if it is one. -/
def parseSelector? (text : String) : Option Selector := readSelector? text.toList

end StyledWidgets.Sheet
