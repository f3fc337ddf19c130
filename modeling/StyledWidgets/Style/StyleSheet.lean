/-
Module: StyledWidgets.Style.StyleSheet
Purpose: Sheets whose selectors are sorted into buckets by what they require of the subject.
Main exports: SheetId, Alternative, StyleSheet, StyleSheet.parse, StyleSheet.candidates
-/
import StyledWidgets.Sheet.Reader
import StyledWidgets.Table

namespace StyledWidgets.Style

open StyledWidgets.Sheet

/-- The identity of a sheet that has been read. Reading the same text twice gives two sheets. -/
structure SheetId where
  raw : Nat
  deriving Repr, DecidableEq, Inhabited

/-- The text of a sheet identity. -/
def SheetId.text (id : SheetId) : String := "sheet#" ++ Nat.repr id.raw

/-- One of the selectors of a rule. -/
structure Alternative where
  rule : StyleRule
  /-- The place of the selector in the rule. -/
  index : Nat
  selector : Selector
  deriving Repr, DecidableEq, Inhabited

/-- The selectors of a rule. -/
def alternativesOf (rule : StyleRule) : List Alternative :=
  rule.selectors.zipIdx.map fun (selector, index) => ⟨rule, index, selector⟩

/-- The selectors of a sheet in buckets. A selector whose subject requires an object name is found
under that name, any other that requires a type name under the type name, and the rest in the
universal bucket; so every selector is in exactly one bucket. -/
structure SelectorIndex where
  byId : Table String (List Alternative) := ∅
  byType : Table String (List Alternative) := ∅
  universal : List Alternative := []
  deriving Repr, DecidableEq, Inhabited

namespace SelectorIndex

/-- The bucket of a name. -/
def bucket (table : Table String (List Alternative)) (name : String) : List Alternative :=
  (table.find? name).getD []

/-- Append to the bucket of a name. -/
def push (table : Table String (List Alternative)) (name : String) (entry : Alternative) :
    Table String (List Alternative) :=
  table.insert name (bucket table name ++ [entry])

/-- Sort one more selector in. -/
def add (index : SelectorIndex) (entry : Alternative) : SelectorIndex :=
  match entry.selector.subject.id, entry.selector.subject.element with
  | some id, _ => { index with byId := push index.byId id entry }
  | none, some element => { index with byType := push index.byType element entry }
  | none, none => { index with universal := index.universal ++ [entry] }

/-- Sort the selectors of rules. -/
def ofRules (rules : List StyleRule) : SelectorIndex :=
  (rules.flatMap alternativesOf).foldl add {}

/-- The selectors that can match a node with the given names: the universal ones, those of its
type, then those of its object name. A node without an object name has none of the last kind. -/
def candidates (index : SelectorIndex) (objectName typeName : String) : List Alternative :=
  index.universal ++ bucket index.byType typeName ++
    (if objectName = "" then [] else bucket index.byId objectName)

end SelectorIndex

/-- A sheet that has been read, with its buckets. -/
structure StyleSheet where
  id : SheetId
  source : String
  rules : List StyleRule
  index : SelectorIndex
  deriving Repr, DecidableEq, Inhabited

namespace StyleSheet

/-- Read a sheet. -/
def parse (id : SheetId) (source : String) : StyleSheet :=
  let rules := parseSheet source
  ⟨id, source, rules, SelectorIndex.ofRules rules⟩

/-- A short description of a sheet. -/
def summary (sheet : StyleSheet) : String :=
  "StyleSheet \x7b id: SheetId(" ++ Nat.repr sheet.id.raw ++ "), rules: " ++
    Nat.repr sheet.rules.length ++ " \x7d"

/-- The selectors of the sheet that can match a node with the given names. -/
def candidates (sheet : StyleSheet) (objectName typeName : String) : List Alternative :=
  sheet.index.candidates objectName typeName

end StyleSheet

end StyledWidgets.Style
