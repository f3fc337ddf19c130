/-
Module: StyledWidgets.Sheet.Rule
Purpose: Declarations and rules, and their text.
Main exports: Declaration, Declaration.text, StyleRule, StyleRule.text
-/
import StyledWidgets.Sheet.Property
import StyledWidgets.Sheet.Selector
import StyledWidgets.Sheet.Value

namespace StyledWidgets.Sheet

/-- A property and the values it is set to. -/
structure Declaration where
  property : Property
  values : List Value
  deriving Repr, DecidableEq, Inhabited

/-- The text of a declaration, through its semicolon. -/
def Declaration.text (declaration : Declaration) : String :=
  declaration.property.name ++ ":" ++
    String.join (declaration.values.map fun value => " " ++ value.text) ++ ";"

/-- Declarations for the widgets that one of the selectors matches. -/
structure StyleRule where
  selectors : List Selector
  declarations : List Declaration
  /-- The place of the rule among the rules of its sheet. -/
  order : Nat
  deriving Repr, DecidableEq, Inhabited

/-- The text of a rule on one line. -/
def StyleRule.text (rule : StyleRule) : String :=
  String.intercalate ", " (rule.selectors.map Selector.text) ++ " \x7b" ++
    String.join (rule.declarations.map fun declaration => " " ++ declaration.text) ++ " \x7d"

end StyledWidgets.Sheet
