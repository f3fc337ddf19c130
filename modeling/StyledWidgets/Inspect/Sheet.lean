/-
Module: StyledWidgets.Inspect.Sheet
Purpose: Documents of selectors, declarations and rules, for tools that look inside. Whatever has a
  text of its own is shown with it.
Main exports: Value.toJson, Selector.toJson, Declaration.toJson, StyleRule.toJson
-/
import StyledWidgets.Json.Value
import StyledWidgets.Sheet.Rule

namespace StyledWidgets.Sheet

/-- The names of the elements; bits without a name do not show. -/
def PseudoMask.toJson (mask : PseudoMask) : JsonValue :=
  .list (fun pseudo => .text pseudo.name) mask.toList

/-- A color as its text. -/
def Color.toJson (color : Color) : JsonValue := .text color.text

/-- A value under the name of its kind. -/
def Value.toJson : Value → JsonValue
  | .number n => .record [("number", .int n)]
  | .length n => .record [("length", .int n)]
  | .keyword word => .record [("keyword", .text word.name)]
  | .uri location => .record [("uri", .text location)]
  | .color shade => .record [("color", shade.toJson)]
  | .string text => .record [("string", .text text)]

/-- The name of a relation. -/
def Relation.name : Relation → String
  | .unstated => "NoRelation"
  | .ancestor => "MatchNextIfAncestor"
  | .parent => "MatchNextIfParent"

/-- A component of a selector with its relation. -/
def Compound.toJson (relation : Relation) (compound : Compound) : JsonValue :=
  .record
    [ ("element", .orNull .text compound.element),
      ("id", .orNull .text compound.id),
      ("pseudo", compound.pseudo.toJson),
      ("relation", .text relation.name),
      ("universal", .bool compound.isUniversal),
      ("specificity", .nat compound.specificity),
      ("text", .text compound.text) ]

/-- A selector with its components, the one nearest to the root first. -/
def Selector.toJson (selector : Selector) : JsonValue :=
  .record
    [ ("components", .list (fun component => Compound.toJson component.1 component.2)
        selector.components),
      ("specificity", .nat selector.specificity),
      ("pseudo", selector.pseudo.toJson),
      ("text", .text selector.text) ]

/-- A declaration. -/
def Declaration.toJson (declaration : Declaration) : JsonValue :=
  .record
    [ ("property", .text declaration.property.name),
      ("values", .list Value.toJson declaration.values),
      ("text", .text declaration.text) ]

/-- A rule. -/
def StyleRule.toJson (rule : StyleRule) : JsonValue :=
  .record
    [ ("selectors", .list Selector.toJson rule.selectors),
      ("declarations", .list Declaration.toJson rule.declarations),
      ("order", .nat rule.order),
      ("text", .text rule.text) ]

end StyledWidgets.Sheet
