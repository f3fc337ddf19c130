/-
Module: StyledWidgets.Style.Matching
Purpose: Which selectors match a node in its place.
Main exports: Compound.matchesNode, contextMatches, Selector.matchesLineage
-/
import StyledWidgets.Sheet.Selector
import StyledWidgets.Style.Node

namespace StyledWidgets.Style

open StyledWidgets.Sheet

/-- The names that a compound requires are the names of the node. Pseudo-classes are left aside:
they depend on the moment of the lookup and not on the place of the node. -/
def matchesNode (compound : Compound) (node : StyleNode) : Bool :=
  (match compound.id with
    | some id => node.objectName == id
    | none => true) &&
  (match compound.element with
    | some element => node.typeName == element
    | none => true)

/-- The path of a selector matches a list of ancestors, the nearest first. A parent step takes the
next ancestor. Every other step takes the nearest ancestor that matches and stays with that choice,
so a failure further up fails the whole path. -/
def contextMatches : List (Relation × Compound) → List StyleNode → Bool
  | [], _ => true
  | (.parent, _) :: _, [] => false
  | (.parent, compound) :: steps, node :: above =>
      matchesNode compound node && contextMatches steps above
  | (_, compound) :: steps, nodes =>
      match nodes.dropWhile fun node => !matchesNode compound node with
      | [] => false
      | _ :: above => contextMatches steps above

/-- A selector matches a node in its place. -/
def matchesLineage (selector : Selector) (lineage : Lineage) : Bool :=
  matchesNode selector.subject lineage.node && contextMatches selector.context lineage.ancestors

end StyledWidgets.Style
