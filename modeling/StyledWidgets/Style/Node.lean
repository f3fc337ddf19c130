/-
Module: StyledWidgets.Style.Node
Purpose: What styling knows of a widget: its names, its key in the caches and its ancestors.
Main exports: NodeKey, StyleNode, Lineage
-/

namespace StyledWidgets.Style

/-- The key of a node. Widgets and nodes made for a query have separate keys, so that one is never
taken for the other. -/
inductive NodeKey where
  | widget (id : Nat)
  | query (id : Nat)
  deriving Repr, DecidableEq, Inhabited

/-- What styling knows of one node. -/
structure StyleNode where
  key : NodeKey
  typeName : String
  /-- The name that `#name` selectors match; empty if the node has none. -/
  objectName : String
  /-- No rule applies to the node, whatever the sheets say. -/
  ignoresSheets : Bool := false
  deriving Repr, DecidableEq, Inhabited

/-- A node in its place: with its ancestors, the parent first. -/
structure Lineage where
  node : StyleNode
  ancestors : List StyleNode := []
  deriving Repr, DecidableEq, Inhabited

namespace Lineage

/-- The key of the node. -/
def key (lineage : Lineage) : NodeKey := lineage.node.key

/-- The node and its ancestors. -/
def path (lineage : Lineage) : List StyleNode := lineage.node :: lineage.ancestors

end Lineage

end StyledWidgets.Style
