/-
Module: StyledWidgets.Style.Merge
Purpose: The declarations that are left when rules are laid over each other.
Main exports: Merge, Merge.apply, Merge.get?, Merge.backgrounds
-/
import StyledWidgets.Sheet.Rule
import StyledWidgets.Table

namespace StyledWidgets.Style

open StyledWidgets.Sheet

/-- Declarations laid over each other, the strongest last. A property keeps its last declaration;
only the declarations of background layers stack. -/
structure Merge where
  properties : Table Property Declaration := ∅
  layers : List Declaration := []
  deriving Repr, DecidableEq, Inhabited

/-- The declaration says `none` and nothing else. -/
def isNone (declaration : Declaration) : Bool :=
  match declaration.values with
  | [.keyword .noneWord] => true
  | _ => false

namespace Merge

/-- Lay one declaration over the others. -/
def add (merge : Merge) (declaration : Declaration) : Merge :=
  match declaration.property with
  | .background => { merge with layers := merge.layers ++ [declaration] }
  | property => { merge with properties := merge.properties.insert property declaration }

/-- Lay declarations over the others, one after another. -/
def apply (merge : Merge) (declarations : List Declaration) : Merge := declarations.foldl add merge

/-- Nothing has been declared. -/
def isEmpty (merge : Merge) : Bool := merge.properties.isEmpty && merge.layers.isEmpty

/-- The declaration of a property that counts. -/
def get? (merge : Merge) (property : Property) : Option Declaration :=
  merge.properties.find? property

/-- The values of a property. -/
def values (merge : Merge) (property : Property) : List Value :=
  match merge.get? property with
  | some declaration => declaration.values
  | none => []

/-- The whole numbers among the values of a property. -/
def ints (merge : Merge) (property : Property) : List Int :=
  (merge.values property).filterMap Value.int?

/-- The first whole number among the values of a property. -/
def int? (merge : Merge) (property : Property) : Option Int :=
  (merge.values property).findSome? Value.int?

/-- The first color among the values of a property. -/
def color? (merge : Merge) (property : Property) : Option Color :=
  (merge.values property).findSome? Value.color?

/-- The keywords among the values of a property. -/
def keywords (merge : Merge) (property : Property) : List Keyword :=
  (merge.values property).filterMap Value.keyword?

/-- Layers of weaker rules are kept below a `none`: the property that asks for it is declared and
its first value is not `false`. -/
def inheritsBackground (merge : Merge) : Bool :=
  match merge.get? .inheritBackground with
  | none => false
  | some declaration => declaration.values.head? != some (.keyword .falseWord)

/-- The declarations of the background layers, the bottom one first. A `none` drops the layers
below it, unless these are inherited, and is never a layer itself. -/
def backgrounds (merge : Merge) : List Declaration :=
  if merge.inheritsBackground then merge.layers.filter fun layer => !isNone layer
  else (merge.layers.reverse.takeWhile fun layer => !isNone layer).reverse

end Merge

end StyledWidgets.Style
