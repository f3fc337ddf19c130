/-
Module: StyledWidgets.Sheet.Selector
Purpose: Selectors: what a rule requires of a widget and of its ancestors.
Main exports: Relation, Compound, Selector, Selector.components, Selector.specificity,
  Selector.text
-/
import StyledWidgets.Sheet.PseudoClass

namespace StyledWidgets.Sheet

/-- How a component of a selector is tied to the component before it, which lies nearer to the
root. -/
inductive Relation where
  /-- Nothing is stated. The first component has no other relation; anywhere else it is matched
  like `ancestor`. -/
  | unstated
  /-- Some ancestor matches the component before. -/
  | ancestor
  /-- The parent matches the component before. -/
  | parent
  deriving Repr, DecidableEq, Inhabited

/-- What a selector requires of one widget. -/
structure Compound where
  /-- The type name; no difference is made between the spellings `Button` and `.Button`. -/
  element : Option String := none
  /-- The object name. -/
  id : Option String := none
  /-- The pseudo-classes that must be active. -/
  pseudo : PseudoMask := PseudoMask.empty
  deriving Repr, DecidableEq, Inhabited

namespace Compound

/-- The compound without requirements. -/
def anything : Compound := {}

/-- Neither a type nor an object name is required. -/
def isUniversal (compound : Compound) : Bool := compound.element.isNone && compound.id.isNone

/-- The weight of a compound: 256 for an object name, 16 for each pseudo-class and 1 for a type
name. -/
def specificity (compound : Compound) : Nat :=
  (if compound.id.isSome then 0x100 else 0) + compound.pseudo.count * 0x10 +
    (if compound.element.isSome then 1 else 0)

/-- The text of a compound. A star stands only where nothing else would. -/
def text (compound : Compound) : String :=
  let element :=
    match compound.element, compound.id with
    | some element, _ => element
    | none, none => if compound.pseudo.isEmpty then "*" else ""
    | none, some _ => ""
  let id :=
    match compound.id with
    | some id => "#" ++ id
    | none => ""
  element ++ id ++ compound.pseudo.text

end Compound

/-- A selector: what it requires of the widget it styles, and the path toward the root. Each step
of `context` says how the component before it on the path is tied to the step's compound, the
nearest first. -/
structure Selector where
  subject : Compound
  context : List (Relation × Compound) := []
  deriving Repr, DecidableEq, Inhabited

namespace Selector

/-- The selector of every widget. -/
def universal : Selector := ⟨Compound.anything, []⟩

/-- The selector that moves on to a new subject, tied to the present one. -/
def descend (selector : Selector) (relation : Relation) (subject : Compound) : Selector :=
  ⟨subject, (relation, selector.subject) :: selector.context⟩

/-- The selector of a list of components, the one nearest to the root first. The relation of the
first component is ignored, and an empty list gives the universal selector. -/
def ofComponents : List (Relation × Compound) → Selector
  | [] => universal
  | (_, first) :: rest => rest.foldl (fun sofar step => sofar.descend step.1 step.2) ⟨first, []⟩

/-- The components of a subject and its path, nearest to the root first. -/
def componentsOf (subject : Compound) : List (Relation × Compound) → List (Relation × Compound)
  | [] => [(.unstated, subject)]
  | (relation, next) :: rest => componentsOf next rest ++ [(relation, subject)]

/-- The components with their relations, the one nearest to the root first. -/
def components (selector : Selector) : List (Relation × Compound) :=
  componentsOf selector.subject selector.context

/-- The sum of the weights of all components. -/
def specificity (selector : Selector) : Nat :=
  selector.components.foldl (fun total component => total + component.2.specificity) 0

/-- The pseudo-classes required of the subject. -/
def pseudo (selector : Selector) : PseudoMask := selector.subject.pseudo

/-- The pseudo-classes required of the subject are active. -/
def acceptsPseudo (selector : Selector) (mask : PseudoMask) : Bool :=
  selector.pseudo.isEmpty || mask.contains selector.pseudo

/-- How a relation is written between two components. -/
def separator : Relation → String
  | .parent => " > "
  | _ => " "

/-- The text of a subject and its path. -/
def textOf (subject : Compound) : List (Relation × Compound) → String
  | [] => subject.text
  | (relation, next) :: rest => textOf next rest ++ separator relation ++ subject.text

/-- The text of a selector. -/
def text (selector : Selector) : String := textOf selector.subject selector.context

end Selector

end StyledWidgets.Sheet
