/-
Module: StyledWidgets.Widget.Forest
Purpose: All widgets of all windows, each linked to its parent and to its children.
Main exports: Forest, ForestError, Forest.insert, Forest.reparent, Forest.remove, Forest.path,
  Forest.subtree, Forest.lineage
-/
import StyledWidgets.Style.Node
import StyledWidgets.Toolkit.Error
import StyledWidgets.Widget.Basic

namespace StyledWidgets

open StyledWidgets.Sheet StyledWidgets.Style

/-! ### Failures -/

/-- Why an operation on the forest is refused. -/
inductive ForestError where
  | notFound (id : WidgetId)
  /-- The new parent lies inside the subtree that would move. -/
  | cycle (widget parent : WidgetId)
  /-- A window has no siblings among which it could move. -/
  | noSiblings (window : WidgetId)
  deriving Repr, DecidableEq, Inhabited

namespace ForestError

/-- The wording of a failure. -/
def message : ForestError → String
  | .notFound id => "Widget not found: " ++ id.text
  | .cycle widget parent =>
      "Cannot move " ++ widget.text ++ " under " ++ parent.text ++
        ": it is inside the subtree being moved"
  | .noSiblings window =>
      "Invalid operation: " ++ window.text ++ " is a window and has no siblings"

/-- The failure as users of the library see it. -/
def toToolkit (failure : ForestError) : ToolkitError :=
  match failure with
  | .notFound id => .notFound id.text
  | _ => .tree failure.message

end ForestError

/-! ### Looking at the forest -/

/-- The widgets of all windows. The slot of a widget is its identity; the slots of removed widgets
stay empty. `live` counts the slots in use. -/
structure Forest where
  slots : Array (Option Widget) := #[]
  live : Nat := 0
  deriving Repr, DecidableEq, Inhabited

namespace Forest

/-- The forest without widgets. -/
def empty : Forest := {}

/-- The widget with an identity. -/
def get? (forest : Forest) (id : WidgetId) : Option Widget := (forest.slots[id.raw]?).join

/-- The identity belongs to a widget. -/
def contains (forest : Forest) (id : WidgetId) : Bool := (forest.get? id).isSome

/-- There is no widget. -/
def isEmpty (forest : Forest) : Bool := forest.live == 0

/-- The identities that have been handed out, in order. -/
def handedOut (forest : Forest) : List WidgetId :=
  (List.range forest.slots.size).map WidgetId.mk

/-- The parent of a widget. -/
def parent? (forest : Forest) (id : WidgetId) : Option WidgetId :=
  (forest.get? id).bind Widget.parent

/-- The children of a widget from the bottom to the top; none for an unknown identity. -/
def children (forest : Forest) (id : WidgetId) : List WidgetId :=
  match forest.get? id with
  | some widget => widget.children
  | none => []

/-- The rectangle of a widget relative to its parent; empty for an unknown identity. -/
def geometry (forest : Forest) (id : WidgetId) : Rect :=
  match forest.get? id with
  | some widget => widget.geometry
  | none => Rect.zero

/-- The widget is there and not hidden. -/
def isVisible (forest : Forest) (id : WidgetId) : Bool :=
  (forest.get? id).any Widget.visible

/-- The widget is there and covers its whole rectangle. -/
def isOpaque (forest : Forest) (id : WidgetId) : Bool :=
  (forest.get? id).any Widget.isOpaque

/-- The children of the widget are declared never to overlap. -/
def childrenNeverOverlap (forest : Forest) (id : WidgetId) : Bool :=
  (forest.get? id).any Widget.childrenNeverOverlap

/-- The active pseudo-classes of a widget; none for an unknown identity. -/
def pseudo (forest : Forest) (id : WidgetId) : PseudoMask :=
  match forest.get? id with
  | some widget => widget.pseudo
  | none => PseudoMask.empty

/-- The text of a widget; empty for an unknown identity. -/
def text (forest : Forest) (id : WidgetId) : String :=
  match forest.get? id with
  | some widget => widget.text
  | none => ""

/-- The frame counter of a widget; zero for an unknown identity. -/
def frame (forest : Forest) (id : WidgetId) : UInt32 :=
  match forest.get? id with
  | some widget => widget.frame
  | none => 0

/-! ### Walking up and down

Parents and children are identities, so a walk is bounded by a number of steps. In a forest no path
is longer than the number of slots. -/

/-- The widget and its ancestors, at most `steps` of them. -/
def pathWithin (forest : Forest) : Nat → WidgetId → List WidgetId
  | 0, id => [id]
  | steps + 1, id =>
      match forest.parent? id with
      | none => [id]
      | some parent => id :: pathWithin forest steps parent

/-- The widget and its ancestors up to the window. An unknown identity stands alone. -/
def path (forest : Forest) (id : WidgetId) : List WidgetId :=
  forest.pathWithin forest.slots.size id

/-- One widget is the other or one of its ancestors. -/
def isAncestorOrSelf (forest : Forest) (ancestor id : WidgetId) : Bool :=
  (forest.path id).contains ancestor

/-- The window that a widget belongs to. -/
def windowOf? (forest : Forest) (id : WidgetId) : Option WidgetId :=
  if forest.contains id then (forest.path id).getLast? else none

/-- The windows in the order of their creation. -/
def windows (forest : Forest) : List WidgetId :=
  forest.handedOut.filter fun id =>
    match forest.get? id with
    | some widget => widget.parent.isNone
    | none => false

/-- The widget and those below it down to a depth, each before its children. -/
def subtreeWithin (forest : Forest) : Nat → WidgetId → List WidgetId
  | 0, id => [id]
  | depth + 1, id => id :: (forest.children id).flatMap (subtreeWithin forest depth)

/-- The widget and all widgets below it, each before its children and the children from the bottom
to the top. -/
def subtree (forest : Forest) (id : WidgetId) : List WidgetId :=
  forest.subtreeWithin forest.slots.size id

/-! ### The forest as styling sees it -/

/-- The key of a widget in the caches of styling. -/
def styleKey (id : WidgetId) : NodeKey := .widget id.raw

/-- What styling knows of a widget; an unknown identity has empty names. -/
def styleNode (forest : Forest) (id : WidgetId) : StyleNode :=
  match forest.get? id with
  | some widget => ⟨styleKey id, widget.typeName, widget.objectName, widget.ignoresSheets⟩
  | none => ⟨styleKey id, "", "", false⟩

/-- A widget in its place, as styling sees it. -/
def lineage (forest : Forest) (id : WidgetId) : Lineage :=
  ⟨forest.styleNode id, (forest.path id).tail.map forest.styleNode⟩

/-- The keys of a widget and of the widgets below it. -/
def subtreeKeys (forest : Forest) (id : WidgetId) : List NodeKey :=
  (forest.subtree id).map styleKey

/-! ### Changing the forest -/

/-- Put a widget into its slot. -/
def put (forest : Forest) (id : WidgetId) (widget : Option Widget) : Forest :=
  { forest with slots := forest.slots.setIfInBounds id.raw widget }

/-- Change a widget that is there. -/
def adjust (forest : Forest) (id : WidgetId) (change : Widget → Widget) : Forest :=
  match forest.get? id with
  | some widget => forest.put id (some (change widget))
  | none => forest

/-- The widget with an identity, or the failure that there is none. -/
def require (forest : Forest) (id : WidgetId) : Except ForestError Widget :=
  match forest.get? id with
  | some widget => .ok widget
  | none => .error (.notFound id)

/-- Change a widget, or fail if there is none. -/
def change (forest : Forest) (id : WidgetId) (change : Widget → Widget) :
    Except ForestError Forest := do
  let _ ← forest.require id
  return forest.adjust id change

/-- Put a widget into a new slot. What it says about parents and children does not count. -/
def push (forest : Forest) (widget : Widget) (parent : Option WidgetId) : WidgetId × Forest :=
  (⟨forest.slots.size⟩,
    { slots := forest.slots.push (some { widget with parent := parent, children := [] })
      live := forest.live + 1 })

/-- Add a widget as a window. -/
def insertWindow (forest : Forest) (widget : Widget) : WidgetId × Forest := forest.push widget none

/-- Append a child on top of the others. -/
def attach (forest : Forest) (parent child : WidgetId) : Forest :=
  forest.adjust parent fun widget => { widget with children := widget.children ++ [child] }

/-- Take a child out of the children of its parent. -/
def detach (forest : Forest) (parent child : WidgetId) : Forest :=
  forest.adjust parent fun widget =>
    { widget with children := widget.children.filter fun other => other ≠ child }

/-- Add a widget as the topmost child of its parent, or as a window. -/
def insert (forest : Forest) (parent : Option WidgetId) (widget : Widget) :
    Except ForestError (WidgetId × Forest) :=
  match parent with
  | none => .ok (forest.insertWindow widget)
  | some parent => do
      let _ ← forest.require parent
      let (id, forest) := forest.push widget (some parent)
      return (id, forest.attach parent id)

/-- Move a widget with everything below it to the top of the children of a new parent, or make it
a window. It cannot move below itself. -/
def reparent (forest : Forest) (id : WidgetId) (newParent : Option WidgetId) :
    Except ForestError Forest := do
  let widget ← forest.require id
  if let some parent := newParent then
    let _ ← forest.require parent
    if forest.isAncestorOrSelf id parent then
      throw (.cycle id parent)
  let forest :=
    match widget.parent with
    | some old => forest.detach old id
    | none => forest
  let forest := forest.adjust id fun widget => { widget with parent := newParent }
  return match newParent with
    | some parent => forest.attach parent id
    | none => forest

/-- Empty the slots of widgets. -/
def clearSlots (forest : Forest) (ids : List WidgetId) : Forest :=
  ids.foldl (fun forest id => forest.put id none) forest

/-- Remove a widget and everything below it; the removed identities, the widget first. -/
def remove (forest : Forest) (id : WidgetId) : Except ForestError (List WidgetId × Forest) := do
  let widget ← forest.require id
  let removed := forest.subtree id
  let forest :=
    match widget.parent with
    | some parent => forest.detach parent id
    | none => forest
  let forest := forest.clearSlots removed
  return (removed, { forest with live := forest.live - removed.length })

/-- Set the rectangle of a widget. -/
def setGeometry (forest : Forest) (id : WidgetId) (geometry : Rect) : Except ForestError Forest :=
  forest.change id fun widget => { widget with geometry := geometry }

/-- Show or hide a widget. -/
def setVisible (forest : Forest) (id : WidgetId) (visible : Bool) : Except ForestError Forest :=
  forest.change id fun widget => { widget with visible := visible }

/-- Declare whether a widget covers its whole rectangle. -/
def setOpaque (forest : Forest) (id : WidgetId) (isOpaque : Bool) : Except ForestError Forest :=
  forest.change id fun widget => { widget with isOpaque := isOpaque }

/-- Declare whether the children of a widget never overlap. -/
def setChildrenNeverOverlap (forest : Forest) (id : WidgetId) (flag : Bool) :
    Except ForestError Forest :=
  forest.change id fun widget => { widget with childrenNeverOverlap := flag }

/-- Declare whether sheets apply to a widget. -/
def setIgnoresSheets (forest : Forest) (id : WidgetId) (flag : Bool) : Except ForestError Forest :=
  forest.change id fun widget => { widget with ignoresSheets := flag }

/-- Give a widget an object name. -/
def setObjectName (forest : Forest) (id : WidgetId) (name : String) : Except ForestError Forest :=
  forest.change id fun widget => { widget with objectName := name }

/-- Set the active pseudo-classes of a widget; the ones before. -/
def setPseudo (forest : Forest) (id : WidgetId) (pseudo : PseudoMask) :
    Except ForestError (PseudoMask × Forest) := do
  let widget ← forest.require id
  return (widget.pseudo, forest.adjust id fun widget => { widget with pseudo := pseudo })

/-- Set the text of a widget. -/
def setText (forest : Forest) (id : WidgetId) (text : String) : Except ForestError Forest :=
  forest.change id fun widget => { widget with text := text }

/-- Advance the frame counter of a widget; its new value. -/
def advanceFrame (forest : Forest) (id : WidgetId) : Except ForestError (UInt32 × Forest) := do
  let widget ← forest.require id
  return (widget.frame + 1,
    forest.adjust id fun widget => { widget with frame := widget.frame + 1 })

/-- Move a widget among the children of its parent. -/
def restack (forest : Forest) (id : WidgetId) (place : WidgetId → List WidgetId → List WidgetId) :
    Except ForestError Forest := do
  let widget ← forest.require id
  match widget.parent with
  | none => throw (.noSiblings id)
  | some parent =>
      forest.change parent fun widget =>
        { widget with children := place id (widget.children.filter fun other => other ≠ id) }

/-- Move a widget above its siblings. -/
def raise (forest : Forest) (id : WidgetId) : Except ForestError Forest :=
  forest.restack id fun child others => others ++ [child]

/-- Move a widget below its siblings. -/
def lower (forest : Forest) (id : WidgetId) : Except ForestError Forest :=
  forest.restack id fun child others => child :: others

end Forest

end StyledWidgets
