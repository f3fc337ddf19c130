/-
Module: StyledWidgets.Window.Damage
Purpose: What has to be repainted in one window. Requests are collected for each widget, then
  turned into regions of the window: of the widget that asked, as far as nothing hides it, of the
  widgets above through which the change is seen, and of those that show through from below.
Main exports: Damage, Damage.requestUpdate, Damage.compute, Damage.forget, Damage.dirtyRegion,
  Forest.windowRect
-/
import StyledWidgets.Geometry.Region
import StyledWidgets.Table
import StyledWidgets.Toolkit.Settings
import StyledWidgets.Widget.Forest

namespace StyledWidgets

/-! ### Places in the window -/

namespace Forest

/-- The window position of the top-left corner of the first widget of a path. The window at the
end of the path has its corner at the origin, wherever it stands on the screen. -/
def originOf (forest : Forest) : List WidgetId → Point
  | [] => ⟨0, 0⟩
  | [_] => ⟨0, 0⟩
  | child :: parent :: above =>
      let origin := originOf forest (parent :: above)
      let geometry := forest.geometry child
      ⟨origin.x + geometry.x, origin.y + geometry.y⟩

/-- The rectangle of a widget in its window. -/
def windowRect (forest : Forest) (id : WidgetId) : Rect :=
  let origin := forest.originOf (forest.path id)
  let geometry := forest.geometry id
  ⟨origin.x, origin.y, geometry.width, geometry.height⟩

/-- The siblings above a child, from the bottom to the top. -/
def siblingsAbove (forest : Forest) (parent child : WidgetId) : List WidgetId :=
  ((forest.children parent).dropWhile fun other => other ≠ child).drop 1

/-- The siblings below a child, from the top to the bottom. -/
def siblingsBelow (forest : Forest) (parent child : WidgetId) : List WidgetId :=
  ((forest.children parent).takeWhile fun other => other ≠ child).reverse

end Forest

/-- A step of a path from a widget to its window. -/
structure Level where
  child : WidgetId
  parent : WidgetId
  /-- The window position of the top-left corner of the parent. -/
  origin : Point
  deriving Repr, DecidableEq, Inhabited

/-- The steps of a path, the innermost first. -/
def Forest.levels (forest : Forest) : List WidgetId → List Level
  | child :: parent :: above =>
      ⟨child, parent, forest.originOf (parent :: above)⟩ :: forest.levels (parent :: above)
  | _ => []

/-- The siblings at a level need no examination. -/
def skipsSiblings (forest : Forest) (settings : RepaintSettings) (level : Level) : Bool :=
  settings.honorNonOverlap && forest.childrenNeverOverlap level.parent

/-! ### Above a changed widget -/

/-- Take out what visible opaque siblings cover; all in coordinates of the parent. -/
def hideBehind (forest : Forest) (above : List WidgetId) (region : Region) : Region :=
  (above.filter fun sibling => forest.isVisible sibling && forest.isOpaque sibling).foldl
    (fun region sibling => region.subtractRect (forest.geometry sibling)) region

/-- The visible siblings that are not opaque and lie over a region of the parent, each with the
part of the region that is seen through it, in window coordinates. -/
def seenThrough (forest : Forest) (level : Level) (above : List WidgetId) (region : Region) :
    List (WidgetId × Region) :=
  (above.filter fun sibling => forest.isVisible sibling && !forest.isOpaque sibling).filterMap
    fun sibling =>
      let overlap := region.intersectRect (forest.geometry sibling)
      if overlap.isEmpty then none
      else some (sibling, overlap.movedBy level.origin.x level.origin.y)

/-- Carry a region of a widget up to its window. At every level it is clipped to the parent and
loses what opaque siblings above cover; siblings that are not opaque are noted. `none` if nothing
of the region is left at some level. -/
def climb (forest : Forest) (settings : RepaintSettings) :
    List Level → Region → List (WidgetId × Region) → Option (Region × List (WidgetId × Region))
  | [], region, noted => some (region, noted)
  | level :: outer, region, noted =>
      let offset := forest.geometry level.child
      let clipped := (region.movedBy offset.x offset.y).intersectRect
        (forest.geometry level.parent).atOrigin
      if clipped.isEmpty then none
      else if skipsSiblings forest settings level then
        climb forest settings outer clipped noted
      else
        let above := forest.siblingsAbove level.parent level.child
        let visible := hideBehind forest above clipped
        if visible.isEmpty then none
        else
          climb forest settings outer visible (noted ++ seenThrough forest level above visible)

/-! ### The damage of a window -/

/-- What has to be repainted in one window. -/
structure Damage where
  root : WidgetId
  /-- Requests that have not been turned into regions, in the order in which they first came. A
  request without a rectangle is for the whole widget. -/
  pending : Table WidgetId (Option Rect) := ∅
  /-- The region of each widget to repaint, in window coordinates. -/
  scheduled : Table WidgetId Region := ∅
  /-- The widgets with a scheduled widget below them. -/
  above : List WidgetId := []
  deriving Repr, DecidableEq, Inhabited

namespace Damage

/-- A window of which nothing has to be repainted. -/
def new (root : WidgetId) : Damage := { root := root }

/-- Two requests of one widget as one: the bounding rectangle, or the whole widget if either asks
for that. -/
def joinRequests : Option Rect → Option Rect → Option Rect
  | some a, some b => some (a.united b)
  | _, _ => none

/-- Ask for a part of a widget to be repainted, in its own coordinates, or for all of it. -/
def requestUpdate (damage : Damage) (id : WidgetId) (rect : Option Rect) : Damage :=
  let joined :=
    match damage.pending.find? id with
    | some earlier => joinRequests earlier rect
    | none => rect
  { damage with pending := damage.pending.insert id joined }

/-- Nothing waits to be painted. -/
def isClean (damage : Damage) : Bool := damage.pending.isEmpty && damage.scheduled.isEmpty

/-- The region of a widget to repaint. -/
def region? (damage : Damage) (id : WidgetId) : Option Region := damage.scheduled.find? id

/-- A widget below this one is scheduled. -/
def isAbove (damage : Damage) (id : WidgetId) : Bool := damage.above.contains id

/-- The union of all scheduled regions. -/
def dirtyRegion (damage : Damage) : Region :=
  damage.scheduled.values.foldl Region.unionRegion Region.empty

/-- Drop a widget that has left the window. -/
def forget (damage : Damage) (id : WidgetId) : Damage :=
  { damage with
    pending := damage.pending.erase id
    scheduled := damage.scheduled.erase id
    above := damage.above.filter fun other => other ≠ id }

/-- Drop what was scheduled, after it has been painted. -/
def clear (damage : Damage) : Damage := { damage with scheduled := ∅, above := [] }

/-- Mark the ancestors of a scheduled widget, the parent first. An ancestor that is marked already
has all of its own ancestors marked, so marking ends there. -/
def markAbove : List WidgetId → List WidgetId → List WidgetId
  | [], marked => marked
  | ancestor :: further, marked =>
      if marked.contains ancestor then marked else markAbove further (ancestor :: marked)

/-- Schedule a region of a widget, joined with what is scheduled of it already. -/
def schedule (damage : Damage) (forest : Forest) (settings : RepaintSettings) (id : WidgetId)
    (region : Region) : Damage :=
  let joined := ((damage.region? id).getD Region.empty).unionRegion region
  { damage with
    scheduled := damage.scheduled.insert id (joined.simplify settings.maxRegionRects)
    above := markAbove (forest.path id).tail damage.above }

/-- Schedule regions of widgets one after the other. -/
def scheduleAll (damage : Damage) (forest : Forest) (settings : RepaintSettings)
    (regions : List (WidgetId × Region)) : Damage :=
  regions.foldl (fun damage entry => damage.schedule forest settings entry.1 entry.2) damage

/-! ### Below a changed widget -/

/-- Schedule the visible siblings below a region of the window, from the top to the bottom, and
take out what opaque ones cover. The region that still shows through is returned. -/
def showSiblings (forest : Forest) (settings : RepaintSettings) (origin : Point) :
    List WidgetId → Region → Damage → Region × Damage
  | [], behind, damage => (behind, damage)
  | sibling :: lower, behind, damage =>
      let rect := (forest.geometry sibling).movedBy origin.x origin.y
      let overlap := behind.intersectRect rect
      if !forest.isVisible sibling || overlap.isEmpty then
        showSiblings forest settings origin lower behind damage
      else
        let damage := damage.schedule forest settings sibling overlap
        let behind := if forest.isOpaque sibling then behind.subtractRect rect else behind
        showSiblings forest settings origin lower behind damage

/-- Schedule what shows through a region of a widget that is not opaque: at each level the siblings
below and the parent, up to an opaque widget that covers the rest. -/
def showBehind (forest : Forest) (settings : RepaintSettings) :
    List Level → Region → Damage → Damage
  | [], _, damage => damage
  | level :: outer, behind, damage =>
      let (behind, damage) :=
        if skipsSiblings forest settings level then (behind, damage)
        else
          showSiblings forest settings level.origin
            (forest.siblingsBelow level.parent level.child) behind damage
      if behind.isEmpty then damage
      else
        let damage := damage.schedule forest settings level.parent behind
        if forest.isOpaque level.parent then damage
        else showBehind forest settings outer behind damage

/-! ### Requests -/

/-- Schedule what is seen of a part of a widget: the part itself, the same pixels of siblings that
are seen through above it, and, if the widget is not opaque, what shows through from below. -/
def scheduleVisible (damage : Damage) (forest : Forest) (settings : RepaintSettings)
    (id : WidgetId) (levels : List Level) (part : Rect) : Damage :=
  match climb forest settings levels (Region.ofRect part) [] with
  | none => damage
  | some (region, noted) =>
      let damage := damage.schedule forest settings id region
      let seen := (noted.map fun entry => (entry.1, entry.2.intersectRegion region)).filter
        fun entry => !entry.2.isEmpty
      let damage := damage.scheduleAll forest settings seen
      if forest.isOpaque id then damage else showBehind forest settings levels region damage

/-- Turn one request into regions. A request for a widget outside the window or below a hidden one
is dropped, and so is one for no pixel of the widget. -/
def process (damage : Damage) (forest : Forest) (settings : RepaintSettings) (id : WidgetId)
    (rect : Option Rect) : Damage :=
  let path := forest.path id
  if path.getLast? ≠ some damage.root then damage
  else if path.any fun widget => !forest.isVisible widget then damage
  else
    let bounds := (forest.geometry id).atOrigin
    let part :=
      match rect with
      | some rect => rect.intersect bounds
      | none => bounds
    if part.isEmpty then damage
    else damage.scheduleVisible forest settings id (forest.levels path) part

/-- Turn all pending requests into regions, in the order in which they first came. -/
def compute (damage : Damage) (forest : Forest) (settings : RepaintSettings) : Damage :=
  damage.pending.entries.foldl
    (fun damage request => damage.process forest settings request.1 request.2)
    { damage with pending := ∅ }

end Damage

end StyledWidgets
