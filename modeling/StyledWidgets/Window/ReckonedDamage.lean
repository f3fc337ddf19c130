/-
Module: StyledWidgets.Window.ReckonedDamage
Purpose: The damage of a window reckoned with on words. Requests are joined, carried up to the
  window and scheduled as in exact numbers, with every place, edge and size in 32 bits, in the order
  in which a program meets them.
Main exports: Forest.reckonWindowRect, Damage.reckonRequestUpdate, Damage.reckonCompute,
  Damage.reckonDirtyRegion
-/
import StyledWidgets.Geometry.ReckonedRegion
import StyledWidgets.Window.Damage

namespace StyledWidgets

/-! ### Places in the window -/

namespace Forest

/-- The window position of the top-left corner of every widget of a path. -/
def reckonOrigins (forest : Forest) : List WidgetId → Reckoned (List Point)
  | [] => return []
  | [_] => return [⟨0, 0⟩]
  | child :: parent :: above => do
      let origins ← reckonOrigins forest (parent :: above)
      let origin := origins.headD ⟨0, 0⟩
      let geometry := forest.geometry child
      return ⟨← word (origin.x + geometry.x), ← word (origin.y + geometry.y)⟩ :: origins

/-- The rectangle of a widget in its window. -/
def reckonWindowRect (forest : Forest) (id : WidgetId) : Reckoned Rect := do
  let origin := (← forest.reckonOrigins (forest.path id)).headD ⟨0, 0⟩
  let geometry := forest.geometry id
  return ⟨origin.x, origin.y, geometry.width, geometry.height⟩

/-- The steps of a path whose corners are known. -/
def levelsFrom : List WidgetId → List Point → List Level
  | child :: parent :: above, _ :: origin :: origins =>
      ⟨child, parent, origin⟩ :: levelsFrom (parent :: above) (origin :: origins)
  | _, _ => []

end Forest

/-! ### Above a changed widget -/

def reckonHideBehind (forest : Forest) (above : List WidgetId) (region : Region) :
    Reckoned Region :=
  (above.filter fun sibling => forest.isVisible sibling && forest.isOpaque sibling).foldlM
    (fun region sibling => region.reckonSubtractRect (forest.geometry sibling)) region

/-- The part of a region that is seen through a sibling, in window coordinates. -/
def reckonNoted (forest : Forest) (level : Level) (sibling : WidgetId) (region : Region) :
    Reckoned (Option (WidgetId × Region)) := do
  let overlap ← region.reckonIntersectRect (forest.geometry sibling)
  if overlap.isEmpty then return none
  else return some (sibling, ← overlap.reckonMovedBy level.origin.x level.origin.y)

def reckonSeenThrough (forest : Forest) (level : Level) (above : List WidgetId) (region : Region) :
    Reckoned (List (WidgetId × Region)) := do
  let translucent :=
    above.filter fun sibling => forest.isVisible sibling && !forest.isOpaque sibling
  let noted ← translucent.mapM fun sibling => reckonNoted forest level sibling region
  return noted.filterMap id

/-- Carry a region of a widget up to its window; `none` if nothing of it is left at some level. -/
def reckonClimb (forest : Forest) (settings : RepaintSettings) :
    List Level → Region → List (WidgetId × Region) →
      Reckoned (Option (Region × List (WidgetId × Region)))
  | [], region, noted => return some (region, noted)
  | level :: outer, region, noted => do
      let offset := forest.geometry level.child
      let moved ← region.reckonMovedBy offset.x offset.y
      let clipped ← moved.reckonIntersectRect (forest.geometry level.parent).atOrigin
      if clipped.isEmpty then return none
      else if skipsSiblings forest settings level then
        reckonClimb forest settings outer clipped noted
      else
        let above := forest.siblingsAbove level.parent level.child
        let visible ← reckonHideBehind forest above clipped
        if visible.isEmpty then return none
        else
          let seen ← reckonSeenThrough forest level above visible
          reckonClimb forest settings outer visible (noted ++ seen)

/-! ### The damage of a window -/

namespace Damage

/-- Two requests of one widget as one. -/
def reckonJoin : Option Rect → Option Rect → Reckoned (Option Rect)
  | some a, some b => return some (← a.reckonUnited b)
  | _, _ => return none

/-- Ask for a part of a widget to be repainted, in its own coordinates, or for all of it. -/
def reckonRequestUpdate (damage : Damage) (id : WidgetId) (rect : Option Rect) :
    Reckoned Damage := do
  let joined ←
    match damage.pending.find? id with
    | some earlier => reckonJoin earlier rect
    | none => pure rect
  return { damage with pending := damage.pending.insert id joined }

/-- The union of all scheduled regions. -/
def reckonDirtyRegion (damage : Damage) : Reckoned Region :=
  damage.scheduled.values.foldlM Region.reckonUnionRegion Region.empty

def reckonSchedule (damage : Damage) (forest : Forest) (settings : RepaintSettings)
    (id : WidgetId) (region : Region) : Reckoned Damage := do
  let joined ← ((damage.region? id).getD Region.empty).reckonUnionRegion region
  return { damage with
    scheduled := damage.scheduled.insert id (← joined.reckonSimplify settings.maxRegionRects)
    above := markAbove (forest.path id).tail damage.above }

def reckonScheduleAll (damage : Damage) (forest : Forest) (settings : RepaintSettings)
    (regions : List (WidgetId × Region)) : Reckoned Damage :=
  regions.foldlM (fun damage entry => damage.reckonSchedule forest settings entry.1 entry.2) damage

/-- Schedule the visible siblings below a region of the window. Where an opaque one covers all that
is left of the region, those below it are not looked at. -/
def reckonShowSiblings (forest : Forest) (settings : RepaintSettings) (origin : Point) :
    List WidgetId → Region → Damage → Reckoned (Region × Damage)
  | [], behind, damage => return (behind, damage)
  | sibling :: lower, behind, damage => do
      if !forest.isVisible sibling then
        reckonShowSiblings forest settings origin lower behind damage
      else
        let rect ← (forest.geometry sibling).reckonMovedBy origin.x origin.y
        let overlap ← behind.reckonIntersectRect rect
        if overlap.isEmpty then reckonShowSiblings forest settings origin lower behind damage
        else
          let damage ← damage.reckonSchedule forest settings sibling overlap
          if forest.isOpaque sibling then
            let behind ← behind.reckonSubtractRect rect
            if behind.isEmpty then return (behind, damage)
            else reckonShowSiblings forest settings origin lower behind damage
          else reckonShowSiblings forest settings origin lower behind damage

/-- Schedule the siblings below a widget, where they need examination. -/
def reckonShowBelow (forest : Forest) (settings : RepaintSettings) (level : Level)
    (behind : Region) (damage : Damage) : Reckoned (Region × Damage) :=
  if skipsSiblings forest settings level then return (behind, damage)
  else
    reckonShowSiblings forest settings level.origin
      (forest.siblingsBelow level.parent level.child) behind damage

/-- Schedule what shows through a region of a widget that is not opaque. -/
def reckonShowBehind (forest : Forest) (settings : RepaintSettings) :
    List Level → Region → Damage → Reckoned Damage
  | [], _, damage => return damage
  | level :: outer, behind, damage => do
      let (behind, damage) ← reckonShowBelow forest settings level behind damage
      if behind.isEmpty then return damage
      else
        let damage ← damage.reckonSchedule forest settings level.parent behind
        if forest.isOpaque level.parent then return damage
        else reckonShowBehind forest settings outer behind damage

/-- Schedule what is seen of a part of a widget, above it and below it. -/
def reckonScheduleVisible (damage : Damage) (forest : Forest) (settings : RepaintSettings)
    (id : WidgetId) (levels : List Level) (part : Rect) : Reckoned Damage := do
  match ← reckonClimb forest settings levels (Region.ofRect part) [] with
  | none => return damage
  | some (region, noted) =>
      let damage ← damage.reckonSchedule forest settings id region
      let cuts ← noted.mapM fun entry => do
        return (entry.1, ← entry.2.reckonIntersectRegion region)
      let damage ← damage.reckonScheduleAll forest settings
        (cuts.filter fun entry => !entry.2.isEmpty)
      if forest.isOpaque id then return damage
      else reckonShowBehind forest settings levels region damage

/-- The part of a widget that a request is for. -/
def reckonPart (bounds : Rect) : Option Rect → Reckoned Rect
  | some rect => rect.reckonIntersect bounds
  | none => return bounds

/-- Turn one request into regions. -/
def reckonProcess (damage : Damage) (forest : Forest) (settings : RepaintSettings)
    (id : WidgetId) (rect : Option Rect) : Reckoned Damage := do
  let path := forest.path id
  if path.getLast? ≠ some damage.root then return damage
  else if path.any fun widget => !forest.isVisible widget then return damage
  else
    let origins ← forest.reckonOrigins path
    let part ← reckonPart (forest.geometry id).atOrigin rect
    if part.isEmpty then return damage
    else damage.reckonScheduleVisible forest settings id (Forest.levelsFrom path origins) part

/-- Turn all pending requests into regions, in the order in which they first came. -/
def reckonCompute (damage : Damage) (forest : Forest) (settings : RepaintSettings) :
    Reckoned Damage :=
  damage.pending.entries.foldlM
    (fun damage request => damage.reckonProcess forest settings request.1 request.2)
    { damage with pending := ∅ }

end Damage

end StyledWidgets
