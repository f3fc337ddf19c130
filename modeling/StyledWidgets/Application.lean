/-
Module: StyledWidgets.Application
Purpose: Windows, their widgets and their styles together: every change of a widget or a sheet also
  asks for the repainting that it makes necessary.
Main exports: Application, AppError, AppM, Application.setAppSheet, Application.reparent,
  Application.setPseudoState, Application.paintWindow, Application.paintAll
-/
import StyledWidgets.Window.Paint

namespace StyledWidgets

open StyledWidgets.Sheet StyledWidgets.Style

/-! ### Applications and their failures -/

/-- Why an operation of an application failed. -/
inductive AppError where
  | forest (cause : ForestError)
  | windowNotFound (id : WidgetId)
  | toolkit (cause : ToolkitError)
  deriving Repr, DecidableEq, Inhabited

/-- The wording of a failure. -/
def AppError.message : AppError → String
  | .forest cause => "Tree error: " ++ cause.message
  | .windowNotFound id => "Window not found: " ++ id.text
  | .toolkit cause => cause.message

/-- The windows of an application with all that belongs to them. -/
structure Application where
  settings : Settings := {}
  stylist : Stylist := {}
  forest : Forest := {}
  /-- The damage of each window. -/
  windows : Table WidgetId Damage := ∅
  deriving Repr, DecidableEq, Inhabited

/-- An operation of an application; what it has changed before a failure stays changed. -/
abbrev AppM := ExceptT AppError (StateM Application)

/-- Fail as the forest does. -/
def AppM.ofForest {α : Type} (outcome : Except ForestError α) : AppM α :=
  match outcome with
  | .ok value => pure value
  | .error cause => throw (.forest cause)

namespace Application

/-- An application without windows. -/
def new (settings : Settings) : Application :=
  { settings := settings, stylist := Stylist.new settings.style }

/-- The windows in the order of their creation. -/
def windowIds (app : Application) : List WidgetId :=
  app.windows.keys.mergeSort fun a b => decide (a.raw ≤ b.raw)

/-- A short description of an application. -/
def summary (app : Application) : String :=
  "Application \x7b widgets: " ++ Nat.repr app.forest.live ++
    ", windows: " ++ Nat.repr app.windows.size ++
    ", rule_sets: " ++ Nat.repr app.stylist.ruleSetCount ++ " \x7d"

/-- The caches of styling hold an entry of the widget. -/
def isStyleCached (app : Application) (id : WidgetId) : Bool :=
  app.stylist.isCached (Forest.styleKey id)

/-! ### Requests for repainting -/

/-- Ask for a part of a widget to be repainted, or for all of it. -/
def schedule (app : Application) (id : WidgetId) (rect : Option Rect) : Application :=
  match app.forest.windowOf? id with
  | none => app
  | some window =>
      { app with windows := app.windows.modify window fun damage => damage.requestUpdate id rect }

/-- Drop widgets that have left a window from what is to be repainted there. -/
def forgetIn (app : Application) (window : Option WidgetId) (ids : List WidgetId) : Application :=
  match window with
  | none => app
  | some window =>
      { app with windows := app.windows.modify window fun damage => ids.foldl Damage.forget damage }

/-- Ask for a part of a widget that has a parent to be repainted in the parent, where the widget
has been. -/
def scheduleIn (app : Application) (parent : Option WidgetId) (rect : Rect) : Application :=
  match parent with
  | none => app
  | some parent => app.schedule parent (some rect)

/-- The widget with an identity, or the failure that there is none. -/
def requireWidget (id : WidgetId) : AppM Widget := do
  AppM.ofForest ((← get).forest.require id)

/-! ### Styles -/

/-- Replace the sheet of the application and repaint every window. -/
def setAppSheet (app : Application) (text : String) : Application :=
  { app with
    stylist := app.stylist.setAppSheet text
    windows := ⟨app.windows.entries.map fun (root, damage) =>
      (root, damage.requestUpdate root none)⟩ }

/-- The text of the sheet of the application. -/
def appSheet? (app : Application) : Option String := app.stylist.appSheetText?

/-- Put a sheet on a widget, or take it off with a blank text, and repaint its window. -/
def setWidgetSheet (id : WidgetId) (text : String) : AppM Unit := do
  let _ ← requireWidget id
  modify fun app =>
    let app :=
      { app with
        stylist :=
          app.stylist.setNodeSheet (Forest.styleKey id) (app.forest.subtreeKeys id) text }
    match app.forest.windowOf? id with
    | some window => app.schedule window none
    | none => app

/-- The text of the sheet of a widget. -/
def widgetSheet? (app : Application) (id : WidgetId) : Option String :=
  app.stylist.nodeSheetText? (Forest.styleKey id)

/-- Look up the style of a widget in a pseudo state. -/
def resolve (id : WidgetId) (mask : PseudoMask) : AppM ResolvedStyle := do
  let app ← get
  let (style, stylist) := app.stylist.resolve (app.forest.lineage id) mask
  set { app with stylist := stylist }
  return style

/-- The style of a widget in its present pseudo state. -/
def widgetStyle (id : WidgetId) : AppM ResolvedStyle := do
  let widget ← requireWidget id
  resolve id widget.pseudo

/-- The style that a window with the given names would get, without making one. -/
def probeStyle (app : Application) (typeName objectName : String) (mask : PseudoMask) :
    ResolvedStyle × Application :=
  let (probe, stylist) := app.stylist.createQuery typeName objectName none
  let (style, stylist) := stylist.resolve probe mask
  (style, { app with stylist := stylist.removeQuery probe })

/-! ### Widgets -/

/-- Add a window; it has never been painted. -/
def createWindow (app : Application) (widget : Widget) : WidgetId × Application :=
  let (id, forest) := app.forest.insertWindow widget
  (id,
    { app with
      forest := forest
      windows := app.windows.insert id ((Damage.new id).requestUpdate id none) })

/-- Add a widget on top of the children of its parent. -/
def createWidget (parent : WidgetId) (widget : Widget) : AppM WidgetId := do
  let (id, forest) ← AppM.ofForest ((← get).forest.insert (some parent) widget)
  modify fun app => { app with forest := forest }.schedule id none
  return id

/-- Keep the list of windows in step with a widget that has got a new parent or lost its own. -/
def updateWindows (app : Application) (id : WidgetId) (oldParent newParent : Option WidgetId) :
    Application :=
  match oldParent, newParent with
  | some _, none => { app with windows := app.windows.insert id (Damage.new id) }
  | none, some _ => { app with windows := app.windows.erase id }
  | _, _ => app

/-- Move a widget below another one, or make it a window of its own. -/
def reparent (id : WidgetId) (newParent : Option WidgetId) : AppM Unit := do
  let widget ← requireWidget id
  let oldWindow := (← get).forest.windowOf? id
  let forest ← AppM.ofForest ((← get).forest.reparent id newParent)
  modify fun app =>
    let app := { app with forest := forest }.scheduleIn widget.parent widget.geometry
    let app :=
      if oldWindow = app.forest.windowOf? id then app
      else app.forgetIn oldWindow (app.forest.subtree id)
    let app := app.updateWindows id widget.parent newParent
    let app :=
      { app with stylist := app.stylist.invalidateSubtree (app.forest.subtreeKeys id) }
    app.schedule id none

/-- Destroy a widget and everything below it; the identities that are gone. -/
def destroyWidget (id : WidgetId) : AppM (List WidgetId) := do
  let widget ← requireWidget id
  let window := (← get).forest.windowOf? id
  let (removed, forest) ← AppM.ofForest ((← get).forest.remove id)
  modify fun app =>
    let app :=
      { app with
        forest := forest
        stylist := removed.foldl
          (fun stylist gone => stylist.nodeDestroyed (Forest.styleKey gone)) app.stylist }
    match widget.parent with
    | some parent => (app.forgetIn window removed).schedule parent (some widget.geometry)
    | none => { app with windows := app.windows.erase id }
  return removed

/-- Move or resize a widget. -/
def setGeometry (id : WidgetId) (geometry : Rect) : AppM Unit := do
  let widget ← requireWidget id
  if widget.geometry = geometry then return
  modify fun app => app.scheduleIn widget.parent widget.geometry
  let forest ← AppM.ofForest ((← get).forest.setGeometry id geometry)
  modify fun app => { app with forest := forest }.schedule id none

/-- Show or hide a widget. -/
def setVisible (id : WidgetId) (visible : Bool) : AppM Unit := do
  let widget ← requireWidget id
  if widget.visible = visible then return
  unless visible do
    modify fun app => app.scheduleIn widget.parent widget.geometry
  let forest ← AppM.ofForest ((← get).forest.setVisible id visible)
  modify fun app => { app with forest := forest }
  if visible then
    modify fun app => app.schedule id none

/-- Declare whether a widget covers its whole rectangle. -/
def setOpaque (id : WidgetId) (isOpaque : Bool) : AppM Unit := do
  let forest ← AppM.ofForest ((← get).forest.setOpaque id isOpaque)
  modify fun app => { app with forest := forest }.schedule id none

/-- Set the text of a widget. -/
def setText (id : WidgetId) (text : String) : AppM Unit := do
  let forest ← AppM.ofForest ((← get).forest.setText id text)
  modify fun app => { app with forest := forest }.schedule id none

/-- Change the active pseudo-classes of a widget. It is repainted only if they lead to another
style; the answer says whether they do. -/
def setPseudoState (id : WidgetId) (mask : PseudoMask) : AppM Bool := do
  let (old, forest) ← AppM.ofForest ((← get).forest.setPseudo id mask)
  modify fun app => { app with forest := forest }
  if old = mask then return false
  let before ← resolve id old
  let after ← resolve id mask
  if ResolvedStyle.same before after then return false
  modify fun app => app.schedule id none
  return true

/-- Show the next frame of an animated background. A widget whose style has a single frame is left
alone; the answer says whether a frame was advanced. -/
def advanceAnimation (id : WidgetId) : AppM Bool := do
  let style ← widgetStyle id
  if ResolvedStyle.frameCount style ≤ 1 then return false
  let (_, forest) ← AppM.ofForest ((← get).forest.advanceFrame id)
  modify fun app => { app with forest := forest }.schedule id none
  return true

/-- Ask for a part of a widget to be repainted, in its own coordinates, or for all of it. -/
def requestUpdate (id : WidgetId) (rect : Option Rect) : AppM Unit := do
  let _ ← requireWidget id
  modify fun app => app.schedule id rect

/-! ### Painting -/

variable {σ : Type}

/-- Paint what has to be repainted of a window. -/
def paintWindow (app : Application) (backend : Backend σ) (window : WidgetId) (state : σ) :
    Except AppError PaintReport × Application × σ :=
  match app.windows.find? window with
  | none => (.error (.windowNotFound window), app, state)
  | some damage =>
      let damage := damage.compute app.forest app.settings.repaint
      let (outcome, damage, after) :=
        damage.paint app.forest backend app.settings.retry.maxAttempts ⟨app.stylist, state⟩
      (match outcome with
        | .ok report => .ok report
        | .error cause => .error (.toolkit cause),
        { app with
          stylist := after.stylist
          windows := app.windows.insert window damage },
        after.backend)

/-- Paint windows one after the other; the first failure ends it. -/
def paintEach (backend : Backend σ) :
    List WidgetId → Application → σ →
      Except AppError (List (WidgetId × PaintReport)) × Application × σ
  | [], app, state => (.ok [], app, state)
  | window :: later, app, state =>
      match app.paintWindow backend window state with
      | (.error failure, app, state) => (.error failure, app, state)
      | (.ok report, app, state) =>
          match paintEach backend later app state with
          | (.error failure, app, state) => (.error failure, app, state)
          | (.ok reports, app, state) => (.ok ((window, report) :: reports), app, state)

/-- Paint every window for which something waits to be painted, in the order of their creation. -/
def paintAll (app : Application) (backend : Backend σ) (state : σ) :
    Except AppError (List (WidgetId × PaintReport)) × Application × σ :=
  let waiting := app.windowIds.filter fun id =>
    match app.windows.find? id with
    | some damage => !damage.isClean
    | none => false
  paintEach backend waiting app state

end Application

end StyledWidgets
