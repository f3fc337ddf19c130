/-
Module: StyledWidgets.ReckonedApplication
Purpose: Applications reckoned with on words. Numbers are met where rectangles are asked for, as a
  widget leaves a place or a part of it is to be repainted, and where windows are painted; requests
  for whole widgets need none, so all other operations are those of exact numbers.
Main exports: Application.reckonSchedule, Application.reckonReparent, Application.reckonSetGeometry,
  Application.reckonPaintWindow, Application.reckonPaintAll
-/
import StyledWidgets.Application
import StyledWidgets.Window.ReckonedPaint

namespace StyledWidgets

open ReckonedM

/-- An operation of an application that reckons with words. -/
abbrev ReckonedAppM := ReckonedM AppError Application

/-- Change an application in a way that reckons with words. -/
def ReckonedAppM.alter (change : Application → Reckoned Application) : ReckonedAppM Unit :=
  ExceptT.mk fun app => do return (.ok (), ← change app)

open ReckonedAppM

namespace Application

/-! ### Requests for repainting -/

/-- Ask for a part of a widget to be repainted, or for all of it. -/
def reckonSchedule (app : Application) (id : WidgetId) (rect : Option Rect) :
    Reckoned Application := do
  match app.forest.windowOf? id with
  | none => return app
  | some window =>
      match app.windows.find? window with
      | none => return app
      | some damage =>
          let asked ← damage.reckonRequestUpdate id rect
          return { app with windows := app.windows.insert window asked }

/-- Ask for a part of a widget that has a parent to be repainted in the parent. -/
def reckonScheduleIn (app : Application) (parent : Option WidgetId) (rect : Rect) :
    Reckoned Application :=
  match parent with
  | none => return app
  | some parent => app.reckonSchedule parent (some rect)

/-! ### Operations that ask for rectangles -/

/-- Move a widget below another one, or make it a window of its own. -/
def reckonReparent (id : WidgetId) (newParent : Option WidgetId) : ReckonedAppM Unit := do
  let widget ← carry (requireWidget id)
  let oldWindow := (← carry get).forest.windowOf? id
  let forest ← carry (AppM.ofForest ((← carry get).forest.reparent id newParent))
  alter fun app => { app with forest := forest }.reckonScheduleIn widget.parent widget.geometry
  carry (modify fun app =>
    let app :=
      if oldWindow = app.forest.windowOf? id then app
      else app.forgetIn oldWindow (app.forest.subtree id)
    let app := app.updateWindows id widget.parent newParent
    let app :=
      { app with stylist := app.stylist.invalidateSubtree (app.forest.subtreeKeys id) }
    app.schedule id none)

/-- Destroy a widget and everything below it; the identities that are gone. -/
def reckonDestroyWidget (id : WidgetId) : ReckonedAppM (List WidgetId) := do
  let widget ← carry (requireWidget id)
  let window := (← carry get).forest.windowOf? id
  let (removed, forest) ← carry (AppM.ofForest ((← carry get).forest.remove id))
  alter fun app =>
    let app :=
      { app with
        forest := forest
        stylist := removed.foldl
          (fun stylist gone => stylist.nodeDestroyed (Forest.styleKey gone)) app.stylist }
    match widget.parent with
    | some parent => (app.forgetIn window removed).reckonSchedule parent (some widget.geometry)
    | none => return { app with windows := app.windows.erase id }
  return removed

/-- Move or resize a widget. -/
def reckonSetGeometry (id : WidgetId) (geometry : Rect) : ReckonedAppM Unit := do
  let widget ← carry (requireWidget id)
  if widget.geometry = geometry then return
  alter fun app => app.reckonScheduleIn widget.parent widget.geometry
  carry (do
    let forest ← AppM.ofForest ((← get).forest.setGeometry id geometry)
    modify fun app => { app with forest := forest }.schedule id none)

/-- Show or hide a widget. -/
def reckonSetVisible (id : WidgetId) (visible : Bool) : ReckonedAppM Unit := do
  let widget ← carry (requireWidget id)
  if widget.visible = visible then return
  unless visible do
    alter fun app => app.reckonScheduleIn widget.parent widget.geometry
  carry (do
    let forest ← AppM.ofForest ((← get).forest.setVisible id visible)
    modify fun app => { app with forest := forest }
    if visible then
      modify fun app => app.schedule id none)

/-- Ask for a part of a widget to be repainted, in its own coordinates, or for all of it. -/
def reckonRequestUpdate (id : WidgetId) (rect : Option Rect) : ReckonedAppM Unit := do
  let _ ← carry (requireWidget id)
  alter fun app => app.reckonSchedule id rect

/-! ### Painting -/

variable {σ : Type}

/-- Paint what has to be repainted of a window. -/
def reckonPaintWindow (app : Application) (backend : Backend σ) (window : WidgetId) (state : σ) :
    Reckoned (Except AppError PaintReport × Application × σ) := do
  match app.windows.find? window with
  | none => return (.error (.windowNotFound window), app, state)
  | some damage =>
      let damage ← damage.reckonCompute app.forest app.settings.repaint
      let (outcome, damage, after) ←
        damage.reckonPaint app.forest backend app.settings.retry.maxAttempts ⟨app.stylist, state⟩
      let painted :=
        { app with stylist := after.stylist, windows := app.windows.insert window damage }
      match outcome with
      | .ok report => return (.ok report, painted, after.backend)
      | .error cause => return (.error (.toolkit cause), painted, after.backend)

/-- Paint windows one after the other; the first failure ends it. -/
def reckonPaintEach (backend : Backend σ) :
    List WidgetId → Application → σ →
      Reckoned (Except AppError (List (WidgetId × PaintReport)) × Application × σ)
  | [], app, state => return (.ok [], app, state)
  | window :: later, app, state => do
      match ← app.reckonPaintWindow backend window state with
      | (.error failure, app, state) => return (.error failure, app, state)
      | (.ok report, app, state) =>
          match ← reckonPaintEach backend later app state with
          | (.error failure, app, state) => return (.error failure, app, state)
          | (.ok reports, app, state) => return (.ok ((window, report) :: reports), app, state)

/-- Paint every window for which something waits to be painted, in the order of their creation. -/
def reckonPaintAll (app : Application) (backend : Backend σ) (state : σ) :
    Reckoned (Except AppError (List (WidgetId × PaintReport)) × Application × σ) :=
  let waiting := app.windowIds.filter fun id =>
    match app.windows.find? id with
    | some damage => !damage.isClean
    | none => false
  reckonPaintEach backend waiting app state

end Application

end StyledWidgets
