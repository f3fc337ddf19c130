/-
Module: StyledWidgets.Proofs.FailedCalls
Purpose: Operations of an application in place. They change the forest, the stylist and the windows
  in turn and look the widget up again in between, so they could fail halfway. In the states that
  operations can lead to they never do: a call that fails has changed nothing.
Main exports: Application.InPlace.edit, Application.Settled, Application.Call,
  Application.call_settled, Application.Reachable.failed_call
-/
import StyledWidgets.Proofs.ForestEdits

namespace StyledWidgets

open StyledWidgets.Sheet StyledWidgets.Style

namespace Application

variable {app : Application} {id : WidgetId} {α β : Type}

/-! ### Operations in place -/

namespace InPlace

/-- An edit of the forest in place. What it has changed before a failure stays changed. -/
def edit (edit : Forest.EditM α) : AppM α := fun app =>
  let (outcome, forest) := edit.run app.forest
  (outcome.mapError .forest, { app with forest := forest })

/-- The window of a widget, or the failure that there is no such widget. -/
def windowOf (id : WidgetId) : AppM WidgetId := do
  match (← get).forest.windowOf? id with
  | some window => return window
  | none => throw (.forest (.notFound id))

/-- Put a sheet on a widget; its window is looked up after that. -/
def setWidgetSheet (id : WidgetId) (text : String) : AppM Unit := do
  let _ ← requireWidget id
  modify fun app =>
    { app with
      stylist := app.stylist.setNodeSheet (Forest.styleKey id) (app.forest.subtreeKeys id) text }
  let window ← windowOf id
  modify fun app => app.schedule window none

/-- Add a widget below its parent. -/
def createWidget (parent : WidgetId) (widget : Widget) : AppM WidgetId := do
  let id ← edit (.insert (some parent) widget)
  modify fun app => app.schedule id none
  return id

/-- Drop a widget that has left a window, and those below it, from what is to be repainted
there. -/
def forgetMoved (id : WidgetId) (oldWindow : Option WidgetId) : AppM Unit := do
  if oldWindow = (← get).forest.windowOf? id then return
  let _ ← requireWidget id
  modify fun app => app.forgetIn oldWindow (app.forest.subtree id)

/-- What follows the move of a widget in the forest; the widget is looked up again for its
subtree. -/
def follow (id : WidgetId) (widget : Widget) (oldWindow newParent : Option WidgetId) :
    AppM Unit := do
  modify fun app => app.scheduleIn widget.parent widget.geometry
  forgetMoved id oldWindow
  modify fun app => app.updateWindows id widget.parent newParent
  let _ ← requireWidget id
  modify fun app =>
    { app with stylist := app.stylist.invalidateSubtree (app.forest.subtreeKeys id) }
  modify fun app => app.schedule id none

/-- Move a widget. -/
def reparent (id : WidgetId) (newParent : Option WidgetId) : AppM Unit := do
  let widget ← requireWidget id
  let oldWindow := (← get).forest.windowOf? id
  edit (.reparent id newParent)
  follow id widget oldWindow newParent

/-- Destroy a widget and everything below it. -/
def destroyWidget (id : WidgetId) : AppM (List WidgetId) := do
  let widget ← requireWidget id
  let window := (← get).forest.windowOf? id
  let removed ← edit (.remove id)
  modify fun app =>
    { app with
      stylist := removed.foldl
        (fun stylist gone => stylist.nodeDestroyed (Forest.styleKey gone)) app.stylist }
  match widget.parent with
  | some parent => do
      modify fun app => app.forgetIn window removed
      modify fun app => app.schedule parent (some widget.geometry)
  | none => modify fun app => { app with windows := app.windows.erase id }
  return removed

/-- Give an attribute of a widget a new value and repaint the widget. -/
def write (id : WidgetId) (setting : Forest.Setting) : AppM Unit := do
  edit (.update id setting.write)
  modify fun app => app.schedule id none

/-- Move or resize a widget: the place that it leaves is asked for before it is moved. -/
def setGeometry (id : WidgetId) (geometry : Rect) : AppM Unit := do
  let widget ← requireWidget id
  if widget.geometry = geometry then return
  modify fun app => app.scheduleIn widget.parent widget.geometry
  write id (.geometry geometry)

/-- Show or hide a widget: its place is asked for before it is hidden. -/
def setVisible (id : WidgetId) (visible : Bool) : AppM Unit := do
  let widget ← requireWidget id
  if widget.visible = visible then return
  if visible then write id (.visible true)
  else do
    modify fun app => app.scheduleIn widget.parent widget.geometry
    edit (.update id (Forest.Setting.visible false).write)

/-- Write the active pseudo-classes of a widget; the ones before. -/
def exchangePseudo (id : WidgetId) (mask : PseudoMask) : Forest.EditM PseudoMask := do
  let widget ← Forest.EditM.require id
  Forest.EditM.update id (Forest.Setting.pseudo mask).write
  return widget.pseudo

/-- Change the active pseudo-classes of a widget, then look it up again to compare its styles. -/
def setPseudoState (id : WidgetId) (mask : PseudoMask) : AppM Bool := do
  let old ← edit (exchangePseudo id mask)
  if old = mask then return false
  let _ ← requireWidget id
  let before ← resolve id old
  let after ← resolve id mask
  if ResolvedStyle.same before after then return false
  modify fun app => app.schedule id none
  return true

/-- Show the next frame of an animated background, after the style of the widget is looked up. -/
def advanceAnimation (id : WidgetId) : AppM Bool := do
  let style ← widgetStyle id
  if ResolvedStyle.frameCount style ≤ 1 then return false
  write id .nextFrame
  return true

end InPlace

/-! ### An operation fails at once or not at all -/

/-- An operation in place does what the operation does at once: it fails before it has changed
anything, or it succeeds. -/
def Settled (inPlace call : AppM α) (app : Application) : Prop :=
  (∃ failure, inPlace.run app = (.error failure, app) ∧ call.run app = (.error failure, app)) ∨
    ∃ value after, inPlace.run app = (.ok value, after) ∧ call.run app = (.ok value, after)

/-- The end of a change of the forest that is made all at once. -/
def settle (app : Application) :
    Except ForestError (α × Forest) → Except AppError α × Application
  | .ok (value, forest) => (.ok value, { app with forest := forest })
  | .error failure => (.error (.forest failure), app)

theorem edit_run {edit : Forest.EditM α} {outcome : Except ForestError (α × Forest)}
    (run : edit.run app.forest = app.forest.atOnce outcome) :
    (InPlace.edit edit).run app = app.settle outcome := by
  have unfolded : (InPlace.edit edit).run app =
      ((edit.run app.forest).1.mapError .forest, { app with forest := (edit.run app.forest).2 }) :=
    rfl
  rw [unfolded, run]
  cases outcome <;> rfl

theorem update_run {widget : Widget} (found : app.forest.get? id = some widget)
    (change : Widget → Widget) :
    (InPlace.edit (.update id change)).run app =
      (.ok (), { app with forest := app.forest.adjust id change }) := by
  have live := Forest.contains_iff.mpr ⟨widget, found⟩
  have run : (Forest.EditM.update id change).run app.forest =
      app.forest.atOnce (.ok ((), app.forest.adjust id change)) := Forest.update_run live change
  exact edit_run run

theorem update_run_error (missing : app.forest.get? id = none) (change : Widget → Widget) :
    (InPlace.edit (.update id change)).run app = (.error (.forest (.notFound id)), app) := by
  have run : (Forest.EditM.update id change).run app.forest =
      app.forest.atOnce ((app.forest.change id change).map fun after => ((), after)) := rfl
  rw [edit_run run, change_eq_error missing]
  rfl

theorem setWidgetSheet_settled (text : String) :
    Settled (InPlace.setWidgetSheet id text) (setWidgetSheet id text) app := by
  simp only [Settled, InPlace.setWidgetSheet, setWidgetSheet, run_bind, requireWidget_run]
  cases found : app.forest.get? id with
  | none =>
      simp only [require_eq_error found, Except.mapError]
      exact Or.inl ⟨_, rfl, rfl⟩
  | some widget =>
      obtain ⟨window, home, -⟩ := exists_windowOf (Forest.contains_iff.mpr ⟨widget, found⟩)
      simp only [require_eq_ok found, Except.mapError, modify_run, InPlace.windowOf, run_bind,
        get_run, home, pure_run]
      exact Or.inr ⟨_, _, rfl, rfl⟩

theorem createWidget_settled (parent : WidgetId) (widget : Widget) :
    Settled (InPlace.createWidget parent widget) (createWidget parent widget) app := by
  simp only [Settled, InPlace.createWidget, createWidget, run_bind, get_run, ofForest_run,
    edit_run (Forest.insert_run ..)]
  cases app.forest.insert (some parent) widget with
  | error failure => exact Or.inl ⟨_, rfl, rfl⟩
  | ok inserted => exact Or.inr ⟨_, _, rfl, rfl⟩

theorem forgetMoved_run (live : app.forest.contains id = true) (oldWindow : Option WidgetId) :
    (InPlace.forgetMoved id oldWindow).run app =
      (.ok (), if oldWindow = app.forest.windowOf? id then app
        else app.forgetIn oldWindow (app.forest.subtree id)) := by
  obtain ⟨widget, found⟩ := Forest.contains_iff.mp live
  simp only [InPlace.forgetMoved, run_bind, get_run]
  split
  · rfl
  · simp only [run_bind, requireWidget_run, require_eq_ok found, Except.mapError, modify_run]

/-- An application after a widget has moved in its forest. -/
def followed (app : Application) (before : Forest) (id : WidgetId) (widget : Widget)
    (newParent : Option WidgetId) : Application :=
  let app := (app.leave before id widget.parent widget.geometry).updateWindows id widget.parent
    newParent
  { app with stylist := app.stylist.invalidateSubtree (app.forest.subtreeKeys id) }.schedule id none

theorem follow_run (live : app.forest.contains id = true) (before : Forest) (widget : Widget)
    (newParent : Option WidgetId) :
    (InPlace.follow id widget (before.windowOf? id) newParent).run app =
      (.ok (), app.followed before id widget newParent) := by
  have stillLive : (app.scheduleIn widget.parent widget.geometry).forest.contains id = true := by
    rwa [(scheduleIn_rest _ _).1]
  have left : (InPlace.forgetMoved id (before.windowOf? id)).run
      (app.scheduleIn widget.parent widget.geometry) =
        (.ok (), app.leave before id widget.parent widget.geometry) := by
    rw [forgetMoved_run stillLive, leave, (scheduleIn_rest _ _).1]
  obtain ⟨moved, found⟩ := Forest.contains_iff.mp live
  have again : ((app.leave before id widget.parent widget.geometry).updateWindows id widget.parent
      newParent).forest.get? id = some moved := by
    rw [(updateWindows_rest _ _).1, (leave_rest _ _ _).1, found]
  simp only [InPlace.follow, run_bind, modify_run, left, requireWidget_run, require_eq_ok again,
    Except.mapError]
  rfl

theorem reparent_settled (linked : app.forest.Linked) (newParent : Option WidgetId) :
    Settled (InPlace.reparent id newParent) (reparent id newParent) app := by
  have edited : (InPlace.edit (.reparent id newParent)).run app = _ :=
    edit_run (linked.reparent_run newParent)
  simp only [Settled, InPlace.reparent, reparent, run_bind, requireWidget_run]
  cases found : app.forest.get? id with
  | none =>
      simp only [require_eq_error found, Except.mapError]
      exact Or.inl ⟨_, rfl, rfl⟩
  | some widget =>
      simp only [require_eq_ok found, edited, Except.mapError, get_run, ofForest_run]
      cases moved : app.forest.reparent id newParent with
      | error failure => exact Or.inl ⟨_, rfl, rfl⟩
      | ok forest =>
          have live : forest.contains id = true := by
            rw [contains_reparent moved]
            exact Forest.contains_iff.mpr ⟨widget, found⟩
          refine Or.inr ⟨_, _, follow_run live app.forest widget newParent, ?_⟩
          simp only [modify_run, scheduleIn_rest]
          rfl

theorem destroyWidget_settled (linked : app.forest.Linked) :
    Settled (InPlace.destroyWidget id) (destroyWidget id) app := by
  have edited : (InPlace.edit (.remove id)).run app = _ := edit_run linked.remove_run
  simp only [Settled, InPlace.destroyWidget, destroyWidget, run_bind, requireWidget_run]
  cases found : app.forest.get? id with
  | none =>
      simp only [require_eq_error found, Except.mapError]
      exact Or.inl ⟨_, rfl, rfl⟩
  | some widget =>
      simp only [require_eq_ok found, edited, Except.mapError, get_run, ofForest_run,
        Forest.remove_eq found, settle, modify_run]
      cases widget.parent <;> exact Or.inr ⟨_, _, rfl, rfl⟩

theorem setOpaque_settled (isOpaque : Bool) :
    Settled (InPlace.write id (.isOpaque isOpaque)) (setOpaque id isOpaque) app := by
  simp only [Settled, InPlace.write, setOpaque, run_bind, get_run, ofForest_run, Forest.setOpaque]
  cases found : app.forest.get? id with
  | none =>
      rw [update_run_error found, change_eq_error found]
      exact Or.inl ⟨_, rfl, rfl⟩
  | some widget =>
      rw [update_run found, change_eq found]
      exact Or.inr ⟨_, _, rfl, rfl⟩

theorem setText_settled (text : String) :
    Settled (InPlace.write id (.text text)) (setText id text) app := by
  simp only [Settled, InPlace.write, setText, run_bind, get_run, ofForest_run, Forest.setText]
  cases found : app.forest.get? id with
  | none =>
      rw [update_run_error found, change_eq_error found]
      exact Or.inl ⟨_, rfl, rfl⟩
  | some widget =>
      rw [update_run found, change_eq found]
      exact Or.inr ⟨_, _, rfl, rfl⟩

theorem setGeometry_settled (geometry : Rect) :
    Settled (InPlace.setGeometry id geometry) (setGeometry id geometry) app := by
  simp only [Settled, InPlace.setGeometry, setGeometry, run_bind, requireWidget_run]
  cases found : app.forest.get? id with
  | none =>
      simp only [require_eq_error found, Except.mapError]
      exact Or.inl ⟨_, rfl, rfl⟩
  | some widget =>
      simp only [require_eq_ok found, Except.mapError]
      split
      · exact Or.inr ⟨_, _, rfl, rfl⟩
      · have again : (app.scheduleIn widget.parent widget.geometry).forest.get? id =
            some widget := by
          rwa [(scheduleIn_rest _ _).1]
        simp only [InPlace.write, run_bind, modify_run, get_run, ofForest_run, update_run again,
          Forest.setGeometry, change_eq again, Except.mapError]
        exact Or.inr ⟨_, _, rfl, rfl⟩

theorem setVisible_settled (visible : Bool) :
    Settled (InPlace.setVisible id visible) (setVisible id visible) app := by
  simp only [Settled, InPlace.setVisible, setVisible, run_bind, requireWidget_run]
  cases found : app.forest.get? id with
  | none =>
      simp only [require_eq_error found, Except.mapError]
      exact Or.inl ⟨_, rfl, rfl⟩
  | some widget =>
      simp only [require_eq_ok found, Except.mapError]
      split
      · exact Or.inr ⟨_, _, rfl, rfl⟩
      · have again : (app.scheduleIn widget.parent widget.geometry).forest.get? id =
            some widget := by
          rwa [(scheduleIn_rest _ _).1]
        cases visible with
        | true =>
            simp only [if_true, InPlace.write, run_bind, modify_run, get_run, ofForest_run,
              update_run found, Forest.setVisible, change_eq found, Except.mapError]
            exact Or.inr ⟨_, _, rfl, rfl⟩
        | false =>
            simp only [Bool.false_eq_true, if_false, run_bind, modify_run, get_run, pure_run,
              ofForest_run, update_run again, Forest.setVisible, change_eq again, Except.mapError]
            exact Or.inr ⟨_, _, rfl, rfl⟩

theorem exchangePseudo_run {forest : Forest} (mask : PseudoMask) :
    (InPlace.exchangePseudo id mask).run forest = forest.atOnce (forest.setPseudo id mask) := by
  simp only [InPlace.exchangePseudo, run_bind, Forest.require_run, Forest.setPseudo]
  cases found : forest.get? id with
  | none =>
      rw [require_eq_error found]
      rfl
  | some widget =>
      simp only [require_eq_ok found,
        Forest.update_run (Forest.contains_iff.mpr ⟨widget, found⟩)]
      rfl

theorem setPseudoState_settled (mask : PseudoMask) :
    Settled (InPlace.setPseudoState id mask) (setPseudoState id mask) app := by
  simp only [Settled, InPlace.setPseudoState, setPseudoState, run_bind, get_run, ofForest_run,
    edit_run (exchangePseudo_run mask)]
  cases found : app.forest.get? id with
  | none =>
      rw [Forest.setPseudo, require_eq_error found]
      exact Or.inl ⟨_, rfl, rfl⟩
  | some widget =>
      obtain ⟨forest, isForest⟩ : ∃ forest, forest = app.forest.adjust id fun widget =>
        { widget with pseudo := mask } := ⟨_, rfl⟩
      have changed : app.forest.setPseudo id mask = .ok (widget.pseudo, forest) := by
        rw [isForest, Forest.setPseudo, require_eq_ok found]
        rfl
      have again : { app with forest := forest }.forest.get? id =
          some { widget with pseudo := mask } := by
        simp [isForest, found]
      simp only [changed, settle, Except.mapError, modify_run]
      split
      · exact Or.inr ⟨_, _, rfl, rfl⟩
      · simp only [run_bind, requireWidget_run, require_eq_ok again, Except.mapError, resolve_run]
        split <;> exact Or.inr ⟨_, _, rfl, rfl⟩

theorem advanceAnimation_settled :
    Settled (InPlace.advanceAnimation id) (advanceAnimation id) app := by
  simp only [Settled, InPlace.advanceAnimation, advanceAnimation, run_bind, widgetStyle_run]
  cases found : app.forest.get? id with
  | none => exact Or.inl ⟨_, rfl, rfl⟩
  | some widget =>
      simp only
      generalize app.stylist.resolve (app.forest.lineage id) widget.pseudo = looked
      obtain ⟨style, stylist⟩ := looked
      have again : { app with stylist := stylist }.forest.get? id = some widget := found
      split
      · exact Or.inr ⟨_, _, rfl, rfl⟩
      · simp only [InPlace.write, run_bind, update_run again, get_run, ofForest_run,
          Forest.advanceFrame, require_eq_ok found, modify_run, pure_run]
        exact Or.inr ⟨_, _, rfl, rfl⟩

theorem requestUpdate_settled (rect : Option Rect) :
    Settled (requestUpdate id rect) (requestUpdate id rect) app := by
  simp only [Settled, requestUpdate, run_bind, requireWidget_run]
  cases found : app.forest.get? id with
  | none =>
      simp only [require_eq_error found, Except.mapError]
      exact Or.inl ⟨_, rfl, rfl⟩
  | some widget =>
      simp only [require_eq_ok found, Except.mapError, modify_run]
      exact Or.inr ⟨_, _, rfl, rfl⟩

theorem widgetStyle_settled : Settled (widgetStyle id) (widgetStyle id) app := by
  simp only [Settled, widgetStyle_run]
  cases app.forest.get? id with
  | none => exact Or.inl ⟨_, rfl, rfl⟩
  | some widget => exact Or.inr ⟨_, _, rfl, rfl⟩

/-! ### Calls -/

theorem Settled.run_eq {inPlace call : AppM α} (settled : Settled inPlace call app) :
    inPlace.run app = call.run app := by
  rcases settled with ⟨failure, left, right⟩ | ⟨value, after, left, right⟩
  · rw [left, right]
  · rw [left, right]

theorem Settled.unchanged {inPlace call : AppM α} (settled : Settled inPlace call app)
    {failure : AppError} {after : Application}
    (failed : inPlace.run app = (.error failure, after)) : after = app := by
  rcases settled with ⟨cause, left, -⟩ | ⟨value, final, left, -⟩
  · rw [left] at failed
    cases failed
    rfl
  · rw [left] at failed
    cases failed

/-- A call whose answer is dropped. -/
def dropping (call : AppM α) : AppM Unit := do
  let _ ← call

theorem Settled.dropping {inPlace call : AppM α} (settled : Settled inPlace call app) :
    Settled (Application.dropping inPlace) (Application.dropping call) app := by
  simp only [Settled, Application.dropping, run_bind]
  rcases settled with ⟨failure, left, right⟩ | ⟨value, after, left, right⟩
  · rw [left, right]
    exact Or.inl ⟨_, rfl, rfl⟩
  · rw [left, right]
    exact Or.inr ⟨_, _, rfl, rfl⟩

theorem settled_modify (change : Application → Application) :
    Settled (modify change) (modify change) app :=
  Or.inr ⟨_, _, modify_run change, modify_run change⟩

/-- A call of an application that does not paint. -/
inductive Call where
  | change (change : Change)
  | widgetStyle (id : WidgetId)
  | probeStyle (typeName objectName : String) (mask : PseudoMask)
  deriving Repr, DecidableEq, Inhabited

/-- An operation without its answer. -/
def Change.program : Change → AppM Unit
  | .setAppSheet text => modify fun app => app.setAppSheet text
  | .setWidgetSheet id text => Application.setWidgetSheet id text
  | .createWindow widget => modify fun app => (app.createWindow widget).2
  | .createWidget parent widget => dropping (Application.createWidget parent widget)
  | .reparent id newParent => Application.reparent id newParent
  | .destroyWidget id => dropping (Application.destroyWidget id)
  | .setGeometry id geometry => Application.setGeometry id geometry
  | .setVisible id visible => Application.setVisible id visible
  | .setOpaque id isOpaque => Application.setOpaque id isOpaque
  | .setText id text => Application.setText id text
  | .setPseudoState id mask => dropping (Application.setPseudoState id mask)
  | .advanceAnimation id => dropping (Application.advanceAnimation id)
  | .requestUpdate id rect => Application.requestUpdate id rect

/-- The operation in place. -/
def Change.inPlace : Change → AppM Unit
  | .setAppSheet text => modify fun app => app.setAppSheet text
  | .setWidgetSheet id text => InPlace.setWidgetSheet id text
  | .createWindow widget => modify fun app => (app.createWindow widget).2
  | .createWidget parent widget => dropping (InPlace.createWidget parent widget)
  | .reparent id newParent => InPlace.reparent id newParent
  | .destroyWidget id => dropping (InPlace.destroyWidget id)
  | .setGeometry id geometry => InPlace.setGeometry id geometry
  | .setVisible id visible => InPlace.setVisible id visible
  | .setOpaque id isOpaque => InPlace.write id (.isOpaque isOpaque)
  | .setText id text => InPlace.write id (.text text)
  | .setPseudoState id mask => dropping (InPlace.setPseudoState id mask)
  | .advanceAnimation id => dropping (InPlace.advanceAnimation id)
  | .requestUpdate id rect => Application.requestUpdate id rect

namespace Call

/-- The call without its answer. -/
def program : Call → AppM Unit
  | .change operation => operation.program
  | .widgetStyle id => dropping (Application.widgetStyle id)
  | .probeStyle typeName objectName mask =>
      modify fun app => (app.probeStyle typeName objectName mask).2

/-- The call in place. -/
def inPlace : Call → AppM Unit
  | .change operation => operation.inPlace
  | .widgetStyle id => dropping (Application.widgetStyle id)
  | .probeStyle typeName objectName mask =>
      modify fun app => (app.probeStyle typeName objectName mask).2

end Call

theorem dropping_run (call : AppM α) : ((dropping call).run app).2 = (call.run app).2 := by
  rw [dropping, run_bind]
  rcases call.run app with ⟨failure | value, after⟩ <;> rfl

/-- What a call leaves is the state that the operation leads to. -/
theorem Change.program_run (change : Change) : (change.program.run app).2 = change.apply app := by
  cases change with
  | createWidget parent widget => exact dropping_run _
  | destroyWidget id => exact dropping_run _
  | setPseudoState id mask => exact dropping_run _
  | advanceAnimation id => exact dropping_run _
  | _ => rfl

theorem change_settled (linked : app.forest.Linked) (change : Change) :
    Settled change.inPlace change.program app := by
  cases change with
  | setAppSheet text => exact settled_modify _
  | setWidgetSheet id text => exact setWidgetSheet_settled text
  | createWindow widget => exact settled_modify _
  | createWidget parent widget => exact (createWidget_settled parent widget).dropping
  | reparent id newParent => exact reparent_settled linked newParent
  | destroyWidget id => exact (destroyWidget_settled linked).dropping
  | setGeometry id geometry => exact setGeometry_settled geometry
  | setVisible id visible => exact setVisible_settled visible
  | setOpaque id isOpaque => exact setOpaque_settled isOpaque
  | setText id text => exact setText_settled text
  | setPseudoState id mask => exact (setPseudoState_settled mask).dropping
  | advanceAnimation id => exact advanceAnimation_settled.dropping
  | requestUpdate id rect => exact requestUpdate_settled rect

theorem call_settled (linked : app.forest.Linked) (call : Call) :
    Settled call.inPlace call.program app := by
  cases call with
  | change change => exact change_settled linked change
  | widgetStyle id => exact widgetStyle_settled.dropping
  | probeStyle typeName objectName mask => exact settled_modify _

/-- In every state that operations can lead to, a call in place does what the operation does at
once, and a call that fails leaves the widgets, the styles and the windows exactly as they were. To
paint what is not a window fails like that as well. -/
theorem Reachable.failed_call (reachable : app.Reachable) :
    (∀ call : Call, call.inPlace.run app = call.program.run app ∧
      ∀ failure after, call.inPlace.run app = (.error failure, after) → after = app) ∧
    ∀ {σ : Type} (backend : Backend σ) (window : WidgetId) (state : σ),
      ¬(app.forest.contains window = true ∧ app.forest.parent? window = none) →
        app.paintWindow backend window state = (.error (.windowNotFound window), app, state) := by
  constructor
  · intro call
    have settled := call_settled reachable.sound.linked call
    exact ⟨settled.run_eq, fun failure after failed => settled.unchanged failed⟩
  · intro σ backend window state notWindow
    rw [Application.paintWindow]
    cases found : app.windows.find? window with
    | none => rfl
    | some damage => exact absurd (reachable.sound.windows found).2 notWindow

/-- A window with a panel and a label in it; the style of the label is known. -/
def styledLabel : Application :=
  let window := Change.apply (new {}) (.createWindow { typeName := "Window" })
  let panel := Change.apply window (.createWidget ⟨0⟩ { typeName := "Panel" })
  let label := Change.apply panel (.createWidget ⟨1⟩ { typeName := "Label" })
  ((widgetStyle ⟨2⟩).run label).2

theorem failed_call_styledLabel :
    styledLabel.Reachable ∧
    (Call.change (.reparent ⟨1⟩ (some ⟨2⟩))).inPlace.run styledLabel =
      (.error (.forest (.cycle ⟨1⟩ ⟨2⟩)), styledLabel) ∧
    (Call.change (.setPseudoState ⟨7⟩ PseudoMask.empty)).inPlace.run styledLabel =
      (.error (.forest (.notFound ⟨7⟩)), styledLabel) ∧
    styledLabel.paintWindow countingBackend ⟨1⟩ 0 =
      (.error (.windowNotFound ⟨1⟩), styledLabel, 0) := by
  have reachable : styledLabel.Reachable := by
    unfold styledLabel
    exact .widgetStyle _ (.change _ (.change _ (.change _ (.new {}))))
  obtain ⟨calls, paintings⟩ := reachable.failed_call
  have stays : ∀ (call : Call) failure, (call.inPlace.run styledLabel).1 = .error failure →
      call.inPlace.run styledLabel = (.error failure, styledLabel) := fun call failure failed =>
    Prod.ext failed ((calls call).2 failure _ (Prod.ext failed rfl))
  exact ⟨reachable, stays _ _ rfl, stays _ _ rfl, paintings _ _ _ (by decide)⟩

end Application

end StyledWidgets
