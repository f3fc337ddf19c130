/-
Module: StyledWidgets.Proofs.Operations
Purpose: What each operation leaves of an application: its forest, its stylist and the damage of
  each of its windows. An operation that fails has changed nothing that matters.
Main exports: Application.Change, Application.Change.apply, Application.damage_schedule,
  Application.reparent_after, Application.destroyWidget_after, Application.setPseudoState_after
-/
import StyledWidgets.Application
import StyledWidgets.Proofs.ForestChanges
import StyledWidgets.Proofs.PaintedPixels

namespace StyledWidgets

open StyledWidgets.Sheet StyledWidgets.Style

namespace Application

variable {app : Application} {id window : WidgetId} {α : Type}

/-! ### Steps of operations -/

theorem pure_run (value : α) : (pure value : AppM α).run app = (.ok value, app) := rfl

theorem get_run : (get : AppM Application).run app = (.ok app, app) := rfl

theorem modify_run (change : Application → Application) :
    (modify change : AppM PUnit).run app = (.ok ⟨⟩, change app) := rfl

theorem ofForest_run (outcome : Except ForestError α) :
    (AppM.ofForest outcome).run app = (outcome.mapError .forest, app) := by
  cases outcome with
  | error cause => rfl
  | ok value => rfl

theorem requireWidget_run :
    (requireWidget id).run app = ((app.forest.require id).mapError .forest, app) := by
  simp only [requireWidget, run_bind, get_run, ofForest_run]

theorem resolve_run (mask : PseudoMask) :
    (resolve id mask).run app =
      (.ok (app.stylist.resolve (app.forest.lineage id) mask).1,
        { app with stylist := (app.stylist.resolve (app.forest.lineage id) mask).2 }) := rfl

/-! ### Requests -/

@[simp]
theorem schedule_rest (rect : Option Rect) :
    (app.schedule id rect).forest = app.forest ∧ (app.schedule id rect).stylist = app.stylist ∧
      (app.schedule id rect).settings = app.settings := by
  rw [schedule]
  split
  · exact ⟨rfl, rfl, rfl⟩
  · exact ⟨rfl, rfl, rfl⟩

/-- The damage of a window after a request, which only the window of the widget receives. -/
def asked (forest : Forest) (window id : WidgetId) (rect : Option Rect) (damage : Damage) :
    Damage :=
  if forest.windowOf? id = some window then damage.requestUpdate id rect else damage

/-- The damage of a window after a request in a parent. -/
def askedIn (forest : Forest) (window : WidgetId) (parent : Option WidgetId) (rect : Rect)
    (damage : Damage) : Damage :=
  match parent with
  | none => damage
  | some parent => asked forest window parent (some rect) damage

theorem damage_schedule (rect : Option Rect) :
    (app.schedule id rect).windows.find? window =
      (app.windows.find? window).map (asked app.forest window id rect) := by
  rw [schedule]
  unfold asked
  cases isIn : app.forest.windowOf? id with
  | none => simp
  | some home =>
      simp only [Table.find?_modify, Option.some_inj]
      split
      case isTrue same => rw [same]
      case isFalse => simp

@[simp]
theorem scheduleIn_rest (parent : Option WidgetId) (rect : Rect) :
    (app.scheduleIn parent rect).forest = app.forest ∧
      (app.scheduleIn parent rect).stylist = app.stylist ∧
      (app.scheduleIn parent rect).settings = app.settings := by
  cases parent with
  | none => exact ⟨rfl, rfl, rfl⟩
  | some parent => exact schedule_rest (some rect)

theorem damage_scheduleIn (parent : Option WidgetId) (rect : Rect) :
    (app.scheduleIn parent rect).windows.find? window =
      (app.windows.find? window).map (askedIn app.forest window parent rect) := by
  unfold askedIn
  cases parent with
  | none => simp [scheduleIn]
  | some parent => exact damage_schedule (some rect)

@[simp]
theorem forgetIn_rest (home : Option WidgetId) (ids : List WidgetId) :
    (app.forgetIn home ids).forest = app.forest ∧ (app.forgetIn home ids).stylist = app.stylist ∧
      (app.forgetIn home ids).settings = app.settings := by
  cases home with
  | none => exact ⟨rfl, rfl, rfl⟩
  | some home => exact ⟨rfl, rfl, rfl⟩

/-- The damage of a window after widgets have left a window. -/
def forgotten (home : Option WidgetId) (window : WidgetId) (ids : List WidgetId)
    (damage : Damage) : Damage :=
  if home = some window then ids.foldl Damage.forget damage else damage

theorem damage_forgetIn (home : Option WidgetId) (ids : List WidgetId) :
    (app.forgetIn home ids).windows.find? window =
      (app.windows.find? window).map (forgotten home window ids) := by
  unfold forgotten
  cases home with
  | none => simp [forgetIn]
  | some home =>
      simp only [forgetIn, Table.find?_modify, Option.some_inj]
      split
      case isTrue same => rw [same]
      case isFalse => simp

@[simp]
theorem updateWindows_rest (oldParent newParent : Option WidgetId) :
    (app.updateWindows id oldParent newParent).forest = app.forest ∧
      (app.updateWindows id oldParent newParent).stylist = app.stylist ∧
      (app.updateWindows id oldParent newParent).settings = app.settings := by
  cases oldParent with
  | none => cases newParent <;> exact ⟨rfl, rfl, rfl⟩
  | some parent => cases newParent <;> exact ⟨rfl, rfl, rfl⟩

theorem damage_updateWindows (oldParent newParent : Option WidgetId) :
    (app.updateWindows id oldParent newParent).windows.find? window =
      if id = window then
        match oldParent, newParent with
        | some _, none => some (Damage.new id)
        | none, some _ => none
        | _, _ => app.windows.find? window
      else app.windows.find? window := by
  cases oldParent with
  | none =>
      cases newParent with
      | none => simp [updateWindows]
      | some parent => simp [updateWindows, eq_comm]
  | some parent =>
      cases newParent with
      | none => simp [updateWindows]
      | some parent => simp [updateWindows]

/-! ### Operations -/

/-- An operation on the widgets or the sheets of an application. -/
inductive Change where
  | setAppSheet (text : String)
  | setWidgetSheet (id : WidgetId) (text : String)
  | createWindow (widget : Widget)
  | createWidget (parent : WidgetId) (widget : Widget)
  | reparent (id : WidgetId) (newParent : Option WidgetId)
  | destroyWidget (id : WidgetId)
  | setGeometry (id : WidgetId) (geometry : Rect)
  | setVisible (id : WidgetId) (visible : Bool)
  | setOpaque (id : WidgetId) (isOpaque : Bool)
  | setText (id : WidgetId) (text : String)
  | setPseudoState (id : WidgetId) (mask : PseudoMask)
  | advanceAnimation (id : WidgetId)
  | requestUpdate (id : WidgetId) (rect : Option Rect)
  deriving Repr, DecidableEq, Inhabited

/-- The application after an operation, whether or not it has failed. -/
def Change.apply (app : Application) : Change → Application
  | .setAppSheet text => app.setAppSheet text
  | .setWidgetSheet id text => ((Application.setWidgetSheet id text).run app).2
  | .createWindow widget => (app.createWindow widget).2
  | .createWidget parent widget => ((Application.createWidget parent widget).run app).2
  | .reparent id newParent => ((Application.reparent id newParent).run app).2
  | .destroyWidget id => ((Application.destroyWidget id).run app).2
  | .setGeometry id geometry => ((Application.setGeometry id geometry).run app).2
  | .setVisible id visible => ((Application.setVisible id visible).run app).2
  | .setOpaque id isOpaque => ((Application.setOpaque id isOpaque).run app).2
  | .setText id text => ((Application.setText id text).run app).2
  | .setPseudoState id mask => ((Application.setPseudoState id mask).run app).2
  | .advanceAnimation id => ((Application.advanceAnimation id).run app).2
  | .requestUpdate id rect => ((Application.requestUpdate id rect).run app).2

theorem require_eq_ok {forest : Forest} {widget : Widget} (found : forest.get? id = some widget) :
    forest.require id = .ok widget := by
  rw [Forest.require, found]

theorem require_eq_error {forest : Forest} (missing : forest.get? id = none) :
    forest.require id = .error (.notFound id) := by
  rw [Forest.require, missing]

theorem change_eq {forest : Forest} {widget : Widget} (found : forest.get? id = some widget)
    (change : Widget → Widget) : forest.change id change = .ok (forest.adjust id change) := by
  rw [Forest.change, require_eq_ok found]
  rfl

theorem change_eq_error {forest : Forest} (missing : forest.get? id = none)
    (change : Widget → Widget) : forest.change id change = .error (.notFound id) := by
  rw [Forest.change, require_eq_error missing]
  rfl

/-- A widget that is there belongs to some window. -/
theorem exists_windowOf {forest : Forest} (live : forest.contains id = true) :
    ∃ home, forest.windowOf? id = some home ∧ (forest.path id).getLast? = some home := by
  have nonempty : forest.path id ≠ [] := List.ne_nil_of_mem (Forest.mem_path_self id)
  rw [Forest.windowOf?, if_pos live]
  exact ⟨_, List.getLast?_eq_some_getLast nonempty, List.getLast?_eq_some_getLast nonempty⟩

/-- A new sheet of the application asks for every window. -/
theorem damage_setAppSheet (text : String) :
    (app.setAppSheet text).windows.find? window =
      (app.windows.find? window).map fun damage => damage.requestUpdate window none := by
  rw [setAppSheet]
  simp only [Table.find?]
  induction app.windows.entries with
  | nil => rfl
  | cons entry later inductionHypothesis =>
      obtain ⟨root, damage⟩ := entry
      rw [List.map_cons, Table.findIn, Table.findIn, inductionHypothesis]
      split
      case isTrue same =>
        rw [same]
        rfl
      case isFalse => rfl

theorem setWidgetSheet_run {widget : Widget} (found : app.forest.get? id = some widget)
    {home : WidgetId} (isHome : app.forest.windowOf? id = some home) (text : String) :
    (setWidgetSheet id text).run app =
      (.ok ⟨⟩,
        { app with
          stylist := app.stylist.setNodeSheet (Forest.styleKey id) (app.forest.subtreeKeys id)
            text }.schedule home none) := by
  simp only [setWidgetSheet, run_bind, requireWidget_run, require_eq_ok found, Except.mapError,
    modify_run, isHome]

theorem setWidgetSheet_after (text : String) :
    ((setWidgetSheet id text).run app).2 = app ∨
      ∃ home, app.forest.windowOf? id = some home ∧
        ((setWidgetSheet id text).run app).2 =
          { app with
            stylist := app.stylist.setNodeSheet (Forest.styleKey id) (app.forest.subtreeKeys id)
              text }.schedule home none := by
  cases found : app.forest.get? id with
  | none =>
      simp only [setWidgetSheet, run_bind, requireWidget_run]
      exact Or.inl (by rw [require_eq_error found]; rfl)
  | some widget =>
      obtain ⟨home, isHome, -⟩ := exists_windowOf (Forest.contains_iff.mpr ⟨widget, found⟩)
      exact Or.inr ⟨home, isHome, congrArg Prod.snd (setWidgetSheet_run found isHome text)⟩

theorem createWidget_after (parent : WidgetId) (widget : Widget) :
    ((createWidget parent widget).run app).2 = app ∨
      ∃ id forest, app.forest.insert (some parent) widget = .ok (id, forest) ∧
        ((createWidget parent widget).run app).2 =
          { app with forest := forest }.schedule id none := by
  simp only [createWidget, run_bind, get_run, ofForest_run]
  cases inserted : app.forest.insert (some parent) widget with
  | error cause => exact Or.inl rfl
  | ok outcome => exact Or.inr ⟨outcome.1, outcome.2, rfl, rfl⟩

/-- The damage of a window that has been one before a widget is moved: the place that is left is
asked for, and if the widget has left the window, nothing of it is repainted there. -/
def leftBehind (before after : Forest) (window id : WidgetId) (parent : Option WidgetId)
    (place : Rect) (damage : Damage) : Damage :=
  if before.windowOf? id = after.windowOf? id then askedIn after window parent place damage
  else
    forgotten (before.windowOf? id) window (after.subtree id)
      (askedIn after window parent place damage)

/-- An application after the place of a widget that has moved is asked for. -/
def leave (app : Application) (before : Forest) (id : WidgetId) (parent : Option WidgetId)
    (place : Rect) : Application :=
  if before.windowOf? id = app.forest.windowOf? id then app.scheduleIn parent place
  else (app.scheduleIn parent place).forgetIn (before.windowOf? id) (app.forest.subtree id)

theorem leave_rest (before : Forest) (parent : Option WidgetId) (place : Rect) :
    (app.leave before id parent place).forest = app.forest ∧
      (app.leave before id parent place).stylist = app.stylist ∧
        (app.leave before id parent place).settings = app.settings := by
  rw [leave]
  split <;> simp

theorem damage_leave (before : Forest) (parent : Option WidgetId) (place : Rect) :
    (app.leave before id parent place).windows.find? window =
      (app.windows.find? window).map
        (leftBehind before app.forest window id parent place) := by
  unfold leave leftBehind
  split
  · rw [damage_scheduleIn]
  · rw [damage_forgetIn, damage_scheduleIn, Option.map_map]
    rfl

theorem reparent_run {newParent : Option WidgetId} {widget : Widget} {after : Forest}
    (found : app.forest.get? id = some widget) :
    app.forest.reparent id newParent = .ok after → ((reparent id newParent).run app).1 = .ok ⟨⟩ ∧
      ((reparent id newParent).run app).2.forest = after ∧
      ((reparent id newParent).run app).2.settings = app.settings ∧
      ((reparent id newParent).run app).2.stylist =
        app.stylist.invalidateSubtree (after.subtreeKeys id) ∧
      ∀ window, ((reparent id newParent).run app).2.windows.find? window =
        (if id = window then
          match widget.parent, newParent with
          | some _, none => some (Damage.new id)
          | none, some _ => none
          | _, _ => (app.windows.find? window).map
              (leftBehind app.forest after window id widget.parent widget.geometry)
        else
          (app.windows.find? window).map
            (leftBehind app.forest after window id widget.parent widget.geometry)).map
          (asked after window id none) := by
  intro moved
  simp only [reparent, run_bind, requireWidget_run, require_eq_ok found, Except.mapError, get_run,
    ofForest_run, moved, modify_run, scheduleIn_rest]
  have isLeft : (if app.forest.windowOf? id = after.windowOf? id then
        { app with forest := after }.scheduleIn widget.parent widget.geometry
      else
        ({ app with forest := after }.scheduleIn widget.parent widget.geometry).forgetIn
          (app.forest.windowOf? id) (after.subtree id)) =
      { app with forest := after }.leave app.forest id widget.parent widget.geometry := rfl
  rw [isLeft]
  obtain ⟨forest, stylist, settings⟩ : ({ app with forest := after }.leave app.forest id
    widget.parent widget.geometry).forest = after ∧ _ ∧ _ := leave_rest ..
  refine ⟨trivial, ?_, ?_, ?_, ?_⟩
  · simp [forest]
  · simp [settings]
  · simp [forest, stylist]
  · intro window
    rw [damage_schedule, damage_updateWindows, damage_leave]
    simp [forest]

theorem reparent_after (newParent : Option WidgetId) :
    ((reparent id newParent).run app).2 = app ∨
      ∃ widget after, app.forest.get? id = some widget ∧
        app.forest.reparent id newParent = .ok after ∧
        ((reparent id newParent).run app).2.forest = after ∧
        ((reparent id newParent).run app).2.settings = app.settings ∧
        ((reparent id newParent).run app).2.stylist =
          app.stylist.invalidateSubtree (after.subtreeKeys id) ∧
        ∀ window, ((reparent id newParent).run app).2.windows.find? window =
          (if id = window then
            match widget.parent, newParent with
            | some _, none => some (Damage.new id)
            | none, some _ => none
            | _, _ => (app.windows.find? window).map
                (leftBehind app.forest after window id widget.parent widget.geometry)
          else
            (app.windows.find? window).map
              (leftBehind app.forest after window id widget.parent widget.geometry)).map
            (asked after window id none) := by
  cases found : app.forest.get? id with
  | none =>
      simp only [reparent, run_bind, requireWidget_run]
      exact Or.inl (by rw [require_eq_error found]; rfl)
  | some widget =>
      cases moved : app.forest.reparent id newParent with
      | error cause =>
          simp only [reparent, run_bind, requireWidget_run, require_eq_ok found, Except.mapError,
            get_run, ofForest_run, moved]
          exact Or.inl trivial
      | ok after => exact Or.inr ⟨widget, after, rfl, rfl, (reparent_run found moved).2⟩

theorem destroyWidget_after :
    ((destroyWidget id).run app).2 = app ∨
      ∃ widget removed after, app.forest.get? id = some widget ∧
        app.forest.remove id = .ok (removed, after) ∧
        ((destroyWidget id).run app).2.forest = after ∧
        ((destroyWidget id).run app).2.settings = app.settings ∧
        ((destroyWidget id).run app).2.stylist =
          (removed.map Forest.styleKey).foldl Stylist.nodeDestroyed app.stylist ∧
        ∀ window, ((destroyWidget id).run app).2.windows.find? window =
          match widget.parent with
          | some parent =>
              (app.windows.find? window).map fun damage =>
                asked after window parent (some widget.geometry)
                  (forgotten (app.forest.windowOf? id) window removed damage)
          | none => if window = id then none else app.windows.find? window := by
  simp only [destroyWidget, run_bind, requireWidget_run]
  cases found : app.forest.get? id with
  | none => exact Or.inl (by rw [require_eq_error found]; rfl)
  | some widget =>
      simp only [require_eq_ok found, Except.mapError, get_run, ofForest_run]
      cases gone : app.forest.remove id with
      | error cause => exact Or.inl rfl
      | ok outcome =>
          obtain ⟨removed, after⟩ := outcome
          refine Or.inr ⟨widget, removed, after, rfl, rfl, ?_⟩
          simp only [modify_run, pure_run, List.foldl_map]
          cases widget.parent with
          | none =>
              refine ⟨rfl, rfl, rfl, fun window => ?_⟩
              rw [Table.find?_erase]
          | some parent =>
              refine ⟨by simp, by simp, by simp, fun window => ?_⟩
              rw [damage_schedule, damage_forgetIn, Option.map_map]
              simp only [forgetIn_rest]
              rfl

theorem setGeometry_after (geometry : Rect) :
    ((setGeometry id geometry).run app).2 = app ∨
      ∃ widget, app.forest.get? id = some widget ∧
        ((setGeometry id geometry).run app).2 =
          { app.scheduleIn widget.parent widget.geometry with
            forest := app.forest.adjust id fun widget =>
              { widget with geometry := geometry } }.schedule id none := by
  simp only [setGeometry, run_bind, requireWidget_run]
  cases found : app.forest.get? id with
  | none => exact Or.inl (by rw [require_eq_error found]; rfl)
  | some widget =>
      simp only [require_eq_ok found, Except.mapError]
      split
      case isTrue => exact Or.inl rfl
      case isFalse =>
          refine Or.inr ⟨widget, rfl, ?_⟩
          simp only [run_bind, modify_run, get_run, ofForest_run, scheduleIn_rest,
            Forest.setGeometry, change_eq found, Except.mapError]

/-- A widget that disappears is asked for in its parent, one that appears is asked for itself. -/
theorem setVisible_after (visible : Bool) :
    ((setVisible id visible).run app).2 = app ∨
      ∃ widget, app.forest.get? id = some widget ∧ widget.visible = !visible ∧
        ((setVisible id visible).run app).2 =
          if visible then
            { app with
              forest := app.forest.adjust id fun widget =>
                { widget with visible := visible } }.schedule id none
          else
            { app.scheduleIn widget.parent widget.geometry with
              forest := app.forest.adjust id fun widget =>
                { widget with visible := visible } } := by
  simp only [setVisible, run_bind, requireWidget_run]
  cases found : app.forest.get? id with
  | none => exact Or.inl (by rw [require_eq_error found]; rfl)
  | some widget =>
      simp only [require_eq_ok found, Except.mapError]
      split
      case isTrue => exact Or.inl rfl
      case isFalse differs =>
          refine Or.inr ⟨widget, rfl, ?_⟩
          cases visible with
          | true =>
              refine ⟨by simpa using differs, ?_⟩
              simp only [if_true, run_bind, modify_run, get_run, ofForest_run, Forest.setVisible,
                change_eq found, Except.mapError]
          | false =>
              refine ⟨by simpa using differs, ?_⟩
              simp only [Bool.false_eq_true, if_false, run_bind, modify_run, get_run, pure_run,
                ofForest_run, scheduleIn_rest, Forest.setVisible, change_eq found, Except.mapError]

theorem setOpaque_after (isOpaque : Bool) :
    ((setOpaque id isOpaque).run app).2 = app ∨
      ∃ widget, app.forest.get? id = some widget ∧
        ((setOpaque id isOpaque).run app).2 =
          { app with
            forest := app.forest.adjust id fun widget =>
              { widget with isOpaque := isOpaque } }.schedule id none := by
  simp only [setOpaque, run_bind, get_run, ofForest_run, Forest.setOpaque]
  cases found : app.forest.get? id with
  | none => exact Or.inl (by rw [change_eq_error found]; rfl)
  | some widget =>
      refine Or.inr ⟨widget, rfl, ?_⟩
      simp only [change_eq found, Except.mapError, modify_run]

theorem setText_after (text : String) :
    ((setText id text).run app).2 = app ∨
      ∃ widget, app.forest.get? id = some widget ∧
        ((setText id text).run app).2 =
          { app with
            forest := app.forest.adjust id fun widget =>
              { widget with text := text } }.schedule id none := by
  simp only [setText, run_bind, get_run, ofForest_run, Forest.setText]
  cases found : app.forest.get? id with
  | none => exact Or.inl (by rw [change_eq_error found]; rfl)
  | some widget =>
      refine Or.inr ⟨widget, rfl, ?_⟩
      simp only [change_eq found, Except.mapError, modify_run]

/-- The widget is asked for only if its style changes; the lookups fill the caches. -/
theorem setPseudoState_run {widget : Widget} (found : app.forest.get? id = some widget)
    (mask : PseudoMask) :
    let forest := app.forest.adjust id fun widget => { widget with pseudo := mask }
    let before := app.stylist.resolve (forest.lineage id) widget.pseudo
    let after := before.2.resolve (forest.lineage id) mask
    (setPseudoState id mask).run app =
      if widget.pseudo = mask then (.ok false, { app with forest := forest })
      else if ResolvedStyle.same before.1 after.1 then
        (.ok false, { app with forest := forest, stylist := after.2 })
      else (.ok true, { app with forest := forest, stylist := after.2 }.schedule id none) := by
  have changed : (do
      let widget ← Except.ok widget
      return (widget.pseudo, app.forest.adjust id fun widget =>
        { widget with pseudo := mask }) :
        Except ForestError (PseudoMask × Forest)) =
      .ok (widget.pseudo, app.forest.adjust id fun widget => { widget with pseudo := mask }) :=
    rfl
  simp only [setPseudoState, run_bind, get_run, ofForest_run, Forest.setPseudo,
    require_eq_ok found, changed, Except.mapError, modify_run]
  split
  case isTrue same => rfl
  case isFalse =>
    simp only [run_bind, resolve_run]
    split
    case isTrue => rfl
    case isFalse => rfl

theorem setPseudoState_after (mask : PseudoMask) :
    ((setPseudoState id mask).run app).2 = app ∨
      ∃ widget, app.forest.get? id = some widget ∧
        let forest := app.forest.adjust id fun widget => { widget with pseudo := mask }
        let before := app.stylist.resolve (forest.lineage id) widget.pseudo
        let after := before.2.resolve (forest.lineage id) mask
        (widget.pseudo = mask ∧
            ((setPseudoState id mask).run app).2 = { app with forest := forest }) ∨
          (ResolvedStyle.same before.1 after.1 = true ∧
            ((setPseudoState id mask).run app).2 =
              { app with forest := forest, stylist := after.2 }) ∨
          ((setPseudoState id mask).run app).2 =
            { app with forest := forest, stylist := after.2 }.schedule id none := by
  cases found : app.forest.get? id with
  | none =>
      simp only [setPseudoState, run_bind, get_run, ofForest_run, Forest.setPseudo]
      exact Or.inl (by rw [require_eq_error found]; rfl)
  | some widget =>
      refine Or.inr ⟨widget, rfl, ?_⟩
      simp only [setPseudoState_run found]
      split
      case isTrue same => exact Or.inl ⟨same, rfl⟩
      case isFalse =>
        split
        case isTrue same => exact Or.inr (Or.inl ⟨same, rfl⟩)
        case isFalse => exact Or.inr (Or.inr rfl)

theorem advanceAnimation_after :
    ((advanceAnimation id).run app).2 = app ∨
      ∃ widget, app.forest.get? id = some widget ∧
        let found := app.stylist.resolve (app.forest.lineage id) widget.pseudo
        ((advanceAnimation id).run app).2 = { app with stylist := found.2 } ∨
          ((advanceAnimation id).run app).2 =
            { app with
              stylist := found.2
              forest := app.forest.adjust id fun widget =>
                { widget with frame := widget.frame + 1 } }.schedule id none := by
  simp only [advanceAnimation, widgetStyle, run_bind, requireWidget_run]
  cases found : app.forest.get? id with
  | none => exact Or.inl (by rw [require_eq_error found]; rfl)
  | some widget =>
      refine Or.inr ⟨widget, rfl, ?_⟩
      simp only [require_eq_ok found, Except.mapError, resolve_run]
      split
      · exact Or.inl rfl
      · apply Or.inr
        simp only [run_bind, get_run, ofForest_run, Forest.advanceFrame, require_eq_ok found]
        rfl

theorem requestUpdate_after (rect : Option Rect) :
    ((requestUpdate id rect).run app).2 = app ∨
      ((requestUpdate id rect).run app).2 = app.schedule id rect := by
  simp only [requestUpdate, run_bind, requireWidget_run]
  cases found : app.forest.get? id with
  | none => exact Or.inl (by rw [require_eq_error found]; rfl)
  | some widget =>
      apply Or.inr
      simp only [require_eq_ok found, Except.mapError, modify_run]

end Application

end StyledWidgets
