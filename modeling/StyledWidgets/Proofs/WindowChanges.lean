/-
Module: StyledWidgets.Proofs.WindowChanges
Purpose: What operations do to the damage of windows, said once. Every operation makes requests,
  forgets widgets that leave, or makes a new window, so a property that is left alone by these
  holds of every window after every operation.
Main exports: Application.EachWindow, Application.Lasts, Application.Lasts.change
-/
import StyledWidgets.Proofs.Operations

namespace StyledWidgets

namespace Application

variable {app after : Application} {id : WidgetId} {holds : Damage → Prop}

/-- Every window holds a property. -/
def EachWindow (app : Application) (holds : Damage → Prop) : Prop :=
  ∀ window damage, app.windows.find? window = some damage → holds damage

/-- A property that a new window has, and that neither requests nor widgets that leave take from
it. -/
structure Lasts (holds : Damage → Prop) : Prop where
  new : ∀ root, holds (.new root)
  requestUpdate : ∀ {damage : Damage} id rect, holds damage → holds (damage.requestUpdate id rect)
  forget : ∀ {damage : Damage} id, holds damage → holds (damage.forget id)

section Changes

variable (lasts : Lasts holds)

include lasts

theorem Lasts.asked (forest : Forest) (window id : WidgetId) (rect : Option Rect) {damage : Damage}
    (held : holds damage) : holds (asked forest window id rect damage) := by
  rw [Application.asked]
  split
  · exact lasts.requestUpdate _ _ held
  · exact held

theorem Lasts.askedIn (forest : Forest) (window : WidgetId) (parent : Option WidgetId)
    (rect : Rect) {damage : Damage} (held : holds damage) :
    holds (askedIn forest window parent rect damage) := by
  cases parent with
  | none => exact held
  | some parent => exact lasts.asked _ _ _ _ held

theorem Lasts.forgotten (home : Option WidgetId) (window : WidgetId) (ids : List WidgetId)
    {damage : Damage} (held : holds damage) : holds (forgotten home window ids damage) := by
  rw [Application.forgotten]
  split
  · induction ids generalizing damage with
    | nil => exact held
    | cons id later inductionHypothesis => exact inductionHypothesis (lasts.forget id held)
  · exact held

theorem Lasts.leftBehind (before after : Forest) (window id : WidgetId) (parent : Option WidgetId)
    (place : Rect) {damage : Damage} (held : holds damage) :
    holds (leftBehind before after window id parent place damage) := by
  rw [Application.leftBehind]
  split
  · exact lasts.askedIn _ _ _ _ held
  · exact lasts.forgotten _ _ _ (lasts.askedIn _ _ _ _ held)

omit lasts in
theorem EachWindow.mapped (each : app.EachWindow holds) {change : WidgetId → Damage → Damage}
    (windows : ∀ window,
      after.windows.find? window = (app.windows.find? window).map (change window))
    (kept : ∀ {window damage}, holds damage → holds (change window damage)) :
    after.EachWindow holds := by
  intro window damage found
  rw [windows, Option.map_eq_some_iff] at found
  obtain ⟨before, isBefore, rfl⟩ := found
  exact kept (each window before isBefore)

omit lasts in
/-- What an operation does that changes no window. -/
theorem EachWindow.carried (each : app.EachWindow holds) {changed : Application}
    (isAfter : after = changed) (windows : changed.windows = app.windows) :
    after.EachWindow holds :=
  fun window damage found => each window damage (windows ▸ isAfter ▸ found)

theorem Lasts.scheduleIn (each : app.EachWindow holds) (parent : Option WidgetId) (rect : Rect) :
    (app.scheduleIn parent rect).EachWindow holds :=
  each.mapped (fun _ => damage_scheduleIn parent rect) (lasts.askedIn _ _ _ _)

/-- What an operation does that changes no window before it makes a request. -/
theorem Lasts.requested (each : app.EachWindow holds) {changed : Application}
    {rect : Option Rect} (isAfter : after = changed.schedule id rect)
    (windows : changed.windows = app.windows) : after.EachWindow holds := by
  rw [isAfter]
  exact (each.carried rfl windows).mapped (fun _ => damage_schedule rect) (lasts.asked _ _ _ _)

/-- A widget that loses its parent becomes a new window; one that gets a parent is none any
more. -/
theorem Lasts.reparent (each : app.EachWindow holds) (newParent : Option WidgetId) :
    ((reparent id newParent).run app).2.EachWindow holds := by
  rcases reparent_after newParent with same | ⟨widget, moved, -, -, -, -, -, windows⟩
  · rw [same]
    exact each
  · intro window damage found
    rw [windows, Option.map_eq_some_iff] at found
    obtain ⟨damage, isLeft, rfl⟩ := found
    apply lasts.asked
    have left : ∀ {damage}, (app.windows.find? window).map (Application.leftBehind app.forest moved
        window id widget.parent widget.geometry) = some damage → holds damage := by
      intro damage isLeft
      obtain ⟨before, isBefore, rfl⟩ := Option.map_eq_some_iff.mp isLeft
      exact lasts.leftBehind _ _ _ _ _ _ (each window before isBefore)
    split at isLeft
    case isFalse => exact left isLeft
    case isTrue =>
      split at isLeft
      · exact Option.some_inj.mp isLeft ▸ lasts.new id
      · cases isLeft
      · exact left isLeft

theorem Lasts.destroyWidget (each : app.EachWindow holds) :
    ((destroyWidget id).run app).2.EachWindow holds := by
  rcases destroyWidget_after with same | ⟨widget, removed, left, -, -, -, -, -, windows⟩
  · rw [same]
    exact each
  · cases isParent : widget.parent with
    | some parent =>
        simp only [isParent] at windows
        exact each.mapped windows fun held => lasts.asked _ _ _ _ (lasts.forgotten _ _ _ held)
    | none =>
        simp only [isParent] at windows
        intro window damage found
        rw [windows] at found
        split at found
        · cases found
        · exact each window damage found

/-- Operations leave every window with a property that lasts. -/
theorem Lasts.change (each : app.EachWindow holds) (change : Change) :
    (change.apply app).EachWindow holds := by
  cases change with
  | setAppSheet text =>
      exact each.mapped (fun _ => damage_setAppSheet text) (lasts.requestUpdate _ _)
  | setWidgetSheet id text =>
      rcases setWidgetSheet_after text with same | ⟨home, -, after⟩
      · exact each.carried same rfl
      · exact lasts.requested each after rfl
  | createWindow widget =>
      intro window damage found
      rw [Change.apply, createWindow, Table.find?_insert] at found
      split at found
      · exact Option.some_inj.mp found ▸ lasts.requestUpdate _ _ (lasts.new _)
      · exact each window damage found
  | createWidget parent widget =>
      rcases createWidget_after parent widget with same | ⟨id, grown, -, after⟩
      · exact each.carried same rfl
      · exact lasts.requested each after rfl
  | reparent id newParent => exact lasts.reparent each newParent
  | destroyWidget id => exact lasts.destroyWidget each
  | setGeometry id geometry =>
      rcases setGeometry_after geometry with same | ⟨widget, -, after⟩
      · exact each.carried same rfl
      · exact lasts.requested (lasts.scheduleIn each widget.parent widget.geometry) after rfl
  | setVisible id visible =>
      rcases setVisible_after visible with same | ⟨widget, -, -, after⟩
      · exact each.carried same rfl
      · cases visible with
        | true => exact lasts.requested each after rfl
        | false =>
            exact (lasts.scheduleIn each widget.parent widget.geometry).carried after rfl
  | setOpaque id isOpaque =>
      rcases setOpaque_after isOpaque with same | ⟨widget, -, after⟩
      · exact each.carried same rfl
      · exact lasts.requested each after rfl
  | setText id text =>
      rcases setText_after text with same | ⟨widget, -, after⟩
      · exact each.carried same rfl
      · exact lasts.requested each after rfl
  | setPseudoState id mask =>
      rcases setPseudoState_after mask with same | ⟨widget, -, outcome⟩
      · exact each.carried same rfl
      · rcases outcome with ⟨-, after⟩ | ⟨-, after⟩ | after
        · exact each.carried after rfl
        · exact each.carried after rfl
        · exact lasts.requested each after rfl
  | advanceAnimation id =>
      rcases advanceAnimation_after with same | ⟨widget, -, after | after⟩
      · exact each.carried same rfl
      · exact each.carried after rfl
      · exact lasts.requested each after rfl
  | requestUpdate id rect =>
      rcases requestUpdate_after rect with same | after
      · exact each.carried same rfl
      · exact lasts.requested each after rfl

end Changes

end Application

end StyledWidgets
