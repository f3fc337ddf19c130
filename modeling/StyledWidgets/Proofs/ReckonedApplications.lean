/-
Module: StyledWidgets.Proofs.ReckonedApplications
Purpose: The operations and the paintings of an application reckoned with on words are those of
  exact numbers unless a word overflows. So no change on the screen is lost as long as none does;
  where one does, a change can be lost.
Main exports: Application.reckonChange, Application.reckonRun, Application.reckonChange_yields,
  Application.reckonPaintWindow_yields, Application.reckonPaintAll_yields,
  Application.ReachedOnWords, Application.ReachedOnWords.changes_redrawn
-/
import Mathlib.Data.List.Infix
import StyledWidgets.Proofs.ReckonedPainting
import StyledWidgets.Proofs.ScreenUpdate
import StyledWidgets.ReckonedApplication

namespace StyledWidgets

open Reckoned ReckonedM

variable {app : Application} {id : WidgetId}

/-! ### Changes that reckon -/

theorem ReckonedAppM.alter_follows {change : Application → Reckoned Application}
    {exact : Application → Application} (each : ∀ app, (change app).Yields (exact app)) :
    (ReckonedAppM.alter change).Follows (modify exact) :=
  fun app => (each app).map fun app => (Except.ok (), app)

open ReckonedAppM

namespace Application

theorem reckonSchedule_yields {rect : Option Rect} :
    (app.reckonSchedule id rect).Yields (app.schedule id rect) := by
  rw [reckonSchedule, schedule]
  cases app.forest.windowOf? id with
  | none => exact .pure _
  | some window =>
      simp only [Table.modify]
      cases app.windows.find? window with
      | none => exact .pure _
      | some damage => exact Damage.reckonRequestUpdate_yields.map _

/-- A request for a whole widget needs no numbers, nor does an operation that asks for no other. -/
theorem reckonSchedule_none : app.reckonSchedule id none = pure (app.schedule id none) := by
  rw [reckonSchedule, schedule]
  cases app.forest.windowOf? id with
  | none => rfl
  | some window =>
      simp only [Table.modify]
      cases app.windows.find? window with
      | none => rfl
      | some damage => simp only [Damage.reckonRequestUpdate_none, pure_bind]

theorem reckonScheduleIn_yields {parent : Option WidgetId} {rect : Rect} :
    (app.reckonScheduleIn parent rect).Yields (app.scheduleIn parent rect) := by
  cases parent with
  | none => exact .pure _
  | some parent => exact reckonSchedule_yields

/-! ### Operations -/

theorem reckonReparent_follows (newParent : Option WidgetId) :
    (reckonReparent id newParent).Follows (reparent id newParent) := by
  refine Follows.bind (.carry _) fun widget => ?_
  refine Follows.bind (.carry _) fun before => ?_
  refine Follows.bind (.carry _) fun app => ?_
  refine Follows.bind (.carry _) fun forest => ?_
  exact Follows.bind (alter_follows fun _ => reckonScheduleIn_yields) fun _ => .carry (modify _)

theorem reckonDestroyWidget_follows : (reckonDestroyWidget id).Follows (destroyWidget id) := by
  refine Follows.bind (.carry _) fun widget => ?_
  refine Follows.bind (.carry _) fun before => ?_
  refine Follows.bind (.carry _) fun app => ?_
  refine Follows.bind (.carry _) fun (removed, forest) => ?_
  refine Follows.bind (alter_follows fun app => ?_) fun _ => .pure removed
  cases widget.parent with
  | none => exact .pure _
  | some parent => exact reckonSchedule_yields

theorem reckonSetGeometry_follows (geometry : Rect) :
    (reckonSetGeometry id geometry).Follows (setGeometry id geometry) := by
  refine Follows.bind (.carry _) fun widget => ?_
  split
  · exact .pure _
  · exact Follows.bind (alter_follows fun _ => reckonScheduleIn_yields) fun _ => .carry _

theorem reckonSetVisible_follows (visible : Bool) :
    (reckonSetVisible id visible).Follows (setVisible id visible) := by
  refine Follows.bind (.carry _) fun widget => ?_
  split
  · exact .pure _
  · cases visible with
    | true => exact .carry _
    | false => exact Follows.bind (alter_follows fun _ => reckonScheduleIn_yields) fun _ => .carry _

theorem reckonRequestUpdate_follows (rect : Option Rect) :
    (reckonRequestUpdate id rect).Follows (requestUpdate id rect) := by
  refine Follows.bind (.carry _) fun widget => ?_
  exact alter_follows fun _ => reckonSchedule_yields

/-- The application after an operation, whether or not it has failed. -/
def reckonChange (app : Application) : Change → Reckoned Application
  | .reparent id newParent => do return (← (reckonReparent id newParent).run app).2
  | .destroyWidget id => do return (← (reckonDestroyWidget id).run app).2
  | .setGeometry id geometry => do return (← (reckonSetGeometry id geometry).run app).2
  | .setVisible id visible => do return (← (reckonSetVisible id visible).run app).2
  | .requestUpdate id rect => do return (← (reckonRequestUpdate id rect).run app).2
  -- The others ask for whole widgets at most, and such requests need no numbers.
  | change => return change.apply app

theorem reckonChange_yields (change : Change) :
    (app.reckonChange change).Yields (change.apply app) := by
  cases change with
  | reparent id newParent => exact Yields.map (reckonReparent_follows newParent app) _
  | destroyWidget id => exact Yields.map (reckonDestroyWidget_follows app) _
  | setGeometry id geometry => exact Yields.map (reckonSetGeometry_follows geometry app) _
  | setVisible id visible => exact Yields.map (reckonSetVisible_follows visible app) _
  | requestUpdate id rect => exact Yields.map (reckonRequestUpdate_follows rect app) _
  | _ => exact .pure _

/-- The application after operations one after the other. -/
def reckonRun (app : Application) (changes : List Change) : Reckoned Application :=
  changes.foldlM reckonChange app

theorem reckonRun_yields (changes : List Change) :
    (app.reckonRun changes).Yields (app.run changes) :=
  .foldlM (fun _ => reckonChange_yields) _ _

/-! ### Painting -/

variable {σ : Type} {backend : Backend σ}

theorem reckonPaintWindow_yields (window : WidgetId) (state : σ) :
    (app.reckonPaintWindow backend window state).Yields (app.paintWindow backend window state) := by
  rw [reckonPaintWindow, paintWindow]
  cases app.windows.find? window with
  | none => exact .pure _
  | some damage =>
      refine Damage.reckonCompute_yields.bind ((Damage.reckonPaint_yields _ _).bind ?_)
      simp only
      rcases (damage.compute app.forest app.settings.repaint).paint app.forest backend
        app.settings.retry.maxAttempts ⟨app.stylist, state⟩ with ⟨failure | report, left, after⟩
      · exact .pure _
      · exact .pure _

theorem reckonPaintEach_yields (windows : List WidgetId) :
    ∀ (app : Application) (state : σ),
      (reckonPaintEach backend windows app state).Yields (paintEach backend windows app state) := by
  induction windows with
  | nil => exact fun _ _ => .pure _
  | cons window later inductionHypothesis =>
      intro app state
      rw [reckonPaintEach, paintEach]
      refine (reckonPaintWindow_yields window state).bind ?_
      rcases app.paintWindow backend window state with ⟨failure | report, painted, after⟩
      · exact .pure _
      · refine (inductionHypothesis painted after).bind ?_
        simp only
        rcases paintEach backend later painted after with ⟨failure | reports, last, final⟩
        · exact .pure _
        · exact .pure _

theorem reckonPaintAll_yields (state : σ) :
    (app.reckonPaintAll backend state).Yields (app.paintAll backend state) :=
  reckonPaintEach_yields _ _ _

/-! ### Applications reached without an overflow -/

/-- The applications that operations can lead to, whether they succeed or fail, as long as no word
overflows. -/
inductive ReachedOnWords : Application → Prop
  | new (settings : Settings) : ReachedOnWords (new settings)
  | change {app : Application} (change : Change)
      (fits : (app.reckonChange change).overflowed = false) :
      ReachedOnWords app → ReachedOnWords (app.reckonChange change).value
  | widgetStyle {app : Application} (id : WidgetId) :
      ReachedOnWords app → ReachedOnWords ((widgetStyle id).run app).2
  | probeStyle {app : Application} (typeName objectName : String) (mask : Sheet.PseudoMask) :
      ReachedOnWords app → ReachedOnWords (app.probeStyle typeName objectName mask).2
  | paintWindow {app : Application} {σ : Type} (backend : Backend σ) (window : WidgetId) (state : σ)
      (fits : (app.reckonPaintWindow backend window state).overflowed = false) :
      ReachedOnWords app → ReachedOnWords (app.reckonPaintWindow backend window state).value.2.1
  | paintAll {app : Application} {σ : Type} (backend : Backend σ) (state : σ)
      (fits : (app.reckonPaintAll backend state).overflowed = false) :
      ReachedOnWords app → ReachedOnWords (app.reckonPaintAll backend state).value.2.1

namespace ReachedOnWords

theorem reachable (reached : app.ReachedOnWords) : app.Reachable := by
  induction reached with
  | new settings => exact .new settings
  | change change fits _ exact =>
      rw [reckonChange_yields change fits]
      exact exact.change change
  | widgetStyle id _ exact => exact exact.widgetStyle id
  | probeStyle typeName objectName mask _ exact => exact exact.probeStyle typeName objectName mask
  | paintWindow backend window state fits _ exact =>
      rw [reckonPaintWindow_yields window state fits]
      exact exact.paintWindow backend window state
  | paintAll backend state fits _ exact =>
      rw [reckonPaintAll_yields state fits]
      exact exact.paintAll backend state

variable {after painted : Application} {window : WidgetId} {damage : Damage}

/-- Once a window is clean, no change of what is seen in it is lost as long as no word overflows:
after any operations during which it stays a window, the next painting that succeeds draws, at every
pixel where the window shows something else than before, all that is seen there now, and nothing
after it. -/
theorem changes_redrawn (reached : app.ReachedOnWords)
    (isWindow : app.windows.find? window = some damage) (clean : damage.isClean = true)
    (changes : List Change) (runs : app.reckonRun changes = ⟨after, false⟩)
    (stays : ∀ done, done <+: changes → (app.reckonRun done).value.windows.contains window = true)
    (apart : after.forest.NeverOverlapping after.settings.repaint)
    {σ : Type} (backend : Backend σ) (state last : σ × List DrawCommand) {report : PaintReport}
    (paints : after.reckonPaintWindow backend.watched window state =
      ⟨(.ok report, painted, last), false⟩)
    (pixel : Point) (changed : app.visibleStack window pixel ≠ after.visibleStack window pixel) :
    after.visibleStack window pixel <:+ after.drawnLayers last.2 pixel := by
  have exact : app.run changes = after := (reckonRun_yields changes).eq runs
  have fits : (app.reckonRun changes).overflowed = false := congrArg Reckoned.overflowed runs
  have drawn := (reckonPaintWindow_yields window state).eq paints
  have staysExactly : ∀ done, done <+: changes →
      (app.run done).windows.contains window = true := by
    rintro done ⟨later, rfl⟩
    rw [reckonRun, List.foldlM_append, overflowed_bind, Bool.or_eq_false_iff] at fits
    rw [← reckonRun_yields done fits.1]
    exact stays done ⟨later, rfl⟩
  subst exact
  have suffix := reached.reachable.changes_repainted isWindow clean changes staysExactly apart
    backend state (congrArg Prod.fst drawn) pixel changed
  rwa [drawn] at suffix

end ReachedOnWords

/-- A label in a window that has been painted. -/
def paintedLabel : Application :=
  let window := ((new {}).reckonChange
    (.createWindow { typeName := "Window", geometry := ⟨0, 0, 100, 100⟩ })).value
  let label := (window.reckonChange
    (.createWidget ⟨0⟩ { typeName := "Label", geometry := ⟨0, 0, 20, 10⟩ })).value
  (label.reckonPaintWindow countingBackend ⟨0⟩ 0).value.2.1

/-- The label is moved away from where it was painted, and its text is set there. -/
def labelChanges : List Change :=
  [.setGeometry ⟨1⟩ ⟨50, 50, 20, 10⟩, .setText ⟨1⟩ "Ready"]

theorem paintedLabel_reached : paintedLabel.ReachedOnWords := by
  unfold paintedLabel
  refine .paintWindow countingBackend ⟨0⟩ 0 (by decide +kernel) ?_
  exact .change _ rfl (.change _ rfl (.new {}))

/-- Where a label has been moved away, the window is drawn once more. -/
theorem changes_redrawn_labelChanges :
    let after := (paintedLabel.reckonRun labelChanges).value
    let painting := after.reckonPaintWindow countingBackend.watched ⟨0⟩ (0, [])
    ∃ damage, paintedLabel.ReachedOnWords ∧ paintedLabel.windows.find? ⟨0⟩ = some damage ∧
      damage.isClean = true ∧ (paintedLabel.reckonRun labelChanges).overflowed = false ∧
      (∀ done, done <+: labelChanges →
        (paintedLabel.reckonRun done).value.windows.contains ⟨0⟩ = true) ∧
      after.forest.NeverOverlapping after.settings.repaint ∧
      (∃ report, painting.value.1 = .ok report) ∧ painting.overflowed = false ∧
      paintedLabel.visibleStack ⟨0⟩ ⟨5, 5⟩ ≠ after.visibleStack ⟨0⟩ ⟨5, 5⟩ ∧
      after.visibleStack ⟨0⟩ ⟨5, 5⟩ <:+ after.drawnLayers painting.value.2.2.2 ⟨5, 5⟩ := by
  intro after painting
  have stays : ∀ done ∈ labelChanges.inits,
      (paintedLabel.reckonRun done).value.windows.contains ⟨0⟩ = true := by decide +kernel
  have runs : paintedLabel.reckonRun labelChanges = ⟨after, false⟩ :=
    Reckoned.ext rfl (by decide +kernel)
  have apart : after.forest.NeverOverlapping after.settings.repaint :=
    Forest.neverOverlapping_of_unflagged (by decide +kernel) _
  have drawn : painting.value.1 = .ok ⟨2, ⟨0, 0, 70, 60⟩⟩ := by decide +kernel
  have fits : painting.overflowed = false := by decide +kernel
  have paints : painting =
      ⟨(.ok ⟨2, ⟨0, 0, 70, 60⟩⟩, painting.value.2.1, painting.value.2.2), false⟩ :=
    Reckoned.ext (Prod.ext drawn Prod.mk.eta.symm) fits
  have changed : paintedLabel.visibleStack ⟨0⟩ ⟨5, 5⟩ ≠ after.visibleStack ⟨0⟩ ⟨5, 5⟩ := by
    intro same
    have two : (paintedLabel.visibleStack ⟨0⟩ ⟨5, 5⟩).length = 2 := by decide +kernel
    have one : (after.visibleStack ⟨0⟩ ⟨5, 5⟩).length = 1 := by decide +kernel
    rw [same, one] at two
    cases two
  have isWindow : paintedLabel.windows.find? ⟨0⟩ = some (.new ⟨0⟩) := by decide +kernel
  have staysAlways := fun done isPrefix => stays done ((List.mem_inits done _).mpr isPrefix)
  exact ⟨_, paintedLabel_reached, isWindow, rfl, congrArg Reckoned.overflowed runs, staysAlways,
    apart, ⟨_, drawn⟩, fits, changed,
    paintedLabel_reached.changes_redrawn isWindow rfl labelChanges runs staysAlways apart
      countingBackend (0, []) _ paints ⟨5, 5⟩ changed⟩

/-- A window with the wide strips in it, which has been painted. -/
def paintedStrips : Application :=
  let window := ((new {}).reckonChange
    (.createWindow { typeName := "Window", geometry := ⟨0, 0, 100, 100⟩ })).value
  let strips := (window.reckonRun (Damage.wideStrips.map fun strip =>
    .createWidget ⟨0⟩ { typeName := "Strip", geometry := strip })).value
  (strips.reckonPaintWindow countingBackend ⟨0⟩ 0).value.2.1

/-- The strips are hidden one after the other. -/
def stripChanges : List Change :=
  [.setVisible ⟨1⟩ false, .setVisible ⟨2⟩ false, .setVisible ⟨3⟩ false]

/-- What the window is asked for overflows, and nothing is painted where the first strip has been. -/
theorem changes_redrawn_stripChanges :
    let after := (paintedStrips.reckonRun stripChanges).value
    let painting := after.reckonPaintWindow countingBackend.watched ⟨0⟩ (0, [])
    ∃ damage, paintedStrips.ReachedOnWords ∧ paintedStrips.windows.find? ⟨0⟩ = some damage ∧
      damage.isClean = true ∧
      (∀ done, done <+: stripChanges →
        (paintedStrips.reckonRun done).value.windows.contains ⟨0⟩ = true) ∧
      after.forest.NeverOverlapping after.settings.repaint ∧
      (∃ report, painting.value.1 = .ok report) ∧
      paintedStrips.visibleStack ⟨0⟩ ⟨5, 5⟩ ≠ after.visibleStack ⟨0⟩ ⟨5, 5⟩ ∧
      ¬after.visibleStack ⟨0⟩ ⟨5, 5⟩ <:+ after.drawnLayers painting.value.2.2.2 ⟨5, 5⟩ ∧
      (paintedStrips.reckonRun stripChanges).overflowed = true := by
  intro after painting
  have reached : paintedStrips.ReachedOnWords := by
    unfold paintedStrips
    refine .paintWindow countingBackend ⟨0⟩ 0 (by decide +kernel) ?_
    exact .change _ rfl (.change _ rfl (.change _ rfl (.change _ rfl (.new {}))))
  have stays : ∀ done ∈ stripChanges.inits,
      (paintedStrips.reckonRun done).value.windows.contains ⟨0⟩ = true := by decide +kernel
  have apart : after.forest.NeverOverlapping after.settings.repaint :=
    Forest.neverOverlapping_of_unflagged (by decide +kernel) _
  have drawn : painting.value.1 = .ok ⟨1, ⟨20, 0, 1, 1⟩⟩ := by decide +kernel
  have two : (paintedStrips.visibleStack ⟨0⟩ ⟨5, 5⟩).length = 2 := by decide +kernel
  have one : (after.visibleStack ⟨0⟩ ⟨5, 5⟩).length = 1 := by decide +kernel
  have isWindow : paintedStrips.windows.find? ⟨0⟩ = some (.new ⟨0⟩) := by decide +kernel
  refine ⟨_, reached, isWindow, rfl, fun done isPrefix =>
    stays done ((List.mem_inits done _).mpr isPrefix), apart, ⟨_, drawn⟩, fun same => ?_,
    fun suffix => ?_, by decide +kernel⟩
  · rw [same, one] at two
    cases two
  · have undrawn : after.drawnLayers painting.value.2.2.2 ⟨5, 5⟩ = [] := by decide +kernel
    rw [undrawn, List.suffix_nil] at suffix
    rw [suffix] at one
    cases one

end Application

end StyledWidgets
