/-
Module: StyledWidgets.Proofs.CleanWindows
Purpose: What a painting of a window leaves behind. In every state that operations can lead to,
  whatever is scheduled has a pixel, so a painting that succeeds leaves a clean window; one that
  fails leaves everything to the next one, which draws the same.
Main exports: Damage.Filled, Application.Reachable.filled, painting_repeatable
-/
import StyledWidgets.Proofs.PaintPasses
import StyledWidgets.Proofs.ScreenMarks

namespace StyledWidgets

open StyledWidgets.Style

/-! ### Orders have pixels -/

section Orders

variable {forest : Forest} {settings : RepaintSettings}

/-- Every order of a list asks for some pixel. -/
def OrdersFilled (orders : List (WidgetId × Region)) : Prop :=
  ∀ order ∈ orders, ∃ pixel : Point, pixel ∈ order.2

theorem ordersFilled_nil : OrdersFilled [] := List.forall_mem_nil _

theorem OrdersFilled.cons {order : WidgetId × Region} {later : List (WidgetId × Region)}
    (first : ∃ pixel : Point, pixel ∈ order.2) (rest : OrdersFilled later) :
    OrdersFilled (order :: later) := List.forall_mem_cons.mpr ⟨first, rest⟩

theorem OrdersFilled.append {first later : List (WidgetId × Region)} (filled : OrdersFilled first)
    (rest : OrdersFilled later) : OrdersFilled (first ++ later) :=
  List.forall_mem_append.mpr ⟨filled, rest⟩

theorem siblingOrders_filled (origin : Point) (siblings : List WidgetId) {behind : Region}
    (solid : behind.Solid) :
    (siblingOrders forest origin siblings behind).1.Solid ∧
      OrdersFilled (siblingOrders forest origin siblings behind).2 := by
  induction siblings generalizing behind with
  | nil => exact ⟨solid, ordersFilled_nil⟩
  | cons sibling lower inductionHypothesis =>
      simp only [siblingOrders]
      split
      case isTrue => exact inductionHypothesis solid
      case isFalse overlaps =>
        have shows : (if forest.isOpaque sibling = true then
            behind.subtractRect ((forest.geometry sibling).movedBy origin.x origin.y)
          else behind).Solid := by
          split
          · exact solid.subtractRect _
          · exact solid
        obtain ⟨solidRest, rest⟩ := inductionHypothesis shows
        refine ⟨solidRest, rest.cons ?_⟩
        rw [Bool.not_eq_true, Bool.or_eq_false_iff] at overlaps
        exact (Region.Solid.intersectRect _ _).exists_mem overlaps.2

theorem belowOrders_filled (level : Level) {behind : Region} (solid : behind.Solid) :
    (belowOrders forest settings level behind).1.Solid ∧
      OrdersFilled (belowOrders forest settings level behind).2 := by
  rw [belowOrders]
  split
  · exact ⟨solid, ordersFilled_nil⟩
  · exact siblingOrders_filled _ _ solid

theorem behindOrders_filled (levels : List Level) {behind : Region} (solid : behind.Solid) :
    OrdersFilled (behindOrders forest settings levels behind) := by
  induction levels generalizing behind with
  | nil => exact ordersFilled_nil
  | cons level outer inductionHypothesis =>
      obtain ⟨solidRest, siblings⟩ : (belowOrders forest settings level behind).1.Solid ∧ _ :=
        belowOrders_filled level solid
      simp only [behindOrders]
      split
      case isTrue => exact siblings
      case isFalse shows =>
        refine siblings.append (.cons (solidRest.exists_mem (Bool.eq_false_iff.mpr shows)) ?_)
        split
        · exact ordersFilled_nil
        · exact inductionHypothesis solidRest

theorem requestOrders_filled (root id : WidgetId) (rect : Option Rect) :
    OrdersFilled (requestOrders forest settings root id rect) := by
  rw [requestOrders]
  split
  · exact ordersFilled_nil
  · split
    · exact ordersFilled_nil
    · split
      case isTrue => exact ordersFilled_nil
      case isFalse filled =>
        rw [visibleOrders]
        cases arrived : climb forest settings (forest.levels (forest.path id))
            (Region.ofRect (requestedPart forest id rect)) [] with
        | none => exact ordersFilled_nil
        | some found =>
            obtain ⟨solid, part⟩ :=
              solid_climb _ (Region.Solid.ofRect _) (not_isEmpty_ofRect filled) arrived
            have seen : OrdersFilled ((found.2.map fun entry =>
                (entry.1, entry.2.intersectRegion found.1)).filter
                  fun entry => !entry.2.isEmpty) := by
              intro order member
              obtain ⟨mapped, shows⟩ := List.mem_filter.mp member
              obtain ⟨entry, -, rfl⟩ := List.mem_map.mp mapped
              exact (Region.Solid.intersectRegion _ _).exists_mem (by simpa using shows)
            refine ((seen.cons (solid.exists_mem part)).append ?_)
            split
            · exact ordersFilled_nil
            · exact behindOrders_filled _ solid

end Orders

/-! ### What is scheduled has pixels -/

namespace Damage

variable {damage : Damage} {forest : Forest} {settings : RepaintSettings}

/-- Every region that is scheduled has a pixel. -/
def Filled (damage : Damage) : Prop :=
  ∀ id region, damage.region? id = some region → ∃ pixel : Point, pixel ∈ region

theorem filled_new (root : WidgetId) : (new root).Filled := nofun

theorem filled_clear (damage : Damage) : damage.clear.Filled := nofun

theorem Filled.requestUpdate (filled : damage.Filled) (id : WidgetId) (rect : Option Rect) :
    (damage.requestUpdate id rect).Filled := filled

theorem Filled.forget (filled : damage.Filled) (id : WidgetId) : (damage.forget id).Filled := by
  intro other region found
  rw [region?, Damage.forget, Table.find?_erase] at found
  split at found
  case isTrue => cases found
  case isFalse => exact filled other region found

theorem Filled.scheduleAll (filled : damage.Filled) {orders : List (WidgetId × Region)}
    (ordersFilled : OrdersFilled orders) : (damage.scheduleAll forest settings orders).Filled := by
  induction orders generalizing damage with
  | nil => exact filled
  | cons order later inductionHypothesis =>
      obtain ⟨⟨pixel, inside⟩, rest⟩ := List.forall_mem_cons.mp ordersFilled
      rw [scheduleAll_cons]
      refine inductionHypothesis ?_ rest
      intro id region found
      rw [region?, schedule, Table.find?_insert] at found
      split at found
      case isFalse => exact filled id region found
      case isTrue =>
        rw [← Option.some_inj.mp found]
        exact ⟨pixel, Region.mem_simplify (Region.mem_unionRegion.mpr (Or.inr inside))⟩

theorem scheduleAll_pending (orders : List (WidgetId × Region)) :
    (damage.scheduleAll forest settings orders).pending = damage.pending := by
  induction orders generalizing damage with
  | nil => rfl
  | cons order later inductionHypothesis =>
      rw [scheduleAll_cons, inductionHypothesis]
      rfl

theorem compute_pending : (damage.compute forest settings).pending = ∅ := by
  rw [compute_eq_scheduleAll, scheduleAll_pending]

theorem Filled.compute (filled : damage.Filled) : (damage.compute forest settings).Filled := by
  rw [compute_eq_scheduleAll]
  apply Filled.scheduleAll
  · exact filled
  · intro order member
    obtain ⟨request, -, isOrder⟩ := List.mem_flatMap.mp member
    exact requestOrders_filled _ _ _ order isOrder

/-- Where everything that is scheduled has a pixel, there is nothing to paint only if nothing is
scheduled. -/
theorem Filled.isEmpty_scheduled (filled : damage.Filled)
    (idle : damage.dirtyRegion.isEmpty = true) : damage.scheduled.isEmpty = true := by
  by_contra waiting
  obtain ⟨id, isKey⟩ : ∃ id, id ∈ damage.scheduled.keys := by
    apply List.exists_mem_of_ne_nil
    rwa [Table.keys, ne_eq, List.map_eq_nil_iff, ← List.isEmpty_iff]
  obtain ⟨region, found⟩ := Table.mem_keys_iff.mp isKey
  obtain ⟨pixel, inside⟩ := filled id region found
  exact Region.not_mem_of_isEmpty idle pixel (mem_dirtyRegion ⟨region, found, inside⟩)

/-- A painting that succeeds leaves a clean window if nothing has been asked for in between. -/
theorem Filled.isClean_paint (filled : damage.Filled) (asked : damage.pending = ∅) {σ : Type}
    (backend : Backend σ) (maxAttempts : Nat) (state : PaintState σ) {report : PaintReport}
    (painted : (damage.paint forest backend maxAttempts state).1 = .ok report) :
    (damage.paint forest backend maxAttempts state).2.1.isClean = true := by
  cases idle : damage.dirtyRegion.isEmpty with
  | true =>
      rw [paint, if_pos idle, isClean, asked, filled.isEmpty_scheduled idle]
      rfl
  | false =>
      obtain ⟨stylist, before⟩ := state
      obtain ⟨passes, outcome, after, final, plain, -, paints, -⟩ :=
        paint_logs backend maxAttempts before idle
      rw [plain] at painted ⊢
      obtain ⟨scheduled, -, pending⟩ := paints.clears report painted
      simp only [isClean, scheduled, pending, asked]
      rfl

end Damage

/-! ### Windows -/

namespace Application

variable {app after : Application} {id : WidgetId} {holds : Damage → Prop}

theorem lasts_filled : Lasts Damage.Filled where
  new := Damage.filled_new
  requestUpdate id rect filled := filled.requestUpdate id rect
  forget id filled := filled.forget id

section Painting

variable {σ : Type} (backend : Backend σ)

/-- A painting of a window changes no other window. -/
theorem EachWindow.filled_paintWindow (each : app.EachWindow Damage.Filled) (window : WidgetId)
    (state : σ) : (app.paintWindow backend window state).2.1.EachWindow Damage.Filled := by
  rcases paintWindow_after backend window state with same | ⟨damage, isDamage, after⟩
  · exact each.carried same rfl
  · rw [after]
    intro other painted found
    rw [Table.find?_insert] at found
    split at found
    case isFalse => exact each other painted found
    case isTrue =>
      rw [← Option.some_inj.mp found]
      rcases Damage.paint_damage backend (damage.compute app.forest app.settings.repaint)
        app.settings.retry.maxAttempts ⟨app.stylist, state⟩ with kept | cleared
      · rw [kept]
        exact (each window damage isDamage).compute
      · rw [cleared]
        exact Damage.filled_clear _

/-- In every state that operations can lead to, whatever is scheduled in a window has a pixel. -/
theorem Reachable.filled (reachable : app.Reachable) : app.EachWindow Damage.Filled := by
  induction reachable with
  | new settings => exact nofun
  | change change _ each => exact lasts_filled.change each change
  | @widgetStyle app id _ each =>
      rw [widgetStyle_run]
      cases app.forest.get? id with
      | none => exact each
      | some widget => exact each.carried rfl rfl
  | probeStyle typeName objectName mask _ each => exact each.carried rfl rfl
  | paintWindow backend window state _ each => exact each.filled_paintWindow backend window state
  | paintAll backend state _ each =>
      exact paintEach_induction backend (motive := fun app => app.EachWindow Damage.Filled)
        (fun _ window state each => each.filled_paintWindow backend window state) _ _ state each

/-- A window that has been painted is clean, and no other window has changed. -/
theorem EachWindow.isClean_paintWindow (each : app.EachWindow Damage.Filled) {window : WidgetId}
    {state : σ} {report : PaintReport}
    (painted : (app.paintWindow backend window state).1 = .ok report) :
    ∃ damage, damage.isClean = true ∧ ∀ other,
      (app.paintWindow backend window state).2.1.windows.find? other =
        if window = other then some damage else app.windows.find? other := by
  cases isWindow : app.windows.find? window with
  | none =>
      rw [paintWindow, isWindow] at painted
      cases painted
  | some damage =>
      simp only [paintWindow, isWindow] at painted ⊢
      refine ⟨_, ?_, fun other => Table.find?_insert ..⟩
      split at painted
      case h_1 succeeds =>
        exact (each window damage isWindow).compute.isClean_paint Damage.compute_pending backend _ _
          succeeds
      case h_2 => cases painted

/-- Painting windows one after the other leaves them clean if it succeeds. -/
theorem EachWindow.isClean_paintEach (windows : List WidgetId) :
    ∀ {app : Application} {state : σ} {reports : List (WidgetId × PaintReport)},
      app.EachWindow Damage.Filled →
        (∀ window damage, app.windows.find? window = some damage →
          damage.isClean = true ∨ window ∈ windows) →
        (paintEach backend windows app state).1 = .ok reports →
          (paintEach backend windows app state).2.1.EachWindow (·.isClean = true) := by
  induction windows with
  | nil =>
      intro app state reports _ rest _ window damage found
      exact (rest window damage found).resolve_right List.not_mem_nil
  | cons window later inductionHypothesis =>
      intro app state reports each rest painted
      have eachAfter := each.filled_paintWindow backend window state
      have first : ∀ report, (app.paintWindow backend window state).1 = .ok report → _ :=
        fun _ => each.isClean_paintWindow backend
      rw [paintEach] at painted ⊢
      generalize app.paintWindow backend window state = outcome at painted first eachAfter ⊢
      obtain ⟨failure | report, after, stateAfter⟩ := outcome
      · cases painted
      · obtain ⟨clean, isClean, windows⟩ := first report rfl
        have restAfter : ∀ other damage, after.windows.find? other = some damage →
            damage.isClean = true ∨ other ∈ later := by
          intro other damage found
          rw [windows] at found
          split at found
          case isTrue => exact Or.inl (Option.some_inj.mp found ▸ isClean)
          case isFalse apart =>
            exact (rest other damage found).imp_right fun member =>
              (List.mem_cons.mp member).resolve_left (Ne.symm apart)
        have further := @inductionHypothesis after stateAfter
        simp only at painted ⊢
        generalize paintEach backend later after stateAfter = outcome at painted further ⊢
        obtain ⟨failure | reports, last, final⟩ := outcome
        · cases painted
        · exact further eachAfter restAfter rfl

theorem EachWindow.isClean_paintAll (each : app.EachWindow Damage.Filled) {state : σ}
    {reports : List (WidgetId × PaintReport)}
    (painted : (app.paintAll backend state).1 = .ok reports) :
    (app.paintAll backend state).2.1.EachWindow (·.isClean = true) := by
  refine isClean_paintEach backend _ each (fun window damage found => ?_) painted
  cases clean : damage.isClean with
  | true => exact Or.inl rfl
  | false =>
      right
      rw [List.mem_filter, windowIds, List.mem_mergeSort, Table.mem_keys_iff, found]
      exact ⟨⟨damage, rfl⟩, by simp [clean]⟩

end Painting

end Application

/-! ### Painting -/

/-- A painting of something scheduled makes passes that all follow one list of draw commands, for
which only the widgets, the scheduled regions and the styles matter, and which is the same again
for the next painting. What the backend has been asked for is noted in its log: the passes one after
the other, with the resources recreated between any two of them. Where an application has painted a
window or all of them with success, nothing waits to be painted there. -/
theorem painting_repeatable :
    (∀ (damage : Damage) (forest : Forest) (stylist : Stylist),
      damage.dirtyRegion.isEmpty = false →
        (∀ other : Damage, other.root = damage.root → other.scheduled = damage.scheduled →
          Damage.SameMarks forest damage other →
            other.commands forest stylist = damage.commands forest stylist) ∧
        ∀ {σ : Type} (backend : Backend σ) (maxAttempts : Nat) (state : σ),
          ∃ passes outcome after final,
            damage.paint forest backend maxAttempts ⟨stylist, state⟩ = (outcome, after, final) ∧
            damage.paint forest backend.logged maxAttempts ⟨stylist, state, []⟩ =
              (outcome, after, final.withLog
                ([PaintEvent.recreated].intercalate
                  (passes.map (Pass.events damage.dirtyRegion)))) ∧
            Painted damage (damage.commands forest stylist) (max 1 maxAttempts) passes outcome
              after ∧
            damage.commands forest final.stylist = damage.commands forest stylist) ∧
    ∀ (app : Application), app.Reachable → ∀ {σ : Type} (backend : Backend σ) (state : σ),
      (∀ window report, (app.paintWindow backend window state).1 = .ok report →
        ∃ damage, (app.paintWindow backend window state).2.1.windows.find? window = some damage ∧
          damage.isClean = true) ∧
      ∀ reports, (app.paintAll backend state).1 = .ok reports →
        ∀ window damage, (app.paintAll backend state).2.1.windows.find? window = some damage →
          damage.isClean = true := by
  refine ⟨fun damage forest stylist waits => ⟨fun other root scheduled marks => ?_,
    fun backend maxAttempts state => ?_⟩, fun app reachable σ backend state =>
      ⟨fun window report painted => ?_, fun reports painted => ?_⟩⟩
  · exact Damage.commands_congr root scheduled marks
  · exact Damage.paint_logs backend maxAttempts state waits
  · obtain ⟨damage, isClean, windows⟩ := reachable.filled.isClean_paintWindow backend painted
    exact ⟨damage, (windows window).trans (if_pos rfl), isClean⟩
  · exact reachable.filled.isClean_paintAll backend painted

/-- A window with a label that has never been painted. -/
def unpaintedLabel : Application :=
  let window := Application.Change.apply (.new {})
    (.createWindow { typeName := "Window", geometry := ⟨0, 0, 100, 100⟩ })
  Application.Change.apply window
    (.createWidget ⟨0⟩ { typeName := "Label", geometry := ⟨0, 0, 20, 10⟩ })

theorem unpaintedLabel_reachable : unpaintedLabel.Reachable := by
  unfold unpaintedLabel
  exact .change _ (.change _ (.new {}))

/-- What is scheduled of the window. -/
def labelDamage : Damage :=
  ((Damage.new ⟨0⟩).requestUpdate ⟨0⟩ none).compute unpaintedLabel.forest {}

/-- A backend that counts draw commands and loses the device at the second of them. -/
def lossyBackend : Backend Nat where
  start _ := pure (.ok ())
  draw _ := fun drawn => (if drawn = 1 then .error .deviceLost else .ok (), drawn + 1)
  finish := pure (.ok ())
  recreate := pure ()

/-- The window and its label are drawn by the second pass, after the first has drawn both of them
in vain. -/
theorem painting_repeatable_lossyBackend :
    labelDamage.dirtyRegion.isEmpty = false ∧ unpaintedLabel.Reachable ∧
    (∃ passes outcome after final,
      labelDamage.paint unpaintedLabel.forest lossyBackend 3 ⟨unpaintedLabel.stylist, 0⟩ =
        (outcome, after, final) ∧
      outcome = .ok ⟨2, ⟨0, 0, 100, 100⟩⟩ ∧ final.backend = 4 ∧
      Painted labelDamage (labelDamage.commands unpaintedLabel.forest unpaintedLabel.stylist) 3
        passes outcome after ∧
      labelDamage.commands unpaintedLabel.forest final.stylist =
        labelDamage.commands unpaintedLabel.forest unpaintedLabel.stylist) ∧
    ∃ damage,
      (unpaintedLabel.paintWindow lossyBackend ⟨0⟩ 0).2.1.windows.find? ⟨0⟩ = some damage ∧
        damage.isClean = true := by
  have waits : labelDamage.dirtyRegion.isEmpty = false := by decide +kernel
  have drawn : (labelDamage.paint unpaintedLabel.forest lossyBackend 3
      ⟨unpaintedLabel.stylist, 0⟩).1 = .ok ⟨2, ⟨0, 0, 100, 100⟩⟩ := by decide +kernel
  have counted : (labelDamage.paint unpaintedLabel.forest lossyBackend 3
      ⟨unpaintedLabel.stylist, 0⟩).2.2.backend = 4 := by decide +kernel
  have painted : (unpaintedLabel.paintWindow lossyBackend ⟨0⟩ 0).1 =
      .ok ⟨2, ⟨0, 0, 100, 100⟩⟩ := by decide +kernel
  obtain ⟨painting, windows⟩ := painting_repeatable
  obtain ⟨-, paints⟩ := painting labelDamage unpaintedLabel.forest unpaintedLabel.stylist waits
  obtain ⟨passes, outcome, after, final, plain, -, follows, again⟩ := paints lossyBackend 3 0
  rw [plain] at drawn counted
  exact ⟨waits, unpaintedLabel_reachable,
    ⟨passes, outcome, after, final, plain, drawn, counted, follows, again⟩,
    (windows unpaintedLabel unpaintedLabel_reachable lossyBackend 0).1 ⟨0⟩ _ painted⟩

end StyledWidgets
