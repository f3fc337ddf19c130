/-
Module: StyledWidgets.Proofs.ScreenMarks
Purpose: Marks above scheduled widgets can outlive what was scheduled, and marking ends at them. In
  every state that operations can lead to, a window with marks is shown nowhere or has a pixel that
  waits to be repainted, so a clean window that is shown has none.
Main exports: Damage.MarksWait, Damage.asked_compute, Application.Reachable.marksWait
-/
import StyledWidgets.Proofs.PartialRepaint
import StyledWidgets.Proofs.ScreenChanges
import StyledWidgets.Proofs.WindowChanges

namespace StyledWidgets

variable {forest : Forest} {settings : RepaintSettings} {pixel : Point}

/-! ### Orders ask for pixels -/

theorem solid_hideBehind {above : List WidgetId} {region : Region} (solid : region.Solid) :
    (hideBehind forest above region).Solid := by
  rw [hideBehind]
  generalize above.filter _ = covers
  induction covers generalizing region with
  | nil => exact solid
  | cons sibling later inductionHypothesis => exact inductionHypothesis (solid.subtractRect _)

/-- What arrives at the window holds a rectangle, and none that is empty. -/
theorem solid_climb (levels : List Level) :
    ∀ {region : Region} {noted : List (WidgetId × Region)}
      {found : Region × List (WidgetId × Region)}, region.Solid → region.isEmpty = false →
        climb forest settings levels region noted = some found →
          found.1.Solid ∧ found.1.isEmpty = false := by
  induction levels with
  | nil =>
      intro region noted found solid filled arrived
      rw [climb, Option.some_inj] at arrived
      rw [← arrived]
      exact ⟨solid, filled⟩
  | cons level outer inductionHypothesis =>
      intro region noted found solid filled arrived
      rw [climb] at arrived
      have clipped := Region.Solid.intersectRect
        (region.movedBy (forest.geometry level.child).x (forest.geometry level.child).y)
        (forest.geometry level.parent).atOrigin
      simp only at arrived
      split at arrived
      case isTrue => cases arrived
      case isFalse stillFilled =>
        split at arrived
        case isTrue => exact inductionHypothesis clipped (Bool.eq_false_iff.mpr stillFilled) arrived
        case isFalse =>
          split at arrived
          case isTrue => cases arrived
          case isFalse uncovered =>
            exact inductionHypothesis (solid_hideBehind clipped) (Bool.eq_false_iff.mpr uncovered)
              arrived

theorem not_isEmpty_ofRect {rect : Rect} (filled : ¬rect.isEmpty = true) :
    (Region.ofRect rect).isEmpty = false := by
  obtain ⟨pixel, inside⟩ := Classical.not_forall.mp (mt Rect.isEmpty_iff.mpr filled)
  exact Region.not_isEmpty_of_mem (Region.mem_ofRect.mpr (Classical.not_not.mp inside))

/-- A request that asks for anything asks for a pixel of its widget. -/
theorem exists_orderedAt {root id : WidgetId} {rect : Option Rect}
    (some : requestOrders forest settings root id rect ≠ []) :
    ∃ pixel, orderedAt (requestOrders forest settings root id rect) pixel id := by
  rw [requestOrders] at some ⊢
  split at some
  case isTrue => exact absurd rfl some
  case isFalse top =>
    rw [if_neg top]
    split at some
    case isTrue => exact absurd rfl some
    case isFalse shown =>
      rw [if_neg shown]
      split at some
      case isTrue => exact absurd rfl some
      case isFalse filled =>
        rw [if_neg filled]
        rw [visibleOrders] at some ⊢
        cases arrived : climb forest settings (forest.levels (forest.path id))
            (Region.ofRect (requestedPart forest id rect)) [] with
        | none =>
            rw [arrived] at some
            exact absurd rfl some
        | some found =>
            obtain ⟨solid, part⟩ :=
              solid_climb _ (Region.Solid.ofRect _) (not_isEmpty_ofRect filled) arrived
            obtain ⟨pixel, inside⟩ := solid.exists_mem part
            exact ⟨pixel, found.1, List.mem_cons_self .., inside⟩

namespace Damage

open Forest

variable {damage : Damage}

/-- Where there are orders, some pixel is exposed of a widget of the window and is ordered. -/
theorem exists_exposed_of_orders (linked : forest.Linked)
    (some : damage.orders forest settings ≠ []) :
    ∃ pixel id, orderedAt (damage.orders forest settings) pixel id ∧
      forest.ExposedAt settings pixel id ∧ damage.root ∈ forest.path id := by
  obtain ⟨order, member⟩ := List.exists_mem_of_ne_nil _ some
  obtain ⟨request, pending, isAsked⟩ := List.mem_flatMap.mp member
  obtain ⟨pixel, ordered⟩ := exists_orderedAt (List.ne_nil_of_mem isAsked)
  obtain ⟨last, -, exposed, -⟩ := (orderedAt_requestOrders linked).mp ordered
  exact ⟨pixel, request.1, orderedAt_flatMap.mpr ⟨request, pending, ordered⟩, exposed,
    (linked.getLast?_path_iff.mp last).1⟩

/-- What a request wants where its widget is exposed is ordered. -/
theorem orderedAt_of_pending (linked : forest.Linked) {id : WidgetId} {rect : Option Rect}
    (pending : damage.pending.find? id = some rect)
    (inside : forest.toLocal id pixel ∈ requestedPart forest id rect)
    (exposed : forest.ExposedAt settings pixel id) (inWindow : damage.root ∈ forest.path id)
    (top : forest.parent? damage.root = none) :
    orderedAt (damage.orders forest settings) pixel id := by
  apply orderedAt_flatMap.mpr
  refine ⟨(id, rect), Table.mem_of_find? pending, (orderedAt_requestOrders linked).mpr ?_⟩
  refine ⟨linked.getLast?_path_iff.mpr ⟨inWindow, top⟩, inside, exposed, ?_⟩
  exact List.mem_cons_self ..

/-- A pixel of the window that waits is exposed. -/
theorem exposed_of_asked (linked : forest.Linked) {wants : WidgetId → Prop}
    (top : forest.parent? damage.root = none)
    (asked : forest.Asked settings pixel wants damage.root) :
    forest.ExposedAt settings pixel damage.root :=
  (linked.exposedAt_of_root top).mpr ((linked.shownAt_of_root top).mp (asked.shown linked))

/-- A pixel that waits still does when the requests have been turned into regions. -/
theorem asked_compute (linked : forest.Linked) (top : forest.parent? damage.root = none)
    (asked : forest.Asked settings pixel (damage.Wants forest pixel) damage.root) :
    forest.Asked settings pixel ((damage.compute forest settings).Wants forest pixel)
      damage.root := by
  obtain ⟨lit, inWindow, wanted, exposed⟩ :=
    exists_exposed_of_asked linked asked (exposed_of_asked linked top asked)
  refine asked_of_exposed linked (Or.inr (compute_litAt ?_)) exposed inWindow
  rcases wanted with ⟨rect, pending, inside⟩ | isLit
  · exact Or.inr (orderedAt_of_pending linked pending inside exposed inWindow top)
  · exact Or.inl isLit

/-! ### Marks that are left over -/

/-- If there are marks, the window is shown nowhere or some pixel of it waits. -/
def MarksWait (damage : Damage) (forest : Forest) (settings : RepaintSettings) : Prop :=
  damage.above = [] ∨ (∀ pixel, forest.shownAt pixel damage.root = false) ∨
    ∃ pixel, forest.Asked settings pixel (damage.Wants forest pixel) damage.root

theorem MarksWait.compute (linked : forest.Linked) (top : forest.parent? damage.root = none)
    (marks : damage.MarksWait forest settings) :
    (damage.compute forest settings).MarksWait forest settings := by
  rw [MarksWait, compute_root]
  rcases marks with none | nowhere | ⟨pixel, asked⟩
  · by_cases idle : damage.orders forest settings = []
    · left
      rw [compute_eq_scheduleAll, idle]
      exact none
    · obtain ⟨pixel, id, ordered, exposed, inWindow⟩ := exists_exposed_of_orders linked idle
      have lit := compute_litAt (Or.inr ordered)
      exact Or.inr (Or.inr ⟨pixel, asked_of_exposed linked (Or.inr lit) exposed inWindow⟩)
  · exact Or.inr (Or.inl nowhere)
  · exact Or.inr (Or.inr ⟨pixel, asked_compute linked top asked⟩)

/-- A painting leaves the damage as it was, or nothing of it. -/
theorem paint_damage {σ : Type} (backend : Backend σ) (damage : Damage) (maxAttempts : Nat)
    (state : PaintState σ) :
    (damage.paint forest backend maxAttempts state).2.1 = damage ∨
      (damage.paint forest backend maxAttempts state).2.1 = damage.clear := by
  rw [paint]
  simp only
  split
  · exact Or.inl rfl
  · split
    · exact Or.inr rfl
    · exact Or.inl rfl

end Damage

namespace Application

open Forest

variable {app before after : Application} {id window : WidgetId} {damage damageAfter : Damage}

/-- A change away from the window does not move the window. -/
theorem Answers.shownAt_window (answers : Answers before after window damage damageAfter id)
    (linked : before.forest.Linked) (linkedAfter : after.forest.Linked)
    (live : after.forest.contains window = true) (top : after.forest.parent? window = none)
    (apart : id ≠ window) (pixel : Point) :
    before.forest.shownAt pixel window = after.forest.shownAt pixel window := by
  apply answers.alike.shownAt linked linkedAfter live
  rw [linkedAfter.path_of_root top, List.mem_singleton]
  exact apart

/-- Marks stay of use. -/
theorem Answers.marksWait (answers : Answers before after window damage damageAfter id)
    (linked : before.forest.Linked) (linkedAfter : after.forest.Linked)
    (live : after.forest.contains window = true) (top : after.forest.parent? window = none)
    (root : damage.root = window) (rootAfter : damageAfter.root = window)
    (marks : damage.MarksWait before.forest before.settings.repaint) :
    damageAfter.MarksWait after.forest after.settings.repaint := by
  rw [Damage.MarksWait, root] at marks
  rw [Damage.MarksWait, rootAfter]
  rcases marks with none | waiting
  · exact Or.inl (answers.keeps.above none)
  · right
    by_cases somewhere : ∃ pixel, after.forest.shownAt pixel window = true
    · right
      obtain ⟨pixel, shown⟩ := somewhere
      by_cases same : id = window
      · subst same
        exact ⟨pixel, answers.waits (mem_path_self id) shown⟩
      · have stays := answers.shownAt_window linked linkedAfter live top same
        rcases waiting with nowhere | ⟨other, asked⟩
        · rw [← stays, nowhere] at shown
          cases shown
        · refine ⟨other, ?_⟩
          have shownOther := asked.shown linked
          rw [stays] at shownOther
          exact (answers.waits_or_same linked linkedAfter top shownOther).resolve_right
            fun ⟨_, still, _⟩ => still asked
    · left
      intro pixel
      rw [Bool.eq_false_iff]
      exact fun shown => somewhere ⟨pixel, shown⟩

/-- Neither requests nor widgets that leave mark anything in a damage without marks. -/
theorem lasts_unmarked (window : WidgetId) :
    Lasts fun damage => damage.root = window → damage.above = [] where
  new _ _ := rfl
  requestUpdate _ _ unmarked isRoot := unmarked isRoot
  forget id unmarked isRoot := by
    rw [Damage.forget, unmarked isRoot]
    rfl

/-- A window that has not been one has no marks. -/
theorem Sound.above_of_new (sound : app.Sound) (change : Change)
    (noWindow : app.windows.find? window = none)
    (isAfter : (change.apply app).windows.find? window = some damageAfter) :
    damageAfter.above = [] := by
  have unmarked : app.EachWindow fun damage => damage.root = window → damage.above = [] := by
    rintro other damage isWindow rfl
    rw [(sound.windows isWindow).1, isWindow] at noWindow
    cases noWindow
  exact (lasts_unmarked window).change unmarked change window damageAfter isAfter
    ((sound.change change).windows isAfter).1

/-- The marks of every window are of use. -/
def MarksWait (app : Application) : Prop :=
  ∀ (window : WidgetId) (damage : Damage), app.windows.find? window = some damage →
    damage.MarksWait app.forest app.settings.repaint

theorem Sound.change_marksWait (sound : app.Sound) (marks : app.MarksWait) (change : Change) :
    (change.apply app).MarksWait := by
  intro window damageAfter isAfter
  have soundAfter := sound.change change
  cases isWindow : app.windows.find? window with
  | none => exact Or.inl (sound.above_of_new change isWindow isAfter)
  | some damage =>
      obtain ⟨id, answers⟩ := sound.change_answers isWindow change isAfter
      obtain ⟨rootAfter, live, top⟩ := soundAfter.windows isAfter
      exact answers.marksWait sound.linked soundAfter.linked live top (sound.windows isWindow).1
        rootAfter (marks window damage isWindow)

theorem Sound.paintWindow_marksWait {σ : Type} (sound : app.Sound) (marks : app.MarksWait)
    (backend : Backend σ) (window : WidgetId) (state : σ) :
    (app.paintWindow backend window state).2.1.MarksWait := by
  rcases paintWindow_after backend window state with same | ⟨damage, isDamage, after⟩
  · rw [same]
    exact marks
  · rw [after]
    intro other painted found
    rw [Table.find?_insert] at found
    split at found
    case isFalse => exact marks other painted found
    case isTrue =>
      obtain ⟨root, -, top⟩ := sound.windows isDamage
      rw [← root] at top
      rw [← Option.some_inj.mp found]
      rcases Damage.paint_damage backend (damage.compute app.forest app.settings.repaint)
        app.settings.retry.maxAttempts ⟨app.stylist, state⟩ with same | cleared
      · rw [same]
        exact (marks window damage isDamage).compute sound.linked top
      · rw [cleared]
        exact Or.inl rfl

theorem Reachable.marksWait (reachable : Reachable app) : app.MarksWait := by
  induction reachable with
  | new settings => exact fun _ _ found => by cases found
  | change change reachable marks => exact reachable.sound.change_marksWait marks change
  | @widgetStyle app id _ marks =>
      rw [widgetStyle_run]
      cases app.forest.get? id with
      | none => exact marks
      | some widget => exact marks
  | probeStyle typeName objectName mask _ marks => exact marks
  | paintWindow backend window state reachable marks =>
      exact reachable.sound.paintWindow_marksWait marks backend window state
  | @paintAll app _ backend state reachable marks =>
      have both : app.Sound ∧ app.MarksWait := ⟨reachable.sound, marks⟩
      refine (@paintEach_induction _ backend (fun app => app.Sound ∧ app.MarksWait) ?_ _ app state
        both).2
      exact fun app window state holds => ⟨holds.1.paintWindow backend window state,
        holds.1.paintWindow_marksWait holds.2 backend window state⟩

end Application

end StyledWidgets
