/-
Module: StyledWidgets.Proofs.RequestedRegion
Purpose: What one request schedules of the widget that asks: exactly the pixels of its visible part,
  told in window coordinates and without the way up through the levels. A request without a visible
  part schedules nothing of any widget.
Main exports: Forest.VisiblePart, Forest.Linked.visiblePart_iff, Damage.requested_visiblePart
-/
import StyledWidgets.Proofs.PartialRepaint
import StyledWidgets.Proofs.ScreenMarks

namespace StyledWidgets

variable {forest : Forest} {settings : RepaintSettings} {root id : WidgetId} {rect : Option Rect}
  {pixel : Point}

/-! ### The visible part of a widget -/

namespace Forest

/-- The part of a widget that a request is for, in window coordinates. -/
def partInWindow (forest : Forest) (id : WidgetId) (rect : Option Rect) : Rect :=
  (requestedPart forest id rect).movedBy (forest.corner id).x (forest.corner id).y

/-- A pixel of a window belongs to what is visible of a part of a widget. -/
structure VisiblePart (forest : Forest) (settings : RepaintSettings) (root id : WidgetId)
    (rect : Option Rect) (pixel : Point) : Prop where
  /-- The widget is in the window. -/
  inWindow : (forest.path id).getLast? = some root
  /-- Nothing on the way up to the window is hidden. -/
  visible : ∀ widget ∈ forest.path id, forest.isVisible widget = true
  inPart : pixel ∈ forest.partInWindow id rect
  /-- No ancestor cuts the pixel off. -/
  inAncestors : ∀ ancestor ∈ (forest.path id).tail, pixel ∈ forest.windowRect ancestor
  /-- No visible opaque sibling above a widget on the way up covers the pixel. Where the children of
  a parent are said never to overlap, and this is honored, siblings do not count. -/
  uncovered : ∀ child ∈ forest.path id, ∀ parent, forest.parent? child = some parent →
    ¬(settings.honorNonOverlap = true ∧ forest.childrenNeverOverlap parent = true) →
      ∀ sibling ∈ forest.siblingsAbove parent child, forest.isVisible sibling = true →
        forest.isOpaque sibling = true → pixel ∉ forest.windowRect sibling

theorem mem_partInWindow_iff :
    pixel ∈ forest.partInWindow id rect ↔
      forest.toLocal id pixel ∈ requestedPart forest id rect :=
  Rect.mem_movedBy

/-- A request is for pixels of its widget only. -/
theorem mem_windowRect_of_mem_partInWindow (inside : pixel ∈ forest.partInWindow id rect) :
    pixel ∈ forest.windowRect id := by
  rw [mem_partInWindow_iff, mem_requestedPart_iff] at inside
  exact mem_windowRect_iff.mpr inside.1

theorem skipsSiblings_iff {level : Level} :
    skipsSiblings forest settings level = true ↔
      settings.honorNonOverlap = true ∧ forest.childrenNeverOverlap level.parent = true :=
  Bool.and_eq_true_iff

/-- The steps of a path leave a pixel uncovered as soon as its widgets and their parents do. -/
theorem Linked.uncovered_iff (linked : forest.Linked) :
    (∀ level ∈ forest.levels (forest.path id), skipsSiblings forest settings level = true ∨
        ¬forest.coveredBy pixel (forest.siblingsAbove level.parent level.child)) ↔
      ∀ child ∈ forest.path id, ∀ parent, forest.parent? child = some parent →
        ¬(settings.honorNonOverlap = true ∧ forest.childrenNeverOverlap parent = true) →
          ∀ sibling ∈ forest.siblingsAbove parent child, forest.isVisible sibling = true →
            forest.isOpaque sibling = true → pixel ∉ forest.windowRect sibling := by
  constructor
  · intro free child onPath parent up examined sibling above visible isOpaque inside
    have member : ⟨child, parent, forest.corner parent⟩ ∈ forest.levels (forest.path id) :=
      linked.mem_levels_iff.mpr ⟨onPath, up, rfl⟩
    rcases free _ member with skips | uncovered
    · exact examined (skipsSiblings_iff.mp skips)
    · exact uncovered ⟨sibling, above, visible, isOpaque, inside⟩
  · intro free level member
    obtain ⟨onPath, up, -⟩ := linked.mem_levels_iff.mp member
    refine or_iff_not_imp_left.mpr fun examined => ?_
    rintro ⟨sibling, above, visible, isOpaque, inside⟩
    exact free level.child onPath level.parent up (mt skipsSiblings_iff.mpr examined) sibling above
      visible isOpaque inside

/-- A pixel is in the visible part exactly if the request asks for it and the repaint of the widget
there reaches the window. -/
theorem Linked.visiblePart_iff (linked : forest.Linked) :
    forest.VisiblePart settings root id rect pixel ↔
      (forest.path id).getLast? = some root ∧
        forest.toLocal id pixel ∈ requestedPart forest id rect ∧
          forest.ExposedAt settings pixel id := by
  obtain ⟨above, path⟩ := linked.exists_path_cons id
  constructor
  · rintro ⟨inWindow, visible, inPart, inAncestors, uncovered⟩
    refine ⟨inWindow, mem_partInWindow_iff.mp inPart, shownAt_iff.mpr fun widget onPath => ?_,
      linked.uncovered_iff.mpr uncovered⟩
    refine ⟨visible widget onPath, ?_⟩
    rw [path, List.mem_cons] at onPath
    rcases onPath with rfl | isAbove
    · exact mem_windowRect_of_mem_partInWindow inPart
    · exact inAncestors widget (by rwa [path, List.tail_cons])
  · rintro ⟨inWindow, inPart, exposed⟩
    have shown := shownAt_iff.mp exposed.shown
    exact ⟨inWindow, fun widget onPath => (shown widget onPath).1, mem_partInWindow_iff.mpr inPart,
      fun ancestor isAbove => (shown ancestor (List.mem_of_mem_tail isAbove)).2,
      linked.uncovered_iff.mp exposed.uncovered⟩

end Forest

/-! ### One request -/

namespace Damage

open Forest

theorem orders_requestUpdate (root id : WidgetId) (rect : Option Rect) :
    ((new root).requestUpdate id rect).orders forest settings =
      requestOrders forest settings root id rect :=
  List.append_nil _

/-- A request asks for a pixel of its own widget exactly if the pixel is in the visible part. -/
theorem orderedAt_requestOrders_self (linked : forest.Linked) :
    orderedAt (requestOrders forest settings root id rect) pixel id ↔
      forest.VisiblePart settings root id rect pixel := by
  have repainted : id ∈ forest.repaintedAt settings pixel id := List.mem_cons_self
  rw [orderedAt_requestOrders linked, linked.visiblePart_iff]
  simp only [repainted, and_true]

/-- As long as no region collapses, a single request schedules of its widget exactly the visible
part. If there is none, nothing is scheduled at all. -/
theorem requested_visiblePart (linked : forest.Linked) (root id : WidgetId) (rect : Option Rect)
    (keeps : ((new root).requestUpdate id rect).Uncollapsed forest settings) :
    (∀ pixel, (∃ region, (((new root).requestUpdate id rect).compute forest settings).region? id =
        some region ∧ pixel ∈ region) ↔ forest.VisiblePart settings root id rect pixel) ∧
      ((∀ pixel, ¬forest.VisiblePart settings root id rect pixel) →
        (((new root).requestUpdate id rect).compute forest settings).scheduled = ∅) := by
  have unscheduled := (requested_unscheduled root [(id, rect)]).1
  constructor
  · intro pixel
    rw [← orderedAt_requestOrders_self linked, ← orders_requestUpdate]
    exact keeps.litAt_iff unscheduled
  · intro hidden
    have nothing : requestOrders forest settings root id rect = [] := by
      by_contra some
      obtain ⟨pixel, ordered⟩ := exists_orderedAt some
      exact hidden pixel ((orderedAt_requestOrders_self linked).mp ordered)
    rw [compute_eq_scheduleAll, orders_requestUpdate, nothing]
    rfl

end Damage

end StyledWidgets
