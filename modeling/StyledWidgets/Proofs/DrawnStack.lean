/-
Module: StyledWidgets.Proofs.DrawnStack
Purpose: What a painting draws at one pixel, in its order: a part of what is shown there, and the
  whole of what can be seen there if the pixel has waited to be repainted.
Main exports: Damage.drawnStack, Damage.drawnStack_sublist, Damage.seen_suffix_drawn
-/
import Mathlib.Data.List.Flatten
import Mathlib.Data.List.Perm.Subperm
import StyledWidgets.Proofs.ScreenMarks

namespace StyledWidgets

/-- Part of a list that holds all of the end of it ends in the same way. -/
theorem suffix_of_sublist {α : Type} {part before rest : List α}
    (sub : part.Sublist (before ++ rest)) (distinct : (before ++ rest).Nodup)
    (all : ∀ item ∈ rest, item ∈ part) : rest <:+ part := by
  obtain ⟨first, last, split, inBefore, inRest⟩ := List.sublist_append_iff.mp sub
  have apart := List.nodup_append.mp distinct
  have covered : rest ⊆ last := by
    intro item member
    rcases List.mem_append.mp (split ▸ all item member) with early | late
    · exact absurd rfl (apart.2.2 item (inBefore.mem early) item member)
    · exact late
  have same : last = rest := inRest.eq_of_length_le (apart.2.1.subperm covered).length_le
  exact ⟨first, by rw [split, same]⟩

namespace Damage

open Forest

variable {forest : Forest} {settings : RepaintSettings} {damage : Damage} {pixel : Point}

/-! ### The order of a plan -/

/-- The widgets that are drawn at a pixel, in their order. -/
def drawnStack (items : List DrawItem) (pixel : Point) : List WidgetId :=
  (items.filter fun item => pixel ∈ item.clip).map DrawItem.widget

theorem mem_drawnStack {items : List DrawItem} {id : WidgetId} :
    id ∈ drawnStack items pixel ↔ drawnAt items pixel id := by
  simp only [drawnStack, drawnAt, List.mem_map, List.mem_filter, decide_eq_true_eq]
  apply exists_congr
  intro item
  tauto

/-- Widgets are drawn in the order of their subtree, each at most once. -/
theorem planWithin_sublist (depth : Nat) :
    ∀ {id : WidgetId} {rect : Rect} {inherited : Region},
      ((damage.planWithin forest depth id rect inherited).map DrawItem.widget).Sublist
        (forest.subtreeWithin depth id) := by
  induction depth with
  | zero => exact List.nil_sublist _
  | succ depth inductionHypothesis =>
      intro id rect inherited
      rw [planWithin, subtreeWithin]
      split
      case isFalse => exact List.nil_sublist _
      case isTrue =>
        simp only [List.map_append, List.map_flatMap]
        generalize damage.clipOf inherited id rect = clip
        have own : (List.map DrawItem.widget
            (if clip.isEmpty = true then [] else [⟨id, rect, clip⟩])).Sublist [id] := by
          split
          · exact List.nil_sublist _
          · exact List.Sublist.refl _
        apply own.append
        apply List.Sublist.flatMap_right
        intro child _
        split
        · exact inductionHypothesis
        · split
          · exact inductionHypothesis
          · exact List.nil_sublist _

/-- If only shown pixels are scheduled, what is drawn at a pixel is part of what is shown there. -/
theorem drawnStack_sublist (linked : forest.Linked) (top : forest.parent? damage.root = none)
    (inside : ∀ id, damage.litAt pixel id → forest.shownAt pixel id = true) :
    (drawnStack (damage.plan forest) pixel).Sublist (forest.stackAt pixel damage.root) := by
  have shown : ∀ id ∈ drawnStack (damage.plan forest) pixel, forest.shownAt pixel id = true :=
    fun id member => (drawnAt_plan top linked inside (mem_drawnStack.mp member)).2.1
  have ordered : (drawnStack (damage.plan forest) pixel).Sublist (forest.subtree damage.root) := by
    rw [linked.subtree_eq]
    exact (List.filter_sublist.map DrawItem.widget).trans (planWithin_sublist _)
  rw [← List.filter_eq_self.mpr shown]
  exact ordered.filter _

/-! ### What waits is drawn -/

/-- Everything that is shown at or below an ordered pixel is drawn there: the way to it is marked,
unless the window itself is requested. -/
theorem drawnAt_of_orderedAt (linked : forest.Linked) (top : forest.parent? damage.root = none)
    (unscheduled : damage.scheduled = ∅)
    (marks : damage.above = [] ∨ damage.pending.find? damage.root = some none)
    {id lit : WidgetId} (inStack : id ∈ forest.stackAt pixel damage.root)
    (above : lit ∈ forest.path id)
    (ordered : orderedAt (damage.orders forest settings) pixel lit) :
    drawnAt ((damage.compute forest settings).plan forest) pixel id := by
  obtain ⟨inWindow, shown⟩ := linked.mem_stackAt_iff.mp inStack
  rcases marks with none | whole
  · exact (drawnAt_computed_iff linked ⟨unscheduled, none⟩ top).mpr
      ⟨inStack, lit, above, compute_litAt (Or.inr ordered)⟩
  · have shownRoot := linked.shownAt_above shown inWindow
    have exposed : forest.ExposedAt settings pixel damage.root :=
      (linked.exposedAt_of_root top).mpr ((linked.shownAt_of_root top).mp shownRoot)
    have inside := (requestedPart_none forest damage.root pixel).mpr
      ((linked.shownAt_of_root top).mp shownRoot).2
    have isLit := compute_litAt (Or.inr (orderedAt_of_pending linked whole inside exposed
      (mem_path_self damage.root) top))
    have topComputed : forest.parent? (damage.compute forest settings).root = none := by
      rwa [compute_root]
    apply drawnAt_plan_of_litAt topComputed linked isLit _ _ inWindow shown
    · intro ancestor onPath strict
      rw [linked.path_of_root top, List.mem_singleton] at onPath
      exact absurd onPath strict
    · rw [compute_root]
      exact mem_path_self damage.root

/-- A pixel that waits is ordered of some widget. -/
theorem exists_orderedAt_of_asked (linked : forest.Linked)
    (top : forest.parent? damage.root = none) (unscheduled : damage.scheduled = ∅)
    (asked : forest.Asked settings pixel (damage.Wants forest pixel) damage.root) :
    ∃ id, orderedAt (damage.orders forest settings) pixel id := by
  obtain ⟨id, inWindow, wanted, exposed⟩ :=
    exists_exposed_of_asked linked asked (exposed_of_asked linked top asked)
  obtain ⟨rect, pending, inside⟩ :=
    wanted.resolve_right (not_litAt_of_unscheduled unscheduled pixel id)
  exact ⟨id, orderedAt_of_pending linked pending inside exposed inWindow top⟩

/-- At a pixel that waits, some widget and everything shown above it are drawn, and the widget is
opaque or the lowest that is shown. -/
theorem exists_drawn_suffix (linked : forest.Linked) (apart : forest.NeverOverlapping settings)
    (top : forest.parent? damage.root = none) (unscheduled : damage.scheduled = ∅)
    (marks : damage.above = [] ∨ damage.pending.find? damage.root = some none)
    (asked : forest.Asked settings pixel (damage.Wants forest pixel) damage.root) :
    ∃ before bottom later, forest.stackAt pixel damage.root = before ++ bottom :: later ∧
      (before = [] ∨ forest.isOpaque bottom = true) ∧
        ∀ id ∈ bottom :: later,
          drawnAt ((damage.compute forest settings).plan forest) pixel id := by
  obtain ⟨wanting, wanted⟩ := exists_orderedAt_of_asked linked top unscheduled asked
  obtain ⟨bottom, ordered, kind⟩ := orderedAt_bottom linked wanted
  obtain ⟨before, later, split⟩ :=
    List.append_of_mem (mem_stackAt_of_orderedAt linked ordered).1
  have drawn : ∀ id ∈ bottom :: later,
      drawnAt ((damage.compute forest settings).plan forest) pixel id := by
    intro id member
    have inStack : id ∈ forest.stackAt pixel damage.root := by
      rw [split]
      exact List.mem_append_right before member
    rcases List.mem_cons.mp member with rfl | isLater
    · exact drawnAt_of_orderedAt linked top unscheduled marks inStack (mem_path_self id) ordered
    · obtain ⟨lit, above, isOrdered⟩ :=
        orderedAt_later linked apart split isLater (mem_path_self bottom) ordered
      exact drawnAt_of_orderedAt linked top unscheduled marks inStack above isOrdered
  rcases kind with isRoot | isOpaque
  · -- The window is shown below everything else.
    refine ⟨[], bottom, later, ?_, Or.inl rfl, drawn⟩
    have shown := asked.shown linked
    have distinct := linked.stackAt_nodup pixel damage.root
    rw [isRoot] at split ⊢
    rw [linked.stackAt_eq shown] at split distinct ⊢
    cases before with
    | nil => exact split
    | cons first before =>
        rw [List.cons_append, List.cons.injEq] at split
        rw [List.nodup_cons, split.2] at distinct
        exact absurd (List.mem_append_right before (List.mem_cons_self ..)) distinct.1
  · exact ⟨before, bottom, later, split, Or.inr isOpaque, drawn⟩

/-- At a pixel that waits, what is drawn ends with all that is seen. -/
theorem seen_suffix_drawn (linked : forest.Linked) (apart : forest.NeverOverlapping settings)
    (top : forest.parent? damage.root = none) (unscheduled : damage.scheduled = ∅)
    (marks : damage.above = [] ∨ damage.pending.find? damage.root = some none)
    (asked : forest.Asked settings pixel (damage.Wants forest pixel) damage.root)
    {layer : WidgetId → Layer} (opaqueLayer : ∀ id, (layer id).isOpaque = forest.isOpaque id) :
    seen ((forest.stackAt pixel damage.root).map layer) <:+
      (drawnStack ((damage.compute forest settings).plan forest) pixel).map layer := by
  obtain ⟨before, bottom, later, split, kind, drawn⟩ :=
    exists_drawn_suffix linked apart top unscheduled marks asked
  have sub : (drawnStack ((damage.compute forest settings).plan forest) pixel).Sublist
      (before ++ bottom :: later) := by
    have isRoot : (damage.compute forest settings).root = damage.root := compute_root damage
    rw [← split, ← isRoot]
    apply drawnStack_sublist linked
    · rwa [isRoot]
    · exact fun id lit => (linked.mem_stackAt_iff.mp (litAt_subset linked unscheduled lit)).2
  have ends : bottom :: later <:+
      drawnStack ((damage.compute forest settings).plan forest) pixel := by
    apply suffix_of_sublist sub
    · rw [← split]
      exact linked.stackAt_nodup pixel damage.root
    · exact fun id member => mem_drawnStack.mpr (drawn id member)
  refine List.IsSuffix.trans ?_ (ends.map layer)
  rw [split, List.map_append]
  rcases kind with none | isOpaque
  · rw [none]
    exact seen_suffix _
  · rw [seen_append_covered]
    · exact seen_suffix _
    · rw [List.map_cons, List.any_cons, opaqueLayer, isOpaque, Bool.true_or]

end Damage

end StyledWidgets
