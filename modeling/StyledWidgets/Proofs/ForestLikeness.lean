/-
Module: StyledWidgets.Proofs.ForestLikeness
Purpose: An operation on one widget leaves everything that is neither that widget nor below it as
  it was: its names, its place, what it shows and the order of its other children.
Main exports: Widget.face, Forest.AlikeAway, Forest.AlikeAway.path, Forest.AlikeAway.shownAt,
  Forest.AlikeAway.lineage, Forest.UnchangedAway, Forest.Linked.unchangedAway_reparent
-/
import StyledWidgets.Proofs.ForestChanges
import StyledWidgets.Proofs.RepaintedPixels

namespace StyledWidgets

open StyledWidgets.Sheet StyledWidgets.Style

/-- What a widget says of itself, apart from its children. -/
def Widget.front (widget : Widget) : Widget := { widget with children := [] }

/-- What a widget says of itself, apart from its children and its pseudo-classes. -/
def Widget.face (widget : Widget) : Widget :=
  { widget with pseudo := PseudoMask.empty, children := [] }

/-- What styling and paths depend on in a widget. -/
def Widget.kin (widget : Widget) : String × String × Bool × Option WidgetId :=
  (widget.typeName, widget.objectName, widget.ignoresSheets, widget.parent)

namespace Forest

variable {before after : Forest} {id other : WidgetId}

/-! ### The same names on a path -/

theorem contains_congr {α : Type} {view : Widget → α}
    (same : (before.get? other).map view = (after.get? other).map view) :
    before.contains other = after.contains other := by
  rw [contains, contains, ← Option.isSome_map (f := view), same, Option.isSome_map]

theorem parent?_congr
    (same : (before.get? other).map Widget.kin = (after.get? other).map Widget.kin) :
    before.parent? other = after.parent? other := by
  have read : ∀ forest : Forest, forest.parent? other =
      ((forest.get? other).map Widget.kin).bind fun kin => kin.2.2.2 := by
    intro forest
    rw [parent?]
    cases forest.get? other <;> rfl
  rw [read, read, same]

theorem styleNode_congr
    (same : (before.get? other).map Widget.kin = (after.get? other).map Widget.kin) :
    before.styleNode other = after.styleNode other := by
  have read : ∀ forest : Forest, forest.styleNode other =
      match (forest.get? other).map Widget.kin with
      | some kin => ⟨styleKey other, kin.1, kin.2.1, kin.2.2.1⟩
      | none => ⟨styleKey other, "", "", false⟩ := by
    intro forest
    rw [styleNode]
    cases forest.get? other <;> rfl
  rw [read, read, same]

/-- A widget whose path has kept its names and links has kept its lineage. -/
theorem Linked.lineage_congr (linked : before.Linked) (linkedAfter : after.Linked)
    (same : ∀ widget ∈ before.path id,
      (after.get? widget).map Widget.kin = (before.get? widget).map Widget.kin) :
    after.path id = before.path id ∧ after.lineage id = before.lineage id := by
  have path : after.path id = before.path id :=
    linked.path_congr linkedAfter fun widget member => parent?_congr (same widget member)
  refine ⟨path, ?_⟩
  rw [lineage, lineage, path, styleNode_congr (same id (mem_path_self id)), Lineage.mk.injEq]
  refine ⟨rfl, List.map_congr_left fun widget member => ?_⟩
  exact styleNode_congr (same widget (List.mem_of_mem_tail member))

/-! ### The same faces -/

section Face

variable (same : (before.get? other).map Widget.face = (after.get? other).map Widget.face)

include same

/-- What does not look at children and pseudo-classes sees no difference. -/
theorem observed_congr {α : Type} (observe : Option Widget → α)
    (looks : ∀ found : Option Widget, observe (found.map Widget.face) = observe found) :
    observe (before.get? other) = observe (after.get? other) := by
  rw [← looks (before.get? other), same, looks]

theorem isVisible_congr : before.isVisible other = after.isVisible other :=
  observed_congr same (fun found => found.any Widget.visible) fun found => by
    cases found <;> rfl

theorem isOpaque_congr : before.isOpaque other = after.isOpaque other :=
  observed_congr same (fun found => found.any Widget.isOpaque) fun found => by
    cases found <;> rfl

theorem childrenNeverOverlap_congr :
    before.childrenNeverOverlap other = after.childrenNeverOverlap other :=
  observed_congr same (fun found => found.any Widget.childrenNeverOverlap) fun found => by
    cases found <;> rfl

theorem kin_congr :
    (before.get? other).map Widget.kin = (after.get? other).map Widget.kin :=
  observed_congr same (fun found => found.map Widget.kin) fun found => by
    cases found <;> rfl

theorem geometry_congr : before.geometry other = after.geometry other := by
  have read : ∀ forest : Forest,
      forest.geometry other = (forest.get? other).elim Rect.zero Widget.geometry := by
    intro forest
    rw [Forest.geometry]
    cases forest.get? other <;> rfl
  rw [read, read]
  exact observed_congr same (fun found => found.elim Rect.zero Widget.geometry) fun found => by
    cases found <;> rfl

theorem text_congr : before.text other = after.text other := by
  have read : ∀ forest : Forest,
      forest.text other = (forest.get? other).elim "" Widget.text := by
    intro forest
    rw [Forest.text]
    cases forest.get? other <;> rfl
  rw [read, read]
  exact observed_congr same (fun found => found.elim "" Widget.text) fun found => by
    cases found <;> rfl

theorem frame_congr : before.frame other = after.frame other := by
  have read : ∀ forest : Forest,
      forest.frame other = (forest.get? other).elim 0 Widget.frame := by
    intro forest
    rw [Forest.frame]
    cases forest.get? other <;> rfl
  rw [read, read]
  exact observed_congr same (fun found => found.elim 0 Widget.frame) fun found => by
    cases found <;> rfl

end Face

/-! ### Alike away from a widget -/

/-- Two forests are alike in all that the second one has and that is neither a given widget nor
below it. -/
structure AlikeAway (before after : Forest) (id : WidgetId) : Prop where
  face : ∀ {other : WidgetId}, after.contains other = true → id ∉ after.path other →
    (before.get? other).map Widget.face = (after.get? other).map Widget.face
  order : ∀ {other : WidgetId}, after.contains other = true → id ∉ after.path other →
    ((before.children other).filter fun child => child ≠ id) =
      (after.children other).filter fun child => child ≠ id

theorem alikeAway_refl (forest : Forest) (id : WidgetId) : AlikeAway forest forest id where
  face _ _ := rfl
  order _ _ := rfl

namespace AlikeAway

variable (alike : AlikeAway before after id)

include alike

theorem contains (live : after.contains other = true) (away : id ∉ after.path other) :
    before.contains other = true := by
  rw [contains_congr (alike.face live away), live]

variable (linked : before.Linked) (linkedAfter : after.Linked)

include linkedAfter

/-- The whole path has kept its faces. -/
theorem faces (live : after.contains other = true) (away : id ∉ after.path other)
    {widget : WidgetId} (member : widget ∈ after.path other) :
    (before.get? widget).map Widget.face = (after.get? widget).map Widget.face :=
  alike.face (linkedAfter.contains_of_mem_path live member) fun above =>
    away (linkedAfter.mem_path_trans member above)

include linked

theorem lineage (live : after.contains other = true) (away : id ∉ after.path other) :
    before.path other = after.path other ∧ before.lineage other = after.lineage other :=
  linkedAfter.lineage_congr linked fun _ member =>
    kin_congr (alike.faces linkedAfter live away member)

theorem path (live : after.contains other = true) (away : id ∉ after.path other) :
    before.path other = after.path other :=
  (alike.lineage linked linkedAfter live away).1

theorem windowRect (live : after.contains other = true) (away : id ∉ after.path other) :
    before.windowRect other = after.windowRect other := by
  have origin : ∀ path : List WidgetId, (∀ widget ∈ path, widget ∈ after.path other) →
      before.originOf path = after.originOf path := by
    intro path
    induction path with
    | nil => exact fun _ => rfl
    | cons child above inductionHypothesis =>
        intro inside
        cases above with
        | nil => rfl
        | cons parent above =>
            have further := inductionHypothesis fun widget member =>
              inside widget (List.mem_cons_of_mem child member)
            have place := geometry_congr
              (alike.faces linkedAfter live away (inside child (List.mem_cons_self ..)))
            simp only [originOf, further, place]
  rw [Forest.windowRect, Forest.windowRect, alike.path linked linkedAfter live away,
    origin _ fun _ member => member, geometry_congr (alike.face live away)]

theorem toLocal (live : after.contains other = true) (away : id ∉ after.path other)
    (pixel : Point) : before.toLocal other pixel = after.toLocal other pixel := by
  rw [Forest.toLocal, Forest.toLocal, corner_eq, corner_eq,
    alike.windowRect linked linkedAfter live away]

theorem shownAt (live : after.contains other = true) (away : id ∉ after.path other)
    (pixel : Point) : before.shownAt pixel other = after.shownAt pixel other := by
  rw [Bool.eq_iff_iff, shownAt_iff, shownAt_iff, alike.path linked linkedAfter live away]
  refine forall₂_congr fun widget member => ?_
  have liveToo := linkedAfter.contains_of_mem_path live member
  have awayToo : id ∉ after.path widget := fun above =>
    away (linkedAfter.mem_path_trans member above)
  rw [isVisible_congr (alike.face liveToo awayToo),
    alike.windowRect linked linkedAfter liveToo awayToo]

end AlikeAway

/-- Two forests that are alike away from a widget, and no pseudo-classes differ there. -/
structure UnchangedAway (before after : Forest) (id : WidgetId) : Prop extends
    AlikeAway before after id where
  pseudo : ∀ {other : WidgetId}, after.contains other = true → id ∉ after.path other →
    before.pseudo other = after.pseudo other

theorem unchangedAway_of_front
    (front : ∀ {other : WidgetId}, after.contains other = true → id ∉ after.path other →
      (before.get? other).map Widget.front = (after.get? other).map Widget.front)
    (order : ∀ {other : WidgetId}, after.contains other = true → id ∉ after.path other →
      ((before.children other).filter fun child => child ≠ id) =
        (after.children other).filter fun child => child ≠ id) :
    UnchangedAway before after id where
  order := order
  face {other} live away := by
    have read : ∀ found : Option Widget,
        found.map Widget.face = (found.map Widget.front).map Widget.face := by
      intro found
      rw [Option.map_map]
      rfl
    rw [read, front live away, ← read]
  pseudo {other} live away := by
    have read : ∀ forest : Forest, forest.pseudo other =
        ((forest.get? other).map Widget.front).elim PseudoMask.empty Widget.pseudo := by
      intro forest
      rw [Forest.pseudo]
      cases forest.get? other <;> rfl
    rw [read, read, front live away]

/-! ### What the operations leave alike -/

theorem unchangedAway_adjust {change : Widget → Widget}
    (keeps : ∀ widget, (change widget).children = widget.children) :
    UnchangedAway before (before.adjust id change) id := by
  apply unchangedAway_of_front
  · intro other _ away
    rw [get?_adjust, if_neg]
    rintro rfl
    exact away (mem_path_self other)
  · intro other _ _
    rw [children_adjust keeps]

/-- Pseudo-classes are no part of a face, so no widget counts as changed. -/
theorem alikeAway_setPseudo (mask : PseudoMask) (id other : WidgetId) :
    AlikeAway before (before.adjust id fun widget => { widget with pseudo := mask }) other where
  face {widget} _ _ := by
    rw [get?_adjust]
    split
    case isTrue same =>
      rw [same, Option.map_map]
      rfl
    case isFalse => rfl
  order _ _ := by
    rw [children_adjust]
    exact fun _ => rfl

theorem unchangedAway_push (widget : Widget) (parent : Option WidgetId) :
    UnchangedAway before (before.push widget parent).2 (before.push widget parent).1 := by
  apply unchangedAway_of_front
  · intro other _ away
    rw [get?_push, if_neg]
    intro same
    exact away (same ▸ mem_path_self other)
  · intro other _ _
    rw [children_push]

/-- A change of the children of a widget does not change a front. -/
theorem front_adjust_children (parent : WidgetId) (place : List WidgetId → List WidgetId) :
    ((before.adjust parent fun widget =>
      { widget with children := place widget.children }).get? other).map Widget.front =
        (before.get? other).map Widget.front := by
  rw [get?_adjust]
  split
  case isTrue same =>
    rw [same, Option.map_map]
    rfl
  case isFalse => rfl

theorem unchangedAway_insert {parent : WidgetId} {widget : Widget}
    (inserted : before.insert (some parent) widget = .ok (id, after)) :
    UnchangedAway before after id := by
  apply unchangedAway_of_front
  · intro other _ away
    obtain ⟨-, rfl, rfl⟩ := insert_eq_ok inserted
    rw [attach, front_adjust_children parent fun children => children ++ [_], get?_push, if_neg]
    intro same
    exact away (same ▸ mem_path_self other)
  · intro other _ _
    rw [(insert_links inserted).2]
    split
    · simp
    · rfl

theorem front_released (parent : Option WidgetId) :
    ((before.released id parent).get? other).map Widget.front =
      (before.get? other).map Widget.front := by
  cases parent with
  | none => rfl
  | some parent =>
      exact front_adjust_children parent fun children => children.filter fun child => child ≠ id

theorem front_held (parent : Option WidgetId) :
    ((before.held id parent).get? other).map Widget.front =
      (before.get? other).map Widget.front := by
  cases parent with
  | none => rfl
  | some parent => exact front_adjust_children parent fun children => children ++ [id]

theorem Linked.unchangedAway_reparent (linked : before.Linked) {newParent : Option WidgetId}
    (moved : before.reparent id newParent = .ok after) : UnchangedAway before after id := by
  apply unchangedAway_of_front
  · intro other _ away
    obtain ⟨-, -, rfl⟩ := reparent_eq_ok moved
    rw [front_held, turned, get?_adjust, if_neg, front_released]
    rintro rfl
    exact away (mem_path_self other)
  · intro other _ _
    rw [(linked.reparent_links moved).2, List.filter_append, List.filter_filter]
    split
    · simp
    · simp

theorem Linked.unchangedAway_remove (linked : before.Linked) {removed : List WidgetId}
    (gone : before.remove id = .ok (removed, after)) : UnchangedAway before after id := by
  have outside : ∀ {other}, after.contains other = true → id ∉ before.path other := by
    intro other live below
    rw [Forest.contains, linked.get?_remove gone, if_pos below] at live
    cases live
  apply unchangedAway_of_front
  · intro other live _
    rw [linked.get?_remove gone, if_neg (outside live), front_released]
  · intro other live _
    rw [(linked.remove_links gone).2, if_neg (outside live), List.filter_filter]
    simp

end Forest

end StyledWidgets
