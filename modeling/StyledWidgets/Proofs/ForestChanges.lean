/-
Module: StyledWidgets.Proofs.ForestChanges
Purpose: What the operations on a forest do to its links, and that they keep parents and children
  in agreement.
Main exports: Forest.get?_adjust, Forest.linked_empty, Forest.Linked.insertWindow,
  Forest.Linked.insert, Forest.Linked.reparent, Forest.Linked.remove, Forest.Linked.path_congr
-/
import StyledWidgets.Proofs.ForestShape

namespace StyledWidgets

namespace Forest

variable {forest : Forest}

/-! ### Slots -/

theorem get?_put (id other : WidgetId) (widget : Option Widget) :
    (forest.put id widget).get? other =
      if other = id ∧ id.raw < forest.slots.size then widget else forest.get? other := by
  simp only [put, get?, Array.getElem?_setIfInBounds]
  by_cases same : other = id
  · subst same
    by_cases inside : other.raw < forest.slots.size
    · simp [inside]
    · simp [inside]
  · have apart : id.raw ≠ other.raw := fun raw => same (by cases id; cases other; simp_all)
    simp [same, apart]

@[simp]
theorem get?_adjust (id other : WidgetId) (change : Widget → Widget) :
    (forest.adjust id change).get? other =
      if other = id then (forest.get? id).map change else forest.get? other := by
  rw [adjust]
  cases found : forest.get? id with
  | none =>
      by_cases same : other = id
      · rw [if_pos same, same, found]
        rfl
      · rw [if_neg same]
  | some widget =>
      have inside := raw_lt_of_contains (contains_iff.mpr ⟨widget, found⟩)
      simp only [get?_put, inside, and_true, Option.map_some]

theorem get?_push (widget : Widget) (parent : Option WidgetId) (other : WidgetId) :
    (forest.push widget parent).2.get? other =
      if other = (forest.push widget parent).1 then
        some { widget with parent := parent, children := [] }
      else forest.get? other := by
  obtain ⟨raw⟩ := other
  simp only [push, get?, Array.getElem?_push, WidgetId.mk.injEq]
  split <;> simp

theorem get?_eq_none {id : WidgetId} (beyond : forest.slots.size ≤ id.raw) :
    forest.get? id = none := by
  simp [get?, Array.getElem?_eq_none beyond]

/-! ### Links -/

theorem parent?_adjust {id : WidgetId} {change : Widget → Widget}
    (keeps : ∀ widget, (change widget).parent = widget.parent) (other : WidgetId) :
    (forest.adjust id change).parent? other = forest.parent? other := by
  rw [parent?, get?_adjust, parent?]
  split
  case isTrue same =>
    rw [same]
    cases forest.get? id with
    | none => rfl
    | some widget => exact keeps widget
  case isFalse => rfl

theorem children_adjust {id : WidgetId} {change : Widget → Widget}
    (keeps : ∀ widget, (change widget).children = widget.children) (other : WidgetId) :
    (forest.adjust id change).children other = forest.children other := by
  rw [children, get?_adjust, children]
  by_cases same : other = id
  · rw [if_pos same, same]
    cases forest.get? id with
    | none => rfl
    | some widget => exact keeps widget
  · rw [if_neg same]

theorem children_attach {parent child : WidgetId} (live : forest.contains parent = true)
    (other : WidgetId) :
    (forest.attach parent child).children other =
      if other = parent then forest.children other ++ [child] else forest.children other := by
  obtain ⟨widget, found⟩ := contains_iff.mp live
  rw [attach, children, get?_adjust]
  by_cases same : other = parent
  · subst same
    simp [children, found]
  · simp [same, children]

theorem children_detach (parent child other : WidgetId) :
    (forest.detach parent child).children other =
      if other = parent then (forest.children other).filter fun member => member ≠ child
      else forest.children other := by
  rw [detach, children, get?_adjust]
  by_cases same : other = parent
  · subst same
    rw [if_pos rfl, if_pos rfl, children]
    cases forest.get? other <;> rfl
  · simp [same, children]

@[simp]
theorem parent?_attach (parent child other : WidgetId) :
    (forest.attach parent child).parent? other = forest.parent? other := by
  rw [attach, parent?_adjust]
  exact fun _ => rfl

@[simp]
theorem parent?_detach (parent child other : WidgetId) :
    (forest.detach parent child).parent? other = forest.parent? other := by
  rw [detach, parent?_adjust]
  exact fun _ => rfl

/-- Forests with the same links are linked alike. -/
theorem Linked.of_links {other : Forest} (linked : forest.Linked)
    (parents : ∀ id, other.parent? id = forest.parent? id)
    (children : ∀ id, other.children id = forest.children id) : other.Linked where
  mem_children_iff := by
    intro parent child
    rw [parents, children]
    exact linked.mem_children_iff
  children_nodup id := by
    rw [children]
    exact linked.children_nodup id
  ranked := by
    obtain ⟨rank, falls⟩ := linked.ranked
    exact ⟨rank, fun up => falls (parents _ ▸ up)⟩

theorem Linked.adjust (linked : forest.Linked) {id : WidgetId} {change : Widget → Widget}
    (keepsParent : ∀ widget, (change widget).parent = widget.parent)
    (keepsChildren : ∀ widget, (change widget).children = widget.children) :
    (forest.adjust id change).Linked :=
  linked.of_links (parent?_adjust keepsParent) (children_adjust keepsChildren)

theorem linked_empty : empty.Linked where
  mem_children_iff := by simp [children, parent?, get?, empty]
  children_nodup _ := by simp [children, get?, empty]
  ranked := ⟨fun _ => 0, by simp [parent?, get?, empty]⟩

/-- Paths only depend on the parents along them. -/
theorem Linked.path_congr {other : Forest} {id : WidgetId} (linked : forest.Linked)
    (linkedOther : other.Linked)
    (same : ∀ widget ∈ forest.path id, other.parent? widget = forest.parent? widget) :
    other.path id = forest.path id := by
  induction id using linked.upward with
  | _ id inductionHypothesis =>
      have here := same id (mem_path_self id)
      rw [linkedOther.path_eq, linked.path_eq, here]
      cases up : forest.parent? id with
      | none => rfl
      | some parent =>
          simp only [List.cons.injEq, true_and]
          exact inductionHypothesis parent up fun widget member =>
            same widget (linked.mem_path_iff.mpr (Or.inr ⟨parent, up, member⟩))

/-! ### New widgets -/

theorem parent?_push (widget : Widget) (parent : Option WidgetId) (other : WidgetId) :
    (forest.push widget parent).2.parent? other =
      if other = (forest.push widget parent).1 then parent else forest.parent? other := by
  rw [parent?, get?_push]
  split
  · rfl
  · rfl

theorem children_push (widget : Widget) (parent : Option WidgetId) (other : WidgetId) :
    (forest.push widget parent).2.children other = forest.children other := by
  rw [children, get?_push, children]
  by_cases same : other = (forest.push widget parent).1
  · rw [if_pos same, get?_eq_none (by rw [same]; exact Nat.le_refl _)]
  · rw [if_neg same]

/-- The identity of a new widget has not been handed out before. -/
theorem get?_push_fresh (widget : Widget) (parent : Option WidgetId) :
    forest.get? (forest.push widget parent).1 = none :=
  get?_eq_none (Nat.le_refl _)

theorem parent?_push_fresh (widget : Widget) (parent : Option WidgetId) :
    forest.parent? (forest.push widget parent).1 = none := by
  rw [parent?, get?_push_fresh]
  rfl

theorem Linked.insertWindow (linked : forest.Linked) (widget : Widget) :
    (forest.insertWindow widget).2.Linked := by
  refine linked.of_links (fun id => ?_) fun id => children_push widget none id
  rw [Forest.insertWindow, parent?_push]
  split
  case isTrue same => rw [same, parent?_push_fresh]
  case isFalse => rfl

theorem insert_of_contains (parent : WidgetId) (widget : Widget)
    (live : forest.contains parent = true) :
    forest.insert (some parent) widget =
      .ok ((forest.push widget (some parent)).1,
        (forest.push widget (some parent)).2.attach parent
          (forest.push widget (some parent)).1) := by
  obtain ⟨old, found⟩ := contains_iff.mp live
  simp only [insert, require, found]
  rfl

theorem insert_eq_ok {parent id : WidgetId} {widget : Widget} {after : Forest}
    (inserted : forest.insert (some parent) widget = .ok (id, after)) :
    forest.contains parent = true ∧ id = (forest.push widget (some parent)).1 ∧
      after = (forest.push widget (some parent)).2.attach parent id := by
  simp only [insert, require] at inserted
  cases found : forest.get? parent with
  | none =>
      rw [found] at inserted
      cases inserted
  | some old =>
      rw [found] at inserted
      cases inserted
      exact ⟨contains_iff.mpr ⟨old, found⟩, rfl, rfl⟩

/-- What an insertion does to the links. -/
theorem insert_links {parent id : WidgetId} {widget : Widget} {after : Forest}
    (inserted : forest.insert (some parent) widget = .ok (id, after)) :
    (∀ other, after.parent? other = if other = id then some parent else forest.parent? other) ∧
      ∀ other, after.children other =
        if other = parent then forest.children other ++ [id] else forest.children other := by
  obtain ⟨live, rfl, rfl⟩ := insert_eq_ok inserted
  have stillLive : (forest.push widget (some parent)).2.contains parent = true := by
    obtain ⟨old, found⟩ := contains_iff.mp live
    rw [contains, get?_push]
    split
    · rfl
    · rw [found]
      rfl
  refine ⟨fun other => ?_, fun other => ?_⟩
  · rw [parent?_attach, parent?_push]
  · rw [children_attach stillLive, children_push]

theorem Linked.insert (linked : forest.Linked) {parent id : WidgetId} {widget : Widget}
    {after : Forest} (inserted : forest.insert (some parent) widget = .ok (id, after)) :
    after.Linked := by
  obtain ⟨live, isNew, -⟩ := insert_eq_ok inserted
  obtain ⟨parents, children⟩ := insert_links inserted
  have orphan : forest.parent? id = none := isNew ▸ parent?_push_fresh widget _
  have distinct : parent ≠ id := by
    rintro rfl
    rw [contains, isNew, get?_push_fresh] at live
    cases live
  have notChild : ∀ other, id ∉ forest.children other := fun other member => by
    rw [linked.mem_children_iff.mp member] at orphan
    cases orphan
  refine ⟨fun {above child} => ?_, fun other => ?_, ?_⟩
  · rw [parents, children]
    by_cases same : child = id
    · subst same
      by_cases here : above = parent
      · simp [here]
      · simp [here, notChild, Ne.symm here]
    · by_cases here : above = parent
      · simp [here, same, linked.mem_children_iff]
      · simp [here, same, linked.mem_children_iff]
  · rw [children]
    split
    · rw [List.nodup_append]
      refine ⟨linked.children_nodup other, List.nodup_singleton id, ?_⟩
      rintro child member _ new rfl
      exact notChild other (List.mem_singleton.mp new ▸ member)
    · exact linked.children_nodup other
  · obtain ⟨rank, falls⟩ := linked.ranked
    refine ⟨fun other => if other = id then rank parent + 1 else rank other, ?_⟩
    intro child above up
    rw [parents] at up
    split at up
    case isTrue same =>
      rw [Option.some_inj] at up
      subst up
      simp [same, distinct]
    case isFalse other =>
      have notNew : above ≠ id := fun same => by
        have member := linked.contains_parent up
        rw [contains, same, isNew, get?_push_fresh] at member
        cases member
      simp only [notNew, other, if_false]
      exact falls up

/-! ### Moved widgets -/

/-- The forest with a widget taken out of the children of its parent. -/
def released (forest : Forest) (id : WidgetId) (parent : Option WidgetId) : Forest :=
  match parent with
  | some parent => forest.detach parent id
  | none => forest

/-- The forest with a widget among the children of a parent. -/
def held (forest : Forest) (id : WidgetId) (parent : Option WidgetId) : Forest :=
  match parent with
  | some parent => forest.attach parent id
  | none => forest

/-- The forest with another parent written into a widget. -/
def turned (forest : Forest) (id : WidgetId) (parent : Option WidgetId) : Forest :=
  forest.adjust id fun widget => { widget with parent := parent }

theorem contains_adjust (id other : WidgetId) (change : Widget → Widget) :
    (forest.adjust id change).contains other = forest.contains other := by
  rw [contains, get?_adjust, contains]
  by_cases same : other = id
  · rw [if_pos same, same, Option.isSome_map]
  · rw [if_neg same]

theorem contains_released (id other : WidgetId) (parent : Option WidgetId) :
    (forest.released id parent).contains other = forest.contains other := by
  cases parent with
  | none => rfl
  | some parent => exact contains_adjust parent other _

theorem parent?_released (id other : WidgetId) (parent : Option WidgetId) :
    (forest.released id parent).parent? other = forest.parent? other := by
  cases parent with
  | none => rfl
  | some parent => exact parent?_detach parent id other

/-- Taking a widget out of the children of its parent takes it out of all children. -/
theorem Linked.children_released (linked : forest.Linked) (id other : WidgetId) :
    (forest.released id (forest.parent? id)).children other =
      (forest.children other).filter fun member => member ≠ id := by
  have elsewhere : forest.parent? id ≠ some other →
      (forest.children other).filter (fun member => member ≠ id) = forest.children other := by
    intro apart
    refine List.filter_eq_self.mpr fun member isChild => ?_
    rw [decide_eq_true_eq]
    rintro rfl
    exact apart (linked.mem_children_iff.mp isChild)
  cases up : forest.parent? id with
  | none => exact (elsewhere (by simp [up])).symm
  | some parent =>
      rw [released, children_detach]
      split
      · rfl
      case isFalse apart => exact (elsewhere (by simpa [up] using Ne.symm apart)).symm

theorem parent?_turned {id : WidgetId} (live : forest.contains id = true)
    (parent : Option WidgetId) (other : WidgetId) :
    (forest.turned id parent).parent? other =
      if other = id then parent else forest.parent? other := by
  obtain ⟨widget, found⟩ := contains_iff.mp live
  rw [turned, parent?, get?_adjust]
  by_cases same : other = id
  · simp [same, found]
  · simp [same, parent?]

theorem children_turned (id other : WidgetId) (parent : Option WidgetId) :
    (forest.turned id parent).children other = forest.children other := by
  rw [turned, children_adjust]
  exact fun _ => rfl

theorem parent?_held (id other : WidgetId) (parent : Option WidgetId) :
    (forest.held id parent).parent? other = forest.parent? other := by
  cases parent with
  | none => rfl
  | some parent => exact parent?_attach parent id other

theorem children_held {parent : Option WidgetId}
    (live : ∀ target, parent = some target → forest.contains target = true)
    (id other : WidgetId) :
    (forest.held id parent).children other =
      forest.children other ++ if parent = some other then [id] else [] := by
  cases parent with
  | none => simp [held]
  | some target =>
      rw [held, children_attach (live target rfl)]
      by_cases same : other = target
      · simp [same]
      · simp [same, Ne.symm same]

theorem reparent_eq_ok {id : WidgetId} {newParent : Option WidgetId} {after : Forest}
    (moved : forest.reparent id newParent = .ok after) :
    forest.contains id = true ∧
      (∀ parent, newParent = some parent →
        forest.contains parent = true ∧ id ∉ forest.path parent) ∧
      after = ((forest.released id (forest.parent? id)).turned id newParent).held id newParent := by
  simp only [reparent, require] at moved
  cases found : forest.get? id with
  | none =>
      rw [found] at moved
      cases moved
  | some widget =>
      have up : forest.parent? id = widget.parent := parent?_of_get? found
      rw [found] at moved
      rw [up]
      refine ⟨contains_iff.mpr ⟨widget, found⟩, ?_⟩
      cases newParent with
      | none =>
          cases moved
          refine ⟨fun _ same => ?_, rfl⟩
          cases same
      | some parent =>
          cases live : forest.get? parent with
          | none =>
              simp only [live] at moved
              cases moved
          | some target =>
              simp only [live] at moved
              cases below : forest.isAncestorOrSelf id parent with
              | true =>
                  rw [below] at moved
                  cases moved
              | false =>
                  rw [below] at moved
                  cases moved
                  refine ⟨fun other same => ?_, rfl⟩
                  cases same
                  refine ⟨contains_iff.mpr ⟨target, live⟩, fun member => ?_⟩
                  rw [isAncestorOrSelf, List.contains_iff_mem.mpr member] at below
                  cases below

/-- What a move does to the links. -/
theorem Linked.reparent_links (linked : forest.Linked) {id : WidgetId}
    {newParent : Option WidgetId} {after : Forest}
    (moved : forest.reparent id newParent = .ok after) :
    (∀ other, after.parent? other = if other = id then newParent else forest.parent? other) ∧
      ∀ other, after.children other =
        ((forest.children other).filter fun member => member ≠ id) ++
          if newParent = some other then [id] else [] := by
  obtain ⟨live, target, rfl⟩ := reparent_eq_ok moved
  refine ⟨fun other => ?_, fun other => ?_⟩
  · rw [parent?_held, parent?_turned, parent?_released]
    rwa [contains_released]
  · rw [children_held, children_turned, linked.children_released]
    intro parent same
    rw [turned, contains_adjust, contains_released]
    exact (target parent same).1

theorem Linked.reparent (linked : forest.Linked) {id : WidgetId} {newParent : Option WidgetId}
    {after : Forest} (moved : forest.reparent id newParent = .ok after) : after.Linked := by
  obtain ⟨parents, children⟩ := linked.reparent_links moved
  obtain ⟨-, target, -⟩ := reparent_eq_ok moved
  refine ⟨fun {above child} => ?_, fun other => ?_, ?_⟩
  · rw [parents, children, List.mem_append, List.mem_filter, linked.mem_children_iff]
    by_cases same : child = id
    · by_cases here : newParent = some above
      · simp [same, here]
      · simp [same, here]
    · by_cases here : newParent = some above
      · simp [same, here]
      · simp [same, here]
  · rw [children, List.nodup_append]
    refine ⟨(linked.children_nodup other).filter _, ?_, ?_⟩
    · split <;> simp
    · intro one memberOne two memberTwo same
      split at memberTwo
      · rw [List.mem_singleton] at memberTwo
        simp [same, memberTwo] at memberOne
      · simp at memberTwo
  · -- The moved subtree gets ranks above that of the new parent.
    obtain ⟨rank, falls⟩ := linked.ranked
    obtain ⟨base, isBase⟩ : ∃ base, ∀ parent, newParent = some parent → rank parent < base := by
      cases newParent with
      | none => exact ⟨0, fun _ same => by cases same⟩
      | some parent => exact ⟨rank parent + 1, fun _ same => by cases same; omega⟩
    refine ⟨fun other => if id ∈ forest.path other then base + rank other else rank other, ?_⟩
    intro child above up
    simp only
    rw [parents] at up
    split at up
    case isTrue same =>
      have outside := (target above up).2
      have low := isBase above up
      rw [same, if_neg outside, if_pos (mem_path_self id)]
      omega
    case isFalse apart =>
      have same : id ∈ forest.path child ↔ id ∈ forest.path above := by
        rw [linked.path_of_child up, List.mem_cons]
        simp [Ne.symm apart]
      have fall := falls up
      simp only [same]
      split <;> omega

/-! ### Removed widgets -/

theorem get?_clearSlots (ids : List WidgetId) (other : WidgetId) :
    ∀ forest : Forest, (forest.clearSlots ids).get? other =
      if other ∈ ids then none else forest.get? other := by
  induction ids with
  | nil => simp [clearSlots]
  | cons id later inductionHypothesis =>
      intro forest
      have step : forest.clearSlots (id :: later) = (forest.put id none).clearSlots later := rfl
      rw [step, inductionHypothesis, get?_put]
      by_cases further : other ∈ later
      · simp [further]
      · by_cases same : other = id
        · by_cases inside : id.raw < forest.slots.size
          · simp [same, inside]
          · simp [same, inside, get?_eq_none (Nat.not_lt.mp inside)]
        · simp [same, further]

theorem remove_eq_ok {id : WidgetId} {removed : List WidgetId} {after : Forest}
    (gone : forest.remove id = .ok (removed, after)) :
    forest.contains id = true ∧ removed = forest.subtree id ∧
      ∀ other, after.get? other =
        if other ∈ forest.subtree id then none
        else (forest.released id (forest.parent? id)).get? other := by
  simp only [remove, require] at gone
  cases found : forest.get? id with
  | none =>
      rw [found] at gone
      cases gone
  | some widget =>
      have up : forest.parent? id = widget.parent := parent?_of_get? found
      rw [found] at gone
      cases gone
      refine ⟨contains_iff.mpr ⟨widget, found⟩, rfl, fun other => ?_⟩
      rw [up]
      exact get?_clearSlots _ _ _

theorem Linked.get?_remove (linked : forest.Linked) {id : WidgetId} {removed : List WidgetId}
    {after : Forest} (gone : forest.remove id = .ok (removed, after)) (other : WidgetId) :
    after.get? other =
      if id ∈ forest.path other then none
      else (forest.released id (forest.parent? id)).get? other := by
  simp only [(remove_eq_ok gone).2.2, linked.mem_subtree_iff]

/-- What a removal does to the links. -/
theorem Linked.remove_links (linked : forest.Linked) {id : WidgetId}
    {removed : List WidgetId} {after : Forest}
    (gone : forest.remove id = .ok (removed, after)) :
    (∀ other, after.parent? other =
        if id ∈ forest.path other then none else forest.parent? other) ∧
      ∀ other, after.children other =
        if id ∈ forest.path other then []
        else (forest.children other).filter fun member => member ≠ id := by
  refine ⟨fun other => ?_, fun other => ?_⟩
  · rw [parent?, linked.get?_remove gone]
    split
    · rfl
    · exact parent?_released id other _
  · rw [children, linked.get?_remove gone]
    by_cases below : id ∈ forest.path other
    · simp [below]
    · rw [if_neg below, if_neg below, ← linked.children_released, children]

theorem Linked.remove (linked : forest.Linked) {id : WidgetId} {removed : List WidgetId}
    {after : Forest} (gone : forest.remove id = .ok (removed, after)) : after.Linked := by
  obtain ⟨parents, children⟩ := linked.remove_links gone
  refine ⟨fun {above child} => ?_, fun other => ?_, ?_⟩
  · rw [parents, children]
    have step : forest.parent? child = some above →
        (id ∈ forest.path child ↔ child = id ∨ id ∈ forest.path above) := fun up => by
      rw [linked.path_of_child up, List.mem_cons, eq_comm]
    have isChild : child ∈ forest.children above ↔ forest.parent? child = some above :=
      linked.mem_children_iff
    by_cases up : forest.parent? child = some above
    · by_cases higher : id ∈ forest.path above
      · simp [higher, (step up).mpr (Or.inr higher)]
      · by_cases same : child = id
        · have below := (step up).mpr (Or.inl same)
          rw [same] at below
          simp [higher, same, below]
        · have apart : id ∉ forest.path child := fun below =>
            ((step up).mp below).elim same higher
          simp [higher, apart, same, isChild]
    · have notChild : child ∉ forest.children above := fun member => up (isChild.mp member)
      simp only [List.mem_filter, apply_ite (fun list => child ∈ list), notChild,
        List.not_mem_nil, false_and, ite_self, false_iff]
      split
      · exact fun same => by cases same
      · exact up
  · rw [children]
    split
    · exact List.nodup_nil
    · exact (linked.children_nodup other).filter _
  · obtain ⟨rank, falls⟩ := linked.ranked
    refine ⟨rank, fun up => ?_⟩
    rw [parents] at up
    split at up
    · cases up
    · exact falls up

end Forest

end StyledWidgets
