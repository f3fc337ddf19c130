/-
Module: StyledWidgets.Proofs.ForestShape
Purpose: Forests whose links agree, and the walks in them: the path up to the window and the
  subtree below a widget, both without the bound on their length.
Main exports: Forest.Linked, Forest.Linked.path_eq, Forest.Linked.subtree_eq,
  Forest.Linked.mem_subtree_iff, Forest.Linked.subtree_nodup, Forest.Linked.downward
-/
import Mathlib.Data.List.Nodup
import Mathlib.Tactic.Common
import StyledWidgets.Widget.Forest

namespace StyledWidgets

namespace Forest

/-! ### Links that agree -/

/-- The links of a forest agree: a widget is listed once among the children of its parent and
nowhere else, and no widget lies above itself. -/
structure Linked (forest : Forest) : Prop where
  mem_children_iff : ∀ {parent child : WidgetId},
    child ∈ forest.children parent ↔ forest.parent? child = some parent
  children_nodup : ∀ id : WidgetId, (forest.children id).Nodup
  /-- Ranks fall from a widget to its parent, so every way up comes to an end. -/
  ranked : ∃ rank : WidgetId → Nat, ∀ {child parent : WidgetId},
    forest.parent? child = some parent → rank parent < rank child

variable {forest : Forest}

theorem contains_iff {id : WidgetId} :
    forest.contains id = true ↔ ∃ widget, forest.get? id = some widget := by
  simp [contains, Option.isSome_iff_exists]

theorem parent?_of_get? {id : WidgetId} {widget : Widget}
    (found : forest.get? id = some widget) : forest.parent? id = widget.parent := by
  rw [parent?, found]
  rfl

theorem geometry_of_get? {id : WidgetId} {widget : Widget}
    (found : forest.get? id = some widget) : forest.geometry id = widget.geometry := by
  rw [geometry, found]

theorem raw_lt_of_contains {id : WidgetId} (live : forest.contains id = true) :
    id.raw < forest.slots.size := by
  obtain ⟨widget, found⟩ := contains_iff.mp live
  by_contra beyond
  simp [get?, Array.getElem?_eq_none (Nat.not_lt.mp beyond)] at found

theorem mem_handedOut {id : WidgetId} (live : forest.contains id = true) : id ∈ forest.handedOut :=
  List.mem_map.mpr ⟨id.raw, List.mem_range.mpr (raw_lt_of_contains live), rfl⟩

theorem contains_of_parent {child parent : WidgetId} (up : forest.parent? child = some parent) :
    forest.contains child = true := by
  rw [parent?, Option.bind_eq_some_iff] at up
  obtain ⟨widget, found, -⟩ := up
  exact contains_iff.mpr ⟨widget, found⟩

theorem contains_of_child {parent child : WidgetId} (member : child ∈ forest.children parent) :
    forest.contains parent = true := by
  rw [children] at member
  split at member
  · exact contains_iff.mpr ⟨_, ‹_›⟩
  · simp at member

theorem contains_of_isVisible {id : WidgetId} (visible : forest.isVisible id = true) :
    forest.contains id = true := by
  rw [isVisible] at visible
  rw [contains]
  cases found : forest.get? id with
  | none => simp [found] at visible
  | some widget => rfl

theorem Linked.contains_parent (linked : forest.Linked) {child parent : WidgetId}
    (up : forest.parent? child = some parent) : forest.contains parent = true :=
  contains_of_child (linked.mem_children_iff.mpr up)

theorem Linked.upward (linked : forest.Linked) {motive : WidgetId → Prop}
    (step : ∀ id, (∀ parent, forest.parent? id = some parent → motive parent) → motive id)
    (id : WidgetId) : motive id := by
  obtain ⟨rank, falls⟩ := linked.ranked
  induction bound : rank id using Nat.strongRecOn generalizing id with
  | ind value inductionHypothesis =>
      subst bound
      exact step id fun parent up => inductionHypothesis _ (falls up) parent rfl

/-! ### The path up to the window -/

theorem head_mem_pathWithin (steps : Nat) (id : WidgetId) : id ∈ forest.pathWithin steps id := by
  cases steps with
  | zero => simp [pathWithin]
  | succ steps =>
      rw [pathWithin]
      split <;> simp

private theorem rank_le_of_mem_pathWithin {rank : WidgetId → Nat}
    (falls : ∀ {child parent : WidgetId}, forest.parent? child = some parent →
      rank parent < rank child) (steps : Nat) :
    ∀ {id other : WidgetId}, other ∈ forest.pathWithin steps id → rank other ≤ rank id := by
  induction steps with
  | zero =>
      intro id other member
      simp only [pathWithin, List.mem_singleton] at member
      exact Nat.le_of_eq (congrArg rank member)
  | succ steps inductionHypothesis =>
      intro id other member
      rw [pathWithin] at member
      split at member
      case h_1 => exact Nat.le_of_eq (congrArg rank (List.mem_singleton.mp member))
      case h_2 parent up =>
        rcases List.mem_cons.mp member with rfl | above
        · exact Nat.le_refl _
        · exact Nat.le_trans (inductionHypothesis above) (Nat.le_of_lt (falls up))

private theorem Linked.pathWithin_nodup (linked : forest.Linked) (steps : Nat) :
    ∀ id : WidgetId, (forest.pathWithin steps id).Nodup := by
  obtain ⟨rank, falls⟩ := linked.ranked
  induction steps with
  | zero => simp [pathWithin]
  | succ steps inductionHypothesis =>
      intro id
      rw [pathWithin]
      split
      case h_1 => simp
      case h_2 parent up =>
        refine List.nodup_cons.mpr ⟨?_, inductionHypothesis parent⟩
        intro member
        have lower := falls up
        have above := rank_le_of_mem_pathWithin falls steps member
        omega

private theorem Linked.contains_of_mem_pathWithin (linked : forest.Linked) (steps : Nat) :
    ∀ {id other : WidgetId}, forest.contains id = true → other ∈ forest.pathWithin steps id →
      forest.contains other = true := by
  induction steps with
  | zero =>
      intro id other live member
      simp only [pathWithin, List.mem_singleton] at member
      rwa [member]
  | succ steps inductionHypothesis =>
      intro id other live member
      rw [pathWithin] at member
      split at member
      case h_1 => rwa [List.mem_singleton.mp member]
      case h_2 parent up =>
        rcases List.mem_cons.mp member with rfl | above
        · exact live
        · exact inductionHypothesis (linked.contains_parent up) above

/-- Only slots that are in use lie on a path, each once, so a path is not longer than there are
slots. -/
private theorem Linked.length_pathWithin_le (linked : forest.Linked) (steps : Nat) {id : WidgetId}
    (live : forest.contains id = true) :
    (forest.pathWithin steps id).length ≤ forest.slots.size := by
  have distinct : ((forest.pathWithin steps id).map WidgetId.raw).Nodup :=
    (linked.pathWithin_nodup steps id).map fun one other same => by
      cases one
      cases other
      exact congrArg WidgetId.mk same
  have inSlots : (forest.pathWithin steps id).map WidgetId.raw ⊆ List.range forest.slots.size := by
    intro raw member
    obtain ⟨other, onPath, rfl⟩ := List.mem_map.mp member
    exact List.mem_range.mpr
      (raw_lt_of_contains (linked.contains_of_mem_pathWithin steps live onPath))
  simpa using distinct.length_le_of_subset inSlots

private theorem pathWithin_stable (steps : Nat) :
    ∀ {id : WidgetId}, (forest.pathWithin steps id).length ≤ steps →
      ∀ {more : Nat}, steps ≤ more → forest.pathWithin more id = forest.pathWithin steps id := by
  induction steps with
  | zero =>
      intro id short
      simp [pathWithin] at short
  | succ steps inductionHypothesis =>
      intro id short more le
      cases more with
      | zero => omega
      | succ more =>
          cases up : forest.parent? id with
          | none => simp only [pathWithin, up]
          | some parent =>
              simp only [pathWithin, up, List.length_cons, Nat.add_le_add_iff_right] at short ⊢
              rw [inductionHypothesis short (Nat.le_of_succ_le_succ le)]

/-- The path of a widget is the widget and the path of its parent. -/
theorem Linked.path_eq (linked : forest.Linked) (id : WidgetId) :
    forest.path id =
      match forest.parent? id with
      | none => [id]
      | some parent => id :: forest.path parent := by
  cases up : forest.parent? id with
  | none =>
      rw [path]
      cases forest.slots.size with
      | zero => rfl
      | succ steps => simp only [pathWithin, up]
  | some parent =>
      have short := linked.length_pathWithin_le forest.slots.size (contains_of_parent up)
      have used := raw_lt_of_contains (contains_of_parent up)
      simp only [path]
      have nonempty : 0 < forest.slots.size := by omega
      obtain ⟨steps, size⟩ := Nat.exists_eq_add_one.mpr nonempty
      rw [size] at short ⊢
      simp only [pathWithin, up, List.length_cons, Nat.add_le_add_iff_right] at short ⊢
      exact congrArg _ (pathWithin_stable steps short (Nat.le_succ steps)).symm

theorem Linked.path_of_root (linked : forest.Linked) {id : WidgetId}
    (root : forest.parent? id = none) : forest.path id = [id] := by
  rw [linked.path_eq, root]

theorem Linked.path_of_child (linked : forest.Linked) {child parent : WidgetId}
    (up : forest.parent? child = some parent) :
    forest.path child = child :: forest.path parent := by
  rw [linked.path_eq, up]

/-- A path starts with its widget. -/
theorem Linked.exists_path_cons (linked : forest.Linked) (id : WidgetId) :
    ∃ rest, forest.path id = id :: rest := by
  rw [linked.path_eq]
  cases forest.parent? id with
  | none => exact ⟨[], rfl⟩
  | some parent => exact ⟨forest.path parent, rfl⟩

theorem mem_path_self (id : WidgetId) : id ∈ forest.path id := head_mem_pathWithin _ id

theorem Linked.path_nodup (linked : forest.Linked) (id : WidgetId) : (forest.path id).Nodup :=
  linked.pathWithin_nodup _ id

theorem Linked.contains_of_mem_path (linked : forest.Linked) {id other : WidgetId}
    (live : forest.contains id = true) (member : other ∈ forest.path id) :
    forest.contains other = true :=
  linked.contains_of_mem_pathWithin _ live member

theorem Linked.length_path_le (linked : forest.Linked) {id : WidgetId}
    (live : forest.contains id = true) : (forest.path id).length ≤ forest.slots.size :=
  linked.length_pathWithin_le _ live

theorem Linked.mem_path_iff (linked : forest.Linked) {id other : WidgetId} :
    other ∈ forest.path id ↔
      other = id ∨ ∃ parent, forest.parent? id = some parent ∧ other ∈ forest.path parent := by
  rw [linked.path_eq]
  cases forest.parent? id <;> simp

/-- What is below a widget is there if the widget is. -/
theorem Linked.contains_of_below (linked : forest.Linked) {id other : WidgetId}
    (live : forest.contains id = true) (above : id ∈ forest.path other) :
    forest.contains other = true := by
  rcases linked.mem_path_iff.mp above with rfl | ⟨parent, up, -⟩
  · exact live
  · exact contains_of_parent up

/-- The path of an ancestor is the end of the path. -/
theorem Linked.path_append (linked : forest.Linked) {id ancestor : WidgetId}
    (above : ancestor ∈ forest.path id) :
    ∃ below, forest.path id = below ++ forest.path ancestor := by
  induction id using linked.upward with
  | _ id inductionHypothesis =>
      rcases linked.mem_path_iff.mp above with rfl | ⟨parent, up, further⟩
      · exact ⟨[], rfl⟩
      · obtain ⟨below, split⟩ := inductionHypothesis parent up further
        exact ⟨id :: below, by rw [linked.path_of_child up, split, List.cons_append]⟩

theorem Linked.mem_path_trans (linked : forest.Linked) {low middle high : WidgetId}
    (first : middle ∈ forest.path low) (second : high ∈ forest.path middle) :
    high ∈ forest.path low := by
  obtain ⟨below, split⟩ := linked.path_append first
  rw [split]
  exact List.mem_append_right below second

theorem Linked.parent_mem_path (linked : forest.Linked) {id below parent : WidgetId}
    (member : below ∈ forest.path id) (up : forest.parent? below = some parent) :
    parent ∈ forest.path id :=
  linked.mem_path_trans member
    (linked.mem_path_iff.mpr (Or.inr ⟨parent, up, mem_path_self parent⟩))

/-- A set of widgets that has the parent of each member has the whole path of each member. -/
theorem Linked.mem_of_mem_path (linked : forest.Linked) {members : List WidgetId}
    (upward : ∀ {child parent : WidgetId}, child ∈ members →
      forest.parent? child = some parent → parent ∈ members)
    {id above : WidgetId} (member : id ∈ members) (onPath : above ∈ forest.path id) :
    above ∈ members := by
  induction id using linked.upward with
  | _ id inductionHypothesis =>
      rcases linked.mem_path_iff.mp onPath with rfl | ⟨parent, up, further⟩
      · exact member
      · exact inductionHypothesis parent up (upward member up) further

/-- No widget lies above its parent's path. -/
theorem Linked.not_mem_path_parent (linked : forest.Linked) {child parent : WidgetId}
    (up : forest.parent? child = some parent) : child ∉ forest.path parent := by
  have distinct := linked.path_nodup child
  rw [linked.path_of_child up] at distinct
  exact (List.nodup_cons.mp distinct).1

/-- Two widgets are not above each other. -/
theorem Linked.path_antisymm (linked : forest.Linked) {one other : WidgetId}
    (first : one ∈ forest.path other) (second : other ∈ forest.path one) : one = other := by
  rcases linked.mem_path_iff.mp first with same | ⟨parent, up, further⟩
  · exact same
  · exact absurd (linked.mem_path_trans further second) (linked.not_mem_path_parent up)

/-- A path passes through at most one child of a widget. -/
theorem Linked.child_on_path_unique (linked : forest.Linked) {id one other parent : WidgetId}
    (first : one ∈ forest.path id) (second : other ∈ forest.path id)
    (upOne : forest.parent? one = some parent) (upOther : forest.parent? other = some parent) :
    one = other := by
  induction id using linked.upward with
  | _ id inductionHypothesis =>
      rcases linked.mem_path_iff.mp first with rfl | ⟨next, up, further⟩
      · rcases linked.mem_path_iff.mp second with rfl | ⟨next, up, further⟩
        · rfl
        · rw [upOne] at up
          cases up
          exact absurd further (linked.not_mem_path_parent upOther)
      · rcases linked.mem_path_iff.mp second with rfl | ⟨_, up', further'⟩
        · rw [upOther] at up
          cases up
          exact absurd further (linked.not_mem_path_parent upOne)
        · rw [up] at up'
          cases up'
          exact inductionHypothesis next up further further'

/-- A strict ancestor is reached through one of its children. -/
theorem Linked.exists_child_on_path (linked : forest.Linked) {id ancestor : WidgetId}
    (above : ancestor ∈ forest.path id) (strict : ancestor ≠ id) :
    ∃ child, forest.parent? child = some ancestor ∧ child ∈ forest.path id := by
  induction id using linked.upward with
  | _ id inductionHypothesis =>
      rcases linked.mem_path_iff.mp above with rfl | ⟨parent, up, further⟩
      · exact absurd rfl strict
      · by_cases same : ancestor = parent
        · exact ⟨id, same ▸ up, mem_path_self id⟩
        · obtain ⟨child, upChild, onPath⟩ := inductionHypothesis parent up further same
          exact ⟨child, upChild, linked.mem_path_iff.mpr (Or.inr ⟨parent, up, onPath⟩)⟩

/-- A path ends at the widget on it that has no parent. -/
theorem Linked.getLast?_path_iff (linked : forest.Linked) {id root : WidgetId} :
    (forest.path id).getLast? = some root ↔
      root ∈ forest.path id ∧ forest.parent? root = none := by
  induction id using linked.upward with
  | _ id inductionHypothesis =>
      cases up : forest.parent? id with
      | none =>
          rw [linked.path_of_root up, List.getLast?_singleton, List.mem_singleton]
          constructor
          · intro same
            cases same
            exact ⟨rfl, up⟩
          · rintro ⟨rfl, -⟩
            rfl
      | some parent =>
          have further : (forest.path id).getLast? = (forest.path parent).getLast? := by
            obtain ⟨rest, shape⟩ := linked.exists_path_cons parent
            rw [linked.path_of_child up, shape, List.getLast?_cons_cons]
          rw [further, inductionHypothesis parent up, linked.path_of_child up, List.mem_cons]
          constructor
          · rintro ⟨member, top⟩
            exact ⟨Or.inr member, top⟩
          · rintro ⟨rfl | member, top⟩
            · rw [up] at top
              cases top
            · exact ⟨member, top⟩

/-- The window at the end of a path is at the end of every path that starts on it. -/
theorem Linked.root_mem_path (linked : forest.Linked) {id above root : WidgetId}
    (onPath : above ∈ forest.path id) (member : root ∈ forest.path id)
    (top : forest.parent? root = none) : root ∈ forest.path above := by
  obtain ⟨below, split⟩ := linked.path_append onPath
  have last := linked.getLast?_path_iff.mpr ⟨member, top⟩
  obtain ⟨rest, shape⟩ := linked.exists_path_cons above
  rw [split, shape, List.getLast?_append_of_ne_nil _ (List.cons_ne_nil _ _), ← shape] at last
  exact (linked.getLast?_path_iff.mp last).1

/-! ### The subtree below a widget -/

private theorem Linked.length_path_child (linked : forest.Linked) {child parent : WidgetId}
    (member : child ∈ forest.children parent) :
    (forest.path child).length = (forest.path parent).length + 1 ∧
      (forest.path child).length ≤ forest.slots.size := by
  have up := linked.mem_children_iff.mp member
  refine ⟨?_, linked.length_path_le (contains_of_parent up)⟩
  rw [linked.path_of_child up, List.length_cons]

/-- What holds of a widget as soon as it holds of its children holds everywhere. -/
theorem Linked.downward (linked : forest.Linked) {motive : WidgetId → Prop}
    (step : ∀ id, (∀ child ∈ forest.children id, motive child) → motive id)
    (id : WidgetId) : motive id := by
  induction bound : forest.slots.size - (forest.path id).length using Nat.strongRecOn
    generalizing id with
  | ind value inductionHypothesis =>
      subst bound
      refine step id fun child member => inductionHypothesis _ ?_ child rfl
      have lengths := linked.length_path_child member
      omega

private theorem Linked.subtreeWithin_stable (linked : forest.Linked) (depth : Nat) :
    ∀ {id : WidgetId}, forest.slots.size ≤ depth + (forest.path id).length →
      ∀ {more : Nat}, depth ≤ more →
        forest.subtreeWithin more id = forest.subtreeWithin depth id := by
  induction depth with
  | zero =>
      intro id deep more _
      have leaf : forest.children id = [] := by
        rw [List.eq_nil_iff_forall_not_mem]
        intro child member
        have lengths := linked.length_path_child member
        omega
      cases more with
      | zero => rfl
      | succ more => simp [subtreeWithin, leaf]
  | succ depth inductionHypothesis =>
      intro id deep more le
      cases more with
      | zero => omega
      | succ more =>
          rw [subtreeWithin, subtreeWithin]
          refine congrArg _ (List.flatMap_congr fun child member => ?_)
          have lengths := linked.length_path_child member
          exact inductionHypothesis (by omega) (by omega)

/-- The subtree of a widget is the widget followed by the subtrees of its children. -/
theorem Linked.subtree_eq (linked : forest.Linked) (id : WidgetId) :
    forest.subtree id = id :: (forest.children id).flatMap forest.subtree := by
  have once : forest.subtree id = forest.subtreeWithin (forest.slots.size + 1) id :=
    (linked.subtreeWithin_stable forest.slots.size (Nat.le_add_right _ _) (Nat.le_succ _)).symm
  rw [once, subtreeWithin]
  rfl

theorem Linked.mem_subtree_self (linked : forest.Linked) (id : WidgetId) :
    id ∈ forest.subtree id := by
  rw [linked.subtree_eq]
  exact List.mem_cons_self ..

private theorem Linked.child_mem_subtree (linked : forest.Linked) {id below child : WidgetId}
    (member : below ∈ forest.subtree id) (childMember : child ∈ forest.children below) :
    child ∈ forest.subtree id := by
  induction id using linked.downward with
  | _ id inductionHypothesis =>
      rw [linked.subtree_eq, List.mem_cons, List.mem_flatMap] at member ⊢
      rcases member with rfl | ⟨next, nextMember, deeper⟩
      · exact Or.inr ⟨child, childMember, linked.mem_subtree_self child⟩
      · exact Or.inr ⟨next, nextMember, inductionHypothesis next nextMember deeper⟩

/-- A widget is in the subtree of exactly the widgets on its path. -/
theorem Linked.mem_subtree_iff (linked : forest.Linked) {id other : WidgetId} :
    other ∈ forest.subtree id ↔ id ∈ forest.path other := by
  constructor
  · intro member
    induction id using linked.downward with
    | _ id inductionHypothesis =>
        rw [linked.subtree_eq, List.mem_cons, List.mem_flatMap] at member
        rcases member with rfl | ⟨child, childMember, deeper⟩
        · exact mem_path_self other
        · exact
            linked.parent_mem_path (inductionHypothesis child childMember deeper)
              (linked.mem_children_iff.mp childMember)
  · intro member
    induction other using linked.upward with
    | _ other inductionHypothesis =>
        rcases linked.mem_path_iff.mp member with rfl | ⟨parent, up, further⟩
        · exact linked.mem_subtree_self id
        · exact
            linked.child_mem_subtree (inductionHypothesis parent up further)
              (linked.mem_children_iff.mpr up)

theorem Linked.subtree_nodup (linked : forest.Linked) (id : WidgetId) :
    (forest.subtree id).Nodup := by
  induction id using linked.downward with
  | _ id inductionHypothesis =>
      rw [linked.subtree_eq, List.nodup_cons, List.nodup_flatMap]
      refine ⟨?_, inductionHypothesis, ?_⟩
      · intro member
        obtain ⟨child, childMember, deeper⟩ := List.mem_flatMap.mp member
        exact
          linked.not_mem_path_parent (linked.mem_children_iff.mp childMember)
            (linked.mem_subtree_iff.mp deeper)
      · apply List.Nodup.pairwise_of_forall_ne (linked.children_nodup id)
        intro one memberOne other memberOther apart below belowOne belowOther
        exact
          apart
            (linked.child_on_path_unique (linked.mem_subtree_iff.mp belowOne)
              (linked.mem_subtree_iff.mp belowOther) (linked.mem_children_iff.mp memberOne)
              (linked.mem_children_iff.mp memberOther))

end Forest

end StyledWidgets
