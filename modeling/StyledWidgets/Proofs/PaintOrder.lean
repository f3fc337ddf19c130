/-
Module: StyledWidgets.Proofs.PaintOrder
Purpose: What a full repaint shows at one pixel of a window: the widgets in the order in which they
  are painted, and how the path of a widget splits that order into what lies below and above it.
Main exports: Forest.shownAt, Forest.stackAt, Forest.Linked.stackAt_eq, Forest.stackAfter,
  Forest.Linked.exists_stackAt_append, Forest.Linked.mem_later
-/
import StyledWidgets.Proofs.ForestShape
import StyledWidgets.Proofs.Pixels
import StyledWidgets.Window.Damage

namespace StyledWidgets

namespace Forest

variable {forest : Forest}

/-! ### Places in the window -/

theorem Linked.windowRect_of_root (linked : forest.Linked) {id : WidgetId}
    (root : forest.parent? id = none) : forest.windowRect id = (forest.geometry id).atOrigin := by
  simp [windowRect, linked.path_of_root root, originOf, Rect.atOrigin]

theorem Linked.windowRect_of_child (linked : forest.Linked) {child parent : WidgetId}
    (up : forest.parent? child = some parent) :
    forest.windowRect child =
      (forest.geometry child).movedBy (forest.windowRect parent).x
        (forest.windowRect parent).y := by
  obtain ⟨rest, shape⟩ := linked.exists_path_cons parent
  simp only [windowRect, linked.path_of_child up, shape, originOf, Rect.movedBy]
  congr 1 <;> omega

/-- The window position of the top-left corner of a widget. -/
def corner (forest : Forest) (id : WidgetId) : Point := forest.originOf (forest.path id)

theorem corner_eq (id : WidgetId) :
    forest.corner id = ⟨(forest.windowRect id).x, (forest.windowRect id).y⟩ := rfl

theorem Linked.levels_of_root (linked : forest.Linked) {id : WidgetId}
    (root : forest.parent? id = none) : forest.levels (forest.path id) = [] := by
  rw [linked.path_of_root root, levels]
  simp

theorem Linked.levels_of_child (linked : forest.Linked) {child parent : WidgetId}
    (up : forest.parent? child = some parent) :
    forest.levels (forest.path child) =
      ⟨child, parent, forest.corner parent⟩ :: forest.levels (forest.path parent) := by
  obtain ⟨rest, shape⟩ := linked.exists_path_cons parent
  rw [linked.path_of_child up, corner, shape, levels]

/-! ### The widgets shown at a pixel -/

/-- A widget is shown at a pixel of its window: it and every widget above it is visible and has the
pixel inside its rectangle. -/
def shownAt (forest : Forest) (pixel : Point) (id : WidgetId) : Bool :=
  (forest.path id).all fun widget =>
    forest.isVisible widget && (forest.windowRect widget).containsPoint pixel.x pixel.y

/-- The widgets of a subtree that are shown at a pixel, in the order in which a full repaint draws
them: parents before children, siblings from the bottom to the top. -/
def stackAt (forest : Forest) (pixel : Point) (id : WidgetId) : List WidgetId :=
  (forest.subtree id).filter (forest.shownAt pixel)

theorem shownAt_iff {pixel : Point} {id : WidgetId} :
    forest.shownAt pixel id = true ↔
      ∀ widget ∈ forest.path id,
        forest.isVisible widget = true ∧ pixel ∈ forest.windowRect widget := by
  simp only [shownAt, List.all_eq_true, Bool.and_eq_true]
  rfl

theorem isVisible_of_shownAt {pixel : Point} {id : WidgetId}
    (shown : forest.shownAt pixel id = true) : forest.isVisible id = true :=
  (shownAt_iff.mp shown id (mem_path_self id)).1

theorem mem_windowRect_of_shownAt {pixel : Point} {id : WidgetId}
    (shown : forest.shownAt pixel id = true) : pixel ∈ forest.windowRect id :=
  (shownAt_iff.mp shown id (mem_path_self id)).2

theorem contains_of_shownAt {pixel : Point} {id : WidgetId}
    (shown : forest.shownAt pixel id = true) : forest.contains id = true :=
  contains_of_isVisible (isVisible_of_shownAt shown)

theorem Linked.shownAt_of_root (linked : forest.Linked) {pixel : Point} {id : WidgetId}
    (root : forest.parent? id = none) :
    forest.shownAt pixel id = true ↔
      forest.isVisible id = true ∧ pixel ∈ forest.windowRect id := by
  simp [shownAt_iff, linked.path_of_root root]

theorem Linked.shownAt_of_child (linked : forest.Linked) {pixel : Point}
    {child parent : WidgetId} (up : forest.parent? child = some parent) :
    forest.shownAt pixel child = true ↔
      (forest.isVisible child = true ∧ pixel ∈ forest.windowRect child) ∧
        forest.shownAt pixel parent = true := by
  simp [shownAt_iff, linked.path_of_child up]

/-- Whoever is shown is shown inside everything above it. -/
theorem Linked.shownAt_above (linked : forest.Linked) {pixel : Point} {id above : WidgetId}
    (shown : forest.shownAt pixel id = true) (member : above ∈ forest.path id) :
    forest.shownAt pixel above = true := by
  rw [shownAt_iff] at shown ⊢
  exact fun widget onPath => shown widget (linked.mem_path_trans member onPath)

theorem Linked.mem_stackAt_iff (linked : forest.Linked) {pixel : Point} {id other : WidgetId} :
    other ∈ forest.stackAt pixel id ↔
      id ∈ forest.path other ∧ forest.shownAt pixel other = true := by
  rw [stackAt, List.mem_filter, linked.mem_subtree_iff]

theorem Linked.stackAt_nodup (linked : forest.Linked) (pixel : Point) (id : WidgetId) :
    (forest.stackAt pixel id).Nodup :=
  (linked.subtree_nodup id).filter _

theorem Linked.stackAt_eq_nil (linked : forest.Linked) {pixel : Point} {id : WidgetId}
    (hidden : forest.shownAt pixel id = false) : forest.stackAt pixel id = [] := by
  rw [List.eq_nil_iff_forall_not_mem]
  intro other member
  obtain ⟨above, shown⟩ := linked.mem_stackAt_iff.mp member
  rw [linked.shownAt_above shown above] at hidden
  cases hidden

/-- What is shown of a subtree: its widget and then what is shown below each child. -/
theorem Linked.stackAt_eq (linked : forest.Linked) {pixel : Point} {id : WidgetId}
    (shown : forest.shownAt pixel id = true) :
    forest.stackAt pixel id = id :: (forest.children id).flatMap (forest.stackAt pixel) := by
  rw [stackAt, linked.subtree_eq, List.filter_cons_of_pos shown, List.filter_flatMap]
  rfl

/-! ### What is painted after a widget -/

/-- The children of a widget split at one of them. -/
theorem Linked.children_split (linked : forest.Linked) {child parent : WidgetId}
    (up : forest.parent? child = some parent) :
    forest.children parent =
      (forest.siblingsBelow parent child).reverse ++
        child :: forest.siblingsAbove parent child := by
  have member := linked.mem_children_iff.mpr up
  rw [siblingsBelow, siblingsAbove, List.reverse_reverse]
  generalize forest.children parent = children at member
  induction children with
  | nil => simp at member
  | cons first later inductionHypothesis =>
      by_cases same : first = child
      · simp [same]
      · have further : child ∈ later := by
          rcases List.mem_cons.mp member with here | there
          · exact absurd here.symm same
          · exact there
        simpa [same] using inductionHypothesis further

theorem Linked.parent_of_siblingAbove (linked : forest.Linked) {child parent sibling : WidgetId}
    (member : sibling ∈ forest.siblingsAbove parent child) :
    forest.parent? sibling = some parent := by
  apply linked.mem_children_iff.mp
  exact (List.dropWhile_sublist _).mem (List.mem_of_mem_drop member)

theorem Linked.parent_of_siblingBelow (linked : forest.Linked) {child parent sibling : WidgetId}
    (member : sibling ∈ forest.siblingsBelow parent child) :
    forest.parent? sibling = some parent := by
  apply linked.mem_children_iff.mp
  exact (List.takeWhile_sublist _).mem (List.mem_reverse.mp member)

theorem Linked.siblingAbove_ne (linked : forest.Linked) {child parent sibling : WidgetId}
    (up : forest.parent? child = some parent)
    (member : sibling ∈ forest.siblingsAbove parent child) : sibling ≠ child := by
  have distinct := linked.children_nodup parent
  rw [linked.children_split up, List.nodup_append, List.nodup_cons] at distinct
  rintro rfl
  exact distinct.2.1.1 member

/-- What is painted at a pixel after everything below a widget: at each step of its path what is
shown of the siblings above. -/
def stackAfter (forest : Forest) (pixel : Point) (id : WidgetId) : List WidgetId :=
  (forest.levels (forest.path id)).flatMap fun level =>
    (forest.siblingsAbove level.parent level.child).flatMap (forest.stackAt pixel)

/-- What is shown of a subtree is a block in what is shown of the window. -/
theorem Linked.exists_stackAt_append (linked : forest.Linked) (pixel : Point)
    {id root : WidgetId} (onPath : root ∈ forest.path id) (top : forest.parent? root = none) :
    ∃ before,
      forest.stackAt pixel root =
        before ++ forest.stackAt pixel id ++ forest.stackAfter pixel id := by
  induction id using linked.upward with
  | _ id inductionHypothesis =>
      rcases linked.mem_path_iff.mp onPath with rfl | ⟨parent, up, further⟩
      · exact ⟨[], by simp [stackAfter, linked.levels_of_root top]⟩
      · obtain ⟨before, split⟩ := inductionHypothesis parent up further
        have after :
            forest.stackAfter pixel id =
              (forest.siblingsAbove parent id).flatMap (forest.stackAt pixel) ++
                forest.stackAfter pixel parent := by
          rw [stackAfter, linked.levels_of_child up, List.flatMap_cons]
          rfl
        rw [split, after]
        cases shown : forest.shownAt pixel parent with
        | true =>
            rw [linked.stackAt_eq shown, linked.children_split up]
            refine
              ⟨before ++ parent ::
                (forest.siblingsBelow parent id).reverse.flatMap (forest.stackAt pixel), ?_⟩
            simp
        | false =>
            have none : ∀ child, forest.parent? child = some parent →
                forest.stackAt pixel child = [] := by
              intro child upChild
              refine linked.stackAt_eq_nil (Bool.eq_false_iff.mpr fun shownChild => ?_)
              rw [((linked.shownAt_of_child upChild).mp shownChild).2] at shown
              cases shown
            have above : (forest.siblingsAbove parent id).flatMap (forest.stackAt pixel) = [] :=
              List.flatMap_eq_nil_iff.mpr fun sibling member =>
                none sibling (linked.parent_of_siblingAbove member)
            refine ⟨before, ?_⟩
            rw [linked.stackAt_eq_nil shown, none id up, above]
            simp

/-- Whoever is painted after a widget lies below it or below a sibling above some step of its
path. -/
theorem Linked.mem_later (linked : forest.Linked) {pixel : Point} {root id other : WidgetId}
    {before later : List WidgetId} (top : forest.parent? root = none)
    (split : forest.stackAt pixel root = before ++ id :: later) (member : other ∈ later) :
    forest.shownAt pixel other = true ∧
      (id ∈ forest.path other ∨
        ∃ level ∈ forest.levels (forest.path id),
          ∃ sibling ∈ forest.siblingsAbove level.parent level.child,
            sibling ∈ forest.path other) := by
  have inStack : id ∈ forest.stackAt pixel root := by simp [split]
  obtain ⟨onPath, shown⟩ := linked.mem_stackAt_iff.mp inStack
  obtain ⟨before', split'⟩ := linked.exists_stackAt_append pixel onPath top
  have distinct := linked.stackAt_nodup pixel root
  rw [linked.stackAt_eq shown] at split'
  have laterEq :
      later =
        (forest.children id).flatMap (forest.stackAt pixel) ++ forest.stackAfter pixel id := by
    rw [split, List.nodup_append, List.nodup_cons] at distinct
    rw [split, List.append_assoc, List.cons_append] at split'
    have once : id ∉ before := fun held => distinct.2.2 id held id (List.mem_cons_self ..) rfl
    exact ((List.append_cons_inj_of_notMem once distinct.2.1.1).mp split').2.2
  rw [laterEq, List.mem_append] at member
  rcases member with inside | after
  · obtain ⟨child, childMember, inChild⟩ := List.mem_flatMap.mp inside
    obtain ⟨above, shownOther⟩ := linked.mem_stackAt_iff.mp inChild
    exact
      ⟨shownOther, Or.inl (linked.parent_mem_path above (linked.mem_children_iff.mp childMember))⟩
  · obtain ⟨level, levelMember, inLevel⟩ := List.mem_flatMap.mp after
    obtain ⟨sibling, siblingMember, inSibling⟩ := List.mem_flatMap.mp inLevel
    obtain ⟨above, shownOther⟩ := linked.mem_stackAt_iff.mp inSibling
    exact ⟨shownOther, Or.inr ⟨level, levelMember, sibling, siblingMember, above⟩⟩

end Forest

end StyledWidgets
