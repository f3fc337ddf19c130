/-
Module: StyledWidgets.Proofs.RepaintClosure
Purpose: The widgets that are repainted together at one pixel are a whole piece of what is shown
  there: nothing shown above one of them is left out, and at the bottom stands an opaque widget or
  the window.
Main exports: Forest.NeverOverlapping, Forest.Linked.shownAt_of_mem_repaintedAt,
  Forest.Linked.repaintedAt_above, Forest.Linked.exists_bottom
-/
import StyledWidgets.Proofs.RepaintedPixels

namespace StyledWidgets

namespace Forest

variable {forest : Forest} {settings : RepaintSettings} {pixel : Point}

/-! ### Steps of a path -/

theorem Linked.mem_levels_iff (linked : forest.Linked) {id : WidgetId} {level : Level} :
    level ∈ forest.levels (forest.path id) ↔
      level.child ∈ forest.path id ∧ forest.parent? level.child = some level.parent ∧
        level.origin = forest.corner level.parent := by
  induction id using linked.upward with
  | _ id inductionHypothesis =>
      cases up : forest.parent? id with
      | none =>
          rw [linked.levels_of_root up, linked.path_of_root up, List.mem_singleton]
          simp only [List.not_mem_nil, false_iff, not_and]
          rintro rfl upward
          rw [up] at upward
          cases upward
      | some parent =>
          rw [linked.levels_of_child up, linked.path_of_child up, List.mem_cons, List.mem_cons,
            inductionHypothesis parent up]
          constructor
          · rintro (rfl | ⟨member, upward, origin⟩)
            · exact ⟨Or.inl rfl, up, rfl⟩
            · exact ⟨Or.inr member, upward, origin⟩
          · rintro ⟨rfl | member, upward, origin⟩
            · left
              rw [up, Option.some_inj] at upward
              obtain ⟨child, above, corner⟩ := level
              subst upward
              exact congrArg _ origin
            · exact Or.inr ⟨member, upward, origin⟩

/-- The steps above a widget of a path are steps of the path. -/
theorem Linked.levels_subset (linked : forest.Linked) {id above : WidgetId} {level : Level}
    (onPath : above ∈ forest.path id) (member : level ∈ forest.levels (forest.path above)) :
    level ∈ forest.levels (forest.path id) := by
  rw [linked.mem_levels_iff] at member ⊢
  exact ⟨linked.mem_path_trans onPath member.1, member.2⟩

/-! ### Children that never overlap -/

/-- The declarations that children never overlap are true, if they are honored. -/
def NeverOverlapping (forest : Forest) (settings : RepaintSettings) : Prop :=
  settings.honorNonOverlap = true → ∀ {parent one other : WidgetId},
    forest.childrenNeverOverlap parent = true → forest.parent? one = some parent →
      forest.parent? other = some parent → one ≠ other → forest.isVisible one = true →
        forest.isVisible other = true →
          (forest.geometry one).intersects (forest.geometry other) = false

theorem neverOverlapping_of_unflagged
    (unflagged : ∀ slot ∈ forest.slots, slot.any Widget.childrenNeverOverlap = false)
    (settings : RepaintSettings) : forest.NeverOverlapping settings := by
  intro _ parent one other flagged
  rw [childrenNeverOverlap, get?] at flagged
  cases inside : forest.slots[parent.raw]? with
  | none => simp [inside] at flagged
  | some slot =>
      rw [inside] at flagged
      have clear := unflagged slot (Array.mem_of_getElem? inside)
      rw [show (some slot).join = slot from rfl, clear] at flagged
      cases flagged

/-- Where siblings are not examined, no sibling of a shown widget is shown. -/
theorem NeverOverlapping.not_shown (apart : forest.NeverOverlapping settings)
    (linked : forest.Linked) {child parent sibling : WidgetId} {origin : Point}
    (skips : skipsSiblings forest settings ⟨child, parent, origin⟩ = true)
    (up : forest.parent? child = some parent) (upSibling : forest.parent? sibling = some parent)
    (distinct : sibling ≠ child) (shown : forest.shownAt pixel child = true) :
    forest.shownAt pixel sibling = false := by
  rw [Bool.eq_false_iff]
  intro shownSibling
  obtain ⟨honored, flagged⟩ := Bool.and_eq_true _ _ ▸ skips
  obtain ⟨⟨visible, inRect⟩, -⟩ := (linked.shownAt_of_child up).mp shown
  obtain ⟨⟨visibleSibling, inSibling⟩, -⟩ := (linked.shownAt_of_child upSibling).mp shownSibling
  have disjoint := apart honored flagged upSibling up distinct visibleSibling visible
  rw [linked.mem_windowRect_child up] at inRect
  rw [linked.mem_windowRect_child upSibling] at inSibling
  rw [Rect.intersects_iff.mpr ⟨_, inSibling, inRect⟩] at disjoint
  cases disjoint

/-! ### Repainted widgets are shown -/

theorem mem_belowAt {siblings : List WidgetId} {widget : WidgetId}
    (member : widget ∈ (forest.belowAt pixel siblings).1) :
    widget ∈ siblings ∧ forest.isVisible widget = true ∧ pixel ∈ forest.windowRect widget := by
  induction siblings with
  | nil => simp [belowAt] at member
  | cons sibling lower inductionHypothesis =>
      rw [belowAt] at member
      split at member
      case isTrue shows =>
        rw [Bool.and_eq_true, Rect.containsPoint_iff] at shows
        split at member
        · rw [List.mem_singleton.mp member]
          exact ⟨List.mem_cons_self .., shows⟩
        · rcases List.mem_cons.mp member with rfl | further
          · exact ⟨List.mem_cons_self .., shows⟩
          · exact (inductionHypothesis further).imp_left (List.mem_cons_of_mem _)
      case isFalse => exact (inductionHypothesis member).imp_left (List.mem_cons_of_mem _)

theorem mem_levelBelowAt {level : Level} {widget : WidgetId}
    (member : widget ∈ (forest.levelBelowAt settings pixel level).1) :
    widget ∈ forest.siblingsBelow level.parent level.child ∧
      forest.isVisible widget = true ∧ pixel ∈ forest.windowRect widget := by
  rw [levelBelowAt] at member
  split at member
  · simp at member
  · exact mem_belowAt member

theorem mem_behindAt_cons {level : Level} {outer : List Level} {widget : WidgetId}
    (member : widget ∈ forest.behindAt settings pixel (level :: outer)) :
    widget ∈ (forest.levelBelowAt settings pixel level).1 ∨ widget = level.parent ∨
      (widget ∈ forest.behindAt settings pixel outer ∧
        ∀ other ∈ level.parent :: forest.behindAt settings pixel outer,
          other ∈ forest.behindAt settings pixel (level :: outer)) := by
  rw [behindAt] at member ⊢
  split at member
  case isTrue through =>
    rw [if_pos through]
    rcases List.mem_append.mp member with below | further
    · exact Or.inl below
    · rcases List.mem_cons.mp further with rfl | behind
      · exact Or.inr (Or.inl rfl)
      · split at behind
        case isTrue => simp at behind
        case isFalse translucent =>
          refine Or.inr (Or.inr ⟨behind, fun other held => ?_⟩)
          rw [if_neg translucent]
          exact List.mem_append_right _ held
  case isFalse => exact Or.inl member

theorem Linked.shownAt_of_mem_behindAt (linked : forest.Linked) {id widget : WidgetId}
    (shown : forest.shownAt pixel id = true)
    (member : widget ∈ forest.behindAt settings pixel (forest.levels (forest.path id))) :
    forest.shownAt pixel widget = true ∧
      ∀ root ∈ forest.path id, forest.parent? root = none → root ∈ forest.path widget := by
  induction id using linked.upward with
  | _ id inductionHypothesis =>
      cases up : forest.parent? id with
      | none => simp [linked.levels_of_root up, behindAt] at member
      | some parent =>
          rw [linked.levels_of_child up] at member
          have shownParent := ((linked.shownAt_of_child up).mp shown).2
          have onPath := fun root (rootMember : root ∈ forest.path id) top =>
            linked.root_mem_path (linked.parent_mem_path (mem_path_self id) up) rootMember top
          rcases mem_behindAt_cons member with below | rfl | ⟨behind, -⟩
          · obtain ⟨sibling, visible, inRect⟩ := mem_levelBelowAt below
            have upSibling := linked.parent_of_siblingBelow sibling
            refine
              ⟨(linked.shownAt_of_child upSibling).mpr ⟨⟨visible, inRect⟩, shownParent⟩,
                fun root rootMember top => ?_⟩
            exact
              linked.mem_path_iff.mpr (Or.inr ⟨parent, upSibling, onPath root rootMember top⟩)
          · exact ⟨shownParent, onPath⟩
          · obtain ⟨shownWidget, above⟩ := inductionHypothesis parent up shownParent behind
            exact
              ⟨shownWidget, fun root rootMember top =>
                above root (onPath root rootMember top) top⟩

theorem Linked.shownAt_of_mem_repaintedAt (linked : forest.Linked) {id widget : WidgetId}
    (shown : forest.shownAt pixel id = true)
    (member : widget ∈ forest.repaintedAt settings pixel id) :
    forest.shownAt pixel widget = true ∧
      ∀ root ∈ forest.path id, forest.parent? root = none → root ∈ forest.path widget := by
  rw [repaintedAt, List.mem_cons, List.mem_append] at member
  rcases member with rfl | seen | behind
  · exact ⟨shown, fun _ rootMember _ => rootMember⟩
  · obtain ⟨level, levelMember, -, sibling, visible, -, inRect⟩ := mem_seenThroughAt_iff.mp seen
    obtain ⟨onPath, up, -⟩ := linked.mem_levels_iff.mp levelMember
    have upSibling := linked.parent_of_siblingAbove sibling
    have shownParent := linked.shownAt_above shown (linked.parent_mem_path onPath up)
    refine
      ⟨(linked.shownAt_of_child upSibling).mpr ⟨⟨visible, inRect⟩, shownParent⟩,
        fun root rootMember top => ?_⟩
    refine linked.mem_path_iff.mpr (Or.inr ⟨level.parent, upSibling, ?_⟩)
    exact linked.root_mem_path (linked.parent_mem_path onPath up) rootMember top
  · split at behind
    · simp at behind
    · exact linked.shownAt_of_mem_behindAt shown behind

/-! ### Nothing above is left out -/

theorem Linked.siblingsAbove_eq (linked : forest.Linked) {child parent : WidgetId}
    {below above : List WidgetId} (split : forest.children parent = below ++ child :: above) :
    forest.siblingsAbove parent child = above := by
  have up : forest.parent? child = some parent :=
    linked.mem_children_iff.mp (by simp [split])
  have distinct := linked.children_nodup parent
  have cut := linked.children_split up
  rw [split] at cut distinct
  rw [List.nodup_append, List.nodup_cons] at distinct
  have once : child ∉ below := fun held => distinct.2.2 child held child (List.mem_cons_self ..) rfl
  exact ((List.append_cons_inj_of_notMem once distinct.2.1.1).mp cut).2.2.symm

theorem Linked.siblingsAbove_of_above (linked : forest.Linked)
    {child parent sibling : WidgetId} (up : forest.parent? child = some parent)
    (member : sibling ∈ forest.siblingsAbove parent child) {higher : WidgetId}
    (above : higher ∈ forest.siblingsAbove parent sibling) :
    higher ∈ forest.siblingsAbove parent child := by
  have split := linked.children_split up
  obtain ⟨between, rest, cut⟩ := List.append_of_mem member
  rw [cut, ← List.cons_append, ← List.append_assoc] at split
  rw [linked.siblingsAbove_eq split] at above
  rw [cut]
  exact List.mem_append_right between (List.mem_cons_of_mem sibling above)

theorem Linked.siblingsAbove_of_below (linked : forest.Linked)
    {child parent sibling : WidgetId} (up : forest.parent? child = some parent)
    {between lower : List WidgetId}
    (cut : forest.siblingsBelow parent child = between ++ sibling :: lower) :
    forest.siblingsAbove parent sibling =
      between.reverse ++ child :: forest.siblingsAbove parent child := by
  have split : forest.children parent =
      lower.reverse ++ sibling ::
        (between.reverse ++ child :: forest.siblingsAbove parent child) := by
    rw [linked.children_split up, cut]
    simp
  exact linked.siblingsAbove_eq split

/-- Between a sibling that shows a pixel and the widget it is below of, all others that have the
pixel show it, too. -/
theorem belowAt_split {siblings : List WidgetId} {widget : WidgetId}
    (member : widget ∈ (forest.belowAt pixel siblings).1) :
    ∃ between lower, siblings = between ++ widget :: lower ∧
      ∀ higher ∈ between, forest.isVisible higher = true → pixel ∈ forest.windowRect higher →
        higher ∈ (forest.belowAt pixel siblings).1 := by
  induction siblings with
  | nil => simp [belowAt] at member
  | cons sibling rest inductionHypothesis =>
      rw [belowAt] at member ⊢
      split at member
      case isTrue shows =>
        rw [if_pos shows]
        split at member
        case isTrue isOpaque =>
          rw [List.mem_singleton.mp member]
          exact ⟨[], rest, rfl, by simp⟩
        case isFalse translucent =>
          rw [if_neg translucent]
          rcases List.mem_cons.mp member with rfl | further
          · exact ⟨[], rest, rfl, by simp⟩
          · obtain ⟨between, lower, split, shown⟩ := inductionHypothesis further
            refine ⟨sibling :: between, lower, by rw [split]; rfl, fun higher held => ?_⟩
            rcases List.mem_cons.mp held with rfl | inner
            · exact fun _ _ => List.mem_cons_self ..
            · exact fun visible inRect =>
                List.mem_cons_of_mem _ (shown higher inner visible inRect)
      case isFalse hides =>
        rw [if_neg hides]
        obtain ⟨between, lower, split, shown⟩ := inductionHypothesis member
        refine ⟨sibling :: between, lower, by rw [split]; rfl, fun higher held => ?_⟩
        rcases List.mem_cons.mp held with rfl | inner
        · intro visible inRect
          rw [visible, Rect.containsPoint_iff.mpr inRect] at hides
          exact absurd rfl hides
        · exact shown higher inner

/-- The same with the siblings above a sibling that shows the pixel. -/
theorem Linked.levelBelowAt_above (linked : forest.Linked) {id parent widget sibling : WidgetId}
    (up : forest.parent? id = some parent) (shown : forest.shownAt pixel sibling = true)
    (below : widget ∈
      (forest.levelBelowAt settings pixel ⟨id, parent, forest.corner parent⟩).1)
    (above : sibling ∈ forest.siblingsAbove parent widget) :
    sibling = id ∨
      sibling ∈ (forest.levelBelowAt settings pixel ⟨id, parent, forest.corner parent⟩).1 ∨
        sibling ∈ forest.siblingsAbove parent id := by
  rw [levelBelowAt] at below ⊢
  split at below
  · simp at below
  case isFalse examined =>
    rw [if_neg examined]
    obtain ⟨between, lower, cut, others⟩ := belowAt_split below
    have upSibling := linked.parent_of_siblingAbove above
    rw [linked.siblingsAbove_of_below up cut, List.mem_append, List.mem_cons,
      List.mem_reverse] at above
    rcases above with inner | rfl | higher
    · obtain ⟨visible, inRect⟩ := ((linked.shownAt_of_child upSibling).mp shown).1
      exact Or.inr (Or.inl (others sibling inner visible inRect))
    · exact Or.inl rfl
    · exact Or.inr (Or.inr higher)

theorem levelBelowAt_subset {level : Level} {outer : List Level} {widget : WidgetId}
    (member : widget ∈ (forest.levelBelowAt settings pixel level).1) :
    widget ∈ forest.behindAt settings pixel (level :: outer) := by
  rw [behindAt]
  split
  · exact List.mem_append_left _ member
  · exact member

/-- What shows through is closed upward: a shown sibling above a step of the path of one of these
widgets is one of them, or it stands on the path itself, or above a step of it. -/
theorem Linked.behindAt_above (linked : forest.Linked) {id widget : WidgetId}
    (member : widget ∈ forest.behindAt settings pixel (forest.levels (forest.path id)))
    {level : Level} (levelMember : level ∈ forest.levels (forest.path widget))
    {sibling : WidgetId} (above : sibling ∈ forest.siblingsAbove level.parent level.child)
    (shown : forest.shownAt pixel sibling = true) :
    sibling = id ∨
      sibling ∈ forest.behindAt settings pixel (forest.levels (forest.path id)) ∨
        ∃ step ∈ forest.levels (forest.path id),
          sibling ∈ forest.siblingsAbove step.parent step.child := by
  induction id using linked.upward with
  | _ id inductionHypothesis =>
      cases up : forest.parent? id with
      | none => simp [linked.levels_of_root up, behindAt] at member
      | some parent =>
          have steps := linked.levels_of_child up
          have higher : level ∈ forest.levels (forest.path parent) →
              ∃ step ∈ forest.levels (forest.path id),
                sibling ∈ forest.siblingsAbove step.parent step.child := by
            intro further
            exact ⟨level, steps ▸ List.mem_cons_of_mem _ further, above⟩
          rw [steps] at member
          rcases mem_behindAt_cons member with below | rfl | ⟨behind, chain⟩
          · have upWidget := linked.parent_of_siblingBelow (mem_levelBelowAt below).1
            rw [linked.levels_of_child upWidget] at levelMember
            rcases List.mem_cons.mp levelMember with rfl | further
            · rcases linked.levelBelowAt_above up shown below above with rfl | inner | isAbove
              · exact Or.inl rfl
              · exact Or.inr (Or.inl (steps ▸ levelBelowAt_subset inner))
              · exact Or.inr (Or.inr ⟨_, steps ▸ List.mem_cons_self .., isAbove⟩)
            · exact Or.inr (Or.inr (higher further))
          · exact Or.inr (Or.inr (higher levelMember))
          · rcases inductionHypothesis parent up behind with
              rfl | inner | ⟨step, stepMember, isAbove⟩
            · exact Or.inr (Or.inl (steps ▸ chain _ (List.mem_cons_self ..)))
            · exact Or.inr (Or.inl (steps ▸ chain _ (List.mem_cons_of_mem _ inner)))
            · exact Or.inr (Or.inr ⟨step, steps ▸ List.mem_cons_of_mem _ stepMember, isAbove⟩)

theorem Linked.mem_seenThroughAt_of_above (linked : forest.Linked)
    (apart : forest.NeverOverlapping settings) {id sibling : WidgetId}
    (exposed : forest.ExposedAt settings pixel id) {level : Level}
    (member : level ∈ forest.levels (forest.path id))
    (above : sibling ∈ forest.siblingsAbove level.parent level.child)
    (shown : forest.shownAt pixel sibling = true) :
    sibling ∈ forest.seenThroughAt settings pixel (forest.levels (forest.path id)) := by
  obtain ⟨onPath, up, -⟩ := linked.mem_levels_iff.mp member
  have upSibling := linked.parent_of_siblingAbove above
  have shownChild := linked.shownAt_above exposed.shown onPath
  have examined : skipsSiblings forest settings level = false := by
    rw [Bool.eq_false_iff]
    intro skips
    have hidden :=
      apart.not_shown linked skips up upSibling (linked.siblingAbove_ne up above) shownChild
    rw [shown] at hidden
    cases hidden
  have uncovered := (exposed.uncovered level member).resolve_left (by simp [examined])
  obtain ⟨visible, inRect⟩ := ((linked.shownAt_of_child upSibling).mp shown).1
  have translucent : forest.isOpaque sibling = false := by
    rw [Bool.eq_false_iff]
    exact fun isOpaque => uncovered ⟨sibling, above, visible, isOpaque, inRect⟩
  exact
    mem_seenThroughAt_iff.mpr ⟨level, member, examined, above, visible, translucent, inRect⟩

/-- A shown sibling above some step of the path of a repainted widget is repainted with it. -/
theorem Linked.repaintedAt_above (linked : forest.Linked)
    (apart : forest.NeverOverlapping settings) {id widget : WidgetId}
    (exposed : forest.ExposedAt settings pixel id)
    (member : widget ∈ forest.repaintedAt settings pixel id) {level : Level}
    (levelMember : level ∈ forest.levels (forest.path widget)) {sibling : WidgetId}
    (above : sibling ∈ forest.siblingsAbove level.parent level.child)
    (shown : forest.shownAt pixel sibling = true) :
    sibling ∈ forest.repaintedAt settings pixel id := by
  have overPath : ∀ {step : Level}, step ∈ forest.levels (forest.path id) →
      sibling ∈ forest.siblingsAbove step.parent step.child →
        sibling ∈ forest.repaintedAt settings pixel id := by
    intro step stepMember isAbove
    exact
      List.mem_cons_of_mem _ (List.mem_append_left _
        (linked.mem_seenThroughAt_of_above apart exposed stepMember isAbove shown))
  rw [repaintedAt, List.mem_cons, List.mem_append] at member
  rcases member with rfl | seen | behind
  · exact overPath levelMember above
  · obtain ⟨step, stepMember, -, isAbove, -⟩ := mem_seenThroughAt_iff.mp seen
    obtain ⟨onPath, up, -⟩ := linked.mem_levels_iff.mp stepMember
    rw [linked.levels_of_child (linked.parent_of_siblingAbove isAbove)] at levelMember
    rcases List.mem_cons.mp levelMember with rfl | further
    · exact overPath stepMember (linked.siblingsAbove_of_above up isAbove above)
    · exact overPath (linked.levels_subset (linked.parent_mem_path onPath up) further) above
  · split at behind
    case isTrue => simp at behind
    case isFalse translucent =>
      rcases linked.behindAt_above behind levelMember above shown with
        rfl | inner | ⟨step, stepMember, isAbove⟩
      · exact List.mem_cons_self ..
      · rw [repaintedAt, if_neg translucent]
        exact List.mem_cons_of_mem _ (List.mem_append_right _ inner)
      · exact overPath stepMember isAbove

/-! ### What stands at the bottom -/

theorem belowAt_bottom {siblings : List WidgetId}
    (covered : (forest.belowAt pixel siblings).2 = false) :
    ∃ bottom ∈ (forest.belowAt pixel siblings).1, forest.isOpaque bottom = true := by
  induction siblings with
  | nil => simp [belowAt] at covered
  | cons sibling lower inductionHypothesis =>
      rw [belowAt] at covered ⊢
      split at covered
      case isTrue shows =>
        rw [if_pos shows]
        split at covered
        case isTrue isOpaque =>
          rw [if_pos isOpaque]
          exact ⟨sibling, List.mem_singleton.mpr rfl, isOpaque⟩
        case isFalse translucent =>
          rw [if_neg translucent]
          obtain ⟨bottom, member, isOpaque⟩ := inductionHypothesis covered
          exact ⟨bottom, List.mem_cons_of_mem _ member, isOpaque⟩
      case isFalse hides =>
        rw [if_neg hides]
        exact inductionHypothesis covered

private theorem Linked.behindAt_bottom (linked : forest.Linked) (settings : RepaintSettings)
    (pixel : Point) (id : WidgetId) :
    forest.parent? id = none ∨
      ∃ bottom ∈ forest.behindAt settings pixel (forest.levels (forest.path id)),
        forest.isOpaque bottom = true ∨ forest.parent? bottom = none := by
  induction id using linked.upward with
  | _ id inductionHypothesis =>
      cases up : forest.parent? id with
      | none => exact Or.inl rfl
      | some parent =>
          right
          rw [linked.levels_of_child up, behindAt]
          split
          case isTrue =>
            cases isOpaque : forest.isOpaque parent with
            | true => exact ⟨parent, by simp, Or.inl isOpaque⟩
            | false =>
                rcases inductionHypothesis parent up with top | ⟨bottom, member, kind⟩
                · exact ⟨parent, by simp, Or.inr top⟩
                · exact ⟨bottom, by simp [member], kind⟩
          case isFalse covered =>
            rw [Bool.not_eq_true, levelBelowAt] at covered
            rw [levelBelowAt]
            split at covered
            · cases covered
            case isFalse examined =>
              rw [if_neg examined]
              obtain ⟨bottom, member, isOpaque⟩ := belowAt_bottom covered
              exact ⟨bottom, member, Or.inl isOpaque⟩

/-- Among the widgets that are repainted together one is opaque or the window. -/
theorem Linked.exists_bottom (linked : forest.Linked) (settings : RepaintSettings)
    (pixel : Point) (id : WidgetId) :
    ∃ bottom ∈ forest.repaintedAt settings pixel id,
      forest.isOpaque bottom = true ∨ forest.parent? bottom = none := by
  cases isOpaque : forest.isOpaque id with
  | true => exact ⟨id, List.mem_cons_self .., Or.inl isOpaque⟩
  | false =>
      rcases linked.behindAt_bottom settings pixel id with
        top | ⟨bottom, member, kind⟩
      · exact ⟨id, List.mem_cons_self .., Or.inr top⟩
      · refine ⟨bottom, ?_, kind⟩
        rw [repaintedAt, isOpaque]
        exact List.mem_cons_of_mem _ (List.mem_append_right _ member)

end Forest

end StyledWidgets
