/-
Module: StyledWidgets.Proofs.RepaintedPixels
Purpose: The orders of a request pixel by pixel. Which widgets are asked to repaint a pixel depends
  on that pixel alone: the regions only gather the answers.
Main exports: Forest.ExposedAt, Forest.behindAt, Forest.repaintedAt, orderedAt_requestOrders
-/
import StyledWidgets.Proofs.RepaintOrders

namespace StyledWidgets

namespace Forest

/-! ### A pixel seen from a widget -/

/-- A pixel of the window in coordinates of a widget. -/
def toLocal (forest : Forest) (id : WidgetId) (pixel : Point) : Point :=
  ⟨pixel.x - (forest.corner id).x, pixel.y - (forest.corner id).y⟩

variable {forest : Forest}

theorem mem_windowRect_iff {id : WidgetId} {pixel : Point} :
    pixel ∈ forest.windowRect id ↔
      forest.toLocal id pixel ∈ (forest.geometry id).atOrigin := by
  simp only [corner_eq, toLocal, Rect.mem_iff, Rect.atOrigin, Rect.right, Rect.bottom]
  simp only [windowRect]
  omega

theorem Linked.mem_windowRect_child (linked : forest.Linked) {child parent : WidgetId}
    (up : forest.parent? child = some parent) {pixel : Point} :
    pixel ∈ forest.windowRect child ↔ forest.toLocal parent pixel ∈ forest.geometry child := by
  rw [linked.windowRect_of_child up, Rect.mem_movedBy, toLocal, corner_eq]

theorem Linked.toLocal_of_child (linked : forest.Linked) {child parent : WidgetId}
    (up : forest.parent? child = some parent) (pixel : Point) :
    forest.toLocal child pixel =
      ⟨(forest.toLocal parent pixel).x - (forest.geometry child).x,
        (forest.toLocal parent pixel).y - (forest.geometry child).y⟩ := by
  simp only [toLocal, corner_eq, linked.windowRect_of_child up, Rect.movedBy, Point.mk.injEq]
  omega

theorem Linked.toLocal_of_root (linked : forest.Linked) {id : WidgetId}
    (root : forest.parent? id = none) (pixel : Point) : forest.toLocal id pixel = pixel := by
  simp [toLocal, corner, linked.path_of_root root, originOf]

/-! ### Exposed widgets -/

/-- A pixel is covered by a visible opaque widget of a list. -/
def coveredBy (forest : Forest) (pixel : Point) (siblings : List WidgetId) : Prop :=
  ∃ sibling ∈ siblings,
    forest.isVisible sibling = true ∧ forest.isOpaque sibling = true ∧
      pixel ∈ forest.windowRect sibling

/-- The repaint of a widget at a pixel reaches the window: the widget is shown there, and at no
step of its path, as far as steps are examined, does an opaque sibling above cover the pixel. -/
structure ExposedAt (forest : Forest) (settings : RepaintSettings) (pixel : Point)
    (id : WidgetId) : Prop where
  shown : forest.shownAt pixel id = true
  uncovered : ∀ level ∈ forest.levels (forest.path id),
    skipsSiblings forest settings level = true ∨
      ¬forest.coveredBy pixel (forest.siblingsAbove level.parent level.child)

variable {settings : RepaintSettings} {pixel : Point}

theorem Linked.exposedAt_of_root (linked : forest.Linked) {id : WidgetId}
    (root : forest.parent? id = none) :
    forest.ExposedAt settings pixel id ↔
      forest.isVisible id = true ∧ pixel ∈ forest.windowRect id := by
  rw [← linked.shownAt_of_root root]
  refine ⟨ExposedAt.shown, fun shown => ⟨shown, ?_⟩⟩
  simp [linked.levels_of_root root]

theorem Linked.exposedAt_of_child (linked : forest.Linked) {child parent : WidgetId}
    (settings : RepaintSettings) (up : forest.parent? child = some parent) (pixel : Point) :
    forest.ExposedAt settings pixel child ↔
      (forest.isVisible child = true ∧ pixel ∈ forest.windowRect child) ∧
        (skipsSiblings forest settings ⟨child, parent, forest.corner parent⟩ = true ∨
          ¬forest.coveredBy pixel (forest.siblingsAbove parent child)) ∧
        forest.ExposedAt settings pixel parent := by
  constructor
  · rintro ⟨shown, uncovered⟩
    rw [linked.shownAt_of_child up] at shown
    rw [linked.levels_of_child up] at uncovered
    exact
      ⟨shown.1, uncovered _ (List.mem_cons_self ..), shown.2,
        fun level member => uncovered level (List.mem_cons_of_mem _ member)⟩
  · rintro ⟨here, free, shown, uncovered⟩
    refine ⟨(linked.shownAt_of_child up).mpr ⟨here, shown⟩, ?_⟩
    rw [linked.levels_of_child up]
    intro level member
    rcases List.mem_cons.mp member with rfl | further
    · exact free
    · exact uncovered level further

/-! ### The widgets that a request repaints at one pixel -/

/-- The visible siblings that are not opaque, lie above a step of a path and have a pixel, as far
as steps are examined. -/
def seenThroughAt (forest : Forest) (settings : RepaintSettings) (pixel : Point)
    (levels : List Level) : List WidgetId :=
  levels.flatMap fun level =>
    if skipsSiblings forest settings level then []
    else
      (forest.siblingsAbove level.parent level.child).filter fun sibling =>
        forest.isVisible sibling && !forest.isOpaque sibling &&
          (forest.windowRect sibling).containsPoint pixel.x pixel.y

/-- The visible widgets of a list that have a pixel, down to the first opaque one, and whether the
pixel shows through all of them. -/
def belowAt (forest : Forest) (pixel : Point) : List WidgetId → List WidgetId × Bool
  | [] => ([], true)
  | sibling :: lower =>
      if forest.isVisible sibling && (forest.windowRect sibling).containsPoint pixel.x pixel.y then
        if forest.isOpaque sibling then ([sibling], false)
        else (sibling :: (belowAt forest pixel lower).1, (belowAt forest pixel lower).2)
      else belowAt forest pixel lower

/-- The siblings that show a pixel below a step of a path, unless they need no examination. -/
def levelBelowAt (forest : Forest) (settings : RepaintSettings) (pixel : Point)
    (level : Level) : List WidgetId × Bool :=
  if skipsSiblings forest settings level then ([], true)
  else forest.belowAt pixel (forest.siblingsBelow level.parent level.child)

/-- The widgets that show through a pixel of a widget that is not opaque, down to an opaque one. -/
def behindAt (forest : Forest) (settings : RepaintSettings) (pixel : Point) :
    List Level → List WidgetId
  | [] => []
  | level :: outer =>
      if (forest.levelBelowAt settings pixel level).2 then
        (forest.levelBelowAt settings pixel level).1 ++ level.parent ::
          (if forest.isOpaque level.parent then [] else behindAt forest settings pixel outer)
      else (forest.levelBelowAt settings pixel level).1

/-- The widgets that are repainted at a pixel when an exposed widget is. -/
def repaintedAt (forest : Forest) (settings : RepaintSettings) (pixel : Point)
    (id : WidgetId) : List WidgetId :=
  id ::
    (forest.seenThroughAt settings pixel (forest.levels (forest.path id)) ++
      (if forest.isOpaque id then []
        else forest.behindAt settings pixel (forest.levels (forest.path id))))

theorem mem_seenThroughAt_iff {levels : List Level} {sibling : WidgetId} :
    sibling ∈ forest.seenThroughAt settings pixel levels ↔
      ∃ level ∈ levels, skipsSiblings forest settings level = false ∧
        sibling ∈ forest.siblingsAbove level.parent level.child ∧
          forest.isVisible sibling = true ∧ forest.isOpaque sibling = false ∧
            pixel ∈ forest.windowRect sibling := by
  rw [seenThroughAt, List.mem_flatMap]
  refine exists_congr fun level => and_congr_right fun _ => ?_
  cases skipsSiblings forest settings level with
  | true => simp
  | false =>
      simp only [Bool.false_eq_true, if_false, List.mem_filter, Bool.and_eq_true,
        Bool.not_eq_true', true_and, Rect.containsPoint_iff, and_assoc]

end Forest

/-! ### Orders pixel by pixel -/

variable {forest : Forest} {settings : RepaintSettings} {pixel : Point}

open Forest

theorem mem_hideBehind {above : List WidgetId} {region : Region} :
    pixel ∈ hideBehind forest above region ↔
      pixel ∈ region ∧ ∀ sibling ∈ above, forest.isVisible sibling = true →
        forest.isOpaque sibling = true → pixel ∉ forest.geometry sibling := by
  have cut : ∀ (siblings : List WidgetId) (region : Region),
      pixel ∈ siblings.foldl
          (fun region sibling => region.subtractRect (forest.geometry sibling)) region ↔
        pixel ∈ region ∧ ∀ sibling ∈ siblings, pixel ∉ forest.geometry sibling := by
    intro siblings
    induction siblings with
    | nil => simp
    | cons sibling later inductionHypothesis =>
        intro region
        rw [List.foldl_cons, inductionHypothesis, Region.mem_subtractRect]
        simp only [List.mem_cons, forall_eq_or_imp, and_assoc]
  rw [hideBehind, cut]
  refine and_congr_right fun _ => forall_congr' fun sibling => ?_
  simp only [List.mem_filter, Bool.and_eq_true]
  tauto

theorem orderedAt_seenThrough {level : Level} {above : List WidgetId} {region : Region}
    {sibling : WidgetId} :
    orderedAt (seenThrough forest level above region) pixel sibling ↔
      sibling ∈ above ∧ forest.isVisible sibling = true ∧ forest.isOpaque sibling = false ∧
        (⟨pixel.x - level.origin.x, pixel.y - level.origin.y⟩ : Point) ∈ region ∧
          (⟨pixel.x - level.origin.x, pixel.y - level.origin.y⟩ : Point) ∈
            forest.geometry sibling := by
  simp only [orderedAt, seenThrough, List.mem_filterMap, List.mem_filter, Bool.and_eq_true,
    Bool.not_eq_true']
  constructor
  · rintro ⟨_, ⟨other, ⟨member, visible, translucent⟩, entry⟩, inside⟩
    split at entry
    · cases entry
    · simp only [Option.some_inj, Prod.mk.injEq] at entry
      obtain ⟨rfl, rfl⟩ := entry
      rw [Region.mem_movedBy, Region.mem_intersectRect] at inside
      exact ⟨member, visible, translucent, inside⟩
  · rintro ⟨member, visible, translucent, inRegion, inRect⟩
    have inside := Region.mem_intersectRect.mpr ⟨inRegion, inRect⟩
    refine ⟨_, ⟨sibling, ⟨member, visible, translucent⟩, ?_⟩, Region.mem_movedBy.mpr inside⟩
    rw [if_neg (by simp [Region.not_isEmpty_of_mem inside])]

/-- One step up: the region of a widget, clipped to its parent and without what opaque siblings
cover, holds the pixels of the region that are exposed at this step. -/
private theorem mem_climbStep (linked : forest.Linked) {child parent : WidgetId}
    (up : forest.parent? child = some parent) (region : Region) (pixel : Point) :
    forest.toLocal parent pixel ∈
        (region.movedBy (forest.geometry child).x (forest.geometry child).y).intersectRect
          (forest.geometry parent).atOrigin ↔
      forest.toLocal child pixel ∈ region ∧ pixel ∈ forest.windowRect parent := by
  rw [Region.mem_intersectRect, Region.mem_movedBy, ← mem_windowRect_iff,
    linked.toLocal_of_child up]

private theorem mem_hideBehind_step (linked : forest.Linked) (child parent : WidgetId)
    (region : Region) (pixel : Point) :
    forest.toLocal parent pixel ∈
        hideBehind forest (forest.siblingsAbove parent child) region ↔
      forest.toLocal parent pixel ∈ region ∧
        ¬forest.coveredBy pixel (forest.siblingsAbove parent child) := by
  rw [mem_hideBehind]
  refine and_congr_right fun _ => ?_
  simp only [coveredBy, not_exists, not_and]
  refine forall₂_congr fun sibling member => ?_
  rw [linked.mem_windowRect_child (linked.parent_of_siblingAbove member)]

private theorem orderedAt_seenThrough_step (linked : forest.Linked) (child parent : WidgetId)
    (region : Region) (pixel : Point) (sibling : WidgetId) :
    orderedAt (seenThrough forest ⟨child, parent, forest.corner parent⟩
        (forest.siblingsAbove parent child) region) pixel sibling ↔
      sibling ∈ forest.siblingsAbove parent child ∧ forest.isVisible sibling = true ∧
        forest.isOpaque sibling = false ∧ forest.toLocal parent pixel ∈ region ∧
          pixel ∈ forest.windowRect sibling := by
  rw [orderedAt_seenThrough]
  refine and_congr_right fun member => ?_
  rw [linked.mem_windowRect_child (linked.parent_of_siblingAbove member)]
  rfl

/-- What carrying a region of a widget up to the window leads to: its exposed pixels, and the
siblings through which they are seen. If nothing arrives, no pixel is exposed. -/
def ClimbsTo (forest : Forest) (settings : RepaintSettings) (id : WidgetId) (region : Region)
    (noted : List (WidgetId × Region)) : Option (Region × List (WidgetId × Region)) → Prop
  | none =>
      ∀ pixel, ¬(forest.toLocal id pixel ∈ region ∧ forest.ExposedAt settings pixel id)
  | some (result, seen) =>
      ∀ pixel,
        (pixel ∈ result ↔
          forest.toLocal id pixel ∈ region ∧ forest.ExposedAt settings pixel id) ∧
        (pixel ∈ result → ∀ sibling,
          (orderedAt seen pixel sibling ↔
            orderedAt noted pixel sibling ∨
              sibling ∈ forest.seenThroughAt settings pixel (forest.levels (forest.path id))))

private theorem ClimbsTo.of_parent {child parent : WidgetId} {region carried : Region}
    {noted found : List (WidgetId × Region)}
    {outcome : Option (Region × List (WidgetId × Region))}
    (same : ∀ pixel,
      (forest.toLocal parent pixel ∈ carried ∧ forest.ExposedAt settings pixel parent) ↔
        (forest.toLocal child pixel ∈ region ∧ forest.ExposedAt settings pixel child))
    (notes : ∀ pixel, forest.toLocal parent pixel ∈ carried → ∀ sibling,
      (orderedAt found pixel sibling ∨
          sibling ∈ forest.seenThroughAt settings pixel (forest.levels (forest.path parent))) ↔
        (orderedAt noted pixel sibling ∨
          sibling ∈ forest.seenThroughAt settings pixel (forest.levels (forest.path child))))
    (climbs : ClimbsTo forest settings parent carried found outcome) :
    ClimbsTo forest settings child region noted outcome := by
  cases outcome with
  | none => exact fun pixel => (same pixel).not.mp (climbs pixel)
  | some arrived =>
      intro pixel
      obtain ⟨pixels, seen⟩ := climbs pixel
      refine ⟨pixels.trans (same pixel), fun member sibling => ?_⟩
      exact (seen member sibling).trans (notes pixel (pixels.mp member).1 sibling)

private theorem climbsTo_climb_root (linked : forest.Linked) (settings : RepaintSettings)
    {id : WidgetId} (up : forest.parent? id = none) (region : Region)
    (noted : List (WidgetId × Region)) (here : forest.isVisible id = true)
    (inside : ∀ pixel, forest.toLocal id pixel ∈ region → pixel ∈ forest.windowRect id) :
    ClimbsTo forest settings id region noted
      (climb forest settings (forest.levels (forest.path id)) region noted) := by
  rw [linked.levels_of_root up, climb]
  intro pixel
  have same := linked.toLocal_of_root up pixel
  rw [linked.exposedAt_of_root up]
  constructor
  · constructor
    · exact fun member => ⟨same.symm ▸ member, here, inside pixel (same.symm ▸ member)⟩
    · exact fun arrived => same ▸ arrived.1
  · intro _ sibling
    simp [seenThroughAt, linked.levels_of_root up]

/-- What is right for the parent is right for a child: its region is clipped, and what its opaque
siblings hide is taken away. -/
private theorem climbsTo_climb_child (linked : forest.Linked) (settings : RepaintSettings)
    {id parent : WidgetId} (up : forest.parent? id = some parent)
    (further : ∀ {region : Region} (noted : List (WidgetId × Region)),
      (∀ pixel, forest.toLocal parent pixel ∈ region → pixel ∈ forest.windowRect parent) →
        ClimbsTo forest settings parent region noted
          (climb forest settings (forest.levels (forest.path parent)) region noted))
    (region : Region) (noted : List (WidgetId × Region)) (here : forest.isVisible id = true)
    (inside : ∀ pixel, forest.toLocal id pixel ∈ region → pixel ∈ forest.windowRect id) :
    ClimbsTo forest settings id region noted
      (climb forest settings (forest.levels (forest.path id)) region noted) := by
  have exposed := linked.exposedAt_of_child settings up
  have clipped := mem_climbStep linked up region
  have onRect : ∀ pixel, forest.ExposedAt settings pixel parent →
      pixel ∈ forest.windowRect parent := fun pixel reached =>
    mem_windowRect_of_shownAt reached.shown
  rw [linked.levels_of_child up, climb]
  simp only
  generalize (region.movedBy (forest.geometry id).x (forest.geometry id).y).intersectRect
    (forest.geometry parent).atOrigin = region' at clipped
  cases empty : region'.isEmpty with
  | true =>
      rintro pixel ⟨member, reached⟩
      refine Region.not_mem_of_isEmpty empty _ ((clipped pixel).mpr ⟨member, ?_⟩)
      exact onRect pixel ((exposed pixel).mp reached).2.2
  | false =>
      simp only [Bool.false_eq_true, if_false]
      cases skips : skipsSiblings forest settings ⟨id, parent, forest.corner parent⟩ with
      | true =>
          refine (further noted fun pixel member => ((clipped pixel).mp member).2).of_parent
            (fun pixel => ?_) fun pixel _ sibling => ?_
          · rw [clipped, exposed, skips]
            have rect := inside pixel
            have above := onRect pixel
            tauto
          · simp [linked.levels_of_child up, seenThroughAt, skips]
      | false =>
          simp only [Bool.false_eq_true, if_false]
          have hidden := mem_hideBehind_step linked id parent region'
          have notes := orderedAt_seenThrough_step linked id parent
          generalize hideBehind forest (forest.siblingsAbove parent id) region' = left
            at hidden
          have same : ∀ pixel,
              (forest.toLocal parent pixel ∈ left ∧
                  forest.ExposedAt settings pixel parent) ↔
                (forest.toLocal id pixel ∈ region ∧
                  forest.ExposedAt settings pixel id) := by
            intro pixel
            rw [hidden, clipped, exposed, skips]
            have rect := inside pixel
            have above := onRect pixel
            tauto
          cases covered : left.isEmpty with
          | true =>
              rintro pixel reached
              exact Region.not_mem_of_isEmpty covered _ ((same pixel).mpr reached).1
          | false =>
              refine (further _ fun pixel member =>
                ((clipped pixel).mp ((hidden pixel).mp member).1).2).of_parent same
                fun pixel member sibling => ?_
              rw [orderedAt_append, notes, linked.levels_of_child up]
              simp only [mem_seenThroughAt_iff, List.mem_cons, exists_eq_or_imp, skips,
                member, true_and, or_assoc]

/-- A region that is carried up to the window holds its exposed pixels. -/
theorem climbsTo_climb (linked : forest.Linked) (settings : RepaintSettings) (id : WidgetId) :
    ∀ (region : Region) (noted : List (WidgetId × Region)),
      (∀ widget ∈ forest.path id, forest.isVisible widget = true) →
      (∀ pixel, forest.toLocal id pixel ∈ region → pixel ∈ forest.windowRect id) →
      ClimbsTo forest settings id region noted
        (climb forest settings (forest.levels (forest.path id)) region noted) := by
  induction id using linked.upward with
  | _ id inductionHypothesis =>
      intro region noted visible inside
      have here : forest.isVisible id = true := visible id (mem_path_self id)
      cases up : forest.parent? id with
      | none => exact climbsTo_climb_root linked settings up region noted here inside
      | some parent =>
          apply climbsTo_climb_child linked settings up _ region noted here inside
          intro region noted
          apply inductionHypothesis parent up region noted
          intro widget member
          exact visible widget (linked.mem_path_iff.mpr (Or.inr ⟨parent, up, member⟩))

private theorem orderedAt_siblingOrders (linked : forest.Linked) {parent : WidgetId}
    (siblings : List WidgetId) :
    ∀ behind : Region, (∀ sibling ∈ siblings, forest.parent? sibling = some parent) →
      (pixel ∈ (siblingOrders forest (forest.corner parent) siblings behind).1 ↔
        pixel ∈ behind ∧ (forest.belowAt pixel siblings).2 = true) ∧
      ∀ widget,
        (orderedAt (siblingOrders forest (forest.corner parent) siblings behind).2 pixel widget ↔
          pixel ∈ behind ∧ widget ∈ (forest.belowAt pixel siblings).1) := by
  induction siblings with
  | nil => simp [siblingOrders, belowAt]
  | cons sibling lower inductionHypothesis =>
      intro behind up
      have lowerUp := fun other member => up other (List.mem_cons_of_mem sibling member)
      have rect : (forest.geometry sibling).movedBy (forest.corner parent).x
          (forest.corner parent).y = forest.windowRect sibling := by
        rw [linked.windowRect_of_child (up sibling (List.mem_cons_self ..)), corner_eq]
      have covers : (forest.windowRect sibling).containsPoint pixel.x pixel.y = true ↔
          pixel ∈ forest.windowRect sibling := Iff.rfl
      rw [siblingOrders, belowAt, rect]
      simp only
      cases visible : forest.isVisible sibling with
      | false => simpa using inductionHypothesis behind lowerUp
      | true =>
          obtain ⟨through, ordered⟩ := inductionHypothesis
            (if forest.isOpaque sibling then behind.subtractRect (forest.windowRect sibling)
              else behind) lowerUp
          simp only [Bool.not_true, Bool.false_or, Bool.true_and]
          by_cases inRect : pixel ∈ forest.windowRect sibling
          · rw [covers.mpr inRect]
            cases apart : (behind.intersectRect (forest.windowRect sibling)).isEmpty with
            | true =>
                have outside : pixel ∉ behind := fun member =>
                  Region.not_mem_of_isEmpty apart pixel
                    (Region.mem_intersectRect.mpr ⟨member, inRect⟩)
                simpa [outside] using inductionHypothesis behind lowerUp
            | false =>
                simp only [Bool.false_eq_true, if_false, if_true, orderedAt_cons, through,
                  ordered, Region.mem_intersectRect, inRect, and_true]
                cases forest.isOpaque sibling with
                | true => simp [inRect, and_comm]
                | false =>
                    simp only [Bool.false_eq_true, if_false, List.mem_cons]
                    exact ⟨trivial, fun widget => by tauto⟩
          · have outside := inRect
            rw [← covers, Bool.not_eq_true] at outside
            rw [outside]
            cases apart : (behind.intersectRect (forest.windowRect sibling)).isEmpty with
            | true => simpa using inductionHypothesis behind lowerUp
            | false =>
                simp only [Bool.false_eq_true, if_false, orderedAt_cons, through, ordered,
                  Region.mem_intersectRect, inRect, and_false, false_or]
                cases forest.isOpaque sibling with
                | true => simp [inRect]
                | false => simp

private theorem orderedAt_belowOrders (linked : forest.Linked) (settings : RepaintSettings)
    (pixel : Point) (child parent : WidgetId) (behind : Region) :
    (pixel ∈ (belowOrders forest settings ⟨child, parent, forest.corner parent⟩ behind).1 ↔
      pixel ∈ behind ∧
        (forest.levelBelowAt settings pixel ⟨child, parent, forest.corner parent⟩).2 = true) ∧
    ∀ widget,
      (orderedAt (belowOrders forest settings ⟨child, parent, forest.corner parent⟩ behind).2
          pixel widget ↔
        pixel ∈ behind ∧
          widget ∈
            (forest.levelBelowAt settings pixel ⟨child, parent, forest.corner parent⟩).1) := by
  rw [belowOrders, levelBelowAt]
  cases skipsSiblings forest settings ⟨child, parent, forest.corner parent⟩ with
  | true => simp
  | false =>
      exact
        orderedAt_siblingOrders linked _ behind fun _ member => linked.parent_of_siblingBelow member

theorem orderedAt_behindOrders (linked : forest.Linked) (id : WidgetId) :
    ∀ (behind : Region) (widget : WidgetId),
      orderedAt (behindOrders forest settings (forest.levels (forest.path id)) behind) pixel
          widget ↔
        pixel ∈ behind ∧
          widget ∈ forest.behindAt settings pixel (forest.levels (forest.path id)) := by
  induction id using linked.upward with
  | _ id inductionHypothesis =>
      intro behind widget
      cases up : forest.parent? id with
      | none => simp [linked.levels_of_root up, behindOrders, behindAt]
      | some parent =>
          have further := inductionHypothesis parent up
          obtain ⟨through, ordered⟩ :=
            orderedAt_belowOrders linked settings pixel id parent behind
          rw [linked.levels_of_child up, behindOrders, behindAt]
          simp only
          generalize belowOrders forest settings ⟨id, parent, forest.corner parent⟩ behind = below
            at through ordered
          generalize forest.levelBelowAt settings pixel ⟨id, parent, forest.corner parent⟩ =
            shown at through ordered
          cases covered : below.1.isEmpty with
          | true =>
              have outside := Region.not_mem_of_isEmpty covered pixel
              rw [through] at outside
              simp only [if_true, ordered]
              by_cases member : pixel ∈ behind
              · have hidden : shown.2 = false :=
                  Bool.eq_false_iff.mpr fun seen => outside ⟨member, seen⟩
                simp [hidden]
              · simp [member]
          | false =>
              simp only [Bool.false_eq_true, if_false, orderedAt_append, orderedAt_cons, ordered,
                through]
              cases seen : shown.2 with
              | false =>
                  rw [seen] at through
                  cases forest.isOpaque parent with
                  | true => simp
                  | false => simp [further, through]
              | true =>
                  rw [seen] at through
                  simp only [and_true] at through
                  cases forest.isOpaque parent with
                  | true =>
                      simp only [if_true, not_orderedAt_nil, List.mem_append, List.mem_cons,
                        List.not_mem_nil, or_false, and_true]
                      tauto
                  | false =>
                      simp only [Bool.false_eq_true, if_false, if_true, further, through,
                        List.mem_append, List.mem_cons, and_true]
                      tauto

private theorem orderedAt_clipped {noted : List (WidgetId × Region)} {region : Region}
    {widget : WidgetId} :
    orderedAt ((noted.map fun entry => (entry.1, entry.2.intersectRegion region)).filter
        fun entry => !entry.2.isEmpty) pixel widget ↔
      pixel ∈ region ∧ orderedAt noted pixel widget := by
  simp only [orderedAt, List.mem_filter, List.mem_map]
  constructor
  · rintro ⟨_, ⟨⟨⟨other, part⟩, member, entry⟩, -⟩, inside⟩
    simp only [Prod.mk.injEq] at entry
    obtain ⟨rfl, rfl⟩ := entry
    obtain ⟨inPart, inRegion⟩ := Region.mem_intersectRegion.mp inside
    exact ⟨inRegion, part, member, inPart⟩
  · rintro ⟨inRegion, part, member, inPart⟩
    have inside := Region.mem_intersectRegion.mpr ⟨inPart, inRegion⟩
    exact
      ⟨_, ⟨⟨(widget, part), member, rfl⟩, by simp [Region.not_isEmpty_of_mem inside]⟩, inside⟩

/-- The orders of an exposed part of a widget, pixel by pixel. -/
theorem orderedAt_visibleOrders (linked : forest.Linked) {id : WidgetId} {part : Rect}
    (visible : ∀ widget ∈ forest.path id, forest.isVisible widget = true)
    (inside : ∀ pixel, pixel ∈ part → pixel ∈ (forest.geometry id).atOrigin)
    (widget : WidgetId) :
    orderedAt (visibleOrders forest settings id (forest.levels (forest.path id)) part) pixel
        widget ↔
      forest.toLocal id pixel ∈ part ∧ forest.ExposedAt settings pixel id ∧
        widget ∈ forest.repaintedAt settings pixel id := by
  have climbs :=
    climbsTo_climb linked settings id (Region.ofRect part) [] visible
      fun pixel member => mem_windowRect_iff.mpr (inside _ (Region.mem_ofRect.mp member))
  rw [visibleOrders]
  cases arrived : climb forest settings (forest.levels (forest.path id)) (Region.ofRect part) []
    with
  | none =>
      rw [arrived] at climbs
      have nothing := climbs pixel
      rw [Region.mem_ofRect] at nothing
      simp only [not_orderedAt_nil, false_iff]
      tauto
  | some found =>
      rw [arrived] at climbs
      obtain ⟨pixels, seen⟩ := climbs pixel
      rw [Region.mem_ofRect] at pixels
      simp only [orderedAt_append, orderedAt_cons, orderedAt_clipped]
      rw [← and_assoc, ← pixels, repaintedAt, List.mem_cons, List.mem_append]
      have notes : pixel ∈ found.1 → (orderedAt found.2 pixel widget ↔
          widget ∈ forest.seenThroughAt settings pixel (forest.levels (forest.path id))) :=
        fun member => by simpa using seen member widget
      cases forest.isOpaque id with
      | true =>
          simp only [if_true, not_orderedAt_nil, List.not_mem_nil, or_false]
          tauto
      | false =>
          simp only [Bool.false_eq_true, if_false, orderedAt_behindOrders linked id]
          tauto

/-- A request asks for the exposed pixels of its part, of the widget itself and of all widgets
that are repainted with it. -/
theorem orderedAt_requestOrders (linked : forest.Linked) {root id : WidgetId}
    {rect : Option Rect} {widget : WidgetId} :
    orderedAt (requestOrders forest settings root id rect) pixel widget ↔
      (forest.path id).getLast? = some root ∧
        forest.toLocal id pixel ∈ requestedPart forest id rect ∧
          forest.ExposedAt settings pixel id ∧
            widget ∈ forest.repaintedAt settings pixel id := by
  have inside : ∀ pixel, pixel ∈ requestedPart forest id rect →
      pixel ∈ (forest.geometry id).atOrigin := by
    intro pixel member
    cases rect with
    | some rect => exact (Rect.mem_intersect.mp member).2
    | none => exact member
  rw [requestOrders]
  split
  case isTrue outside =>
    simp only [not_orderedAt_nil, false_iff, not_and]
    exact fun top => absurd top outside
  case isFalse top =>
    rw [ne_eq, not_not] at top
    split
    case isTrue hidden =>
      simp only [not_orderedAt_nil, false_iff, not_and]
      rintro - - exposed -
      obtain ⟨above, member, invisible⟩ := List.any_eq_true.mp hidden
      have visible := (shownAt_iff.mp exposed.shown above member).1
      simp [visible] at invisible
    case isFalse shown =>
      split
      case isTrue empty =>
        simp only [not_orderedAt_nil, false_iff, not_and]
        exact fun _ member => absurd member (Rect.isEmpty_iff.mp empty _)
      case isFalse =>
        rw [orderedAt_visibleOrders linked ?_ inside]
        · simp [top]
        · simpa using shown

end StyledWidgets
