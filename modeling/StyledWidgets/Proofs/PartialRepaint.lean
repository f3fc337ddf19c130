/-
Module: StyledWidgets.Proofs.PartialRepaint
Purpose: What the painting of a window draws at one pixel, compared with a full repaint: nothing
  that a full repaint would not draw, everything that stands above what is drawn, and at the bottom
  an opaque widget or the window. Regions that collapse are the one exception.
Main exports: Damage.requested, Damage.Unscheduled.drewAt_iff, Damage.partialRepaint_faithful,
  Damage.collapse_harmless_iff
-/
import StyledWidgets.Proofs.ForestChanges
import StyledWidgets.Proofs.PaintedPixels
import StyledWidgets.Proofs.RepaintClosure

namespace StyledWidgets

open StyledWidgets.Style

variable {forest : Forest} {settings : RepaintSettings} {pixel : Point}

namespace Forest

/-- Of two widgets on a path one is above the other. -/
theorem Linked.path_total (linked : forest.Linked) {id one other : WidgetId}
    (first : one ∈ forest.path id) (second : other ∈ forest.path id) :
    one ∈ forest.path other ∨ other ∈ forest.path one := by
  induction id using linked.upward with
  | _ id inductionHypothesis =>
      rcases linked.mem_path_iff.mp first with rfl | ⟨parent, up, further⟩
      · exact Or.inr second
      · rcases linked.mem_path_iff.mp second with rfl | ⟨above, upward, higher⟩
        · exact Or.inl first
        · rw [up, Option.some_inj] at upward
          exact inductionHypothesis parent up further (upward ▸ higher)

/-- Whoever is shown after a widget is below any given ancestor of it, or below a shown sibling
above the path of that ancestor. -/
theorem Linked.mem_later_of_above (linked : forest.Linked) {root above id other : WidgetId}
    {before later : List WidgetId} (top : forest.parent? root = none)
    (split : forest.stackAt pixel root = before ++ id :: later) (member : other ∈ later)
    (onPath : above ∈ forest.path id) :
    above ∈ forest.path other ∨
      ∃ level ∈ forest.levels (forest.path above),
        ∃ sibling ∈ forest.siblingsAbove level.parent level.child,
          sibling ∈ forest.path other ∧ forest.shownAt pixel sibling = true := by
  obtain ⟨shown, below | ⟨level, levelMember, sibling, siblingMember, inSibling⟩⟩ :=
    linked.mem_later top split member
  · exact Or.inl (linked.mem_path_trans below onPath)
  · obtain ⟨childOnPath, up, -⟩ := linked.mem_levels_iff.mp levelMember
    have siblingShown := linked.shownAt_above shown inSibling
    have onSibling : level.parent ∈ forest.path sibling :=
      linked.mem_path_iff.mpr
        (Or.inr ⟨_, linked.parent_of_siblingAbove siblingMember, mem_path_self _⟩)
    have here : level.child ∈ forest.path above →
        ∃ level ∈ forest.levels (forest.path above),
          ∃ sibling ∈ forest.siblingsAbove level.parent level.child,
            sibling ∈ forest.path other ∧ forest.shownAt pixel sibling = true := fun onAbove =>
      ⟨level, linked.mem_levels_iff.mpr
        ⟨onAbove, up, (linked.mem_levels_iff.mp levelMember).2.2⟩, sibling, siblingMember,
        inSibling, siblingShown⟩
    rcases linked.path_total onPath childOnPath with higher | lower
    · rcases linked.mem_path_iff.mp higher with same | ⟨parent, upward, further⟩
      · exact Or.inr (here (same ▸ mem_path_self _))
      · rw [up, Option.some_inj] at upward
        subst upward
        exact
          Or.inl (linked.mem_path_trans inSibling (linked.mem_path_trans onSibling further))
    · exact Or.inr (here lower)

/-- The pixels at which a widget is shown in a window are those of a rectangle. -/
theorem Linked.exists_stackFrame (linked : forest.Linked) (root id : WidgetId) :
    ∃ frame : Rect, ∀ pixel, pixel ∈ frame ↔ id ∈ forest.stackAt pixel root := by
  have frame : ∃ frame : Rect, ∀ pixel, pixel ∈ frame ↔ forest.shownAt pixel id = true := by
    induction id using linked.upward with
    | _ id inductionHypothesis =>
        cases visible : forest.isVisible id with
        | false =>
            refine ⟨Rect.zero, fun pixel => ⟨fun member => absurd member (Rect.not_mem_zero pixel),
              fun shown => ?_⟩⟩
            rw [isVisible_of_shownAt shown] at visible
            cases visible
        | true =>
            cases up : forest.parent? id with
            | none =>
                refine ⟨forest.windowRect id, fun pixel => ?_⟩
                rw [linked.shownAt_of_root up]
                simp [visible]
            | some parent =>
                obtain ⟨outer, holds⟩ := inductionHypothesis parent up
                refine ⟨(forest.windowRect id).intersect outer, fun pixel => ?_⟩
                rw [Rect.mem_intersect, holds, linked.shownAt_of_child up]
                simp [visible]
  obtain ⟨frame, holds⟩ := frame
  by_cases onPath : root ∈ forest.path id
  · exact ⟨frame, fun pixel => by rw [holds, linked.mem_stackAt_iff]; simp [onPath]⟩
  · refine ⟨Rect.zero, fun pixel => ?_⟩
    rw [linked.mem_stackAt_iff]
    simp [onPath, Rect.not_mem_zero]

end Forest

namespace Damage

open Forest

/-! ### Computed damage -/

/-- What is ordered is shown in the window. -/
theorem mem_stackAt_of_orderedAt (linked : forest.Linked) {damage : Damage} {id : WidgetId}
    (ordered : orderedAt (damage.orders forest settings) pixel id) :
    id ∈ forest.stackAt pixel damage.root ∧ forest.parent? damage.root = none := by
  obtain ⟨request, -, asked⟩ := orderedAt_flatMap.mp ordered
  obtain ⟨last, -, exposed, member⟩ := (orderedAt_requestOrders linked).mp asked
  obtain ⟨onPath, top⟩ := linked.getLast?_path_iff.mp last
  obtain ⟨shown, above⟩ := linked.shownAt_of_mem_repaintedAt exposed.shown member
  exact ⟨linked.mem_stackAt_iff.mpr ⟨above damage.root onPath top, shown⟩, top⟩

/-- The damage of a window of which nothing has been scheduled yet. -/
structure Unscheduled (damage : Damage) : Prop where
  scheduled : damage.scheduled = ∅
  above : damage.above = []

theorem not_litAt_of_unscheduled {damage : Damage} (none : damage.scheduled = ∅) (pixel : Point)
    (id : WidgetId) : ¬damage.litAt pixel id := by
  rintro ⟨region, held, -⟩
  rw [region?, none] at held
  cases held

theorem compute_root (damage : Damage) :
    (damage.compute forest settings).root = damage.root := by
  rw [compute_eq_scheduleAll, scheduleAll_root]

theorem compute_litAt {damage : Damage} {id : WidgetId}
    (cause : damage.litAt pixel id ∨ orderedAt (damage.orders forest settings) pixel id) :
    (damage.compute forest settings).litAt pixel id := by
  rw [compute_eq_scheduleAll]
  exact scheduleAll_litAt _ cause

/-- Whatever collapses, only shown pixels are scheduled. -/
theorem litAt_subset (linked : forest.Linked) {damage : Damage} (none : damage.scheduled = ∅)
    {id : WidgetId}
    (lit : (damage.compute forest settings).litAt pixel id) :
    id ∈ forest.stackAt pixel damage.root := by
  obtain ⟨frame, holds⟩ := linked.exists_stackFrame damage.root id
  rw [compute_eq_scheduleAll] at lit
  rw [← holds]
  refine scheduleAll_litAt_subset _ (fun pixel before => ?_) (fun pixel ordered => ?_) pixel lit
  · exact absurd before (not_litAt_of_unscheduled none pixel id)
  · exact (holds pixel).mpr (mem_stackAt_of_orderedAt linked ordered).1

theorem Unscheduled.compute_marked (linked : forest.Linked) {damage : Damage}
    (unscheduled : damage.Unscheduled) : (damage.compute forest settings).Marked forest := by
  rw [compute_eq_scheduleAll]
  exact scheduleAll_marked linked _ (marked_of_empty _ unscheduled.above unscheduled.scheduled)

theorem drawnAt_computed_iff (linked : forest.Linked) {damage : Damage}
    (unscheduled : damage.Unscheduled) (top : forest.parent? damage.root = none) {id : WidgetId} :
    drawnAt ((damage.compute forest settings).plan forest) pixel id ↔
      id ∈ forest.stackAt pixel damage.root ∧
        ∃ lit ∈ forest.path id, (damage.compute forest settings).litAt pixel lit := by
  have topComputed : forest.parent? (damage.compute forest settings).root = none := by
    rwa [compute_root]
  constructor
  · intro drawn
    obtain ⟨onPath, shown, above⟩ := drawnAt_plan topComputed linked
      (fun id lit => (linked.mem_stackAt_iff.mp (litAt_subset linked unscheduled.scheduled lit)).2)
      drawn
    rw [compute_root] at onPath
    exact ⟨linked.mem_stackAt_iff.mpr ⟨onPath, shown⟩, above⟩
  · rintro ⟨inStack, lit, above, isLit⟩
    refine drawnAt_plan_of_litAt topComputed linked isLit (fun ancestor onPath strict => ?_) ?_
      above (linked.mem_stackAt_iff.mp inStack).2
    · obtain ⟨region, held, -⟩ := isLit
      exact (unscheduled.compute_marked linked).isAbove linked held onPath strict
    · rw [compute_root]
      exact (linked.mem_stackAt_iff.mp (litAt_subset linked unscheduled.scheduled isLit)).1

/-- Nothing is ordered in the damage of a widget that is no window. -/
theorem orders_of_child {damage : Damage} (linked : forest.Linked)
    (isChild : forest.parent? damage.root ≠ none) : damage.orders forest settings = [] := by
  refine List.flatMap_eq_nil_iff.mpr fun request _ => ?_
  rw [requestOrders, if_pos]
  exact fun last => isChild (linked.getLast?_path_iff.mp last).2

variable {σ : Type} {backend : Backend σ} {maxAttempts : Nat} {stylist : Stylist} {state : σ}
  {report : PaintReport} {after : Damage} {painted : PaintState (σ × List DrawCommand)}

/-- Where nothing is asked of styles, every stylist gives the right ones. -/
theorem resolvesTo_any : ResolvesTo forest (fun _ _ => True) fun _ => True :=
  fun _ _ _ _ => ⟨trivial, trivial⟩

/-- A painting draws a pixel of all widgets that are shown there at or below a widget of which the
pixel is scheduled, and of no other widget. -/
theorem Unscheduled.drewAt_iff (linked : forest.Linked) {damage : Damage}
    (unscheduled : damage.Unscheduled)
    (paints : (damage.compute forest settings).paint forest backend.watched maxAttempts
      ⟨stylist, state, []⟩ = (.ok report, after, painted)) (pixel : Point) (id : WidgetId) :
    drewAt painted.backend.2 pixel id ↔
      id ∈ forest.stackAt pixel damage.root ∧
        ∃ lit ∈ forest.path id, (damage.compute forest settings).litAt pixel lit := by
  have outcome :=
    (paint_watched backend resolvesTo_any (damage.compute forest settings) maxAttempts
      ⟨stylist, state, []⟩ trivial).2 report (by rw [paints])
  rw [paints] at outcome
  rcases outcome with ⟨clean, unchanged⟩ | ⟨dirty, -, draws⟩
  · have log : painted.backend.2 = [] := by
      have same := congrArg (fun result => result.2.backend.2) unchanged
      exact same
    rw [log]
    constructor
    · rintro ⟨command, member, -⟩
      simp at member
    · rintro ⟨-, lit, -, isLit⟩
      exact absurd (mem_dirtyRegion isLit) (Region.not_mem_of_isEmpty clean pixel)
  · rw [drewAt_iff_drawnAt draws]
    by_cases top : forest.parent? damage.root = none
    · exact drawnAt_computed_iff linked unscheduled top
    · rw [compute_eq_scheduleAll, orders_of_child linked top, scheduleAll_nil, dirtyRegion,
        unscheduled.scheduled] at dirty
      cases dirty

/-- The damage of a window of which some parts have been asked for. -/
def requested (root : WidgetId) (requests : List (WidgetId × Option Rect)) : Damage :=
  requests.foldl (fun damage request => damage.requestUpdate request.1 request.2) (new root)

theorem requested_unscheduled (root : WidgetId) (requests : List (WidgetId × Option Rect)) :
    (requested root requests).Unscheduled ∧ (requested root requests).root = root := by
  have run : ∀ (requests : List (WidgetId × Option Rect)) (start : Damage),
      start.Unscheduled ∧ start.root = root →
        (requests.foldl (fun damage request => damage.requestUpdate request.1 request.2)
            start).Unscheduled ∧
          (requests.foldl (fun damage request => damage.requestUpdate request.1 request.2)
            start).root = root := by
    intro requests
    induction requests with
    | nil => exact fun _ holds => holds
    | cons request later inductionHypothesis =>
        exact fun start holds =>
          inductionHypothesis _ ⟨⟨holds.1.scheduled, holds.1.above⟩, holds.2⟩
  exact run requests (new root) ⟨⟨rfl, rfl⟩, rfl⟩


/-! ### Ordered pixels -/

theorem orderedAt_above (linked : forest.Linked) (apart : forest.NeverOverlapping settings)
    {damage : Damage} {id sibling : WidgetId}
    (ordered : orderedAt (damage.orders forest settings) pixel id) {level : Level}
    (member : level ∈ forest.levels (forest.path id))
    (above : sibling ∈ forest.siblingsAbove level.parent level.child)
    (shown : forest.shownAt pixel sibling = true) :
    orderedAt (damage.orders forest settings) pixel sibling := by
  obtain ⟨request, pending, asked⟩ := orderedAt_flatMap.mp ordered
  obtain ⟨last, inPart, exposed, repainted⟩ := (orderedAt_requestOrders linked).mp asked
  refine orderedAt_flatMap.mpr ⟨request, pending, (orderedAt_requestOrders linked).mpr ?_⟩
  exact
    ⟨last, inPart, exposed, linked.repaintedAt_above apart exposed repainted member above shown⟩

/-- Whoever is shown after a widget at or below an ordered one is at or below an ordered one. -/
theorem orderedAt_later (linked : forest.Linked) (apart : forest.NeverOverlapping settings)
    {damage : Damage} {before later : List WidgetId} {id other lit : WidgetId}
    (split : forest.stackAt pixel damage.root = before ++ id :: later) (member : other ∈ later)
    (above : lit ∈ forest.path id)
    (ordered : orderedAt (damage.orders forest settings) pixel lit) :
    ∃ lit ∈ forest.path other, orderedAt (damage.orders forest settings) pixel lit := by
  have top := (mem_stackAt_of_orderedAt linked ordered).2
  rcases linked.mem_later_of_above top split member above with
    below | ⟨level, levelMember, sibling, isAbove, inSibling, shown⟩
  · exact ⟨lit, below, ordered⟩
  · exact ⟨sibling, inSibling, orderedAt_above linked apart ordered levelMember isAbove shown⟩

theorem orderedAt_bottom (linked : forest.Linked) {damage : Damage} {id : WidgetId}
    (ordered : orderedAt (damage.orders forest settings) pixel id) :
    ∃ bottom, orderedAt (damage.orders forest settings) pixel bottom ∧
      (bottom = damage.root ∨ forest.isOpaque bottom = true) := by
  obtain ⟨request, pending, asked⟩ := orderedAt_flatMap.mp ordered
  obtain ⟨last, inPart, exposed, -⟩ := (orderedAt_requestOrders linked).mp asked
  obtain ⟨bottom, member, kind⟩ :=
    linked.exists_bottom settings pixel request.1
  have isOrdered : orderedAt (damage.orders forest settings) pixel bottom :=
    orderedAt_flatMap.mpr
      ⟨request, pending, (orderedAt_requestOrders linked).mpr ⟨last, inPart, exposed, member⟩⟩
  refine ⟨bottom, isOrdered, kind.symm.imp_left fun top => ?_⟩
  have onPath := (linked.mem_stackAt_iff.mp (mem_stackAt_of_orderedAt linked isOrdered).1).1
  rw [linked.path_of_root top] at onPath
  exact (List.mem_singleton.mp onPath).symm

/-! ### A partial repaint compared with a full one -/

variable {root : WidgetId} {requests : List (WidgetId × Option Rect)}

/-- No region of a computation collapses into its bounding rectangle. -/
def Uncollapsed (damage : Damage) (forest : Forest) (settings : RepaintSettings) : Prop :=
  KeepsRects forest settings { damage with pending := ∅ } (damage.orders forest settings)

instance (damage : Damage) (forest : Forest) (settings : RepaintSettings) :
    Decidable (damage.Uncollapsed forest settings) :=
  inferInstanceAs (Decidable (KeepsRects ..))

theorem Uncollapsed.litAt_iff {damage : Damage} (unscheduled : damage.Unscheduled)
    (keeps : damage.Uncollapsed forest settings) {id : WidgetId} :
    (damage.compute forest settings).litAt pixel id ↔
      orderedAt (damage.orders forest settings) pixel id := by
  rw [compute_eq_scheduleAll, KeepsRects.litAt_iff _ keeps]
  exact or_iff_right (not_litAt_of_unscheduled unscheduled.scheduled pixel id)

/-- A partial repaint is as good as a full one at every pixel that it touches. It draws nothing
that is not shown there; it draws all that is shown above what it draws, so nothing is painted over
a widget that is not repainted; and it starts from the window or from an opaque widget, so nothing
is blended onto old content. -/
theorem partialRepaint_faithful (linked : forest.Linked)
    (apart : forest.NeverOverlapping settings)
    (keeps : (requested root requests).Uncollapsed forest settings)
    (paints : ((requested root requests).compute forest settings).paint forest backend.watched
      maxAttempts ⟨stylist, state, []⟩ = (.ok report, after, painted)) (pixel : Point) :
    (∀ id, drewAt painted.backend.2 pixel id → id ∈ forest.stackAt pixel root) ∧
      (∀ before id later, forest.stackAt pixel root = before ++ id :: later →
        drewAt painted.backend.2 pixel id →
          ∀ other ∈ later, drewAt painted.backend.2 pixel other) ∧
      ((∃ id, drewAt painted.backend.2 pixel id) →
        ∃ bottom, drewAt painted.backend.2 pixel bottom ∧
          (bottom = root ∨ forest.isOpaque bottom = true)) := by
  obtain ⟨unscheduled, isRoot⟩ := requested_unscheduled root requests
  have drew := fun {id} => unscheduled.drewAt_iff linked paints pixel id
  simp only [keeps.litAt_iff unscheduled, isRoot] at drew
  refine ⟨fun id drawn => (drew.mp drawn).1, fun before id later split drawn other member => ?_,
    fun ⟨id, drawn⟩ => ?_⟩
  · obtain ⟨-, lit, above, ordered⟩ := drew.mp drawn
    refine drew.mpr ⟨by simp [split, member], ?_⟩
    rw [← isRoot] at split
    exact orderedAt_later linked apart split member above ordered
  · obtain ⟨-, lit, -, ordered⟩ := drew.mp drawn
    obtain ⟨bottom, isOrdered, kind⟩ := orderedAt_bottom linked ordered
    have inStack := (mem_stackAt_of_orderedAt linked isOrdered).1
    rw [isRoot] at inStack kind
    exact ⟨bottom, drew.mpr ⟨inStack, bottom, mem_path_self bottom, isOrdered⟩, kind⟩

/-- An opaque button in the middle of an opaque canvas that fills its window. -/
def buttonOnCanvas : Forest :=
  { slots :=
      #[ some
          { typeName := "Window", geometry := ⟨0, 0, 100, 100⟩, children := [⟨1⟩, ⟨2⟩] },
        some
          { typeName := "Canvas", geometry := ⟨0, 0, 100, 100⟩, isOpaque := true,
            parent := some ⟨0⟩ },
        some
          { typeName := "Button", geometry := ⟨40, 40, 20, 20⟩, isOpaque := true,
            parent := some ⟨0⟩ } ]
    live := 3 }

theorem buttonOnCanvas_linked : buttonOnCanvas.Linked := by
  have window := linked_empty.insertWindow
    { typeName := "Window", geometry := ⟨0, 0, 100, 100⟩ }
  have canvas := window.insert (insert_of_contains ⟨0⟩
    { typeName := "Canvas", geometry := ⟨0, 0, 100, 100⟩, isOpaque := true } rfl)
  exact canvas.insert (insert_of_contains ⟨0⟩
    { typeName := "Button", geometry := ⟨40, 40, 20, 20⟩, isOpaque := true } rfl)

theorem buttonOnCanvas_neverOverlapping (settings : RepaintSettings) :
    buttonOnCanvas.NeverOverlapping settings :=
  neverOverlapping_of_unflagged (by decide) settings

/-- The painting of the window after a request for the whole canvas. -/
def canvasPainting (settings : RepaintSettings) :
    Except ToolkitError PaintReport × Damage × PaintState (Nat × List DrawCommand) :=
  ((requested ⟨0⟩ [(⟨1⟩, none)]).compute buttonOnCanvas settings).paint buttonOnCanvas
    countingBackend.watched 1 ⟨{}, 0, []⟩

/-! ### Collapsed regions -/

theorem Unscheduled.top_of_litAt (linked : forest.Linked) {damage : Damage}
    (unscheduled : damage.Unscheduled) {id : WidgetId}
    (lit : (damage.compute forest settings).litAt pixel id) :
    forest.parent? damage.root = none := by
  by_contra isChild
  rw [compute_eq_scheduleAll, orders_of_child linked isChild, scheduleAll_nil] at lit
  exact not_litAt_of_unscheduled unscheduled.scheduled pixel id lit

/-- A shown sibling above the path of a widget is shown after it. -/
theorem exists_split_of_above (linked : forest.Linked) (top : forest.parent? root = none)
    {id : WidgetId} (inStack : id ∈ forest.stackAt pixel root) {level : Level}
    (member : level ∈ forest.levels (forest.path id)) {sibling : WidgetId}
    (above : sibling ∈ forest.siblingsAbove level.parent level.child)
    (shown : forest.shownAt pixel sibling = true) :
    ∃ before later, forest.stackAt pixel root = before ++ id :: later ∧ sibling ∈ later := by
  obtain ⟨onPath, shownId⟩ := linked.mem_stackAt_iff.mp inStack
  obtain ⟨before, split⟩ := linked.exists_stackAt_append pixel onPath top
  rw [linked.stackAt_eq shownId, List.append_assoc, List.cons_append] at split
  refine ⟨before, _, split, List.mem_append_right _ ?_⟩
  refine List.mem_flatMap.mpr ⟨level, member, List.mem_flatMap.mpr ⟨sibling, above, ?_⟩⟩
  exact linked.mem_stackAt_iff.mpr ⟨mem_path_self sibling, shown⟩

/-- Regions may collapse. Nothing is painted over a widget that is not repainted at a pixel exactly
if, wherever a collapse alone has added the pixel to a widget, the siblings shown above it are
repainted, too. The computation does not see to that: it takes opaque siblings out of a region
before the region collapses, and does not look at them again. -/
theorem collapse_harmless_iff (linked : forest.Linked)
    (apart : forest.NeverOverlapping settings)
    (paints : ((requested root requests).compute forest settings).paint forest backend.watched
      maxAttempts ⟨stylist, state, []⟩ = (.ok report, after, painted)) (pixel : Point) :
    (∀ before id later, forest.stackAt pixel root = before ++ id :: later →
        drewAt painted.backend.2 pixel id →
          ∀ other ∈ later, drewAt painted.backend.2 pixel other) ↔
      ∀ id, ((requested root requests).compute forest settings).litAt pixel id →
        ¬orderedAt ((requested root requests).orders forest settings) pixel id →
          ∀ level ∈ forest.levels (forest.path id),
            ∀ sibling ∈ forest.siblingsAbove level.parent level.child,
              forest.shownAt pixel sibling = true → drewAt painted.backend.2 pixel sibling := by
  obtain ⟨unscheduled, isRoot⟩ := requested_unscheduled root requests
  have drew := fun {id} => unscheduled.drewAt_iff linked paints pixel id
  rw [isRoot] at drew
  have top := fun {id} (lit : ((requested root requests).compute forest settings).litAt pixel id) =>
    isRoot ▸ unscheduled.top_of_litAt linked lit
  constructor
  · intro harmless id lit _ level member sibling above shown
    have inStack := litAt_subset linked unscheduled.scheduled lit
    rw [isRoot] at inStack
    obtain ⟨before, later, split, isLater⟩ :=
      exists_split_of_above linked (top lit) inStack member above shown
    exact
      harmless before id later split (drew.mpr ⟨inStack, id, mem_path_self id, lit⟩) sibling isLater
  · intro checked before id later split drawn other member
    obtain ⟨-, lit, above, isLit⟩ := drew.mp drawn
    refine drew.mpr ⟨by simp [split, member], ?_⟩
    rcases linked.mem_later_of_above (top isLit) split member above with
      below | ⟨level, levelMember, sibling, isAbove, inSibling, shown⟩
    · exact ⟨lit, below, isLit⟩
    · by_cases ordered : orderedAt ((requested root requests).orders forest settings) pixel lit
      · exact
          ⟨sibling, inSibling,
            compute_litAt (Or.inr (orderedAt_above linked apart ordered levelMember isAbove shown))⟩
      · obtain ⟨-, higher, onSibling, isHigher⟩ :=
          drew.mp (checked lit isLit ordered level levelMember sibling isAbove shown)
        exact ⟨higher, linked.mem_path_trans inSibling onSibling, isHigher⟩

/-- The region of the canvas around the button has four rectangles. If only one is allowed, it
collapses and covers the button, which is not drawn again. -/
theorem collapse_overpaints :
    let settings : RepaintSettings := { maxRegionRects := 1 }
    let log := (canvasPainting settings).2.2.backend.2
    buttonOnCanvas.Linked ∧ buttonOnCanvas.NeverOverlapping settings ∧
      (canvasPainting settings).1 = .ok ⟨1, ⟨0, 0, 100, 100⟩⟩ ∧
      ¬∀ before id later, buttonOnCanvas.stackAt ⟨50, 50⟩ ⟨0⟩ = before ++ id :: later →
        drewAt log ⟨50, 50⟩ id → ∀ other ∈ later, drewAt log ⟨50, 50⟩ other := by
  refine ⟨buttonOnCanvas_linked, buttonOnCanvas_neverOverlapping _, rfl, fun harmless => ?_⟩
  have button := harmless [⟨0⟩] ⟨1⟩ [⟨2⟩] rfl (by decide) ⟨2⟩ (List.mem_singleton.mpr rfl)
  exact absurd button (by decide)

/-- Beside the button nothing stands above the canvas, and the collapse does no harm. -/
theorem collapse_harmless_iff_canvas :
    let settings : RepaintSettings := { maxRegionRects := 1 }
    let log := (canvasPainting settings).2.2.backend.2
    buttonOnCanvas.Linked ∧ buttonOnCanvas.NeverOverlapping settings ∧
      (canvasPainting settings).1 = .ok ⟨1, ⟨0, 0, 100, 100⟩⟩ ∧
      ((∀ before id later, buttonOnCanvas.stackAt ⟨10, 10⟩ ⟨0⟩ = before ++ id :: later →
        drewAt log ⟨10, 10⟩ id → ∀ other ∈ later, drewAt log ⟨10, 10⟩ other) ↔
        ∀ id, ((requested ⟨0⟩ [(⟨1⟩, none)]).compute buttonOnCanvas settings).litAt ⟨10, 10⟩ id →
          ¬orderedAt ((requested ⟨0⟩ [(⟨1⟩, none)]).orders buttonOnCanvas settings) ⟨10, 10⟩ id →
            ∀ level ∈ buttonOnCanvas.levels (buttonOnCanvas.path id),
              ∀ sibling ∈ buttonOnCanvas.siblingsAbove level.parent level.child,
                buttonOnCanvas.shownAt ⟨10, 10⟩ sibling = true →
                  drewAt log ⟨10, 10⟩ sibling) := by
  have paints : canvasPainting { maxRegionRects := 1 } =
      (.ok ⟨1, ⟨0, 0, 100, 100⟩⟩, (canvasPainting { maxRegionRects := 1 }).2.1,
        (canvasPainting { maxRegionRects := 1 }).2.2) := rfl
  exact
    ⟨buttonOnCanvas_linked, buttonOnCanvas_neverOverlapping _, rfl,
      collapse_harmless_iff buttonOnCanvas_linked (buttonOnCanvas_neverOverlapping _) paints
        ⟨10, 10⟩⟩

end Damage

end StyledWidgets
