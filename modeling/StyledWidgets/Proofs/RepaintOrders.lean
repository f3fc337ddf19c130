/-
Module: StyledWidgets.Proofs.RepaintOrders
Purpose: The search for what has to be repainted as a list of orders. Which regions a request asks
  for does not depend on what is scheduled already, so a computation is its orders scheduled one
  after the other.
Main exports: requestOrders, Damage.orders, Damage.compute_eq_scheduleAll, Damage.litAt,
  Damage.KeepsRects, Damage.scheduleAll_litAt, Damage.scheduleAll_marked
-/
import StyledWidgets.Proofs.PaintOrder

namespace StyledWidgets

/-! ### The orders of a request -/

/-- The regions that are asked of the siblings below a changed widget, from the top to the bottom,
and the region that shows through all of them. -/
def siblingOrders (forest : Forest) (origin : Point) :
    List WidgetId → Region → Region × List (WidgetId × Region)
  | [], behind => (behind, [])
  | sibling :: lower, behind =>
      let rect := (forest.geometry sibling).movedBy origin.x origin.y
      let overlap := behind.intersectRect rect
      if !forest.isVisible sibling || overlap.isEmpty then
        siblingOrders forest origin lower behind
      else
        let rest :=
          siblingOrders forest origin lower
            (if forest.isOpaque sibling then behind.subtractRect rect else behind)
        (rest.1, (sibling, overlap) :: rest.2)

/-- The same for the siblings at one step of a path, unless they need no examination. -/
def belowOrders (forest : Forest) (settings : RepaintSettings) (level : Level)
    (behind : Region) : Region × List (WidgetId × Region) :=
  if skipsSiblings forest settings level then (behind, [])
  else siblingOrders forest level.origin (forest.siblingsBelow level.parent level.child) behind

/-- The regions that are asked of what shows through a widget that is not opaque. -/
def behindOrders (forest : Forest) (settings : RepaintSettings) :
    List Level → Region → List (WidgetId × Region)
  | [], _ => []
  | level :: outer, behind =>
      let siblings := belowOrders forest settings level behind
      if siblings.1.isEmpty then siblings.2
      else
        siblings.2 ++ (level.parent, siblings.1) ::
          (if forest.isOpaque level.parent then []
            else behindOrders forest settings outer siblings.1)

/-- The regions that are asked for one part of a widget. -/
def visibleOrders (forest : Forest) (settings : RepaintSettings) (id : WidgetId)
    (levels : List Level) (part : Rect) : List (WidgetId × Region) :=
  match climb forest settings levels (Region.ofRect part) [] with
  | none => []
  | some (region, noted) =>
      (id, region) ::
        ((noted.map fun entry => (entry.1, entry.2.intersectRegion region)).filter
            fun entry => !entry.2.isEmpty) ++
          (if forest.isOpaque id then [] else behindOrders forest settings levels region)

/-- The part of a widget that a request is for, in coordinates of the widget. -/
def requestedPart (forest : Forest) (id : WidgetId) (rect : Option Rect) : Rect :=
  match rect with
  | some rect => rect.intersect (forest.geometry id).atOrigin
  | none => (forest.geometry id).atOrigin

theorem mem_requestedPart_iff {forest : Forest} {id : WidgetId} {rect : Option Rect}
    {point : Point} :
    point ∈ requestedPart forest id rect ↔
      point ∈ (forest.geometry id).atOrigin ∧ ∀ asked, rect = some asked → point ∈ asked := by
  cases rect with
  | none => simp [requestedPart]
  | some rect => simp [requestedPart, Rect.mem_intersect, and_comm]

/-- The regions that one request asks for in a window. -/
def requestOrders (forest : Forest) (settings : RepaintSettings) (root id : WidgetId)
    (rect : Option Rect) : List (WidgetId × Region) :=
  if (forest.path id).getLast? ≠ some root then []
  else if (forest.path id).any fun widget => !forest.isVisible widget then []
  else if (requestedPart forest id rect).isEmpty then []
  else
    visibleOrders forest settings id (forest.levels (forest.path id))
      (requestedPart forest id rect)

/-- Some order asks for a pixel of a widget. -/
def orderedAt (orders : List (WidgetId × Region)) (pixel : Point) (id : WidgetId) : Prop :=
  ∃ region, (id, region) ∈ orders ∧ pixel ∈ region

@[simp]
theorem not_orderedAt_nil (pixel : Point) (id : WidgetId) : ¬orderedAt [] pixel id := by
  simp [orderedAt]

theorem orderedAt_cons {order : WidgetId × Region} {later : List (WidgetId × Region)}
    {pixel : Point} {id : WidgetId} :
    orderedAt (order :: later) pixel id ↔
      (id = order.1 ∧ pixel ∈ order.2) ∨ orderedAt later pixel id := by
  simp only [orderedAt, List.mem_cons]
  constructor
  · rintro ⟨region, rfl | member, inside⟩
    · exact Or.inl ⟨rfl, inside⟩
    · exact Or.inr ⟨region, member, inside⟩
  · rintro (⟨rfl, inside⟩ | ⟨region, member, inside⟩)
    · exact ⟨order.2, Or.inl rfl, inside⟩
    · exact ⟨region, Or.inr member, inside⟩

theorem orderedAt_append {first later : List (WidgetId × Region)} {pixel : Point}
    {id : WidgetId} :
    orderedAt (first ++ later) pixel id ↔
      orderedAt first pixel id ∨ orderedAt later pixel id := by
  simp only [orderedAt, List.mem_append, or_and_right, exists_or]

theorem orderedAt_flatMap {α : Type} {sources : List α} {orders : α → List (WidgetId × Region)}
    {pixel : Point} {id : WidgetId} :
    orderedAt (sources.flatMap orders) pixel id ↔
      ∃ source ∈ sources, orderedAt (orders source) pixel id := by
  simp only [orderedAt, List.mem_flatMap]
  constructor
  · rintro ⟨region, ⟨source, member, ordered⟩, inside⟩
    exact ⟨source, member, region, ordered, inside⟩
  · rintro ⟨source, member, region, ordered, inside⟩
    exact ⟨region, ⟨source, member, ordered⟩, inside⟩

namespace Damage

/-- The regions that all pending requests ask for. -/
def orders (damage : Damage) (forest : Forest) (settings : RepaintSettings) :
    List (WidgetId × Region) :=
  damage.pending.entries.flatMap fun request =>
    requestOrders forest settings damage.root request.1 request.2

variable {forest : Forest} {settings : RepaintSettings}

@[simp]
theorem scheduleAll_nil (damage : Damage) : damage.scheduleAll forest settings [] = damage := rfl

@[simp]
theorem scheduleAll_cons (damage : Damage) (order : WidgetId × Region)
    (later : List (WidgetId × Region)) :
    damage.scheduleAll forest settings (order :: later) =
      (damage.schedule forest settings order.1 order.2).scheduleAll forest settings later := rfl

theorem scheduleAll_append (damage : Damage) (first later : List (WidgetId × Region)) :
    damage.scheduleAll forest settings (first ++ later) =
      (damage.scheduleAll forest settings first).scheduleAll forest settings later :=
  List.foldl_append

private theorem showSiblings_eq (origin : Point) (siblings : List WidgetId) :
    ∀ (behind : Region) (damage : Damage),
      showSiblings forest settings origin siblings behind damage =
        ((siblingOrders forest origin siblings behind).1,
          damage.scheduleAll forest settings (siblingOrders forest origin siblings behind).2) := by
  induction siblings with
  | nil => exact fun _ _ => rfl
  | cons sibling lower inductionHypothesis =>
      intro behind damage
      simp only [showSiblings, siblingOrders]
      split
      · exact inductionHypothesis behind damage
      · rw [inductionHypothesis, scheduleAll_cons]

private theorem showBehind_eq (levels : List Level) :
    ∀ (behind : Region) (damage : Damage),
      showBehind forest settings levels behind damage =
        damage.scheduleAll forest settings (behindOrders forest settings levels behind) := by
  induction levels with
  | nil => exact fun _ _ => rfl
  | cons level outer inductionHypothesis =>
      intro behind damage
      have siblings :
          (if skipsSiblings forest settings level then (behind, damage)
            else
              showSiblings forest settings level.origin
                (forest.siblingsBelow level.parent level.child) behind damage) =
            ((belowOrders forest settings level behind).1,
              damage.scheduleAll forest settings
                (belowOrders forest settings level behind).2) := by
        rw [belowOrders]
        split
        · rfl
        · exact showSiblings_eq _ _ _ _
      rw [showBehind, behindOrders, siblings]
      simp only
      cases covered : (belowOrders forest settings level behind).1.isEmpty with
      | true => rfl
      | false =>
          simp only [Bool.false_eq_true, ↓reduceIte]
          rw [scheduleAll_append, scheduleAll_cons]
          cases forest.isOpaque level.parent with
          | true => rfl
          | false => exact inductionHypothesis _ _

private theorem scheduleVisible_eq (damage : Damage) (id : WidgetId) (levels : List Level)
    (part : Rect) :
    damage.scheduleVisible forest settings id levels part =
      damage.scheduleAll forest settings (visibleOrders forest settings id levels part) := by
  rw [scheduleVisible, visibleOrders]
  cases climb forest settings levels (Region.ofRect part) [] with
  | none => rfl
  | some found =>
      simp only [List.cons_append, scheduleAll_cons, scheduleAll_append]
      cases forest.isOpaque id with
      | true => rfl
      | false => exact showBehind_eq _ _ _

theorem process_eq_scheduleAll (damage : Damage) (id : WidgetId) (rect : Option Rect) :
    damage.process forest settings id rect =
      damage.scheduleAll forest settings
        (requestOrders forest settings damage.root id rect) := by
  have whole :
      damage.process forest settings id rect =
        if (forest.path id).getLast? ≠ some damage.root then damage
        else if (forest.path id).any fun widget => !forest.isVisible widget then damage
        else if (requestedPart forest id rect).isEmpty then damage
        else
          damage.scheduleVisible forest settings id (forest.levels (forest.path id))
            (requestedPart forest id rect) := rfl
  rw [whole, requestOrders]
  split
  · rfl
  · split
    · rfl
    · split
      · rfl
      · exact scheduleVisible_eq _ _ _ _

@[simp]
theorem scheduleAll_root (orders : List (WidgetId × Region)) :
    ∀ damage : Damage, (damage.scheduleAll forest settings orders).root = damage.root := by
  induction orders with
  | nil => exact fun _ => rfl
  | cons order later inductionHypothesis => exact fun _ => inductionHypothesis _

/-- A computation schedules the orders of all requests one after the other. -/
theorem compute_eq_scheduleAll (damage : Damage) :
    damage.compute forest settings =
      { damage with pending := ∅ }.scheduleAll forest settings
        (damage.orders forest settings) := by
  have run : ∀ (requests : List (WidgetId × Option Rect)) (start : Damage),
      start.root = damage.root →
      requests.foldl
          (fun damage request => damage.process forest settings request.1 request.2) start =
        start.scheduleAll forest settings
          (requests.flatMap fun request =>
            requestOrders forest settings damage.root request.1 request.2) := by
    intro requests
    induction requests with
    | nil => exact fun _ _ => rfl
    | cons request later inductionHypothesis =>
        intro start sameRoot
        rw [List.foldl_cons, List.flatMap_cons, scheduleAll_append, process_eq_scheduleAll,
          sameRoot]
        exact inductionHypothesis _ (by rw [scheduleAll_root, sameRoot])
  exact run _ _ rfl

/-! ### Which pixels are scheduled -/

/-- A pixel of a widget is scheduled. -/
def litAt (damage : Damage) (pixel : Point) (id : WidgetId) : Prop :=
  ∃ region, damage.region? id = some region ∧ pixel ∈ region

theorem schedule_region? (damage : Damage) (id other : WidgetId) (region : Region) :
    (damage.schedule forest settings id region).region? other =
      if id = other then
        some ((((damage.region? id).getD Region.empty).unionRegion region).simplify
          settings.maxRegionRects)
      else damage.region? other :=
  Table.find?_insert _ _ _ _

theorem schedule_litAt {damage : Damage} {pixel : Point} {id other : WidgetId} {region : Region}
    (lit : damage.litAt pixel other ∨ (other = id ∧ pixel ∈ region)) :
    (damage.schedule forest settings id region).litAt pixel other := by
  by_cases same : id = other
  · subst same
    refine ⟨_, by rw [schedule_region?, if_pos rfl], Region.mem_simplify ?_⟩
    rw [Region.mem_unionRegion]
    rcases lit with ⟨earlier, held, inside⟩ | ⟨-, inside⟩
    · exact Or.inl (by rw [held]; exact inside)
    · exact Or.inr inside
  · rcases lit with ⟨earlier, held, inside⟩ | ⟨rfl, -⟩
    · exact ⟨earlier, by rw [schedule_region?, if_neg same, held], inside⟩
    · exact absurd rfl same

/-- What is scheduled stays scheduled, and every ordered pixel is scheduled. -/
theorem scheduleAll_litAt {pixel : Point} {id : WidgetId} (orders : List (WidgetId × Region)) :
    ∀ {damage : Damage}, (damage.litAt pixel id ∨ orderedAt orders pixel id) →
      (damage.scheduleAll forest settings orders).litAt pixel id := by
  induction orders with
  | nil =>
      rintro damage (lit | ⟨region, member, -⟩)
      · exact lit
      · simp at member
  | cons order later inductionHypothesis =>
      intro damage cause
      rw [scheduleAll_cons]
      apply inductionHypothesis
      rcases cause with lit | ⟨region, member, inside⟩
      · exact Or.inl (schedule_litAt (Or.inl lit))
      · rcases List.mem_cons.mp member with rfl | further
        · exact Or.inl (schedule_litAt (Or.inr ⟨rfl, inside⟩))
        · exact Or.inr ⟨region, further, inside⟩

/-- No scheduled region collapses: each stays within the limit on its rectangles. -/
def KeepsRects (forest : Forest) (settings : RepaintSettings) :
    Damage → List (WidgetId × Region) → Prop
  | _, [] => True
  | damage, order :: later =>
      (((damage.region? order.1).getD Region.empty).unionRegion order.2).rects.length ≤
          max settings.maxRegionRects 1 ∧
        KeepsRects forest settings (damage.schedule forest settings order.1 order.2) later

instance decidableKeepsRects (forest : Forest) (settings : RepaintSettings) :
    ∀ (damage : Damage) (orders : List (WidgetId × Region)),
      Decidable (KeepsRects forest settings damage orders)
  | _, [] => .isTrue trivial
  | damage, order :: later =>
      have := decidableKeepsRects forest settings
        (damage.schedule forest settings order.1 order.2) later
      inferInstanceAs (Decidable (_ ∧ _))

/-- If no region collapses, only ordered pixels are added. -/
theorem KeepsRects.litAt_iff {pixel : Point} {id : WidgetId} (orders : List (WidgetId × Region)) :
    ∀ {damage : Damage}, KeepsRects forest settings damage orders →
      ((damage.scheduleAll forest settings orders).litAt pixel id ↔
        damage.litAt pixel id ∨ orderedAt orders pixel id) := by
  induction orders with
  | nil =>
      intro damage _
      simp [orderedAt]
  | cons order later inductionHypothesis =>
      rintro damage ⟨short, keeps⟩
      rw [scheduleAll_cons, inductionHypothesis keeps, orderedAt_cons, ← or_assoc]
      refine or_congr_left ⟨?_, schedule_litAt⟩
      rintro ⟨region, held, inside⟩
      rw [schedule_region?] at held
      split at held
      case isTrue same =>
        rw [Option.some_inj, Region.simplify_of_length_le short] at held
        rw [← held, Region.mem_unionRegion] at inside
        rcases inside with earlier | ordered
        · cases before : damage.region? order.1 with
          | none =>
              rw [before] at earlier
              exact absurd earlier (Region.not_mem_empty pixel)
          | some region =>
              rw [before] at earlier
              exact Or.inl ⟨region, by rw [← same, before], earlier⟩
        · exact Or.inr ⟨same.symm, ordered⟩
      case isFalse => exact Or.inl ⟨region, held, inside⟩

/-- Collapsing adds no pixel outside of a rectangle that holds all that was scheduled and all that
is ordered of the widget. -/
theorem scheduleAll_litAt_subset {id : WidgetId} {frame : Rect}
    (orders : List (WidgetId × Region)) :
    ∀ {damage : Damage}, (∀ pixel : Point, damage.litAt pixel id → pixel ∈ frame) →
      (∀ pixel : Point, orderedAt orders pixel id → pixel ∈ frame) →
      ∀ pixel : Point, (damage.scheduleAll forest settings orders).litAt pixel id →
        pixel ∈ frame := by
  induction orders with
  | nil => exact fun before _ => before
  | cons order later inductionHypothesis =>
      intro damage before inside
      rw [scheduleAll_cons]
      refine inductionHypothesis ?_
        fun pixel ordered => inside pixel (orderedAt_cons.mpr (Or.inr ordered))
      rintro pixel ⟨region, held, member⟩
      rw [schedule_region?] at held
      split at held
      case isTrue same =>
        rw [Option.some_inj] at held
        rw [← held] at member
        refine Region.simplify_subset (fun other joined => ?_) pixel member
        rcases Region.mem_unionRegion.mp joined with earlier | ordered
        · cases scheduled : damage.region? order.1 with
          | none =>
              rw [scheduled] at earlier
              exact absurd earlier (Region.not_mem_empty other)
          | some region =>
              rw [scheduled] at earlier
              exact before other ⟨region, by rw [← same, scheduled], earlier⟩
        · exact inside other (orderedAt_cons.mpr (Or.inl ⟨same.symm, ordered⟩))
      case isFalse => exact before pixel ⟨region, held, member⟩

/-! ### Marks above scheduled widgets -/

/-- Marks on the way up are complete: all ancestors of a marked widget and of a scheduled widget
are marked. -/
structure Marked (forest : Forest) (damage : Damage) : Prop where
  upward : ∀ {child parent : WidgetId}, child ∈ damage.above →
    forest.parent? child = some parent → parent ∈ damage.above
  scheduled : ∀ {id parent : WidgetId} {region : Region}, damage.region? id = some region →
    forest.parent? id = some parent → parent ∈ damage.above

theorem marked_of_empty (damage : Damage) (unmarked : damage.above = [])
    (unscheduled : damage.scheduled = ∅) : damage.Marked forest where
  upward member := by simp [unmarked] at member
  scheduled held := by
    rw [region?, unscheduled] at held
    cases held

/-- Every widget strictly above a scheduled one is marked. -/
theorem Marked.isAbove (linked : forest.Linked) {damage : Damage} (marked : damage.Marked forest)
    {id ancestor : WidgetId} {region : Region} (held : damage.region? id = some region)
    (above : ancestor ∈ forest.path id) (strict : ancestor ≠ id) :
    damage.isAbove ancestor = true := by
  rw [Damage.isAbove, List.contains_iff_mem]
  rcases linked.mem_path_iff.mp above with rfl | ⟨parent, up, further⟩
  · exact absurd rfl strict
  · exact linked.mem_of_mem_path marked.upward (marked.scheduled held up) further

/-- Marking ends at the first marked ancestor, and nothing is missed: from there on everything is
marked already. The widgets marked on the way lie below all that is still to be visited. -/
private theorem mem_markAbove (linked : forest.Linked) {before : List WidgetId}
    (upward : ∀ {child parent : WidgetId}, child ∈ before →
      forest.parent? child = some parent → parent ∈ before) (id : WidgetId) :
    ∀ marked : List WidgetId, (∀ widget ∈ before, widget ∈ marked) →
      (∀ widget ∈ marked, widget ∈ before ∨ widget ∉ forest.path id) →
      ∀ widget, widget ∈ markAbove (forest.path id) marked ↔
        widget ∈ marked ∨ widget ∈ forest.path id := by
  induction id using linked.upward with
  | _ id inductionHypothesis =>
      intro marked kept fresh widget
      obtain ⟨rest, shape⟩ := linked.exists_path_cons id
      have unfolded :
          markAbove (forest.path id) marked =
            if marked.contains id then marked else markAbove rest (id :: marked) := by
        rw [shape, markAbove]
      rw [unfolded]
      split
      case isTrue held =>
        refine ⟨Or.inl, fun cause => cause.elim (fun member => member) fun onPath => ?_⟩
        have start : id ∈ before := by
          rcases fresh id (List.contains_iff_mem.mp held) with old | off
          · exact old
          · exact absurd (Forest.mem_path_self id) off
        exact kept widget (linked.mem_of_mem_path upward start onPath)
      case isFalse =>
        cases up : forest.parent? id with
        | none =>
            have alone := linked.path_of_root up
            rw [shape, List.cons.injEq] at alone
            simp [shape, alone.2, markAbove, or_comm]
        | some parent =>
            have higher := linked.path_of_child up
            rw [shape, List.cons.injEq] at higher
            rw [higher.2, inductionHypothesis parent up (id :: marked)
              (fun other member => List.mem_cons_of_mem _ (kept other member)),
              linked.path_of_child up]
            · simp only [List.mem_cons]
              tauto
            · intro other member
              rcases List.mem_cons.mp member with rfl | earlier
              · exact Or.inr (linked.not_mem_path_parent up)
              · refine (fresh other earlier).imp_right fun off onPath => off ?_
                exact linked.mem_path_iff.mpr (Or.inr ⟨parent, up, onPath⟩)

theorem schedule_marked (linked : forest.Linked) {damage : Damage}
    (marked : damage.Marked forest) (id : WidgetId) (region : Region) :
    (damage.schedule forest settings id region).Marked forest := by
  cases up : forest.parent? id with
  | none =>
      have same : (damage.schedule forest settings id region).above = damage.above := by
        simp [schedule, linked.path_of_root up, markAbove]
      refine ⟨fun member upward => ?_, fun held upward => ?_⟩
      · rw [same] at member ⊢
        exact marked.upward member upward
      · rw [same]
        rw [schedule_region?] at held
        split at held
        case isTrue here =>
          rw [← here, up] at upward
          cases upward
        case isFalse => exact marked.scheduled held upward
  | some above =>
      have mem : ∀ widget, widget ∈ (damage.schedule forest settings id region).above ↔
          widget ∈ damage.above ∨ widget ∈ forest.path above := by
        intro widget
        have visit :=
          mem_markAbove linked marked.upward above damage.above (fun _ member => member)
            (fun _ member => Or.inl member) widget
        rw [← visit]
        simp only [schedule, linked.path_of_child up, List.tail_cons]
      refine ⟨fun {child parent} member upward => ?_, fun {other parent region} held upward => ?_⟩
      · rw [mem] at member ⊢
        rcases member with old | onPath
        · exact Or.inl (marked.upward old upward)
        · exact Or.inr (linked.parent_mem_path onPath upward)
      · rw [mem]
        rw [schedule_region?] at held
        split at held
        case isTrue here =>
          rw [← here, up, Option.some_inj] at upward
          exact Or.inr (upward ▸ Forest.mem_path_self above)
        case isFalse => exact Or.inl (marked.scheduled held upward)

theorem scheduleAll_marked (linked : forest.Linked) (orders : List (WidgetId × Region)) :
    ∀ {damage : Damage}, damage.Marked forest →
      (damage.scheduleAll forest settings orders).Marked forest := by
  induction orders with
  | nil => exact fun marked => marked
  | cons order later inductionHypothesis =>
      exact fun marked => inductionHypothesis (schedule_marked linked marked _ _)

end Damage

end StyledWidgets
