/-
Module: StyledWidgets.Proofs.RequestPermutations
Purpose: What has to be repainted does not depend on the order in which it has been asked for.
  Requests for one widget are joined as they come, and the rectangles of what is scheduled do depend
  on the order; the pixels do not, as long as no region collapses, and neither do the widgets that
  are passed through on the way to them.
Main exports: joinAll, Damage.pending_requested, Damage.orderedAt_requested, Damage.Grounded,
  Damage.SameDirt, Damage.requested_perm
-/
import Mathlib.Data.List.ReduceOption
import StyledWidgets.Proofs.CleanWindows
import StyledWidgets.Proofs.PartialRepaint
import StyledWidgets.Proofs.RegionAlgebra
import StyledWidgets.Proofs.WindowEntries

namespace StyledWidgets

open Forest

variable {forest : Forest} {settings : RepaintSettings}

/-! ### Requests for one widget -/

/-- What is asked of a widget by requests, in the order of the requests. -/
def askedOf (id : WidgetId) (requests : List (WidgetId × Option Rect)) : List (Option Rect) :=
  (requests.filter fun request => request.1 = id).map (·.2)

/-- Requests for one widget as one: the whole widget if any of them asks for that, or else the
bounding rectangle. -/
def joinAll (asked : List (Option Rect)) : Option Rect :=
  if none ∈ asked then none else some (Region.boundingRect ⟨asked.reduceOption⟩)

theorem mem_askedOf {id : WidgetId} {requests : List (WidgetId × Option Rect)}
    {rect : Option Rect} : rect ∈ askedOf id requests ↔ (id, rect) ∈ requests := by
  simp only [askedOf, List.mem_map, List.mem_filter, decide_eq_true_eq, Prod.exists]
  constructor
  · rintro ⟨_, _, ⟨member, rfl⟩, rfl⟩
    exact member
  · intro member
    exact ⟨id, rect, ⟨member, rfl⟩, rfl⟩

theorem joinRequests_joinAll_nil (rect : Option Rect) :
    Damage.joinRequests (joinAll []) rect = rect := by
  cases rect with
  | none => rfl
  | some rect => rfl

/-- A further request is joined with those before it. -/
theorem joinAll_append (asked : List (Option Rect)) (rect : Option Rect) :
    joinAll (asked ++ [rect]) = Damage.joinRequests (joinAll asked) rect := by
  by_cases whole : none ∈ asked
  · simp [joinAll, whole, Damage.joinRequests]
  · cases rect with
    | none => simp [joinAll, whole, Damage.joinRequests]
    | some rect =>
        simp [joinAll, whole, Damage.joinRequests, Region.boundingRect,
          List.reduceOption_append]

/-- The points that joined requests ask for: all of the widget, or what lies in every rectangle
around the asked ones. -/
theorem mem_requestedPart_joinAll {id : WidgetId} {asked : List (Option Rect)} {point : Point} :
    point ∈ requestedPart forest id (joinAll asked) ↔
      point ∈ (forest.geometry id).atOrigin ∧
        (none ∈ asked ∨
          point ∈ Region.hull {other | ∃ rect, some rect ∈ asked ∧ other ∈ rect}) := by
  have around : Region.pixels ⟨asked.reduceOption⟩ =
      {other | ∃ rect, some rect ∈ asked ∧ other ∈ rect} := by
    ext other
    simp only [Region.pixels, Region.mem_iff, List.reduceOption_mem_iff, Set.mem_ofPred_eq]
  rw [mem_requestedPart_iff, ← around, ← Region.pixels_boundingRect, joinAll]
  apply and_congr_right
  intro _
  by_cases whole : none ∈ asked
  · simp [whole]
  · simp [whole, Rect.pixels]

namespace Damage

variable {root : WidgetId} {requests others : List (WidgetId × Option Rect)} {pixel : Point}

/-! ### What waits after requests -/

theorem requested_append (root : WidgetId) (requests : List (WidgetId × Option Rect))
    (request : WidgetId × Option Rect) :
    requested root (requests ++ [request]) =
      (requested root requests).requestUpdate request.1 request.2 := by
  rw [requested, List.foldl_append]
  rfl

theorem nodup_requested (root : WidgetId) (requests : List (WidgetId × Option Rect)) :
    (requested root requests).pending.keys.Nodup := by
  induction requests using List.reverseRecOn with
  | nil => exact List.nodup_nil
  | append_singleton requests request inductionHypothesis =>
      rw [requested_append]
      exact Table.nodup_keys_insert inductionHypothesis _ _

/-- For every widget that has been asked for, all requests wait as one. -/
theorem pending_requested (root id : WidgetId) (requests : List (WidgetId × Option Rect)) :
    (requested root requests).pending.find? id =
      if askedOf id requests = [] then none else some (joinAll (askedOf id requests)) := by
  induction requests using List.reverseRecOn with
  | nil => rfl
  | append_singleton requests request inductionHypothesis =>
      obtain ⟨other, rect⟩ := request
      rw [requested_append, pending_requestUpdate]
      by_cases same : other = id
      · subst same
        have asked : askedOf other (requests ++ [(other, rect)]) =
            askedOf other requests ++ [rect] := by simp [askedOf]
        rw [if_pos rfl, inductionHypothesis, asked, if_neg (List.append_ne_nil_of_right_ne_nil _
          (List.cons_ne_nil _ _)), joinAll_append]
        by_cases unasked : askedOf other requests = []
        · rw [if_pos unasked, unasked, joinRequests_joinAll_nil]
        · rw [if_neg unasked]
      · have asked : askedOf id (requests ++ [(other, rect)]) = askedOf id requests := by
          simp [askedOf, same]
        rw [if_neg same, inductionHypothesis, asked]

/-- A pixel of a widget is ordered if it is repainted along with one that has been asked for. -/
theorem orderedAt_requested (linked : forest.Linked) {widget : WidgetId} :
    orderedAt ((requested root requests).orders forest settings) pixel widget ↔
      ∃ id, (forest.path id).getLast? = some root ∧
        forest.toLocal id pixel ∈ requestedPart forest id (joinAll (askedOf id requests)) ∧
          forest.ExposedAt settings pixel id ∧ widget ∈ forest.repaintedAt settings pixel id := by
  have waits : ∀ id rect, (id, rect) ∈ (requested root requests).pending.entries ↔
      askedOf id requests ≠ [] ∧ joinAll (askedOf id requests) = rect := by
    intro id rect
    rw [Table.mem_entries_iff (nodup_requested root requests), pending_requested]
    by_cases unasked : askedOf id requests = []
    · simp [unasked]
    · simp [unasked]
  simp only [orders, orderedAt_flatMap, Prod.exists, waits, (requested_unscheduled root requests).2,
    orderedAt_requestOrders linked]
  constructor
  · rintro ⟨id, _, ⟨-, rfl⟩, ordered⟩
    exact ⟨id, ordered⟩
  · rintro ⟨id, last, inside, rest⟩
    refine ⟨id, _, ⟨fun unasked => ?_, rfl⟩, last, inside, rest⟩
    rw [unasked, mem_requestedPart_joinAll] at inside
    rcases inside.2 with whole | around
    · cases whole
    · refine Rect.not_mem_zero _ (around Rect.zero ?_)
      rintro other ⟨rect, member, -⟩
      cases member

/-- The order and the number of requests do not matter for what is ordered. -/
theorem orderedAt_requested_congr (linked : forest.Linked)
    (same : ∀ request, request ∈ requests ↔ request ∈ others) {widget : WidgetId} :
    orderedAt ((requested root requests).orders forest settings) pixel widget ↔
      orderedAt ((requested root others).orders forest settings) pixel widget := by
  simp only [orderedAt_requested linked, mem_requestedPart_joinAll, mem_askedOf, same]

/-! ### Marks and pixels -/

variable {damage one other : Damage}

/-- Every marked widget is strictly above a scheduled one. -/
def Grounded (forest : Forest) (damage : Damage) : Prop :=
  ∀ id ∈ damage.above, ∃ below region, damage.region? below = some region ∧
    id ∈ (forest.path below).tail

theorem Grounded.scheduleAll (grounded : damage.Grounded forest)
    (orders : List (WidgetId × Region)) :
    (damage.scheduleAll forest settings orders).Grounded forest := by
  induction orders generalizing damage with
  | nil => exact grounded
  | cons order later inductionHypothesis =>
      rw [scheduleAll_cons]
      apply inductionHypothesis
      intro id marked
      rcases mem_of_mem_markAbove marked with before | above
      · obtain ⟨below, region, held, above⟩ := grounded id before
        by_cases same : order.1 = below
        · exact ⟨below, _, (schedule_region? ..).trans (if_pos same), above⟩
        · exact ⟨below, region, (schedule_region? ..).trans ((if_neg same).trans held), above⟩
      · exact ⟨order.1, _, (schedule_region? ..).trans (if_pos rfl), above⟩

/-- Exactly the widgets strictly above scheduled ones are marked. -/
theorem Grounded.isAbove_iff (linked : forest.Linked) (grounded : damage.Grounded forest)
    (marked : damage.Marked forest) {id : WidgetId} :
    damage.isAbove id = true ↔
      ∃ below region, damage.region? below = some region ∧ id ∈ forest.path below ∧
        id ≠ below := by
  constructor
  · intro isAbove
    obtain ⟨below, region, held, above⟩ := grounded id (List.contains_iff_mem.mp isAbove)
    refine ⟨below, region, held, List.mem_of_mem_tail above, ?_⟩
    rintro rfl
    obtain ⟨rest, shape⟩ := linked.exists_path_cons id
    have once := linked.path_nodup id
    rw [shape, List.nodup_cons] at once
    rw [shape] at above
    exact once.1 above
  · rintro ⟨below, region, held, above, strict⟩
    exact marked.isAbove linked held above strict

/-- Two damages schedule the same widgets with the same pixels, and pass through the same widgets
on the way to them. -/
structure SameDirt (one other : Damage) : Prop where
  scheduled : ∀ id, (one.region? id).isSome = (other.region? id).isSome
  pixels : ∀ id region regionToo, one.region? id = some region →
    other.region? id = some regionToo → region.pixels = regionToo.pixels
  above : ∀ id, one.isAbove id = other.isAbove id

/-- What is scheduled in two damages is told by its pixels. -/
theorem region?_of_litAt (filled : one.Filled)
    (lit : ∀ pixel id, one.litAt pixel id → other.litAt pixel id) {id : WidgetId}
    (held : ∃ region, one.region? id = some region) :
    ∃ region, other.region? id = some region := by
  obtain ⟨region, held⟩ := held
  obtain ⟨pixel, inside⟩ := filled id region held
  obtain ⟨regionToo, heldToo, -⟩ := lit pixel id ⟨region, held, inside⟩
  exact ⟨regionToo, heldToo⟩

/-- Two computations from nothing that light the same pixels have the same dirt. -/
theorem Unscheduled.sameDirt (linked : forest.Linked) (unscheduled : one.Unscheduled)
    (unscheduledToo : other.Unscheduled)
    (lit : ∀ pixel id, (one.compute forest settings).litAt pixel id ↔
      (other.compute forest settings).litAt pixel id) :
    SameDirt (one.compute forest settings) (other.compute forest settings) := by
  have filled : ∀ {damage : Damage}, damage.Unscheduled → (damage.compute forest settings).Filled :=
    fun unscheduled => Filled.compute fun id region held => by
      rw [region?, unscheduled.scheduled] at held
      cases held
  have grounded : ∀ {damage : Damage}, damage.Unscheduled →
      (damage.compute forest settings).Grounded forest := by
    intro damage unscheduled
    rw [compute_eq_scheduleAll]
    apply Grounded.scheduleAll
    intro id marked
    rw [unscheduled.above] at marked
    cases marked
  have held : ∀ id, (∃ region, (one.compute forest settings).region? id = some region) ↔
      ∃ region, (other.compute forest settings).region? id = some region := fun id =>
    ⟨region?_of_litAt (filled unscheduled) fun pixel widget => (lit pixel widget).mp,
      region?_of_litAt (filled unscheduledToo) fun pixel widget => (lit pixel widget).mpr⟩
  constructor
  · intro id
    rw [Bool.eq_iff_iff, Option.isSome_iff_exists, Option.isSome_iff_exists, held]
  · intro id region regionToo found foundToo
    ext pixel
    have same := lit pixel id
    simp only [litAt, found, foundToo, Option.some_inj, exists_eq_left'] at same
    exact same
  · intro id
    rw [Bool.eq_iff_iff,
      (grounded unscheduled).isAbove_iff linked (unscheduled.compute_marked linked),
      (grounded unscheduledToo).isAbove_iff linked (unscheduledToo.compute_marked linked)]
    constructor
    · rintro ⟨below, region, found, rest⟩
      obtain ⟨regionToo, foundToo⟩ := (held below).mp ⟨region, found⟩
      exact ⟨below, regionToo, foundToo, rest⟩
    · rintro ⟨below, region, found, rest⟩
      obtain ⟨regionToo, foundToo⟩ := (held below).mpr ⟨region, found⟩
      exact ⟨below, regionToo, foundToo, rest⟩

/-- As long as no region collapses, requests in another order lead to the same dirt. -/
theorem requested_perm (linked : forest.Linked) (root : WidgetId) (perm : requests.Perm others)
    (keeps : (requested root requests).Uncollapsed forest settings)
    (keepsToo : (requested root others).Uncollapsed forest settings) :
    SameDirt ((requested root requests).compute forest settings)
      ((requested root others).compute forest settings) := by
  have unscheduled := (requested_unscheduled root requests).1
  have unscheduledToo := (requested_unscheduled root others).1
  apply unscheduled.sameDirt linked unscheduledToo
  intro pixel id
  rw [keeps.litAt_iff unscheduled, keepsToo.litAt_iff unscheduledToo]
  exact orderedAt_requested_congr linked fun request => perm.mem_iff

end Damage

end StyledWidgets
