/-
Module: StyledWidgets.Proofs.DirtyBounds
Purpose: What is told of the dirty region of a window does not depend on the order in which regions
  are gathered. In another order the same pixels may be held in other rectangles; but no rectangle
  is empty and no two overlap, so the area is the number of pixels, and the bounding rectangle has
  just the pixels that lie in every rectangle around them.
Main exports: Region.SameExtent, Region.Tiled.sameExtent, Damage.inOrder, Damage.Arises,
  Damage.Arises.dirtyRegion_inOrder
-/
import StyledWidgets.Proofs.CleanWindows
import StyledWidgets.Proofs.RegionAlgebra

namespace StyledWidgets

/-! ### What the pixels of a region tell -/

/-- A rectangle is told by its pixels, if it has any. -/
theorem Rect.eq_of_pixels {rect other : Rect} (filled : rect.isEmpty = false)
    (same : rect.pixels = other.pixels) : rect = other := by
  have filledToo : other.isEmpty = false := by
    rw [Bool.eq_false_iff, ne_eq, Rect.isEmpty_iff] at filled ⊢
    exact fun none => filled fun pixel inside => none pixel (same.subset inside)
  have around : other.containsRect rect = true :=
    Rect.containsRect_of_subset fun _ inside => same.subset inside
  have within : rect.containsRect other = true :=
    Rect.containsRect_of_subset fun _ inside => same.superset inside
  rw [containsRect, filled, Bool.false_or, decide_eq_true_iff] at around
  rw [containsRect, filledToo, Bool.false_or, decide_eq_true_iff] at within
  obtain ⟨x, y, width, height⟩ := rect
  obtain ⟨otherX, otherY, otherWidth, otherHeight⟩ := other
  simp only [right, bottom] at around within
  rw [Rect.mk.injEq]
  omega

namespace Region

variable {region other : Region}

/-- Two regions have the same pixels, and what is reported of a region is the same for both. -/
structure SameExtent (region other : Region) : Prop where
  pixels : region.pixels = other.pixels
  area : region.area = other.area
  boundingRect : region.boundingRect = other.boundingRect
  isEmpty : region.isEmpty = other.isEmpty

theorem SameExtent.symm (same : SameExtent region other) : SameExtent other region :=
  ⟨same.pixels.symm, same.area.symm, same.boundingRect.symm, same.isEmpty.symm⟩

theorem SameExtent.trans {last : Region} (same : SameExtent region other)
    (next : SameExtent other last) : SameExtent region last :=
  ⟨same.pixels.trans next.pixels, same.area.trans next.area,
    same.boundingRect.trans next.boundingRect, same.isEmpty.trans next.isEmpty⟩

theorem Tiled.isEmpty_iff (tiled : region.Tiled) : region.isEmpty = true ↔ region.pixels = ∅ := by
  rw [Set.eq_empty_iff_forall_notMem]
  constructor
  · exact not_mem_of_isEmpty
  · intro none
    by_contra filled
    obtain ⟨pixel, inside⟩ := tiled.solid.exists_mem (Bool.eq_false_iff.mpr filled)
    exact none pixel inside

theorem boundingRect_of_isEmpty (none : region.isEmpty = true) :
    region.boundingRect = Rect.zero := by
  rw [isEmpty, List.isEmpty_iff] at none
  rw [boundingRect, none]
  rfl

/-- Where rectangles have pixels and do not share any, pixels tell everything but the rectangles. -/
theorem Tiled.sameExtent (tiled : region.Tiled) (tiledToo : other.Tiled)
    (same : region.pixels = other.pixels) : SameExtent region other := by
  have isEmpty : region.isEmpty = other.isEmpty := by
    rw [Bool.eq_iff_iff, tiled.isEmpty_iff, tiledToo.isEmpty_iff, same]
  refine ⟨same, ?_, ?_, isEmpty⟩
  · rw [tiled.area_eq, tiledToo.area_eq, same]
  · cases none : region.isEmpty with
    | true => rw [boundingRect_of_isEmpty none, boundingRect_of_isEmpty (isEmpty ▸ none)]
    | false =>
        obtain ⟨pixel, inside⟩ := tiled.solid.exists_mem none
        apply Rect.eq_of_pixels (Rect.not_isEmpty_of_mem (mem_boundingRect inside))
        rw [pixels_boundingRect, pixels_boundingRect, same]

theorem Tiled.foldl_unionRegion (tiled : region.Tiled) (regions : List Region) :
    (regions.foldl Region.unionRegion region).Tiled := by
  induction regions generalizing region with
  | nil => exact tiled
  | cons next later inductionHypothesis => exact inductionHypothesis (tiled.unionRegion next)

end Region

namespace Damage

variable {damage : Damage}

/-! ### Regions in another order -/

/-- A damage whose regions come in another order. -/
def inOrder (damage : Damage) (order : Table WidgetId Region) : Damage :=
  { damage with scheduled := order }

theorem dirtyRegion_tiled (damage : Damage) : damage.dirtyRegion.Tiled :=
  Region.tiled_empty.foldl_unionRegion _

theorem mem_dirtyRegion_inOrder (damage : Damage) {order : Table WidgetId Region}
    (perm : order.entries.Perm damage.scheduled.entries) {pixel : Point} :
    pixel ∈ (damage.inOrder order).dirtyRegion ↔
      ∃ region ∈ damage.scheduled.values, pixel ∈ region := by
  have values : order.values.Perm damage.scheduled.values := perm.map _
  simp only [mem_dirtyRegion_iff, inOrder, values.mem_iff]

/-- However overlapping regions are gathered, it is only the rectangles that may differ. -/
theorem sameExtent_inOrder (damage : Damage) {order : Table WidgetId Region}
    (perm : order.entries.Perm damage.scheduled.entries) :
    Region.SameExtent (damage.inOrder order).dirtyRegion damage.dirtyRegion := by
  apply (dirtyRegion_tiled _).sameExtent (dirtyRegion_tiled _)
  ext pixel
  exact (mem_dirtyRegion_inOrder damage perm).trans mem_dirtyRegion_iff.symm

/-- A successful painting reports the bounds of the dirty region, whatever the backend does. -/
theorem bounds_of_paint {σ : Type} {forest : Forest} {backend : Backend σ} {maxAttempts : Nat}
    {state : PaintState σ} {report : PaintReport}
    (painted : (damage.paint forest backend maxAttempts state).1 = .ok report) :
    report.bounds = damage.dirtyRegion.boundingRect := by
  cases idle : damage.dirtyRegion.isEmpty with
  | true =>
      rw [paint, if_pos idle] at painted
      rw [Region.boundingRect_of_isEmpty idle, ← Except.ok.inj painted]
  | false =>
      obtain ⟨stylist, before⟩ := state
      obtain ⟨passes, outcome, after, final, plain, -, paints, -⟩ :=
        paint_logs backend maxAttempts before idle
      rw [plain] at painted
      rw [paints.reports report painted]

/-! ### Damages that arise -/

/-- The damages that calls lead to. Each call may see other widgets and other settings. -/
inductive Arises : Damage → Prop where
  | new (root : WidgetId) : Arises (.new root)
  | requestUpdate {damage : Damage} (id : WidgetId) (rect : Option Rect) :
      Arises damage → Arises (damage.requestUpdate id rect)
  | compute {damage : Damage} (forest : Forest) (settings : RepaintSettings) :
      Arises damage → Arises (damage.compute forest settings)
  | forget {damage : Damage} (id : WidgetId) : Arises damage → Arises (damage.forget id)
  | clear {damage : Damage} : Arises damage → Arises damage.clear
  | paint {damage : Damage} {σ : Type} (forest : Forest) (backend : Backend σ) (maxAttempts : Nat)
      (state : PaintState σ) :
      Arises damage → Arises (damage.paint forest backend maxAttempts state).2.1

theorem Arises.filled (arises : damage.Arises) : damage.Filled := by
  induction arises with
  | new root => exact filled_new root
  | requestUpdate id rect _ filled => exact filled.requestUpdate id rect
  | compute forest settings _ filled => exact filled.compute
  | forget id _ filled => exact filled.forget id
  | clear => exact filled_clear _
  | paint forest backend maxAttempts state _ filled =>
      rcases paint_damage backend _ maxAttempts state with same | cleared
      · rwa [same]
      · rw [cleared]
        exact filled_clear _

theorem Arises.isEmpty_dirtyRegion (arises : damage.Arises) :
    damage.dirtyRegion.isEmpty = true ↔ ∀ id, damage.region? id = none := by
  constructor
  · intro idle id
    have none := arises.filled.isEmpty_scheduled idle
    rw [Table.isEmpty, List.isEmpty_iff] at none
    rw [region?, Table.find?, none]
    rfl
  · intro unscheduled
    rw [damage.dirtyRegion_tiled.isEmpty_iff, Set.eq_empty_iff_forall_notMem]
    intro pixel inside
    obtain ⟨region, member, -⟩ := mem_dirtyRegion_iff.mp inside
    obtain ⟨⟨id, _⟩, isEntry, -⟩ := List.mem_map.mp member
    obtain ⟨found, held⟩ := Table.mem_keys_iff.mp (List.mem_map.mpr ⟨_, isEntry, rfl⟩)
    cases (unscheduled id).symm.trans held

/-- In whichever of two orders the regions of a damage come, its dirty region has just their pixels,
the same area and the same bounding rectangle; it is empty exactly if no widget has a region, and
the bounds that a painting reports are the same for every painting that succeeds. -/
theorem Arises.dirtyRegion_inOrder (arises : damage.Arises) (first second : Table WidgetId Region)
    (isOrder : first.entries.Perm damage.scheduled.entries)
    (isOrderToo : second.entries.Perm damage.scheduled.entries) :
    Region.SameExtent (damage.inOrder first).dirtyRegion (damage.inOrder second).dirtyRegion ∧
      (∀ pixel, pixel ∈ (damage.inOrder first).dirtyRegion ↔
        ∃ region ∈ damage.scheduled.values, pixel ∈ region) ∧
      ((damage.inOrder first).dirtyRegion.isEmpty = true ↔ ∀ id, damage.region? id = none) ∧
      ∀ {σ τ : Type} (forest forestToo : Forest) (backend : Backend σ) (backendToo : Backend τ)
        (maxAttempts maxAttemptsToo : Nat) (state : PaintState σ) (stateToo : PaintState τ)
        (report reportToo : PaintReport),
        ((damage.inOrder first).paint forest backend maxAttempts state).1 = .ok report →
          ((damage.inOrder second).paint forestToo backendToo maxAttemptsToo stateToo).1 =
            .ok reportToo →
          report.bounds = reportToo.bounds := by
  have own := sameExtent_inOrder damage isOrder
  have same := own.trans (sameExtent_inOrder damage isOrderToo).symm
  refine ⟨same, fun _ => mem_dirtyRegion_inOrder damage isOrder, ?_, ?_⟩
  · rw [own.isEmpty, arises.isEmpty_dirtyRegion]
  · intro σ τ forest forestToo backend backendToo maxAttempts maxAttemptsToo state stateToo report
      reportToo painted paintedToo
    rw [bounds_of_paint painted, bounds_of_paint paintedToo, same.boundingRect]

/-- A part of the window and the whole of its label, which lies over a corner of that part. -/
def labelAndPart : Damage :=
  (((new ⟨0⟩).requestUpdate ⟨0⟩ (some ⟨10, 5, 30, 30⟩)).requestUpdate ⟨1⟩ none).compute
    unpaintedLabel.forest {}

/-- With the label first other rectangles are gathered, and the same is told of them. A painting
that loses the device once reports the bounds that one without failures reports. -/
theorem dirtyRegion_inOrder_labelAndPart :
    let backwards : Table WidgetId Region := ⟨labelAndPart.scheduled.entries.reverse⟩
    let other := labelAndPart.inOrder backwards
    labelAndPart.Arises ∧ backwards.entries.Perm labelAndPart.scheduled.entries ∧
      other.dirtyRegion ≠ labelAndPart.dirtyRegion ∧
      Region.SameExtent labelAndPart.dirtyRegion other.dirtyRegion ∧
      labelAndPart.dirtyRegion.isEmpty = false ∧ labelAndPart.dirtyRegion.area = 1050 ∧
      ∃ report reportToo,
        (labelAndPart.paint unpaintedLabel.forest lossyBackend 3 ⟨{}, 0⟩).1 = .ok report ∧
        (other.paint unpaintedLabel.forest countingBackend 1 ⟨{}, 0⟩).1 = .ok reportToo ∧
        report.bounds = reportToo.bounds := by
  have arises : labelAndPart.Arises :=
    .compute _ _ (.requestUpdate _ _ (.requestUpdate _ _ (.new ⟨0⟩)))
  have perm : (labelAndPart.scheduled.entries.reverse).Perm labelAndPart.scheduled.entries :=
    List.reverse_perm _
  obtain ⟨same, -, isEmpty, bounds⟩ := arises.dirtyRegion_inOrder labelAndPart.scheduled
    ⟨labelAndPart.scheduled.entries.reverse⟩ (List.Perm.refl _) perm
  have scheduled : labelAndPart.region? ⟨1⟩ ≠ none := by decide +kernel
  have painted : (labelAndPart.paint unpaintedLabel.forest lossyBackend 3 ⟨{}, 0⟩).1 =
      .ok ⟨2, ⟨0, 0, 40, 35⟩⟩ := by decide +kernel
  have paintedToo : ((labelAndPart.inOrder
      ⟨labelAndPart.scheduled.entries.reverse⟩).paint unpaintedLabel.forest countingBackend 1
        ⟨{}, 0⟩).1 = .ok ⟨2, ⟨0, 0, 40, 35⟩⟩ := by decide +kernel
  refine ⟨arises, perm, by decide +kernel, same, ?_, by decide +kernel, _, _, painted, paintedToo,
    bounds _ _ _ _ _ _ _ _ _ _ painted paintedToo⟩
  exact Bool.eq_false_iff.mpr fun idle => scheduled (isEmpty.mp idle ⟨1⟩)

end Damage

end StyledWidgets
