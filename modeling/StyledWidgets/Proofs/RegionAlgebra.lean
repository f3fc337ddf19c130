/-
Module: StyledWidgets.Proofs.RegionAlgebra
Purpose: Regions are an exact algebra of sets of pixels. However a region has been put together, it
  holds each of its pixels in one rectangle, so its area counts pixels and its bounding rectangle is
  the smallest one.
Main exports: Region.Tiled, Region.Tiled.area_eq, RegionTerm, RegionTerm.eval, RegionTerm.pixels,
  RegionTerm.eval_exact
-/
import Mathlib.Data.Int.ConditionallyCompleteOrder
import Mathlib.Data.Int.Interval
import Mathlib.Data.Set.Card
import StyledWidgets.Proofs.Pixels

namespace StyledWidgets

/-! ### Rectangles that share no pixel -/

namespace Rect

/-- No pixel belongs to both rectangles. -/
def Apart (a b : Rect) : Prop := ∀ pixel : Point, pixel ∈ a → pixel ∉ b

/-- The bands of a subtraction do not overlap: full rows above and below the cut, and beside it the
rows of the cut only. -/
theorem subtract_apart (a b : Rect) : (a.subtract b).Pairwise Apart := by
  simp only [subtract]
  split
  case isTrue => split <;> simp
  case isFalse meeting =>
    apply List.Pairwise.filter
    generalize a.intersect b = cut at meeting
    simp only [isEmpty, decide_eq_true_eq, not_or, Int.not_le] at meeting
    simp only [List.pairwise_cons, List.Pairwise.nil, List.mem_cons, List.not_mem_nil, or_false,
      forall_eq_or_imp, forall_eq, false_implies, forall_const, and_true, Apart, mem_iff, ofEdges,
      right, bottom]
    refine ⟨⟨?_, ?_, ?_⟩, ⟨?_, ?_⟩, ?_⟩ <;> intro pixel <;> omega

theorem mem_of_mem_subtract {a b part : Rect} (member : part ∈ a.subtract b) {pixel : Point}
    (inside : pixel ∈ part) : pixel ∈ a ∧ pixel ∉ b :=
  exists_mem_subtract.mp ⟨part, member, inside⟩

/-- The pixels of a rectangle. -/
def pixels (rect : Rect) : Set Point := {pixel | pixel ∈ rect}

/-- The pixels of a rectangle as pairs of a column and a row. -/
theorem pixels_eq_image (rect : Rect) :
    rect.pixels = (fun place : Int × Int => (⟨place.1, place.2⟩ : Point)) ''
      (Finset.Ico rect.x rect.right ×ˢ Finset.Ico rect.y rect.bottom : Finset (Int × Int)) := by
  ext ⟨x, y⟩
  simp only [pixels, Set.mem_ofPred_eq, mem_iff, Set.mem_image, Finset.mem_coe, Finset.mem_product,
    Finset.mem_Ico, Point.mk.injEq, Prod.exists]
  constructor
  · intro inside
    exact ⟨x, y, ⟨⟨inside.1, inside.2.1⟩, inside.2.2.1, inside.2.2.2⟩, rfl, rfl⟩
  · rintro ⟨column, row, ⟨⟨left, right⟩, top, bottom⟩, rfl, rfl⟩
    exact ⟨left, right, top, bottom⟩

theorem pixels_finite (rect : Rect) : rect.pixels.Finite := by
  rw [pixels_eq_image]
  exact (Finset.finite_toSet _).image _

/-- The area of a rectangle is the number of its pixels. -/
theorem ncard_pixels (rect : Rect) : (rect.pixels.ncard : Int) = rect.area := by
  have injective : Function.Injective fun place : Int × Int =>
      (⟨place.1, place.2⟩ : Point) := by
    rintro ⟨x, y⟩ ⟨column, row⟩ same
    simpa using same
  have columns : rect.right - rect.x = rect.width := by simp [right]
  have rows : rect.bottom - rect.y = rect.height := by simp [bottom]
  rw [pixels_eq_image, Set.ncard_image_of_injective _ injective, Set.ncard_coe_finset,
    Finset.card_product, Int.card_Ico, Int.card_Ico, columns, rows, area]
  cases flat : rect.isEmpty with
  | true =>
      simp only [isEmpty, decide_eq_true_eq] at flat
      rcases flat with narrow | low
      · simp [Int.toNat_of_nonpos narrow]
      · simp [Int.toNat_of_nonpos low]
  | false =>
      simp only [isEmpty, decide_eq_false_iff_not, not_or, Int.not_le] at flat
      simp [Int.toNat_of_nonneg flat.1.le, Int.toNat_of_nonneg flat.2.le]

/-- A rectangle with the pixels of another one has its edges around it. -/
theorem containsRect_of_subset {outer inner : Rect}
    (subset : ∀ pixel : Point, pixel ∈ inner → pixel ∈ outer) :
    outer.containsRect inner = true := by
  cases flat : inner.isEmpty with
  | true => simp [containsRect, flat]
  | false =>
      have first := subset ⟨inner.x, inner.y⟩
      have last := subset ⟨inner.right - 1, inner.bottom - 1⟩
      simp only [containsRect, flat, Bool.false_or, decide_eq_true_iff]
      simp only [isEmpty, decide_eq_false_iff_not, not_or, Int.not_le] at flat
      simp only [mem_iff, right, bottom] at first last ⊢
      omega

end Rect

/-! ### Regions that hold every pixel once -/

namespace Region

/-- Every rectangle has a pixel, and no pixel is in two rectangles. -/
structure Tiled (region : Region) : Prop where
  solid : region.Solid
  apart : region.rects.Pairwise Rect.Apart

/-- Cutting rectangles that do not overlap into parts that do not overlap leaves parts of which no
two overlap. -/
theorem pairwise_apart_flatMap {rects : List Rect} {cut : Rect → List Rect}
    (apart : rects.Pairwise Rect.Apart) (parts : ∀ rect ∈ rects, (cut rect).Pairwise Rect.Apart)
    (inside : ∀ rect ∈ rects, ∀ part ∈ cut rect, ∀ pixel : Point, pixel ∈ part → pixel ∈ rect) :
    (rects.flatMap cut).Pairwise Rect.Apart := by
  refine List.pairwise_flatMap.mpr ⟨parts, apart.imp_of_mem ?_⟩
  intro first second firstMember secondMember firstApart one oneMember other otherMember pixel inOne
    inOther
  exact firstApart pixel (inside first firstMember one oneMember pixel inOne)
    (inside second secondMember other otherMember pixel inOther)

theorem Tiled.of_subtract {rects : List Rect} (tiled : Tiled ⟨rects⟩) (rect : Rect) :
    Tiled ⟨rects.flatMap fun part => part.subtract rect⟩ where
  solid part member := by
    obtain ⟨whole, -, isPart⟩ := List.mem_flatMap.mp member
    exact subtract_filled isPart
  apart := pairwise_apart_flatMap tiled.apart (fun part _ => Rect.subtract_apart part rect)
    fun _ _ _ isPart _ inside => (Rect.mem_of_mem_subtract isPart inside).1

theorem Tiled.singleton {rect : Rect} (filled : rect.isEmpty = false) : Tiled ⟨[rect]⟩ where
  solid part member := by
    rw [List.mem_singleton.mp member]
    exact filled
  apart := List.pairwise_singleton _ _

theorem tiled_empty : Tiled empty where
  solid _ member := absurd member List.not_mem_nil
  apart := List.Pairwise.nil

/-- The parts of a rectangle that are left beside covered rectangles. -/
theorem tiled_uncovered {rect : Rect} (filled : rect.isEmpty = false) (covered : List Rect) :
    Tiled ⟨uncovered rect covered⟩ := by
  have cutAll : ∀ pieces : List Rect, Tiled ⟨pieces⟩ →
      Tiled ⟨covered.foldl
        (fun pieces other => pieces.flatMap fun piece => piece.subtract other) pieces⟩ := by
    induction covered with
    | nil => exact fun _ tiled => tiled
    | cons other later inductionHypothesis =>
        exact fun _ tiled => inductionHypothesis _ (tiled.of_subtract other)
  exact cutAll [rect] (Tiled.singleton filled)

/-- Each operation hands on what the next one relies on. -/
theorem Tiled.unionRect {region : Region} (tiled : region.Tiled) (rect : Rect) :
    (region.unionRect rect).Tiled := by
  rw [Region.unionRect]
  split
  case isTrue => exact tiled
  case isFalse filled =>
    have added := tiled_uncovered (Bool.eq_false_iff.mpr filled) region.rects
    constructor
    · intro part member
      rcases List.mem_append.mp member with before | new
      · exact tiled.solid part before
      · exact added.solid part new
    · refine List.pairwise_append.mpr ⟨tiled.apart, added.apart, ?_⟩
      intro part partMember piece pieceMember pixel inPart inPiece
      exact (exists_mem_uncovered.mp ⟨piece, pieceMember, inPiece⟩).2 part partMember inPart

theorem Tiled.unionRegion {region : Region} (tiled : region.Tiled) (other : Region) :
    (region.unionRegion other).Tiled := by
  obtain ⟨rects⟩ := other
  simp only [Region.unionRegion]
  induction rects generalizing region with
  | nil => exact tiled
  | cons rect later inductionHypothesis => exact inductionHypothesis (tiled.unionRect rect)

theorem Tiled.subtractRect {region : Region} (tiled : region.Tiled) (rect : Rect) :
    (region.subtractRect rect).Tiled := by
  rw [Region.subtractRect]
  split
  · exact tiled
  · exact tiled.of_subtract rect

theorem Tiled.intersectRect {region : Region} (tiled : region.Tiled) (rect : Rect) :
    (region.intersectRect rect).Tiled where
  solid := Solid.intersectRect region rect
  apart := by
    refine (List.pairwise_map.mpr (tiled.apart.imp ?_)).filter _
    intro first second apart pixel inFirst inSecond
    exact apart pixel (Rect.mem_intersect.mp inFirst).1 (Rect.mem_intersect.mp inSecond).1

/-- Here the second operand has to be free of overlaps too. -/
theorem Tiled.intersectRegion {region other : Region} (tiled : region.Tiled)
    (tiledToo : other.Tiled) : (region.intersectRegion other).Tiled where
  solid part member := by
    obtain ⟨first, -, kept⟩ := List.mem_flatMap.mp member
    simpa using (List.mem_filter.mp kept).2
  apart := by
    apply pairwise_apart_flatMap tiled.apart
    · intro first _
      refine (List.pairwise_map.mpr (tiledToo.apart.imp ?_)).filter _
      intro one another apart pixel inOne inAnother
      exact apart pixel (Rect.mem_intersect.mp inOne).2 (Rect.mem_intersect.mp inAnother).2
    · intro first _ part kept pixel inside
      obtain ⟨second, -, rfl⟩ := List.mem_map.mp (List.mem_filter.mp kept).1
      exact (Rect.mem_intersect.mp inside).1

theorem Tiled.movedBy {region : Region} (tiled : region.Tiled) (dx dy : Int) :
    (region.movedBy dx dy).Tiled where
  solid part member := by
    obtain ⟨rect, before, rfl⟩ := List.mem_map.mp member
    exact tiled.solid rect before
  apart := by
    refine List.pairwise_map.mpr (tiled.apart.imp ?_)
    intro first second apart pixel inFirst inSecond
    exact apart _ (Rect.mem_movedBy.mp inFirst) (Rect.mem_movedBy.mp inSecond)

theorem Tiled.simplify {region : Region} (tiled : region.Tiled) (limit : Nat) :
    (region.simplify limit).Tiled := by
  rw [Region.simplify]
  split
  case isTrue many =>
    have filled : region.isEmpty = false := by
      rw [isEmpty, Bool.eq_false_iff, ne_eq, List.isEmpty_iff]
      rintro none
      simp [none] at many
    obtain ⟨pixel, member⟩ := tiled.solid.exists_mem filled
    exact Tiled.singleton (Rect.not_isEmpty_of_mem (mem_boundingRect member))
  case isFalse => exact tiled

/-! ### Counting pixels -/

/-- The pixels of a region. -/
def pixels (region : Region) : Set Point := {pixel | pixel ∈ region}

theorem pixels_cons (rect : Rect) (later : List Rect) :
    pixels ⟨rect :: later⟩ = rect.pixels ∪ pixels ⟨later⟩ := by
  ext pixel
  simp only [pixels, Rect.pixels, Set.mem_ofPred_eq, Set.mem_union, mem_iff, List.mem_cons,
    exists_eq_or_imp]

theorem pixels_finite (region : Region) : region.pixels.Finite := by
  obtain ⟨rects⟩ := region
  induction rects with
  | nil => simp [pixels, mem_iff]
  | cons rect later inductionHypothesis =>
      rw [pixels_cons]
      exact rect.pixels_finite.union inductionHypothesis

/-- Where no pixel is held twice, the areas of the rectangles add up to the number of pixels. -/
theorem Tiled.area_eq {region : Region} (tiled : region.Tiled) :
    region.area = (region.pixels.ncard : Int) := by
  obtain ⟨rects⟩ := region
  have apart := tiled.apart
  clear tiled
  induction rects with
  | nil => simp [area, pixels, mem_iff]
  | cons rect later inductionHypothesis =>
      simp only [List.pairwise_cons] at apart
      have disjoint : Disjoint rect.pixels (pixels ⟨later⟩) := by
        rw [Set.disjoint_left]
        intro pixel inRect inLater
        obtain ⟨other, member, inOther⟩ := mem_iff.mp inLater
        exact apart.1 other member pixel inRect inOther
      rw [pixels_cons, Set.ncard_union_eq disjoint rect.pixels_finite (pixels_finite _)]
      have rest := inductionHypothesis apart.2
      simp only [area, List.foldr_cons] at rest ⊢
      rw [rest, Nat.cast_add, Rect.ncard_pixels]

/-! ### Rectangles around pixels -/

/-- What lies in every rectangle around a set of pixels. -/
def hull (pixels : Set Point) : Set Point :=
  {pixel | ∀ frame : Rect, pixels ⊆ frame.pixels → pixel ∈ frame}

/-- The bounding rectangle is what lies in every rectangle around the region. -/
theorem pixels_boundingRect (region : Region) :
    region.boundingRect.pixels = hull region.pixels := by
  ext pixel
  constructor
  · intro inside frame around
    exact boundingRect_subset around pixel inside
  · intro inside
    exact inside region.boundingRect fun _ member => mem_boundingRect member

end Region

/-! ### Regions by the way they are put together -/

/-- A way to put a region together from the empty one. Both operands of a union or an intersection
of regions have been put together so. -/
inductive RegionTerm where
  | empty
  | unionRect (region : RegionTerm) (rect : Rect)
  | unionRegion (region other : RegionTerm)
  | subtractRect (region : RegionTerm) (rect : Rect)
  | intersectRect (region : RegionTerm) (rect : Rect)
  | intersectRegion (region other : RegionTerm)
  | movedBy (region : RegionTerm) (dx dy : Int)
  | simplify (region : RegionTerm) (maxRects : Nat)
  deriving Repr, DecidableEq, Inhabited

namespace RegionTerm

/-- The region that is put together. -/
def eval : RegionTerm → Region
  | .empty => Region.empty
  | .unionRect region rect => region.eval.unionRect rect
  | .unionRegion region other => region.eval.unionRegion other.eval
  | .subtractRect region rect => region.eval.subtractRect rect
  | .intersectRect region rect => region.eval.intersectRect rect
  | .intersectRegion region other => region.eval.intersectRegion other.eval
  | .movedBy region dx dy => region.eval.movedBy dx dy
  | .simplify region maxRects => region.eval.simplify maxRects

/-- The set of pixels that is meant. Only where a region is simplified does it matter how many
rectangles hold it. -/
def pixels : RegionTerm → Set Point
  | .empty => ∅
  | .unionRect region rect => region.pixels ∪ rect.pixels
  | .unionRegion region other => region.pixels ∪ other.pixels
  | .subtractRect region rect => region.pixels \ rect.pixels
  | .intersectRect region rect => region.pixels ∩ rect.pixels
  | .intersectRegion region other => region.pixels ∩ other.pixels
  | .movedBy region dx dy => (fun pixel => ⟨pixel.x + dx, pixel.y + dy⟩) '' region.pixels
  | .simplify region maxRects =>
      if region.eval.rects.length ≤ max 1 maxRects then region.pixels
      else Region.hull region.pixels

theorem eval_tiled (term : RegionTerm) : term.eval.Tiled := by
  induction term with
  | empty => exact Region.tiled_empty
  | unionRect region rect tiled => exact tiled.unionRect rect
  | unionRegion region other tiled _ => exact tiled.unionRegion other.eval
  | subtractRect region rect tiled => exact tiled.subtractRect rect
  | intersectRect region rect tiled => exact tiled.intersectRect rect
  | intersectRegion region other tiled tiledToo => exact tiled.intersectRegion tiledToo
  | movedBy region dx dy tiled => exact tiled.movedBy dx dy
  | simplify region maxRects tiled => exact tiled.simplify maxRects

theorem eval_pixels (term : RegionTerm) : term.eval.pixels = term.pixels := by
  induction term with
  | empty => simp [eval, pixels, Region.pixels]
  | unionRect region rect same =>
      rw [pixels, ← same]
      ext pixel
      exact Region.mem_unionRect
  | unionRegion region other same sameToo =>
      rw [pixels, ← same, ← sameToo]
      ext pixel
      exact Region.mem_unionRegion
  | subtractRect region rect same =>
      rw [pixels, ← same]
      ext pixel
      exact Region.mem_subtractRect
  | intersectRect region rect same =>
      rw [pixels, ← same]
      ext pixel
      exact Region.mem_intersectRect
  | intersectRegion region other same sameToo =>
      rw [pixels, ← same, ← sameToo]
      ext pixel
      exact Region.mem_intersectRegion
  | movedBy region dx dy same =>
      rw [pixels, ← same]
      ext ⟨x, y⟩
      refine Region.mem_movedBy.trans ⟨fun before => ⟨_, before, by simp⟩, ?_⟩
      rintro ⟨⟨column, row⟩, before, moved⟩
      rw [Point.mk.injEq] at moved
      rwa [← moved.1, ← moved.2, add_sub_cancel_right, add_sub_cancel_right]
  | simplify region maxRects same =>
      rw [pixels, ← same]
      split
      case isTrue within =>
        rw [eval, Region.simplify_of_length_le (max_comm 1 maxRects ▸ within)]
      case isFalse beyond =>
        rw [eval, Region.simplify, if_pos (by omega), ← Region.pixels_boundingRect]
        ext pixel
        simp [Region.pixels, Rect.pixels, Region.mem_iff]

/-- However a region is put together, its rectangles are filled and share no pixel; it has exactly
the pixels that are meant, its area is their number, and no rectangle around them is smaller than
its bounding rectangle. -/
theorem eval_exact (term : RegionTerm) :
    (∀ rect ∈ term.eval.rects, rect.isEmpty = false) ∧
      term.eval.rects.Pairwise Rect.Apart ∧
      (∀ x y, term.eval.containsPoint x y = true ↔ ⟨x, y⟩ ∈ term.pixels) ∧
      (∀ maxRects, (term.eval.simplify maxRects).rects =
        if term.eval.rects.length ≤ max 1 maxRects then term.eval.rects
        else [term.eval.boundingRect]) ∧
      term.pixels.Finite ∧ term.eval.area = (term.pixels.ncard : Int) ∧
      term.pixels ⊆ term.eval.boundingRect.pixels ∧
      ∀ frame : Rect, term.pixels ⊆ frame.pixels →
        frame.containsRect term.eval.boundingRect = true := by
  have tiled := term.eval_tiled
  have same := term.eval_pixels
  refine ⟨tiled.solid, tiled.apart, ?_, ?_, ?_, ?_, ?_, ?_⟩
  · intro x y
    rw [← same]
    exact Iff.rfl
  · intro maxRects
    rw [Region.simplify]
    split
    case isTrue many => rw [if_neg (by omega)]
    case isFalse few => rw [if_pos (by omega)]
  · rw [← same]
    exact Region.pixels_finite term.eval
  · rw [← same]
    exact tiled.area_eq
  · rw [← same]
    exact fun _ member => Region.mem_boundingRect member
  · intro frame around
    rw [← same] at around
    exact Rect.containsRect_of_subset fun pixel inside =>
      Region.boundingRect_subset around pixel inside

end RegionTerm

end StyledWidgets
