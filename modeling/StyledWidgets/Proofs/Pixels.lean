/-
Module: StyledWidgets.Proofs.Pixels
Purpose: Rectangles and regions as sets of pixels: which pixels the result of each operation has.
Main exports: Rect.mem_intersect, Rect.exists_mem_subtract, Region.mem_unionRegion,
  Region.mem_subtractRect, Region.mem_intersectRegion, Region.mem_simplify, Region.Solid
-/
import Mathlib.Tactic.Common
import StyledWidgets.Geometry.Region

namespace StyledWidgets

/-! ### Rectangles -/

namespace Rect

/-- A pixel belongs to a rectangle that covers it. -/
instance : Membership Point Rect :=
  ⟨fun rect pixel => rect.containsPoint pixel.x pixel.y = true⟩

instance (rect : Rect) (pixel : Point) : Decidable (pixel ∈ rect) :=
  inferInstanceAs (Decidable (_ = true))

theorem mem_iff {rect : Rect} {pixel : Point} :
    pixel ∈ rect ↔
      rect.x ≤ pixel.x ∧ pixel.x < rect.right ∧ rect.y ≤ pixel.y ∧ pixel.y < rect.bottom := by
  simp [Membership.mem, containsPoint]

theorem containsPoint_iff {rect : Rect} {pixel : Point} :
    rect.containsPoint pixel.x pixel.y = true ↔ pixel ∈ rect := Iff.rfl

/-- A rectangle is empty exactly if it covers no pixel. -/
theorem isEmpty_iff {rect : Rect} : rect.isEmpty = true ↔ ∀ pixel : Point, pixel ∉ rect := by
  simp only [isEmpty, decide_eq_true_eq, mem_iff, right, bottom]
  constructor
  · intro flat pixel
    omega
  · intro none
    have corner := none ⟨rect.x, rect.y⟩
    simp only at corner
    omega

theorem not_isEmpty_of_mem {rect : Rect} {pixel : Point} (member : pixel ∈ rect) :
    rect.isEmpty = false := by
  rw [Bool.eq_false_iff]
  intro empty
  exact isEmpty_iff.mp empty pixel member

theorem not_mem_zero (pixel : Point) : pixel ∉ zero := by
  simp only [mem_iff, zero, right, bottom]
  omega

@[simp]
theorem mem_intersect {a b : Rect} {pixel : Point} :
    pixel ∈ a.intersect b ↔ pixel ∈ a ∧ pixel ∈ b := by
  simp only [intersect]
  split
  · have outside := not_mem_zero pixel
    simp only [mem_iff] at outside ⊢
    omega
  · simp only [mem_iff, ofEdges, right, bottom]
    omega

/-- The edges of a common part lie between the edges of both rectangles. -/
theorem edges_intersect {a b : Rect} (meeting : (a.intersect b).isEmpty = false) :
    (a.intersect b).x = max a.x b.x ∧ (a.intersect b).y = max a.y b.y ∧
      (a.intersect b).right = min a.right b.right ∧
      (a.intersect b).bottom = min a.bottom b.bottom := by
  simp only [intersect] at meeting ⊢
  split at meeting
  case isTrue => simp [zero, isEmpty] at meeting
  case isFalse apart =>
    rw [if_neg apart]
    refine ⟨rfl, rfl, ?_, ?_⟩
    · simp only [ofEdges, right]
      omega
    · simp only [ofEdges, bottom]
      omega

theorem intersects_iff {a b : Rect} :
    a.intersects b = true ↔ ∃ pixel : Point, pixel ∈ a ∧ pixel ∈ b := by
  rw [intersects, Bool.not_eq_true', Bool.eq_false_iff, ne_eq, isEmpty_iff]
  simp

@[simp]
theorem mem_movedBy {rect : Rect} {dx dy : Int} {pixel : Point} :
    pixel ∈ rect.movedBy dx dy ↔ (⟨pixel.x - dx, pixel.y - dy⟩ : Point) ∈ rect := by
  simp only [mem_iff, movedBy, right, bottom]
  omega

theorem mem_united {a b : Rect} {pixel : Point} (member : pixel ∈ a ∨ pixel ∈ b) :
    pixel ∈ a.united b := by
  simp only [united]
  split
  case isTrue empty =>
    rcases member with left | right
    · exact absurd left (isEmpty_iff.mp empty pixel)
    · exact right
  case isFalse =>
    split
    case isTrue empty =>
      rcases member with left | right
      · exact left
      · exact absurd right (isEmpty_iff.mp empty pixel)
    case isFalse =>
      simp only [mem_iff, ofEdges, right, bottom] at member ⊢
      omega

/-- A rectangle around both rectangles is a rectangle around their union: bounding adds nothing
outside of any rectangle that held the pixels before. -/
theorem united_subset {a b frame : Rect} (left : ∀ pixel : Point, pixel ∈ a → pixel ∈ frame)
    (right : ∀ pixel : Point, pixel ∈ b → pixel ∈ frame) (pixel : Point)
    (member : pixel ∈ a.united b) : pixel ∈ frame := by
  simp only [united] at member
  split at member
  case isTrue => exact right pixel member
  case isFalse filledA =>
    split at member
    case isTrue => exact left pixel member
    case isFalse filledB =>
      have firstA := left ⟨a.x, a.y⟩
      have lastA := left ⟨a.right - 1, a.bottom - 1⟩
      have firstB := right ⟨b.x, b.y⟩
      have lastB := right ⟨b.right - 1, b.bottom - 1⟩
      simp only [isEmpty, decide_eq_true_eq, not_or, Int.not_le] at filledA filledB
      simp only [mem_iff, ofEdges, Rect.right, Rect.bottom] at firstA lastA firstB lastB member ⊢
      omega

/-- The bands of a subtraction cover what is left of the rectangle and nothing else. -/
theorem exists_mem_subtract {a b : Rect} {pixel : Point} :
    (∃ part ∈ a.subtract b, pixel ∈ part) ↔ pixel ∈ a ∧ pixel ∉ b := by
  have cutMember : pixel ∈ a.intersect b ↔ pixel ∈ a ∧ pixel ∈ b := mem_intersect
  simp only [subtract]
  split
  case isTrue disjoint =>
    have apart := isEmpty_iff.mp disjoint pixel
    split
    case isTrue empty =>
      have outside := isEmpty_iff.mp empty pixel
      simp [outside]
    case isFalse =>
      simp only [List.mem_singleton, exists_eq_left]
      tauto
  case isFalse meeting =>
    -- An empty band has no pixel, so the filter takes no pixel away.
    have kept : ∀ (parts : List Rect),
        (∃ part ∈ parts.filter fun band => !band.isEmpty, pixel ∈ part) ↔
          ∃ part ∈ parts, pixel ∈ part := by
      intro parts
      constructor
      · rintro ⟨part, member, inside⟩
        exact ⟨part, (List.mem_filter.mp member).1, inside⟩
      · rintro ⟨part, member, inside⟩
        refine ⟨part, List.mem_filter.mpr ⟨member, ?_⟩, inside⟩
        simp [not_isEmpty_of_mem inside]
    rw [kept]
    simp only [List.mem_cons, List.not_mem_nil, or_false, exists_eq_or_imp, exists_eq_left]
    have outside : pixel ∈ a ∧ pixel ∉ b ↔ pixel ∈ a ∧ pixel ∉ a.intersect b := by tauto
    have inner :
        a.x ≤ (a.intersect b).x ∧ a.y ≤ (a.intersect b).y ∧
          (a.intersect b).right ≤ a.right ∧ (a.intersect b).bottom ≤ a.bottom := by
      have edges := edges_intersect (Bool.eq_false_iff.mpr meeting)
      omega
    rw [outside]
    generalize a.intersect b = cut at meeting inner
    simp only [isEmpty, decide_eq_true_eq, not_or, Int.not_le] at meeting
    simp only [mem_iff, ofEdges, right, bottom] at inner ⊢
    omega

end Rect

/-! ### Regions -/

namespace Region

/-- A pixel belongs to a region that has it in one of its rectangles. -/
instance : Membership Point Region :=
  ⟨fun region pixel => region.containsPoint pixel.x pixel.y = true⟩

instance (region : Region) (pixel : Point) : Decidable (pixel ∈ region) :=
  inferInstanceAs (Decidable (_ = true))

theorem mem_iff {region : Region} {pixel : Point} :
    pixel ∈ region ↔ ∃ rect ∈ region.rects, pixel ∈ rect :=
  List.any_eq_true

@[simp]
theorem not_mem_empty (pixel : Point) : pixel ∉ empty := by
  simp [mem_iff, empty]

theorem not_mem_of_isEmpty {region : Region} (none : region.isEmpty = true) (pixel : Point) :
    pixel ∉ region := by
  rw [isEmpty, List.isEmpty_iff] at none
  simp [mem_iff, none]

theorem not_isEmpty_of_mem {region : Region} {pixel : Point} (member : pixel ∈ region) :
    region.isEmpty = false := by
  rw [Bool.eq_false_iff]
  intro none
  exact not_mem_of_isEmpty none pixel member

theorem intersectsRect_iff {region : Region} {rect : Rect} :
    region.intersectsRect rect = true ↔ ∃ pixel : Point, pixel ∈ region ∧ pixel ∈ rect := by
  simp only [intersectsRect, List.any_eq_true, Rect.intersects_iff, mem_iff]
  constructor
  · rintro ⟨part, member, pixel, inPart, inRect⟩
    exact ⟨pixel, ⟨part, member, inPart⟩, inRect⟩
  · rintro ⟨pixel, ⟨part, member, inPart⟩, inRect⟩
    exact ⟨part, member, pixel, inPart, inRect⟩

private theorem exists_mem_cutAll (pixel : Point) (covered : List Rect) :
    ∀ pieces : List Rect,
      (∃ part ∈ covered.foldl
          (fun pieces other => pieces.flatMap fun piece => piece.subtract other) pieces,
        pixel ∈ part) ↔
      (∃ part ∈ pieces, pixel ∈ part) ∧ ∀ other ∈ covered, pixel ∉ other := by
  induction covered with
  | nil => simp
  | cons other later inductionHypothesis =>
      intro pieces
      have cut :
          (∃ part ∈ pieces.flatMap fun piece => piece.subtract other, pixel ∈ part) ↔
            (∃ piece ∈ pieces, pixel ∈ piece) ∧ pixel ∉ other := by
        constructor
        · rintro ⟨part, member, inside⟩
          obtain ⟨piece, pieceMember, partMember⟩ := List.mem_flatMap.mp member
          obtain ⟨inPiece, outside⟩ := Rect.exists_mem_subtract.mp ⟨part, partMember, inside⟩
          exact ⟨⟨piece, pieceMember, inPiece⟩, outside⟩
        · rintro ⟨⟨piece, pieceMember, inPiece⟩, outside⟩
          obtain ⟨part, partMember, inside⟩ := Rect.exists_mem_subtract.mpr ⟨inPiece, outside⟩
          exact ⟨part, List.mem_flatMap.mpr ⟨piece, pieceMember, partMember⟩, inside⟩
      rw [List.foldl_cons, inductionHypothesis, cut]
      simp only [List.mem_cons, forall_eq_or_imp, and_assoc]

/-- The parts that are left beside covered rectangles have the pixels that are not covered. -/
theorem exists_mem_uncovered {rect : Rect} {covered : List Rect} {pixel : Point} :
    (∃ part ∈ uncovered rect covered, pixel ∈ part) ↔
      pixel ∈ rect ∧ ∀ other ∈ covered, pixel ∉ other := by
  have pieces := exists_mem_cutAll pixel covered [rect]
  simpa only [uncovered, List.mem_singleton, exists_eq_left] using pieces

@[simp]
theorem mem_unionRect {region : Region} {rect : Rect} {pixel : Point} :
    pixel ∈ region.unionRect rect ↔ pixel ∈ region ∨ pixel ∈ rect := by
  rw [unionRect]
  split
  case isTrue empty =>
    have outside := Rect.isEmpty_iff.mp empty pixel
    simp [outside]
  case isFalse =>
    simp only [mem_iff, List.mem_append, or_and_right, exists_or, exists_mem_uncovered]
    by_cases held : ∃ part ∈ region.rects, pixel ∈ part
    · simp [held]
    · simp only [held, false_or, and_iff_left_iff_imp]
      intro _ other member inside
      exact held ⟨other, member, inside⟩

@[simp]
theorem mem_unionRegion {region other : Region} {pixel : Point} :
    pixel ∈ region.unionRegion other ↔ pixel ∈ region ∨ pixel ∈ other := by
  obtain ⟨rects⟩ := other
  simp only [unionRegion]
  induction rects generalizing region with
  | nil => simp [mem_iff]
  | cons rect later inductionHypothesis =>
      rw [List.foldl_cons, inductionHypothesis, mem_unionRect]
      simp only [mem_iff, List.mem_cons, exists_eq_or_imp, or_assoc]

theorem mem_foldl_unionRegion {pixel : Point} (regions : List Region) (start : Region) :
    pixel ∈ regions.foldl unionRegion start ↔
      pixel ∈ start ∨ ∃ region ∈ regions, pixel ∈ region := by
  induction regions generalizing start with
  | nil => simp
  | cons region later inductionHypothesis =>
      rw [List.foldl_cons, inductionHypothesis, mem_unionRegion, or_assoc]
      simp only [List.mem_cons, exists_eq_or_imp]

@[simp]
theorem mem_ofRect {rect : Rect} {pixel : Point} : pixel ∈ ofRect rect ↔ pixel ∈ rect := by
  simp [ofRect]

@[simp]
theorem mem_subtractRect {region : Region} {rect : Rect} {pixel : Point} :
    pixel ∈ region.subtractRect rect ↔ pixel ∈ region ∧ pixel ∉ rect := by
  rw [subtractRect]
  split
  case isTrue empty =>
    have outside := Rect.isEmpty_iff.mp empty pixel
    simp [outside]
  case isFalse =>
    have cut := exists_mem_cutAll pixel [rect] region.rects
    simp only [List.foldl_cons, List.foldl_nil, List.mem_singleton, forall_eq] at cut
    simp only [mem_iff, cut]

@[simp]
theorem mem_intersectRect {region : Region} {rect : Rect} {pixel : Point} :
    pixel ∈ region.intersectRect rect ↔ pixel ∈ region ∧ pixel ∈ rect := by
  simp only [mem_iff, intersectRect, List.mem_filter, List.mem_map]
  constructor
  · rintro ⟨_, ⟨⟨part, member, rfl⟩, _⟩, inside⟩
    obtain ⟨inPart, inRect⟩ := Rect.mem_intersect.mp inside
    exact ⟨⟨part, member, inPart⟩, inRect⟩
  · rintro ⟨⟨part, member, inPart⟩, inRect⟩
    have inside := Rect.mem_intersect.mpr ⟨inPart, inRect⟩
    exact ⟨_, ⟨⟨part, member, rfl⟩, by simp [Rect.not_isEmpty_of_mem inside]⟩, inside⟩

@[simp]
theorem mem_intersectRegion {region other : Region} {pixel : Point} :
    pixel ∈ region.intersectRegion other ↔ pixel ∈ region ∧ pixel ∈ other := by
  simp only [mem_iff, intersectRegion, List.mem_flatMap, List.mem_filter, List.mem_map]
  constructor
  · rintro ⟨_, ⟨a, memberA, ⟨b, memberB, rfl⟩, _⟩, inside⟩
    obtain ⟨inA, inB⟩ := Rect.mem_intersect.mp inside
    exact ⟨⟨a, memberA, inA⟩, ⟨b, memberB, inB⟩⟩
  · rintro ⟨⟨a, memberA, inA⟩, ⟨b, memberB, inB⟩⟩
    have inside := Rect.mem_intersect.mpr ⟨inA, inB⟩
    exact
      ⟨_, ⟨a, memberA, ⟨b, memberB, rfl⟩, by simp [Rect.not_isEmpty_of_mem inside]⟩, inside⟩

@[simp]
theorem mem_movedBy {region : Region} {dx dy : Int} {pixel : Point} :
    pixel ∈ region.movedBy dx dy ↔ (⟨pixel.x - dx, pixel.y - dy⟩ : Point) ∈ region := by
  simp [mem_iff, movedBy]

/-! ### Bounding rectangles -/

private theorem mem_foldl_united {pixel : Point} (rects : List Rect) :
    ∀ start : Rect, (pixel ∈ start ∨ ∃ rect ∈ rects, pixel ∈ rect) →
      pixel ∈ rects.foldl Rect.united start := by
  induction rects with
  | nil => simp
  | cons rect later inductionHypothesis =>
      intro start covered
      apply inductionHypothesis _
      rcases covered with inStart | ⟨other, member, inOther⟩
      · exact Or.inl (Rect.mem_united (Or.inl inStart))
      · rcases List.mem_cons.mp member with rfl | later
        · exact Or.inl (Rect.mem_united (Or.inr inOther))
        · exact Or.inr ⟨other, later, inOther⟩

theorem mem_boundingRect {region : Region} {pixel : Point} (member : pixel ∈ region) :
    pixel ∈ region.boundingRect :=
  mem_foldl_united region.rects Rect.zero (Or.inr (mem_iff.mp member))

private theorem foldl_united_subset {frame : Rect} (rects : List Rect) :
    ∀ start : Rect, (∀ pixel : Point, pixel ∈ start → pixel ∈ frame) →
      (∀ rect ∈ rects, ∀ pixel : Point, pixel ∈ rect → pixel ∈ frame) →
      ∀ pixel : Point, pixel ∈ rects.foldl Rect.united start → pixel ∈ frame := by
  induction rects with
  | nil => exact fun _ inFrame _ => inFrame
  | cons rect later inductionHypothesis =>
      intro start startInside inside
      exact
        inductionHypothesis _
          (Rect.united_subset startInside (inside rect (List.mem_cons_self ..)))
          fun other member => inside other (List.mem_cons_of_mem _ member)

/-- The bounding rectangle stays inside every rectangle that holds the region. -/
theorem boundingRect_subset {region : Region} {frame : Rect}
    (inside : ∀ pixel : Point, pixel ∈ region → pixel ∈ frame) (pixel : Point)
    (member : pixel ∈ region.boundingRect) : pixel ∈ frame :=
  foldl_united_subset region.rects Rect.zero
    (fun other inZero => absurd inZero (Rect.not_mem_zero other))
    (fun rect held other inRect => inside other (mem_iff.mpr ⟨rect, held, inRect⟩)) pixel member

theorem mem_simplify {region : Region} {limit : Nat} {pixel : Point} (member : pixel ∈ region) :
    pixel ∈ region.simplify limit := by
  rw [simplify]
  split
  · exact mem_iff.mpr ⟨_, List.mem_singleton.mpr rfl, mem_boundingRect member⟩
  · exact member

theorem simplify_subset {region : Region} {limit : Nat} {frame : Rect}
    (inside : ∀ pixel : Point, pixel ∈ region → pixel ∈ frame) (pixel : Point)
    (member : pixel ∈ region.simplify limit) : pixel ∈ frame := by
  rw [simplify] at member
  split at member
  · obtain ⟨rect, held, inRect⟩ := mem_iff.mp member
    rw [List.mem_singleton.mp held] at inRect
    exact boundingRect_subset inside pixel inRect
  · exact inside pixel member

/-- A region within the limit is left as it is. -/
theorem simplify_of_length_le {region : Region} {limit : Nat}
    (within : region.rects.length ≤ max limit 1) : region.simplify limit = region := by
  rw [simplify, if_neg (Nat.not_lt.mpr within)]

/-! ### Regions without empty rectangles -/

/-- No rectangle of the region is empty, so a region that holds a rectangle holds a pixel. -/
def Solid (region : Region) : Prop := ∀ rect ∈ region.rects, rect.isEmpty = false

theorem Solid.exists_mem {region : Region} (solid : region.Solid)
    (filled : region.isEmpty = false) : ∃ pixel : Point, pixel ∈ region := by
  obtain ⟨rects⟩ := region
  cases rects with
  | nil => simp [isEmpty] at filled
  | cons rect later =>
      have some : ¬ ∀ pixel : Point, pixel ∉ rect := fun none => by
        have full := solid rect (List.mem_cons_self ..)
        rw [Rect.isEmpty_iff.mpr none] at full
        exact Bool.noConfusion full
      obtain ⟨pixel, inside⟩ := Classical.not_forall.mp some
      exact
        ⟨pixel, mem_iff.mpr ⟨rect, List.mem_cons_self .., Classical.not_not.mp inside⟩⟩

theorem Solid.intersectRect (region : Region) (rect : Rect) :
    (region.intersectRect rect).Solid := by
  intro part member
  simpa using (List.mem_filter.mp member).2

theorem Solid.intersectRegion (region other : Region) : (region.intersectRegion other).Solid := by
  intro part member
  obtain ⟨_, _, partMember⟩ := List.mem_flatMap.mp member
  simpa using (List.mem_filter.mp partMember).2

theorem subtract_filled {a b part : Rect} (member : part ∈ a.subtract b) :
    part.isEmpty = false := by
  simp only [Rect.subtract] at member
  split at member
  · split at member
    case isTrue => simp at member
    case isFalse filled =>
      rw [List.mem_singleton.mp member]
      exact Bool.eq_false_iff.mpr filled
  · simpa using (List.mem_filter.mp member).2

theorem Solid.subtractRect {region : Region} (solid : region.Solid) (rect : Rect) :
    (region.subtractRect rect).Solid := by
  rw [Region.subtractRect]
  split
  · exact solid
  · intro part member
    obtain ⟨_, _, partMember⟩ := List.mem_flatMap.mp member
    exact subtract_filled partMember

theorem Solid.ofRect (rect : Rect) : (ofRect rect).Solid := by
  rw [Region.ofRect, unionRect]
  split
  · simp [Solid, empty]
  case isFalse filled =>
    intro part member
    simp only [empty, uncovered, List.foldl_nil, List.nil_append, List.mem_singleton] at member
    rw [member]
    exact Bool.eq_false_iff.mpr filled

end Region

end StyledWidgets
