/-
Module: StyledWidgets.Proofs.BoxNesting
Purpose: The boxes of an appearance lie inside each other, and what is told to be opaque covers the
  whole rectangle. Which pixels a box keeps of the one around it is told side by side, so a box that
  its edges use up is empty and lies in every other one. Borders never take up a negative width,
  whatever is declared; margins and paddings may, and then only sizes are certain.
Main exports: Rect.mem_deflate, Rect.sized_deflate, Rect.containsRect_deflate,
  Border.widths_nonneg, Appearance.layer_of_opaque, Appearance.boxes_nested
-/
import StyledWidgets.Proofs.RegionAlgebra
import StyledWidgets.Sheet.Reader
import StyledWidgets.Style.Appearance

namespace StyledWidgets

/-! ### Shrinking a rectangle -/

/-- No side has a negative width. -/
def Edges.Nonneg (edges : Edges) : Prop := ∀ side, 0 ≤ edges.get side

instance (edges : Edges) : Decidable edges.Nonneg :=
  decidable_of_iff (0 ≤ edges.top ∧ 0 ≤ edges.right ∧ 0 ≤ edges.bottom ∧ 0 ≤ edges.left)
    ⟨fun ⟨top, right, bottom, left⟩ side => by cases side <;> assumption,
      fun nonneg => ⟨nonneg .top, nonneg .right, nonneg .bottom, nonneg .left⟩⟩

namespace Rect

/-- The size of the rectangle is not negative. -/
structure Sized (rect : Rect) : Prop where
  width : 0 ≤ rect.width
  height : 0 ≤ rect.height

instance : DecidablePred Sized := fun rect =>
  decidable_of_iff (0 ≤ rect.width ∧ 0 ≤ rect.height)
    ⟨fun holds => ⟨holds.1, holds.2⟩, fun sized => ⟨sized.width, sized.height⟩⟩

variable {rect : Rect} {edges : Edges}

/-- A pixel is kept if it has its distance to each side, whether or not the sides leave anything. -/
theorem mem_deflate {pixel : Point} :
    pixel ∈ rect.deflate edges ↔
      rect.x + edges.left ≤ pixel.x ∧ pixel.x < rect.right - edges.right ∧
        rect.y + edges.top ≤ pixel.y ∧ pixel.y < rect.bottom - edges.bottom := by
  simp only [mem_iff, deflate, ofEdges, right, bottom]
  omega

/-- A rectangle is not shrunk below nothing, whatever its size and the signs of the edges. -/
theorem sized_deflate (rect : Rect) (edges : Edges) : (rect.deflate edges).Sized := by
  constructor
  · simp only [deflate, ofEdges]
    omega
  · simp only [deflate, ofEdges]
    omega

theorem mem_of_mem_deflate (nonneg : edges.Nonneg) {pixel : Point}
    (inside : pixel ∈ rect.deflate edges) : pixel ∈ rect := by
  have top : 0 ≤ edges.top := nonneg .top
  have right : 0 ≤ edges.right := nonneg .right
  have bottom : 0 ≤ edges.bottom := nonneg .bottom
  have left : 0 ≤ edges.left := nonneg .left
  rw [mem_deflate] at inside
  rw [mem_iff]
  omega

theorem containsRect_deflate (rect : Rect) (nonneg : edges.Nonneg) :
    rect.containsRect (rect.deflate edges) = true :=
  containsRect_of_subset fun _ inside => mem_of_mem_deflate nonneg inside

/-- Without edges a rectangle stays as it is, unless its size is negative. -/
theorem deflate_zero (sized : rect.Sized) : rect.deflate Edges.zero = rect := by
  obtain ⟨x, y, width, height⟩ := rect
  obtain ⟨wide, high⟩ := sized
  simp only [deflate, ofEdges, right, bottom, Edges.zero, Sides.uniform, mk.injEq] at wide high ⊢
  omega

end Rect

namespace Style

open StyledWidgets.Sheet

/-! ### Boxes -/

theorem BorderSide.effectiveWidth_nonneg (side : BorderSide) : 0 ≤ side.effectiveWidth := by
  rw [effectiveWidth]
  split
  · exact Int.le_refl 0
  · exact Int.le_max_right side.width 0

/-- A border takes up no negative width, whatever widths are declared. -/
theorem Border.widths_nonneg (border : Border) : border.widths.Nonneg := by
  intro side
  cases side <;> exact BorderSide.effectiveWidth_nonneg _

namespace Appearance

variable {look : Appearance} {rect : Rect}

theorem borderWidths_nonneg (look : Appearance) : look.borderWidths.Nonneg := by
  rw [borderWidths]
  split
  · exact Border.widths_nonneg _
  · intro side
    cases side <;> exact Int.le_refl 0

/-- The box of a layer is the rectangle of the widget or one that has been shrunk. -/
theorem sized_layerRect (sized : rect.Sized) (layer : BackgroundLayer) :
    (look.layerRect layer rect).Sized := by
  rw [layerRect]
  split
  · exact sized
  · exact Rect.sized_deflate ..
  · exact Rect.sized_deflate ..
  · exact Rect.sized_deflate ..

/-- A layer paints inside the rectangle of the widget if nothing reaches out. -/
theorem mem_of_mem_layerRect (margin : look.margin.Nonneg) (padding : look.padding.Nonneg)
    {layer : BackgroundLayer} {pixel : Point} (inside : pixel ∈ look.layerRect layer rect) :
    pixel ∈ rect := by
  have ofBorder : pixel ∈ look.borderRect rect → pixel ∈ rect := Rect.mem_of_mem_deflate margin
  have ofPadding : pixel ∈ look.paddingRect rect → pixel ∈ rect := fun member =>
    ofBorder (Rect.mem_of_mem_deflate look.borderWidths_nonneg member)
  have ofContent : pixel ∈ look.contentRect rect → pixel ∈ rect := fun member =>
    ofPadding (Rect.mem_of_mem_deflate padding member)
  rw [layerRect] at inside
  split at inside
  · exact inside
  · exact ofBorder inside
  · exact ofPadding inside
  · exact ofContent inside

/-! ### Opaque appearances -/

/-- The flag is worked out from the border, the layers and the margin that the appearance has. -/
theorem isOpaque_ofMerge (merge : Merge) (settings : StyleSettings) :
    (ofMerge merge settings).isOpaque =
      ((ofMerge merge settings).border.all (fun border => border.radii.isZero) &&
        coversBox (ofMerge merge settings).backgrounds (ofMerge merge settings).margin) := by
  simp only [ofMerge]
  cases Border.ofMerge? merge <;> rfl

/-- What is declared to be opaque has square corners and an opaque color over everything: a layer
that is clipped to the border box counts only without margins, where that box is the rectangle of
the widget itself. -/
theorem layer_of_opaque {merge : Merge} {settings : StyleSettings}
    (flagged : (ofMerge merge settings).isOpaque = true) (sized : rect.Sized) :
    (∃ layer ∈ (ofMerge merge settings).backgrounds,
      (∃ shade, layer.brush = .color shade ∧ shade.alpha = 255) ∧
        (ofMerge merge settings).layerRect layer rect = rect) ∧
      ∀ border, (ofMerge merge settings).border = some border → border.radii = {} := by
  rw [isOpaque_ofMerge] at flagged
  generalize ofMerge merge settings = look at flagged ⊢
  rw [Bool.and_eq_true, coversBox, List.any_eq_true] at flagged
  obtain ⟨square, layer, member, fills⟩ := flagged
  simp only [Bool.and_eq_true, Bool.or_eq_true, beq_iff_eq] at fills
  refine ⟨⟨layer, member, ?_, ?_⟩, fun border isBorder => ?_⟩
  · obtain ⟨isFill, -⟩ := fills
    rw [BackgroundLayer.isOpaqueFill] at isFill
    split at isFill
    case h_1 shade isColor =>
      rw [Color.isOpaque, beq_iff_eq] at isFill
      exact ⟨shade, isColor, isFill⟩
    case h_2 => cases isFill
  · rcases fills.2 with clipped | ⟨clipped, flush⟩
    · simp only [layerRect, clipped]
    · rw [Edges.isZero, decide_eq_true_eq] at flush
      simp only [layerRect, clipped, borderRect, flush]
      exact Rect.deflate_zero sized
  · rw [isBorder] at square
    exact of_decide_eq_true square

/-- The boxes of what any declarations describe. No box has a negative size, whatever the signs of
margins, paddings and widths. If neither a margin nor a padding is negative, each box lies in the
one around it, and every layer paints inside the widget. What is told to be opaque has square
corners and a layer of an opaque color that is as large as the widget. -/
theorem boxes_nested (blocks : List (List Declaration)) (settings : StyleSettings) (rect : Rect)
    (sized : rect.Sized) :
    let look := ofMerge (blocks.foldl Merge.apply {}) settings
    ((look.borderRect rect).Sized ∧ (look.paddingRect rect).Sized ∧
      (look.contentRect rect).Sized ∧ ∀ layer, (look.layerRect layer rect).Sized) ∧
    (look.margin.Nonneg → look.padding.Nonneg →
      rect.containsRect (look.borderRect rect) = true ∧
      (look.borderRect rect).containsRect (look.paddingRect rect) = true ∧
      (look.paddingRect rect).containsRect (look.contentRect rect) = true ∧
      ∀ layer, rect.containsRect (look.layerRect layer rect) = true) ∧
    (look.isOpaque = true →
      (∃ layer ∈ look.backgrounds, (∃ shade, layer.brush = .color shade ∧ shade.alpha = 255) ∧
        look.layerRect layer rect = rect) ∧
      ∀ border, look.border = some border → border.radii = {}) := by
  intro look
  refine ⟨⟨Rect.sized_deflate .., Rect.sized_deflate .., Rect.sized_deflate ..,
    sized_layerRect sized⟩, fun margin padding => ?_, fun flagged => layer_of_opaque flagged sized⟩
  refine ⟨Rect.containsRect_deflate _ margin,
    Rect.containsRect_deflate _ look.borderWidths_nonneg, Rect.containsRect_deflate _ padding,
    fun layer => ?_⟩
  exact Rect.containsRect_of_subset fun _ inside => mem_of_mem_layerRect margin padding inside

/-- Declarations of a card, the later block over the earlier one: the side at the left overrules
the margin, and a border width below zero takes up nothing. -/
def cardBlocks : List (List Declaration) :=
  [parseDeclarations "margin: 1px; border: 2px solid #000000; background: #102030 margin",
    parseDeclarations "margin-left: 5px; border-top-width: -3px; padding: 3px 4px"]

theorem boxes_nested_card :
    let look := ofMerge (cardBlocks.foldl Merge.apply {}) {}
    let rect : Rect := ⟨10, 10, 40, 8⟩
    rect.Sized ∧ look.margin.Nonneg ∧ look.padding.Nonneg ∧ look.isOpaque = true ∧
      look.borderRect rect = ⟨15, 11, 34, 6⟩ ∧ look.paddingRect rect = ⟨17, 11, 30, 4⟩ ∧
      look.contentRect rect = ⟨21, 14, 22, 0⟩ ∧
      (look.paddingRect rect).containsRect (look.contentRect rect) = true ∧
      ∃ layer ∈ look.backgrounds, (∃ shade, layer.brush = .color shade ∧ shade.alpha = 255) ∧
        look.layerRect layer rect = rect := by
  have drawn :
      let look := ofMerge (cardBlocks.foldl Merge.apply {}) {}
      let rect : Rect := ⟨10, 10, 40, 8⟩
      look.margin.Nonneg ∧ look.padding.Nonneg ∧ look.isOpaque = true ∧
        look.borderRect rect = ⟨15, 11, 34, 6⟩ ∧ look.paddingRect rect = ⟨17, 11, 30, 4⟩ ∧
        look.contentRect rect = ⟨21, 14, 22, 0⟩ := by
    decide +kernel
  obtain ⟨margin, padding, flagged, border, inside, content⟩ := drawn
  have sized : (⟨10, 10, 40, 8⟩ : Rect).Sized := ⟨by decide, by decide⟩
  obtain ⟨-, nested, honest⟩ := boxes_nested cardBlocks {} ⟨10, 10, 40, 8⟩ sized
  exact ⟨sized, margin, padding, flagged, border, inside, content, (nested margin padding).2.2.1,
    (honest flagged).1⟩

end Appearance

end Style

end StyledWidgets
