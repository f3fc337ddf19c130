/-
Module: StyledWidgets.Proofs.VisibleStack
Purpose: What can be seen at a pixel of a window: the layers that its widgets contribute there, from
  the topmost opaque one upward. Stacks that look alike piece by piece look alike as a whole.
Main exports: Layer, seen, seen_append_congr, Application.layer, Application.visibleStack
-/
import StyledWidgets.Proofs.FreshStyle
import StyledWidgets.Proofs.PaintOrder

namespace StyledWidgets

open StyledWidgets.Style

/-- What a widget contributes to the pixels at which it is shown. -/
structure Layer where
  widget : WidgetId
  windowRect : Rect
  isOpaque : Bool
  text : String
  frame : UInt32
  appearance : Option Appearance
  deriving Repr, DecidableEq

/-- The layers that are seen, the lowest first: the topmost opaque one and those above it, or all of
them if none is opaque. -/
def seen : List Layer → List Layer
  | [] => []
  | layer :: above => if above.any Layer.isOpaque then seen above else layer :: above

theorem seen_suffix (layers : List Layer) : seen layers <:+ layers := by
  induction layers with
  | nil => exact List.suffix_refl []
  | cons layer above inductionHypothesis =>
      rw [seen]
      split
      · exact inductionHypothesis.trans (List.suffix_cons layer above)
      · exact List.suffix_refl _

theorem any_seen (layers : List Layer) :
    (seen layers).any Layer.isOpaque = layers.any Layer.isOpaque := by
  induction layers with
  | nil => rfl
  | cons layer above inductionHypothesis =>
      rw [seen]
      split
      case isTrue opaqueAbove =>
        rw [inductionHypothesis, List.any_cons, opaqueAbove, Bool.or_true]
      case isFalse => rfl

theorem seen_of_translucent {layers : List Layer} (none : layers.any Layer.isOpaque = false) :
    seen layers = layers := by
  cases layers with
  | nil => rfl
  | cons layer above =>
      rw [List.any_cons, Bool.or_eq_false_iff] at none
      rw [seen, none.2]
      rfl

theorem seen_append (below above : List Layer) :
    seen (below ++ above) =
      if above.any Layer.isOpaque then seen above else seen below ++ above := by
  induction below with
  | nil =>
      cases opaqueAbove : above.any Layer.isOpaque with
      | true => rfl
      | false => simp [seen, seen_of_translucent opaqueAbove]
  | cons layer between inductionHypothesis =>
      rw [List.cons_append, seen, inductionHypothesis, List.any_append, seen]
      cases above.any Layer.isOpaque with
      | true => simp
      | false =>
          cases between.any Layer.isOpaque with
          | true => simp
          | false => simp

/-- Lower layers are not seen below an opaque one. -/
theorem seen_append_covered {above : List Layer} (covers : above.any Layer.isOpaque = true)
    (below : List Layer) : seen (below ++ above) = seen above := by
  rw [seen_append, covers, if_pos rfl]

theorem seen_append_congr {below belowToo above aboveToo : List Layer}
    (lower : seen below = seen belowToo) (upper : seen above = seen aboveToo) :
    seen (below ++ above) = seen (belowToo ++ aboveToo) := by
  have covers : above.any Layer.isOpaque = aboveToo.any Layer.isOpaque := by
    rw [← any_seen above, upper, any_seen]
  rw [seen_append, seen_append, covers, lower, upper]
  cases translucent : aboveToo.any Layer.isOpaque with
  | true => rfl
  | false =>
      rw [translucent] at covers
      rw [seen_of_translucent covers, seen_of_translucent translucent] at upper
      rw [upper]

namespace Application

/-- What a widget contributes, with the style that a new stylist finds for it. -/
def layer (app : Application) (id : WidgetId) : Layer where
  widget := id
  windowRect := app.forest.windowRect id
  isOpaque := app.forest.isOpaque id
  text := app.forest.text id
  frame := app.forest.frame id
  appearance :=
    (app.freshStylist.resolve (app.forest.lineage id) (app.forest.pseudo id)).1.appearance?

/-- What is seen at a pixel of a window, the lowest layer first. -/
def visibleStack (app : Application) (window : WidgetId) (pixel : Point) : List Layer :=
  seen ((app.forest.stackAt pixel window).map app.layer)

end Application

end StyledWidgets
