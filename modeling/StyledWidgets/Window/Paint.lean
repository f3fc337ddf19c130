/-
Module: StyledWidgets.Window.Paint
Purpose: The painting of a window: which widgets are drawn with which clip, and the passes that
  draw them until one succeeds.
Main exports: DrawItem, Damage.plan, PaintReport, Damage.paint
-/
import StyledWidgets.Toolkit.Retry
import StyledWidgets.Window.Backend
import StyledWidgets.Window.Damage

namespace StyledWidgets

open StyledWidgets.Style

/-! ### What is drawn -/

/-- A widget to draw, its rectangle in the window, and the pixels to which drawing is limited. -/
structure DrawItem where
  widget : WidgetId
  windowRect : Rect
  clip : Region
  deriving Repr, DecidableEq, Inhabited

namespace Damage

/-- The pixels of a widget to draw: what is drawn of its parent and what is scheduled of the widget
itself, inside its rectangle. -/
def clipOf (damage : Damage) (inherited : Region) (id : WidgetId) (windowRect : Rect) : Region :=
  (match damage.region? id with
    | some own => inherited.unionRegion own
    | none => inherited).intersectRect windowRect

/-- What is drawn of a widget and of those below it, down to a depth. A hidden widget hides all
below it. A child is visited if it is scheduled or meets what is drawn of its parent, or if a
widget below it is scheduled; in the last case nothing of the parent reaches it. -/
def planWithin (damage : Damage) (forest : Forest) :
    Nat → WidgetId → Rect → Region → List DrawItem
  | 0, _, _, _ => []
  | depth + 1, id, windowRect, inherited =>
      if forest.isVisible id then
        let clip := damage.clipOf inherited id windowRect
        let own := if clip.isEmpty then [] else [⟨id, windowRect, clip⟩]
        own ++ (forest.children id).flatMap fun child =>
          let childRect := (forest.geometry child).movedBy windowRect.x windowRect.y
          if (damage.region? child).isSome || clip.intersectsRect childRect then
            planWithin damage forest depth child childRect clip
          else if damage.isAbove child then
            planWithin damage forest depth child childRect Region.empty
          else []
      else []

/-- What is drawn of the window, each widget before its children. -/
def plan (damage : Damage) (forest : Forest) : List DrawItem :=
  damage.planWithin forest (forest.slots.size + 1) damage.root
    (forest.geometry damage.root).atOrigin Region.empty

end Damage

/-! ### Passes -/

/-- What a pass changes: the caches of the stylist and the backend. -/
structure PaintState (σ : Type) where
  stylist : Stylist
  backend : σ

/-- A step of a pass. -/
abbrev PaintM (σ : Type) := ExceptT DrawError (StateM (PaintState σ))

variable {σ : Type}

/-- Let the backend work. -/
def PaintM.call (work : StateM σ (Except DrawError Unit)) : PaintM σ Unit :=
  ExceptT.mk fun state =>
    let (outcome, backend) := work state.backend
    (outcome, { state with backend := backend })

/-- Look the style of a widget up. -/
def PaintM.resolve (lineage : Lineage) (mask : Sheet.PseudoMask) : PaintM σ ResolvedStyle :=
  ExceptT.mk fun state =>
    let (style, stylist) := state.stylist.resolve lineage mask
    (.ok style, { state with stylist := stylist })

/-- Draw one item with the style of its widget. -/
def drawItem (forest : Forest) (backend : Backend σ) (item : DrawItem) : PaintM σ Unit := do
  let style ← PaintM.resolve (forest.lineage item.widget) (forest.pseudo item.widget)
  PaintM.call (backend.draw
    { widget := item.widget
      style := style
      windowRect := item.windowRect
      clip := item.clip
      text := forest.text item.widget
      frame := forest.frame item.widget })

/-- Draw items one after the other; the first failure ends it. -/
def drawItems (forest : Forest) (backend : Backend σ) : List DrawItem → PaintM σ Unit
  | [] => pure ()
  | item :: later => do
      drawItem forest backend item
      drawItems forest backend later

/-- One pass over a window. -/
def paintPass (forest : Forest) (backend : Backend σ) (dirty : Region) (items : List DrawItem) :
    PaintM σ Unit := do
  PaintM.call (backend.start dirty)
  drawItems forest backend items
  PaintM.call backend.finish

/-- One pass, whose failure is one that users of the library see. -/
def attemptPass (forest : Forest) (backend : Backend σ) (dirty : Region) (items : List DrawItem) :
    StateM (PaintState σ) (Except ToolkitError Unit) := do
  match ← (paintPass forest backend dirty items).run with
  | .ok done => return .ok done
  | .error failure => return .error failure.toToolkit

/-- Recreate the resources of the backend. -/
def recreateBackend (backend : Backend σ) : StateM (PaintState σ) Unit := fun state =>
  let (_, backend) := backend.recreate state.backend
  ((), { state with backend := backend })

/-- What a successful painting did. -/
structure PaintReport where
  drawn : Nat := 0
  bounds : Rect := Rect.zero
  deriving Repr, DecidableEq, Inhabited

namespace Damage

/-- Make passes until one succeeds, recreating the resources of the backend when the device is
lost; failures are those that users of the library see. -/
def paintPasses (forest : Forest) (backend : Backend σ) (maxAttempts : Nat) (dirty : Region)
    (items : List DrawItem) : StateM (PaintState σ) (Except ToolkitError Unit) :=
  retryOnDeviceLoss maxAttempts (attemptPass forest backend dirty items) (recreateBackend backend)

/-- Paint what is scheduled. On success nothing is scheduled any more; on failure everything stays
scheduled, so that the next painting tries again. Without anything scheduled the backend is left
alone. -/
def paint (damage : Damage) (forest : Forest) (backend : Backend σ) (maxAttempts : Nat)
    (state : PaintState σ) : Except ToolkitError PaintReport × Damage × PaintState σ :=
  let dirty := damage.dirtyRegion
  if dirty.isEmpty then (.ok {}, damage, state)
  else
    let items := damage.plan forest
    match paintPasses forest backend maxAttempts dirty items state with
    | (.ok _, state) => (.ok ⟨items.length, dirty.boundingRect⟩, damage.clear, state)
    | (.error failure, state) => (.error failure, damage, state)

end Damage

end StyledWidgets
