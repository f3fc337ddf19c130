/-
Module: StyledWidgets.Window.ReckonedPaint
Purpose: The painting of a window reckoned with on words. The walk over the widgets and the drawing
  take turns, so a pass that the backend breaks off reckons no further.
Main exports: ReckonedM, Damage.reckonPaintWithin, Damage.reckonPaint
-/
import StyledWidgets.Window.Paint
import StyledWidgets.Window.ReckonedDamage

namespace StyledWidgets

open StyledWidgets.Style

/-! ### Steps that reckon -/

/-- Steps that change a state, may fail and reckon with words. -/
abbrev ReckonedM (ε τ : Type) := ExceptT ε (StateT τ Reckoned)

namespace ReckonedM

variable {ε τ α : Type}

/-- A step that reckons and changes nothing. -/
def reckon (number : Reckoned α) : ReckonedM ε τ α :=
  ExceptT.mk fun state => do return (.ok (← number), state)

/-- A step in which nothing is reckoned. -/
def carry (step : ExceptT ε (StateM τ) α) : ReckonedM ε τ α :=
  ExceptT.mk fun state => pure (step.run state)

end ReckonedM

open ReckonedM

namespace Damage

variable {σ : Type}

/-- The pixels of a widget to draw. -/
def reckonClipOf (damage : Damage) (inherited : Region) (id : WidgetId) (windowRect : Rect) :
    Reckoned Region := do
  let clip ←
    match damage.region? id with
    | some own => inherited.reckonUnionRegion own
    | none => pure inherited
  clip.reckonIntersectRect windowRect

/-- What is passed on to a child: what is drawn of its parent, if the child is scheduled or meets
that, or nothing, if a widget below it is scheduled. Otherwise the child is not visited. -/
def reckonPassedOn (damage : Damage) (clip : Region) (child : WidgetId) (childRect : Rect) :
    Reckoned (Option Region) := do
  let visited ←
    if (damage.region? child).isSome then pure true else clip.reckonIntersectsRect childRect
  return if visited then some clip else if damage.isAbove child then some Region.empty else none

/-- Draw a widget if something of it is to be drawn; the number of widgets drawn. -/
def drawUnlessEmpty (forest : Forest) (backend : Backend σ) (item : DrawItem) : PaintM σ Nat :=
  if item.clip.isEmpty then return 0
  else do
    drawItem forest backend item
    return 1

/-- Draw a widget and those below it, down to a depth; the number of widgets drawn. -/
def reckonPaintWithin (damage : Damage) (forest : Forest) (backend : Backend σ) :
    Nat → WidgetId → Rect → Region → ReckonedM DrawError (PaintState σ) Nat
  | 0, _, _, _ => return 0
  | depth + 1, id, windowRect, inherited =>
      if forest.isVisible id then do
        let clip ← reckon (damage.reckonClipOf inherited id windowRect)
        let own ← carry (drawUnlessEmpty forest backend ⟨id, windowRect, clip⟩)
        (forest.children id).foldlM (fun drawn child => do
          let childRect ←
            reckon ((forest.geometry child).reckonMovedBy windowRect.x windowRect.y)
          match ← reckon (damage.reckonPassedOn clip child childRect) with
          | some passed =>
              return drawn +
                (← reckonPaintWithin damage forest backend depth child childRect passed)
          | none => return drawn) own
      else return 0

/-- One pass over a window; the number of widgets drawn. -/
def reckonPass (damage : Damage) (forest : Forest) (backend : Backend σ) (dirty : Region) :
    ReckonedM DrawError (PaintState σ) Nat := do
  carry (PaintM.call (backend.start dirty))
  let drawn ← damage.reckonPaintWithin forest backend (forest.slots.size + 1) damage.root
    (forest.geometry damage.root).atOrigin Region.empty
  carry (PaintM.call backend.finish)
  return drawn

/-- One pass, whose failure is one that users of the library see. -/
def reckonAttempt (damage : Damage) (forest : Forest) (backend : Backend σ) (dirty : Region) :
    StateT (PaintState σ) Reckoned (Except ToolkitError Nat) := fun state => do
  let (outcome, after) ← (damage.reckonPass forest backend dirty).run state
  return (outcome.mapError DrawError.toToolkit, after)

/-- Paint what is scheduled. -/
def reckonPaint (damage : Damage) (forest : Forest) (backend : Backend σ) (maxAttempts : Nat)
    (state : PaintState σ) :
    Reckoned (Except ToolkitError PaintReport × Damage × PaintState σ) := do
  let dirty ← damage.reckonDirtyRegion
  if dirty.isEmpty then return (.ok {}, damage, state)
  else
    let painting := retryOnDeviceLoss maxAttempts (damage.reckonAttempt forest backend dirty)
      (fun state => pure (recreateBackend backend state))
    let (outcome, after) ← painting state
    match outcome with
    | .ok drawn => return (.ok ⟨drawn, ← dirty.reckonBoundingRect⟩, damage.clear, after)
    | .error failure => return (.error failure, damage, after)

end Damage

end StyledWidgets
