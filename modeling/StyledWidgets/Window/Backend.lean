/-
Module: StyledWidgets.Window.Backend
Purpose: Whoever turns draw commands into pixels, and a backend that only records them.
Main exports: DrawError, DrawCommand, Backend, Recorder, Recorder.backend
-/
import StyledWidgets.Geometry.Region
import StyledWidgets.Style.Stylist
import StyledWidgets.Toolkit.Error
import StyledWidgets.Widget.Basic

namespace StyledWidgets

open StyledWidgets.Style

/-- Why a backend could not draw. -/
inductive DrawError where
  | deviceLost
  | failed (detail : String)
  deriving Repr, DecidableEq, Inhabited

namespace DrawError

/-- The wording of a failure. -/
def message : DrawError → String
  | .deviceLost => "Graphics device lost"
  | .failed detail => "Backend error: " ++ detail

/-- The failure as users of the library see it. -/
def toToolkit : DrawError → ToolkitError
  | .deviceLost => .deviceLost
  | .failed detail => .paint detail

end DrawError

/-- One widget to draw. Without a style the backend draws the built-in look. -/
structure DrawCommand where
  widget : WidgetId
  style : ResolvedStyle
  /-- The rectangle of the widget in its window. -/
  windowRect : Rect
  /-- The pixels of the window to which drawing is limited. -/
  clip : Region
  text : String
  frame : UInt32
  deriving Repr, DecidableEq, Inhabited

/-- A backend with its own state. Each call may succeed or fail, depending on everything that the
backend has seen. -/
structure Backend (σ : Type) where
  /-- Begin to paint the given pixels of a window. -/
  start : Region → StateM σ (Except DrawError Unit)
  draw : DrawCommand → StateM σ (Except DrawError Unit)
  finish : StateM σ (Except DrawError Unit)
  /-- Create the resources again after the device was lost. -/
  recreate : StateM σ Unit

/-! ### Backends without pixels -/

/-- A backend that counts draw commands. -/
def countingBackend : Backend Nat where
  start _ := pure (.ok ())
  draw _ := do
    modify (· + 1)
    return .ok ()
  finish := pure (.ok ())
  recreate := pure ()

/-- What a recording backend was asked to do. -/
inductive PaintEvent where
  | started (dirty : Region)
  | drawn (command : DrawCommand)
  | finished
  | recreated
  /-- The call just before failed. -/
  | failed (failure : DrawError)
  deriving Repr, DecidableEq, Inhabited

/-- A backend that records what it is asked to do. Each kind of call fails as its list of outcomes
says, and succeeds when the list is used up. -/
structure Recorder where
  startOutcomes : List (Option DrawError) := []
  drawOutcomes : List (Option DrawError) := []
  finishOutcomes : List (Option DrawError) := []
  events : List PaintEvent := []
  deriving Repr, DecidableEq, Inhabited

namespace Recorder

/-- Append an event. -/
def record (recorder : Recorder) (event : PaintEvent) : Recorder :=
  { recorder with events := recorder.events ++ [event] }

/-- Answer a call with an outcome, recording a failure. -/
def answer (recorder : Recorder) (outcome : Option DrawError) :
    Except DrawError Unit × Recorder :=
  match outcome with
  | none => (.ok (), recorder)
  | some failure => (.error failure, recorder.record (.failed failure))

/-- The backend that records into a recorder. -/
def backend : Backend Recorder where
  start dirty := fun recorder =>
    { recorder.record (.started dirty) with startOutcomes := recorder.startOutcomes.tail }.answer
      recorder.startOutcomes.head?.join
  draw command := fun recorder =>
    { recorder.record (.drawn command) with drawOutcomes := recorder.drawOutcomes.tail }.answer
      recorder.drawOutcomes.head?.join
  finish := fun recorder =>
    { recorder.record .finished with finishOutcomes := recorder.finishOutcomes.tail }.answer
      recorder.finishOutcomes.head?.join
  recreate := modify fun recorder => recorder.record .recreated

end Recorder

end StyledWidgets
