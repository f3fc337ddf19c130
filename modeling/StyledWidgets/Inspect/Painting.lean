/-
Module: StyledWidgets.Inspect.Painting
Purpose: Documents of resolved styles and of what a recording backend saw. Instances are shown by
  numbers in the order of their first appearance, so two documents can be compared although serial
  numbers differ.
Main exports: Showing, ResolvedStyle.toJson, PaintEvent.toJson
-/
import StyledWidgets.Inspect.Appearance
import StyledWidgets.Window.Paint

namespace StyledWidgets

open StyledWidgets.Style

/-- A description that remembers the serial numbers of the instances shown so far, oldest first. -/
abbrev Showing := StateM (List Nat)

/-- The number of an instance, and whether it is shown for the first time. -/
def Showing.numberOf (made : StyleInstance) : Showing (Nat × Bool) := do
  let shown ← get
  match shown.idxOf? made.serial with
  | some index => return (index, false)
  | none =>
      set (shown ++ [made.serial])
      return (shown.length, true)

/-- The number of an instance, or null where there is none. -/
def Showing.styleNumber : ResolvedStyle → Showing JsonValue
  | none => return .null
  | some made => return .nat (← Showing.numberOf made).1

namespace Style

/-- A resolved style by its number. The appearance is given when it is shown for the first time. -/
def ResolvedStyle.toJson (style : ResolvedStyle) : Showing JsonValue := do
  let shines := ("opaque", JsonValue.bool (ResolvedStyle.isOpaque style))
  match style with
  | none => return .record [("rule", .null), shines]
  | some made =>
      let (number, isNew) ← Showing.numberOf made
      let look := if isNew then [("data", made.appearance.toJson)] else []
      return .record ([("rule", .nat number), shines] ++ look)

end Style

/-- What a recording backend saw. Of a dirty region only the area and the bounds show. -/
def PaintEvent.toJson : PaintEvent → Showing JsonValue
  | .started dirty =>
      return .array [.text "begin", .int dirty.area, dirty.boundingRect.toJson]
  | .drawn command => do
      let style ← Showing.styleNumber command.style
      return .array
        [ .text "draw", .nat command.widget.raw, style, command.windowRect.toJson,
          command.clip.toJson, .text command.text, .nat command.frame.toNat ]
  | .finished => return .array [.text "end"]
  | .recreated => return .array [.text "recreate"]
  | .failed failure => return .array [.text "fail", .text failure.message]

/-- Everything that a recording backend saw. -/
def Recorder.toJson (recorder : Recorder) : Showing JsonValue := do
  return .array (← recorder.events.mapM PaintEvent.toJson)

/-- What a successful painting did. -/
def PaintReport.toJson (report : PaintReport) : JsonValue :=
  .record [("drawn", .nat report.drawn), ("bounds", report.bounds.toJson)]

end StyledWidgets
