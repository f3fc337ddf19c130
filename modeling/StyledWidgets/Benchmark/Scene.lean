/-
Module: StyledWidgets.Benchmark.Scene
Purpose: The sheets and scenes on which benchmarks work: a sheet with many rules for object names,
  and a window filled with a grid of buttons.
Main exports: sampleSheet, Scene, Scene.grid, Workload
-/
import StyledWidgets.Application
import StyledWidgets.Benchmark.Measurement

namespace StyledWidgets

/-! ### Sheets -/

/-- The rules of a sample sheet for types and pseudo-classes. -/
def typeRules : String :=
  "Window \x7b background: #f0f0f0; \x7d\n" ++
  "Button \x7b background: #ffffff; border: 1px solid #808080; color: #000000; \x7d\n" ++
  "Button:hover \x7b background: #e0e8ff; \x7d\n" ++
  "Panel > Button:pressed \x7b background: #c0c8e0; \x7d\n"

/-- The rule of a sample sheet for one object name. -/
def nameRule (index : Nat) : String :=
  "#b" ++ Nat.repr index ++ " \x7b margin: " ++ Nat.repr (index % 4) ++ "px; padding: " ++
    Nat.repr (index % 3) ++ "px; \x7d\n"

/-- A sheet with a few rules for types and the given number of rules for object names. -/
def sampleSheet (rules : Nat) : String :=
  typeRules ++ String.join ((List.range rules).map nameRule)

/-! ### Scenes -/

/-- An application with one window full of buttons. -/
structure Scene where
  app : Application
  window : WidgetId
  buttons : List WidgetId
  deriving Repr, DecidableEq, Inhabited

namespace Scene

/-- The button at a place of a grid: 40 pixels wide and 20 high, named by its number. -/
def buttonAt (columns row column : Nat) : Widget :=
  { typeName := "Button"
    objectName := "b" ++ Nat.repr (row * columns + column)
    geometry := ⟨column * 40, row * 20, 40, 20⟩ }

/-- The buttons of a grid, row by row. -/
def buttonsOf (columns rows : Nat) : List Widget :=
  (List.range rows).flatMap fun row => (List.range columns).map fun column =>
    buttonAt columns row column

/-- Fill a window with a panel that has a grid of buttons; the buttons. -/
def fill (window : WidgetId) (size : Rect) (widgets : List Widget) : AppM (List WidgetId) := do
  let panel ← Application.createWidget window
    { typeName := "Panel", geometry := size, childrenNeverOverlap := true }
  widgets.mapM (Application.createWidget panel)

/-- A window with a grid of buttons that has been painted once. A number of columns or rows that is
not positive gives no buttons. -/
def grid (columns rows : Int) : Scene :=
  let size : Rect := ⟨0, 0, columns * 40, rows * 20⟩
  let app := (Application.new {}).setAppSheet (sampleSheet 50)
  let (window, app) :=
    app.createWindow { typeName := "Window", geometry := size, isOpaque := true }
  let (buttons, app) := (fill window size (buttonsOf columns.toNat rows.toNat)).run.run app
  let (_, app, _) := app.paintWindow countingBackend window 0
  ⟨app, window, buttons.toOption.getD []⟩

end Scene

/-! ### Workloads -/

/-- What the standard benchmarks measure. -/
inductive Workload where
  /-- Reading a sample sheet with a number of rules. -/
  | readSheet (rules : Nat)
  /-- Looking up the styles of a hundred buttons again. -/
  | cachedLookups
  /-- Changing the pseudo state of a hundred buttons and back. -/
  | pseudoToggle
  /-- Repainting one button of four hundred. -/
  | repaintOne
  deriving Repr, DecidableEq, Inhabited

namespace Workload

/-- The standard workloads in the order in which they are measured. -/
def standard : List Workload :=
  [.readSheet 10, .readSheet 200, .cachedLookups, .pseudoToggle, .repaintOne]

/-- The name of a workload. -/
def name : Workload → String
  | .readSheet rules =>
      "css/parse/" ++ Nat.repr rules ++ " rules (" ++
        Nat.repr (sampleSheet rules).utf8ByteSize ++ " bytes)"
  | .cachedLookups => "style/render_rule/cached (100 widgets)"
  | .pseudoToggle => "style/pseudo_toggle (100 widgets)"
  | .repaintOne => "compositor/repaint one of 400"

/-- The name of the standard workloads together. -/
def suiteName : String := "PaneKit"

end Workload

end StyledWidgets
