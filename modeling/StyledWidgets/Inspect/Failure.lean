/-
Module: StyledWidgets.Inspect.Failure
Purpose: Documents of failures. Each names its kind and gives its wording.
Main exports: ToolkitError.toJson, ForestError.toJson, AppError.toJson
-/
import StyledWidgets.Application
import StyledWidgets.Json.Value

namespace StyledWidgets

/-- A failure outside the control of the caller. -/
def ToolkitError.toJson (failure : ToolkitError) : JsonValue :=
  .record
    [ ("error", .text failure.category), ("message", .text failure.message),
      ("retryable", .bool failure.isRetryable) ]

/-- The kind of a refusal in one word. -/
def ForestError.kind : ForestError → String
  | .notFound _ => "WidgetNotFound"
  | .cycle _ _ => "Cycle"
  | .noSiblings _ => "InvalidOperation"

/-- A refusal of the forest, with what users of the library see of it. -/
def ForestError.toJson (failure : ForestError) : JsonValue :=
  .record
    [ ("error", .text failure.kind), ("message", .text failure.message),
      ("unified", .list .text [failure.toToolkit.category, failure.toToolkit.message]) ]

/-- A failure of an application, with its cause. -/
def AppError.toJson (failure : AppError) : JsonValue :=
  .record
    (("message", .text failure.message) ::
      match failure with
      | .forest cause => [("error", .text "Tree"), ("cause", cause.toJson)]
      | .windowNotFound id => [("error", .text "WindowNotFound"), ("id", .nat id.raw)]
      | .toolkit cause => [("error", .text "Toolkit"), ("cause", cause.toJson)])

end StyledWidgets
