/-
Module: StyledWidgets.Toolkit.Error
Purpose: The failures that reach the users of the library, and which of them are worth a retry.
Main exports: ToolkitError, ToolkitError.message, ToolkitError.isRetryable
-/

namespace StyledWidgets

/-- A failure outside the control of the caller. -/
inductive ToolkitError where
  /-- The widget forest refused an operation. -/
  | tree (detail : String)
  /-- A backend could not draw. -/
  | paint (detail : String)
  /-- The graphics device is gone; its resources have to be created again. -/
  | deviceLost
  /-- A configuration is not acceptable; `cause` is what the reader of its text said. -/
  | config (detail : String) (cause : Option String)
  /-- A file could not be read. -/
  | file (detail : String)
  /-- Something that was named does not exist. -/
  | notFound (what : String)
  deriving Repr, DecidableEq, Inhabited

namespace ToolkitError

/-- The kind of failure in one word. -/
def category : ToolkitError → String
  | .tree _ => "tree"
  | .paint _ => "paint"
  | .deviceLost => "device_lost"
  | .config _ _ => "config"
  | .file _ => "io"
  | .notFound _ => "not_found"

/-- The wording of a failure. -/
def message : ToolkitError → String
  | .tree detail => "Tree error: " ++ detail
  | .paint detail => "Paint error: " ++ detail
  | .deviceLost => "Graphics device lost"
  | .config detail _ => "Config error: " ++ detail
  | .file detail => "IO error: " ++ detail
  | .notFound what => "Resource not found: " ++ what

/-- Trying again can help. Only the loss of the device is like that: its resources are created
again and the same painting is repeated. -/
def isRetryable : ToolkitError → Bool
  | .deviceLost => true
  | _ => false

/-- Another failure stands behind this one. -/
def hasCause : ToolkitError → Bool
  | .config _ cause => cause.isSome
  | .file _ => true
  | _ => false

end ToolkitError

end StyledWidgets
