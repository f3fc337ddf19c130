/-
Module: StyledWidgets.Toolkit.Logging
Purpose: What is logged and how it is laid out.
Main exports: LogSettings, LogSettings.standard, LogSettings.withFilter
-/

namespace StyledWidgets

/-- How much is logged. -/
inductive LogLevel where
  | error
  | warn
  | info
  | debug
  | trace
  deriving Repr, DecidableEq, Inhabited

/-- The name of a level. -/
def LogLevel.name : LogLevel → String
  | .error => "ERROR"
  | .warn => "WARN"
  | .info => "INFO"
  | .debug => "DEBUG"
  | .trace => "TRACE"

/-- The layout of log lines. -/
inductive LogFormat where
  | pretty
  | compact
  | json
  deriving Repr, DecidableEq, Inhabited

/-- The name of a layout. -/
def LogFormat.name : LogFormat → String
  | .pretty => "Pretty"
  | .compact => "Compact"
  | .json => "Json"

/-- Settings of the log; the level serves where no filter is given. -/
structure LogSettings where
  level : LogLevel := .info
  format : LogFormat := .pretty
  includeLocation : Bool := false
  includeSpanEvents : Bool := false
  filter : Option String := none
  deriving Repr, DecidableEq, Inhabited

namespace LogSettings

/-- The settings without a request. -/
def standard : LogSettings := {}

/-- Settings for finding errors. -/
def debug : LogSettings := { level := .debug, includeLocation := true, includeSpanEvents := true }

/-- Settings under which every lookup of a style is logged. -/
def trace : LogSettings := { level := .trace, includeLocation := true, includeSpanEvents := true }

/-- Settings for machines that read the log. -/
def production : LogSettings := { level := .warn, format := .json }

/-- Use a filter in place of the level. -/
def withFilter (settings : LogSettings) (filter : String) : LogSettings :=
  { settings with filter := filter }

end LogSettings

end StyledWidgets
