/-
Module: StyledWidgets.Fixture.Report
Purpose: The results of fixtures, their sums, and their documents.
Main exports: Verdict, FixtureResult, FixtureSummary, FixtureSummary.toJsonText
-/
import StyledWidgets.Json.Value
import StyledWidgets.Text.Blank
import StyledWidgets.Text.LineDiff

namespace StyledWidgets

/-! ### Single results -/

/-- How a fixture ended. -/
inductive Verdict where
  | pass
  | fail
  | skip
  | error
  deriving Repr, DecidableEq, Inhabited

/-- The name of a verdict. -/
def Verdict.name : Verdict → String
  | .pass => "Pass"
  | .fail => "Fail"
  | .skip => "Skip"
  | .error => "Error"

/-- The result of one fixture. -/
structure FixtureResult where
  name : String
  verdict : Verdict
  durationMs : Nat := 0
  message : Option String := none
  expected : Option String := none
  actual : Option String := none
  deriving Repr, DecidableEq, Inhabited

namespace FixtureResult

/-- The fixture came out as expected. -/
def pass (name : String) (durationMs : Nat) : FixtureResult :=
  { name := name, verdict := .pass, durationMs := durationMs }

/-- The fixture came out differently; the message is the difference. -/
def failWithDiff (name : String) (durationMs : Nat) (expected actual : String) : FixtureResult :=
  { name := name
    verdict := .fail
    durationMs := durationMs
    message := some (Text.lineDiff expected actual)
    expected := some expected
    actual := some actual }

/-- The fixture was not run. -/
def skip (name reason : String) : FixtureResult :=
  { name := name, verdict := .skip, message := some reason }

/-- The fixture could not be run. -/
def error (name : String) (durationMs : Nat) (message : String) : FixtureResult :=
  { name := name, verdict := .error, durationMs := durationMs, message := some message }

/-- Compare what came out with what was expected; blanks around either text do not count. -/
def compare (name : String) (durationMs : Nat) (expected actual : String) : FixtureResult :=
  if Text.trim expected.toList = Text.trim actual.toList then pass name durationMs
  else failWithDiff name durationMs expected actual

/-- The document of a result. -/
def toJson (result : FixtureResult) : JsonValue :=
  .record
    [ ("name", .text result.name),
      ("status", .text result.verdict.name),
      ("duration_ms", .nat result.durationMs),
      ("message", .orNull .text result.message),
      ("expected", .orNull .text result.expected),
      ("actual", .orNull .text result.actual) ]

end FixtureResult

/-! ### Sums -/

/-- The results of many fixtures with their numbers by verdict. -/
structure FixtureSummary where
  total : Nat := 0
  passed : Nat := 0
  failed : Nat := 0
  skipped : Nat := 0
  errors : Nat := 0
  durationMs : Nat := 0
  results : List FixtureResult := []
  deriving Repr, DecidableEq, Inhabited

namespace FixtureSummary

/-- The sum of two summaries; the results stand one behind the other. -/
def merge (summary other : FixtureSummary) : FixtureSummary :=
  { total := summary.total + other.total
    passed := summary.passed + other.passed
    failed := summary.failed + other.failed
    skipped := summary.skipped + other.skipped
    errors := summary.errors + other.errors
    durationMs := summary.durationMs + other.durationMs
    results := summary.results ++ other.results }

/-- The summary of a single result. -/
def ofResult (result : FixtureResult) : FixtureSummary :=
  let count := fun verdict => if result.verdict = verdict then 1 else 0
  { total := 1
    passed := count .pass
    failed := count .fail
    skipped := count .skip
    errors := count .error
    durationMs := result.durationMs
    results := [result] }

/-- Add one result. -/
def add (summary : FixtureSummary) (result : FixtureResult) : FixtureSummary :=
  summary.merge (ofResult result)

/-- The summary of results. -/
def ofResults (results : List FixtureResult) : FixtureSummary := results.foldl add {}

/-- The share of passed fixtures in percent; zero if there is none. -/
def passRate (summary : FixtureSummary) : Float :=
  if summary.total = 0 then 0.0
  else summary.passed.toUInt64.toFloat / summary.total.toUInt64.toFloat * 100.0

/-- The results that failed or could not be obtained. -/
def failures (summary : FixtureSummary) : List FixtureResult :=
  summary.results.filter fun result => result.verdict = .fail ∨ result.verdict = .error

/-- The document of a summary. -/
def toJson (summary : FixtureSummary) : JsonValue :=
  .record
    [ ("total", .nat summary.total),
      ("passed", .nat summary.passed),
      ("failed", .nat summary.failed),
      ("skipped", .nat summary.skipped),
      ("errors", .nat summary.errors),
      ("duration_ms", .nat summary.durationMs),
      ("results", .list FixtureResult.toJson summary.results) ]

/-- The text of the document of a summary. -/
def toJsonText (summary : FixtureSummary) : String := summary.toJson.pretty

end FixtureSummary

end StyledWidgets
