/-
Module: StyledWidgets.Fixture.Runner
Purpose: The running of fixtures. A fixture is a sheet; one of the directory `parse` is compared by
  its rules, and one of the directory `style` by the answers to the probes beside it. Where nothing
  is expected, a fixture passes if it can be run.
Main exports: FixtureFilter, runFixture, runFixtures
-/
import StyledWidgets.Fixture.FileStore
import StyledWidgets.Fixture.Probe
import StyledWidgets.Fixture.Report

namespace StyledWidgets

open StyledWidgets.Sheet

/-! ### The choice of fixtures -/

/-- Which fixtures are run, by their file names. -/
structure FixtureFilter where
  /-- A fixture whose name contains one of these is skipped. -/
  skipped : List String := []
  /-- If there are any, a fixture whose name contains none of these is skipped. -/
  wanted : List String := []
  deriving Repr, DecidableEq, Inhabited

/-- A text occurs in another one. -/
def occursIn (needle : List Char) : List Char → Bool
  | [] => needle.isEmpty
  | c :: rest => needle.isPrefixOf (c :: rest) || occursIn needle rest

/-- Why a fixture is skipped, if it is. -/
def FixtureFilter.skipReason? (filter : FixtureFilter) (name : String) : Option String :=
  let matchesName := fun pattern : String => occursIn pattern.toList name.toList
  if filter.skipped.any matchesName then some "Matches a skip pattern"
  else if !filter.wanted.isEmpty && !filter.wanted.any matchesName then some "Excluded by filter"
  else none

/-- The sheets below a directory in the order of their paths. -/
def sheetsBelow (store : FileStore) (directory : FilePath) : List FilePath :=
  ((store.below directory).filter fun path => path.extension? = some "css").mergeSort
    fun a b => !decide (b < a)

/-! ### One fixture -/

/-- What fixtures are about. -/
inductive FixtureKind where
  | parse
  | style
  deriving Repr, DecidableEq, Inhabited

/-- The name of the directory with the fixtures of a kind. -/
def FixtureKind.directory : FixtureKind → String
  | .parse => "parse"
  | .style => "style"

/-- What a sheet comes out as, or the message of what went wrong. -/
def FixtureKind.outcome (store : FileStore) (path : FilePath) (sheet : String) :
    FixtureKind → Except String String
  | .parse => .ok (dumpRules (parseSheet sheet))
  | .style =>
      match store.read (path.withExtension "probes") with
      | .error cause => .error ("missing probes: " ++ cause.message)
      | .ok probes => (resolveProbes sheet probes).mapError FixtureError.message

/-- Compare what a fixture came out as with the file of what is expected, if there is one. -/
def compareExpected (store : FileStore) (path : FilePath) (actual : String) :
    Except FixtureError FixtureResult :=
  let expectedPath := path.withExtension "expected"
  if !store.holds expectedPath then .ok (.pass path.fileName 0)
  else
    match store.read expectedPath with
    | .error cause => .error (.file cause)
    | .ok expected => .ok (.compare path.fileName 0 expected actual)

/-- Run a fixture of a kind. A sheet that cannot be read is a result; a file with what is expected
that cannot be read is a failure. -/
def runFixtureAs (filter : FixtureFilter) (store : FileStore) (kind : FixtureKind)
    (path : FilePath) : Except FixtureError FixtureResult :=
  let name := path.fileName
  match filter.skipReason? name with
  | some reason => .ok (.skip name reason)
  | none =>
      match store.read path with
      | .error cause => .ok (.error name 0 cause.message)
      | .ok sheet =>
          match kind.outcome store path sheet with
          | .error message => .ok (.error name 0 message)
          | .ok actual => compareExpected store path actual

/-- The kind of a fixture by the directory that holds it. -/
def kindOf? (path : FilePath) : Option FixtureKind :=
  [FixtureKind.parse, .style].find? fun kind => path.parentName? = some kind.directory

/-- Run a single fixture. -/
def runFixture (filter : FixtureFilter) (store : FileStore) (path : FilePath) :
    Except FixtureError FixtureResult :=
  match kindOf? path with
  | some kind => runFixtureAs filter store kind path
  | none => .ok (.skip path.fileName "Unknown test type")

/-! ### All fixtures -/

/-- Run the fixtures of a kind, also those in directories further down. -/
def runKind (filter : FixtureFilter) (store : FileStore) (kind : FixtureKind) :
    Except FixtureError FixtureSummary := do
  let results ← (sheetsBelow store [kind.directory]).mapM (runFixtureAs filter store kind)
  return FixtureSummary.ofResults results

/-- Run all fixtures, those about parsing first. -/
def runFixtures (filter : FixtureFilter) (store : FileStore) :
    Except FixtureError FixtureSummary := do
  let parsed ← runKind filter store .parse
  let styled ← runKind filter store .style
  return parsed.merge styled

end StyledWidgets
