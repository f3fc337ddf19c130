/-
Module: StyledWidgets.Fixture.Probe
Purpose: Probes: questions about widgets that need not exist. A probe is written like a selector; it
  asks for the style of its subject, where every component is the parent of the next one.
Main exports: FixtureError, probeLines, resolveProbes
-/
import StyledWidgets.Fixture.Dump
import StyledWidgets.Toolkit.File

namespace StyledWidgets

open StyledWidgets.Sheet StyledWidgets.Style

/-! ### Failures -/

/-- Why fixtures cannot be run. -/
inductive FixtureError where
  | file (cause : FileError)
  | unparsableProbe (line : String)
  deriving Repr, DecidableEq, Inhabited

namespace FixtureError

/-- The kind of a failure in one word. -/
def kind : FixtureError → String
  | .file _ => "Io"
  | .unparsableProbe _ => "InvalidFormat"

/-- The wording of a failure. -/
def message : FixtureError → String
  | .file cause => "IO error: " ++ cause.message
  | .unparsableProbe line => "Invalid test format: unparsable probe `" ++ line ++ "`"

end FixtureError

/-! ### One probe -/

/-- Make the nodes of a chain, each below the one before it. -/
def createChain (stylist : Stylist) (parent : Option Lineage) :
    List Compound → List Lineage × Stylist
  | [] => ([], stylist)
  | compound :: rest =>
      let (node, stylist) :=
        stylist.createQuery (compound.element.getD "") (compound.id.getD "") parent
      let (below, stylist) := createChain stylist (some node) rest
      (node :: below, stylist)

/-- The style of the subject of a probe, in the pseudo state that it requires. The nodes of the
chain are gone afterwards. -/
def resolveProbe (stylist : Stylist) (probe : Selector) : ResolvedStyle × Stylist :=
  let (chain, stylist) := createChain stylist none (probe.components.map (·.2))
  match chain.getLast? with
  | none => (none, stylist)
  | some subject =>
      let (style, stylist) := stylist.resolve subject probe.pseudo
      (style, chain.foldl Stylist.removeQuery stylist)

/-! ### Lists of probes -/

/-- Cut a text at its line feeds. There is always at least one piece. -/
def cutLines : List Char → List (List Char)
  | [] => [[]]
  | c :: rest =>
      if c = '\n' then [] :: cutLines rest
      else
        match cutLines rest with
        | [] => [[c]]
        | line :: later => (c :: line) :: later

/-- The line is blank or a comment. -/
def isIgnored (line : List Char) : Bool := line.isEmpty || ['/', '/'].isPrefixOf line

/-- The lines of a text that hold probes, without blanks around them. -/
def probeLines (text : List Char) : List (List Char) :=
  ((cutLines text).map Text.trim).filter fun line => !isIgnored line

/-- The answers to probes one after the other, each behind its line. All probes share one stylist
and its caches. The first line that is no selector fails. -/
def resolveLines (stylist : Stylist) : List (List Char) → Except FixtureError String
  | [] => .ok ""
  | line :: rest =>
      match readSelector? line with
      | none => .error (.unparsableProbe (String.ofList line))
      | some probe =>
          let (style, stylist) := resolveProbe stylist probe
          (resolveLines stylist rest).map fun later =>
            String.ofList line ++ "\n" ++ dumpStyle style ++ later

/-- The answers to the probes of a text under a sheet of the application. -/
def resolveProbes (sheet probes : String) : Except FixtureError String :=
  resolveLines ((Stylist.new {}).setAppSheet sheet) (probeLines probes.toList)

end StyledWidgets
