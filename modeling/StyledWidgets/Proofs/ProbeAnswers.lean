/-
Module: StyledWidgets.Proofs.ProbeAnswers
Purpose: Probes do not influence each other. They share a stylist whose caches each of them fills,
  but every answer depends on the sheet and on the line of the probe alone, so the answers to two
  texts are the answers to the one and then those to the other.
Main exports: Style.Lineage.unkeyed, Probing, namedAppearance, Probing.answers,
  Probing.resolveLines_eq, resolveProbes_append
-/
import StyledWidgets.Fixture.Probe
import StyledWidgets.Proofs.GreedyMatching
import StyledWidgets.Proofs.QuerySheets

namespace StyledWidgets

open StyledWidgets.Sheet StyledWidgets.Style

/-! ### Nodes without their keys -/

namespace Style

/-- A node with the same names and an arbitrary key. -/
def StyleNode.unkeyed (node : StyleNode) : StyleNode := { node with key := .query 0 }

/-- A node in its place, of which only the names are told. -/
def Lineage.unkeyed (lineage : Lineage) : Lineage :=
  ⟨lineage.node.unkeyed, lineage.ancestors.map StyleNode.unkeyed⟩

theorem Lineage.unkeyed_unkeyed (lineage : Lineage) :
    lineage.unkeyed.unkeyed = lineage.unkeyed := by
  simp only [Lineage.unkeyed, List.map_map]
  rfl

theorem contextMatches_unkeyed (steps : List (Relation × Compound)) (above : List StyleNode) :
    contextMatches steps (above.map StyleNode.unkeyed) = contextMatches steps above := by
  induction steps generalizing above with
  | nil => rfl
  | cons step steps inductionHypothesis =>
    obtain ⟨relation, compound⟩ := step
    by_cases isParent : relation = .parent
    · subst isParent
      cases above with
      | nil => rfl
      | cons node above =>
        exact congrArg (matchesNode compound node && ·) (inductionHypothesis above)
    · rw [contextMatches_search isParent, contextMatches_search isParent, List.dropWhile_map]
      have sameNames : (fun node => !matchesNode compound node) ∘ StyleNode.unkeyed =
          fun node => !matchesNode compound node := rfl
      rw [sameNames]
      cases above.dropWhile fun node => !matchesNode compound node with
      | nil => rfl
      | cons nearest higher => exact inductionHypothesis higher

theorem matchesLineage_unkeyed (selector : Selector) (lineage : Lineage) :
    matchesLineage selector lineage.unkeyed = matchesLineage selector lineage :=
  congrArg (matchesNode selector.subject lineage.node && ·)
    (contextMatches_unkeyed selector.context lineage.ancestors)

namespace Stylist

variable {stylist other : Stylist}

/-- Without sheets on nodes, nothing that matching reads depends on the keys of the nodes. -/
theorem matchLineage_unkeyed (bare : ∀ key, stylist.nodeSheets.find? key = none)
    (lineage : Lineage) : stylist.matchLineage lineage.unkeyed = stylist.matchLineage lineage := by
  have sheets : ∀ lineage : Lineage, stylist.sheetsFor lineage = stylist.appSheet.toList := by
    intro lineage
    rw [sheetsFor, List.filterMap_eq_nil_iff.mpr fun node _ => bare node.key, List.nil_append]
  have matched : ∀ (level : Nat) (sheet : StyleSheet),
      matchSheet lineage.unkeyed level sheet = matchSheet lineage level sheet := by
    intro level sheet
    rw [matchSheet, matchSheet]
    simp only [matchesLineage_unkeyed]
    rfl
  rw [matchLineage, matchLineage, sheets, sheets]
  congr 1
  induction stylist.appSheet.toList with
  | nil => rfl
  | cons sheet outer inductionHypothesis =>
    rw [matchSheets, matchSheets, matched, inductionHypothesis]

end Stylist

end Style

/-! ### The state between probes -/

/-- What every probe finds: the sheet of the application, no other sheet, and caches that hold
nothing of any node. -/
structure Probing (sheet : String) (stylist : Stylist) : Prop where
  settings : stylist.settings = {}
  appSheet : stylist.appSheet = some (StyleSheet.parse ⟨1⟩ sheet)
  bare : ∀ key, stylist.nodeSheets.find? key = none
  coherent : stylist.Coherent fun _ => none

theorem probing_start (sheet : String) : Probing sheet ((Stylist.new {}).setAppSheet sheet) :=
  ⟨rfl, rfl, fun _ => rfl, (Stylist.coherent_new _ _).setAppSheet _⟩

variable {sheet : String} {stylist other : Stylist}

/-- Between any two probes, nodes with the same names have the same appearance. -/
theorem Probing.freshAppearance_congr (probing : Probing sheet stylist)
    (probingToo : Probing sheet other) {one two : Lineage} (names : one.unkeyed = two.unkeyed)
    (mask : PseudoMask) :
    stylist.freshAppearance one mask = other.freshAppearance two mask := by
  have ignores : one.node.ignoresSheets = two.node.ignoresSheets :=
    congrArg (fun lineage => lineage.node.ignoresSheets) names
  have sameSheets : stylist.matchLineage two = other.matchLineage two :=
    Stylist.matchLineage_congr (probing.appSheet.trans probingToo.appSheet.symm)
      fun node _ => (probing.bare node.key).trans (probingToo.bare node.key).symm
  have matched : stylist.matchLineage one = other.matchLineage two := by
    rw [← Stylist.matchLineage_unkeyed probing.bare, names,
      Stylist.matchLineage_unkeyed probing.bare, sameSheets]
  rw [Stylist.freshAppearance, Stylist.freshAppearance, ignores, matched, probing.settings,
    probingToo.settings]

/-! ### One probe -/

/-- Making the nodes of a chain only counts them. -/
theorem createChain_stylist (compounds : List Compound) (stylist : Stylist)
    (parent : Option Lineage) :
    (createChain stylist parent compounds).2 =
      { stylist with nextQuery := stylist.nextQuery + compounds.length } := by
  induction compounds generalizing stylist parent with
  | nil => rfl
  | cons compound rest inductionHypothesis =>
    rw [createChain]
    simp only [inductionHypothesis, Stylist.createQuery, List.length_cons, Nat.add_assoc,
      Nat.add_comm 1]

/-- A chain of which only the names are told, below some ancestors. -/
def namedChain (above : List StyleNode) : List Compound → List Lineage
  | [] => []
  | compound :: rest =>
      let node : StyleNode := ⟨.query 0, compound.element.getD "", compound.id.getD "", false⟩
      ⟨node, above⟩ :: namedChain (node :: above) rest

/-- The names in a chain do not depend on how many nodes have been made before. -/
theorem createChain_unkeyed (compounds : List Compound) (stylist : Stylist)
    (parent : Option Lineage) :
    (createChain stylist parent compounds).1.map Lineage.unkeyed =
      namedChain (((parent.map Lineage.path).getD []).map StyleNode.unkeyed) compounds := by
  induction compounds generalizing stylist parent with
  | nil => rfl
  | cons compound rest inductionHypothesis =>
    rw [createChain, namedChain]
    simp only [List.map_cons, inductionHypothesis]
    rfl

/-- The nodes of a chain are gone with all that is held of them. -/
theorem foldl_removeQuery (chain : List Lineage) (stylist : Stylist) :
    chain.foldl Stylist.removeQuery stylist =
      (chain.map Lineage.key).foldl Stylist.nodeDestroyed stylist := by
  rw [List.foldl_map]
  rfl

/-- Only one node is in its place. -/
def onlyPlaced (subject : Lineage) (key : NodeKey) : Option Lineage :=
  if key = subject.key then some subject else none

/-- A lookup of a node that has been made for a query, in a chain that is removed afterwards. -/
theorem Probing.resolve_removed (probing : Probing sheet stylist) (nextQuery : Nat)
    {chain : List Lineage} {subject : Lineage} (isLast : chain.getLast? = some subject)
    (mask : PseudoMask) :
    (({ stylist with nextQuery := nextQuery }.resolve subject mask).1.appearance? =
        stylist.freshAppearance subject mask) ∧
      Probing sheet
        (chain.foldl Stylist.removeQuery
          ({ stylist with nextQuery := nextQuery }.resolve subject mask).2) := by
  have inPlace := probing.coherent.unasked nextQuery (onlyPlaced subject)
  have looks := inPlace.resolve (fun _ => if_pos rfl) mask
  have out := Stylist.nodesDestroyed_takenOut (chain.map Lineage.key)
    ({ stylist with nextQuery := nextQuery }.resolve subject mask).2
  rw [foldl_removeQuery]
  refine ⟨looks.appearance, out.settings.trans (looks.same.settings.trans probing.settings),
    out.appSheet.trans (looks.same.appSheet.trans probing.appSheet), fun key => ?_, ?_⟩
  · rw [Option.eq_none_iff_forall_ne_some]
    intro onNode isSheet
    have before := ((out.nodeSheets key onNode).mp isSheet).2
    rw [looks.same.nodeSheets] at before
    exact nomatch before.symm.trans (probing.bare key)
  · refine looks.coherent.takenOut out fun key lineage isPlaced stays => absurd ?_ stays
    -- Nothing but the subject is in its place, and it is in the chain.
    have placed := isPlaced.1
    rw [onlyPlaced] at placed
    split at placed
    case isFalse => cases placed
    case isTrue same =>
      rw [same]
      exact List.mem_map_of_mem (List.mem_of_getLast? isLast)

/-- The appearance that a probe asks for, worked out without caches and without keys. -/
def namedAppearance (sheet : String) (probe : Selector) : Option Appearance :=
  (namedChain [] (probe.components.map (·.2))).getLast?.bind fun subject =>
    ((Stylist.new {}).setAppSheet sheet).freshAppearance subject probe.pseudo

/-- The answer to a probe depends on the sheet and on the probe alone, and the next probe finds what
this one has found. -/
theorem Probing.answers (probing : Probing sheet stylist) (probe : Selector) :
    (resolveProbe stylist probe).1.appearance? = namedAppearance sheet probe ∧
      Probing sheet (resolveProbe stylist probe).2 := by
  have counted := createChain_stylist (probe.components.map (·.2)) stylist none
  have names := createChain_unkeyed (probe.components.map (·.2)) stylist none
  rw [resolveProbe]
  generalize createChain stylist none (probe.components.map (·.2)) = made at counted names
  obtain ⟨chain, after⟩ := made
  simp only [Option.map_none, Option.getD_none, List.map_nil] at counted names
  rw [namedAppearance, ← names, List.getLast?_map, counted]
  cases isLast : chain.getLast? with
  | none =>
    simp only [isLast]
    exact ⟨rfl, probing.settings, probing.appSheet, probing.bare, probing.coherent.unasked _ _⟩
  | some subject =>
    simp only [isLast]
    obtain ⟨appearance, stays⟩ := probing.resolve_removed _ isLast probe.pseudo
    refine ⟨appearance.trans ?_, stays⟩
    exact probing.freshAppearance_congr (probing_start sheet) subject.unkeyed_unkeyed.symm _

theorem dumpStyle_congr {one two : ResolvedStyle} (same : one.appearance? = two.appearance?) :
    dumpStyle one = dumpStyle two := by
  cases one with
  | none =>
    cases two with
    | none => rfl
    | some made => cases same
  | some made =>
    cases two with
    | none => cases same
    | some madeToo =>
      have appearance : made.appearance = madeToo.appearance := Option.some_inj.mp same
      simp only [dumpStyle, appearance]

/-! ### Lists of probes -/

/-- The answer to one line of probes by a new stylist. -/
def answerAlone (sheet : String) (line : List Char) : Except FixtureError String :=
  resolveLines ((Stylist.new {}).setAppSheet sheet) [line]

theorem answerAlone_of_probe (sheet : String) {line : List Char} {probe : Selector}
    (isRead : readSelector? line = some probe) :
    answerAlone sheet line = .ok (String.ofList line ++ "\n" ++
      dumpStyle (resolveProbe ((Stylist.new {}).setAppSheet sheet) probe).1) := by
  rw [answerAlone, resolveLines, isRead]
  exact congrArg Except.ok (String.append_empty ..)

/-- Probes that share a stylist are answered like probes with a stylist for each of them. -/
theorem Probing.resolveLines_eq (probing : Probing sheet stylist) (lines : List (List Char)) :
    resolveLines stylist lines = (lines.mapM (answerAlone sheet)).map String.join := by
  induction lines generalizing stylist with
  | nil => rfl
  | cons line rest inductionHypothesis =>
    rw [List.mapM_cons, resolveLines]
    cases isRead : readSelector? line with
    | none =>
      rw [answerAlone, resolveLines, isRead]
      rfl
    | some probe =>
      obtain ⟨answer, stays⟩ := probing.answers probe
      have alone := ((probing_start sheet).answers probe).1
      rw [answerAlone_of_probe sheet isRead]
      simp only [inductionHypothesis stays, dumpStyle_congr (answer.trans alone.symm)]
      cases rest.mapM (answerAlone sheet) with
      | error cause => rfl
      | ok texts => exact congrArg Except.ok (String.join_cons ..).symm

theorem cutLines_ne_nil (text : List Char) : cutLines text ≠ [] := by
  cases text with
  | nil => exact List.cons_ne_nil _ _
  | cons c rest =>
    rw [cutLines]
    split
    · exact List.cons_ne_nil _ _
    · split <;> exact List.cons_ne_nil _ _

theorem cutLines_append (first second : List Char) :
    cutLines (first ++ '\n' :: second) = cutLines first ++ cutLines second := by
  induction first with
  | nil => rfl
  | cons c rest inductionHypothesis =>
    rw [List.cons_append, cutLines, cutLines, inductionHypothesis]
    split
    · rfl
    · obtain ⟨line, later, lines⟩ := List.exists_cons_of_ne_nil (cutLines_ne_nil rest)
      rw [lines]
      rfl

theorem probeLines_append (first second : List Char) :
    probeLines (first ++ '\n' :: second) = probeLines first ++ probeLines second := by
  rw [probeLines, cutLines_append, List.map_append, List.filter_append]
  rfl

/-- The answers to two texts of probes are the answers to the first and then those to the second,
and the first failure is that of the whole: whatever the probes before a line have left in the
caches, each line is answered as by a new stylist. -/
theorem resolveProbes_append (sheet first second : String) :
    (resolveProbes sheet (first ++ "\n" ++ second) = do
      let answers ← resolveProbes sheet first
      let later ← resolveProbes sheet second
      return answers ++ later) ∧
      ∀ probes, resolveProbes sheet probes =
        ((probeLines probes.toList).mapM (answerAlone sheet)).map String.join := by
  have alone : ∀ probes, resolveProbes sheet probes =
      ((probeLines probes.toList).mapM (answerAlone sheet)).map String.join := fun probes =>
    (probing_start sheet).resolveLines_eq (probeLines probes.toList)
  refine ⟨?_, alone⟩
  have lines : probeLines (first ++ "\n" ++ second).toList =
      probeLines first.toList ++ probeLines second.toList := by
    rw [← probeLines_append]
    simp
  rw [alone, alone, alone, lines, List.mapM_append]
  cases (probeLines first.toList).mapM (answerAlone sheet) with
  | error cause => rfl
  | ok answers =>
    cases (probeLines second.toList).mapM (answerAlone sheet) with
    | error cause => rfl
    | ok later => exact congrArg Except.ok (String.join_append ..)

end StyledWidgets
