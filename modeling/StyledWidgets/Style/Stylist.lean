/-
Module: StyledWidgets.Style.Stylist
Purpose: The resolution of styles, with caches. A stylist holds the sheets and three caches: the
  rules that matched a node, the resolved styles of a set of matched rules by pseudo state, and the
  set of matched rules of a node. Entries are taken out when sheets or the place of a node change;
  they are never repaired.
Main exports: ResolvedStyle, Stylist, Stylist.resolve, Stylist.setNodeSheet,
  Stylist.invalidateSubtree, Stylist.matchLineage, Stylist.setQuerySheet
-/
import StyledWidgets.Style.Appearance
import StyledWidgets.Style.Cascade
import StyledWidgets.Style.Matching

namespace StyledWidgets.Style

open StyledWidgets.Sheet

/-! ### Resolved styles -/

/-- An appearance that has been worked out once and is handed out to every node it serves. The
serial number is its identity: two instances may look alike and still be different. -/
structure StyleInstance where
  serial : Nat
  appearance : Appearance
  deriving Repr, DecidableEq, Inhabited

/-- The outcome of a lookup: an instance, or nothing where no declaration applies. -/
abbrev ResolvedStyle := Option StyleInstance

namespace ResolvedStyle

/-- Both are the same instance, or both are nothing. -/
def same (a b : ResolvedStyle) : Bool := a.map StyleInstance.serial == b.map StyleInstance.serial

/-- The appearance, if there is one. -/
def appearance? (style : ResolvedStyle) : Option Appearance := style.map StyleInstance.appearance

/-- Nothing shines through the widget. -/
def isOpaque (style : ResolvedStyle) : Bool :=
  match style with
  | some made => made.appearance.isOpaque
  | none => false

/-- The number of animation frames; one without an appearance. -/
def frameCount (style : ResolvedStyle) : Nat :=
  match style with
  | some made => made.appearance.frameCount
  | none => 1

end ResolvedStyle

/-! ### The stylist -/

/-- How lookups were answered and how often caches were filled and emptied. -/
structure StyleStats where
  /-- Answered from the entry of the node. -/
  nodeHits : Nat := 0
  /-- Answered from the entry of another node that matched the same rules. -/
  sharedHits : Nat := 0
  /-- Answered with the style of the pseudo-classes that contribute. -/
  aliased : Nat := 0
  /-- Styles worked out, those without an appearance included. -/
  built : Nat := 0
  /-- Runs of selector matching. -/
  matched : Nat := 0
  /-- Nodes whose entries were taken out. -/
  invalidated : Nat := 0
  deriving Repr, DecidableEq, Inhabited

/-- The sheets, the caches and the counters from which identities are drawn. -/
structure Stylist where
  settings : StyleSettings := {}
  nextSheet : Nat := 1
  nextQuery : Nat := 1
  nextSerial : Nat := 1
  appSheet : Option StyleSheet := none
  nodeSheets : Table NodeKey StyleSheet := ∅
  matchedRules : Table NodeKey (List MatchedRule) := ∅
  ruleSets : Table RuleSetKey (Table PseudoMask ResolvedStyle) := ∅
  nodeRuleSets : Table NodeKey RuleSetKey := ∅
  stats : StyleStats := {}
  deriving Repr, DecidableEq, Inhabited

namespace Stylist

/-- A stylist without sheets. -/
def new (settings : StyleSettings) : Stylist := { settings := settings }

/-! ### Matching -/

/-- The sheets that apply to a node, its own first, then those of its ancestors and last that of
the application. -/
def sheetsFor (stylist : Stylist) (lineage : Lineage) : List StyleSheet :=
  (lineage.path.filterMap fun node => stylist.nodeSheets.find? node.key) ++
    stylist.appSheet.toList

/-- The selectors of one sheet that match a node, as matched rules of the given level. -/
def matchSheet (lineage : Lineage) (level : Nat) (sheet : StyleSheet) : List MatchedRule :=
  ((sheet.candidates lineage.node.objectName lineage.node.typeName).filter fun entry =>
      matchesLineage entry.selector lineage).map fun entry =>
    { rule := entry.rule
      selector := entry.selector
      ref := ⟨sheet.id, entry.rule.order, entry.index⟩
      weight := ⟨level, entry.selector.specificity, entry.rule.order⟩ }

/-- The matched rules of sheets, the nearest sheet first; the last sheet has level zero. -/
def matchSheets (lineage : Lineage) : List StyleSheet → List MatchedRule
  | [] => []
  | sheet :: outer => matchSheet lineage outer.length sheet ++ matchSheets lineage outer

/-- Every selector of every sheet that matches a node, in ascending order. -/
def matchLineage (stylist : Stylist) (lineage : Lineage) : List MatchedRule :=
  (matchSheets lineage (stylist.sheetsFor lineage)).mergeSort MatchedRule.le

/-! ### Lookups -/

/-- The style that the caches hold for a node in a pseudo state. -/
def cached? (stylist : Stylist) (key : NodeKey) (mask : PseudoMask) : Option ResolvedStyle := do
  let set ← stylist.nodeRuleSets.find? key
  let styles ← stylist.ruleSets.find? set
  styles.find? mask

/-- The matched rules of a node, from the cache or by matching, which fills the cache. -/
def matchedFor (stylist : Stylist) (lineage : Lineage) : List MatchedRule × Stylist :=
  match stylist.matchedRules.find? lineage.key with
  | some matched => (matched, stylist)
  | none =>
      let matched := stylist.matchLineage lineage
      (matched,
        { stylist with
          matchedRules := stylist.matchedRules.insert lineage.key matched
          stats := { stylist.stats with matched := stylist.stats.matched + 1 } })

/-- Note the set of matched rules of a node, with an empty cache if the set is new. -/
def enterRuleSet (stylist : Stylist) (key : NodeKey) (set : RuleSetKey) : Stylist :=
  { stylist with
    ruleSets :=
      if stylist.ruleSets.contains set then stylist.ruleSets
      else stylist.ruleSets.insert set ∅
    nodeRuleSets := stylist.nodeRuleSets.insert key set }

/-- The declarations of rules laid over each other. -/
def mergeOf (applied : List MatchedRule) : Merge :=
  applied.foldl (fun merge matched => merge.apply matched.rule.declarations) {}

/-- The pseudo-classes on which the choice of rules depended. -/
def contributing (applied : List MatchedRule) : PseudoMask :=
  applied.foldl (fun mask matched => mask.union matched.selector.pseudo) PseudoMask.empty

/-- Make a style of merged declarations: a new instance, or nothing if nothing is declared. -/
def materialize (stylist : Stylist) (merge : Merge) : ResolvedStyle × Stylist :=
  if merge.isEmpty then (none, stylist)
  else
    (some ⟨stylist.nextSerial, Appearance.ofMerge merge stylist.settings⟩,
      { stylist with nextSerial := stylist.nextSerial + 1 })

/-- Remember a style in the cache of a set of matched rules. -/
def remember (stylist : Stylist) (set : RuleSetKey) (styles : Table PseudoMask ResolvedStyle) :
    Stylist :=
  { stylist with ruleSets := stylist.ruleSets.insert set styles }

/-- Work out the style of a set of matched rules in a pseudo state and remember it. If the rules
that apply depend on other pseudo-classes than those given, the style belongs to these: a style
they already have is taken over, and a new one is remembered for both. -/
def build (stylist : Stylist) (matched : List MatchedRule) (set : RuleSetKey)
    (mask : PseudoMask) : ResolvedStyle × Stylist :=
  let applied := applicable (fun selector => selector.acceptsPseudo mask) matched
  let real := contributing applied
  let merge := mergeOf applied
  let aliases := stylist.settings.aliasPseudoStates && real != mask
  match stylist.ruleSets.find? set with
  | none => stylist.materialize merge
  | some styles =>
      match if aliases then styles.find? real else none with
      | some known =>
          (known,
            { stylist.remember set (styles.insert mask known) with
              stats := { stylist.stats with aliased := stylist.stats.aliased + 1 } })
      | none =>
          let (made, stylist) := stylist.materialize merge
          let styles := styles.insert mask made
          let styles := if aliases then styles.insert real made else styles
          (made,
            { stylist.remember set styles with
              stats := { stylist.stats with built := stylist.stats.built + 1 } })

/-- The style of a node in a pseudo state. Asking again without a change in between gives the same
instance; so does asking for another node that matched the same rules. -/
def resolve (stylist : Stylist) (lineage : Lineage) (mask : PseudoMask) :
    ResolvedStyle × Stylist :=
  if lineage.node.ignoresSheets then (none, stylist)
  else
    match stylist.cached? lineage.key mask with
    | some style =>
        (style,
          { stylist with stats := { stylist.stats with nodeHits := stylist.stats.nodeHits + 1 } })
    | none =>
        let (matched, stylist) := stylist.matchedFor lineage
        let set := RuleSetKey.ofMatched matched
        let stylist := stylist.enterRuleSet lineage.key set
        match (stylist.ruleSets.find? set).bind fun styles => styles.find? mask with
        | some style =>
            (style,
              { stylist with
                stats := { stylist.stats with sharedHits := stylist.stats.sharedHits + 1 } })
        | none => stylist.build matched set mask

/-! ### Invalidation -/

/-- Take out the entries of one node. -/
def invalidate (stylist : Stylist) (key : NodeKey) : Stylist :=
  let held := stylist.matchedRules.contains key || stylist.nodeRuleSets.contains key
  { stylist with
    matchedRules := stylist.matchedRules.erase key
    nodeRuleSets := stylist.nodeRuleSets.erase key
    stats :=
      { stylist.stats with
        invalidated := stylist.stats.invalidated + (if held then 1 else 0) } }

/-- Take out the entries of a node and of the nodes below it. -/
def invalidateSubtree (stylist : Stylist) (subtree : List NodeKey) : Stylist :=
  subtree.foldl invalidate stylist

/-- Drop the sets of matched rules that mention a sheet. -/
def forgetSheet (stylist : Stylist) (sheet : SheetId) : Stylist :=
  { stylist with ruleSets := stylist.ruleSets.filterKeys fun set => !set.references sheet }

/-- Empty every cache; the sheets stay. -/
def clear (stylist : Stylist) : Stylist :=
  { stylist with matchedRules := ∅, ruleSets := ∅, nodeRuleSets := ∅ }

/-! ### Sheets -/

/-- Read a sheet under a new identity. -/
def readSheet (stylist : Stylist) (text : String) : StyleSheet × Stylist :=
  (StyleSheet.parse ⟨stylist.nextSheet⟩ text, { stylist with nextSheet := stylist.nextSheet + 1 })

/-- Replace the sheet of the application. -/
def setAppSheet (stylist : Stylist) (text : String) : Stylist :=
  let (sheet, stylist) := stylist.readSheet text
  { stylist with appSheet := some sheet }.clear

/-- The text of the sheet of the application. -/
def appSheetText? (stylist : Stylist) : Option String := stylist.appSheet.map StyleSheet.source

/-- The text of the sheet of a node. -/
def nodeSheetText? (stylist : Stylist) (key : NodeKey) : Option String :=
  (stylist.nodeSheets.find? key).map StyleSheet.source

/-- Take the sheet off a node. `subtree` lists the node and those below it. -/
def clearNodeSheet (stylist : Stylist) (key : NodeKey) (subtree : List NodeKey) : Stylist :=
  match stylist.nodeSheets.find? key with
  | none => stylist
  | some old =>
      ({ stylist with nodeSheets := stylist.nodeSheets.erase key }.forgetSheet
        old.id).invalidateSubtree subtree

/-- Put a sheet on a node; it applies to the node and to those below it, which `subtree` lists.
A blank text takes the sheet off. -/
def setNodeSheet (stylist : Stylist) (key : NodeKey) (subtree : List NodeKey) (text : String) :
    Stylist :=
  if Text.trim text.toList = [] then stylist.clearNodeSheet key subtree
  else
    let (sheet, stylist) := stylist.readSheet text
    let before := stylist.nodeSheets.find? key
    let stylist := { stylist with nodeSheets := stylist.nodeSheets.insert key sheet }
    let stylist :=
      match before with
      | some old => stylist.forgetSheet old.id
      | none => stylist
    stylist.invalidateSubtree subtree

/-- Drop everything that is held for a node that is gone. -/
def nodeDestroyed (stylist : Stylist) (key : NodeKey) : Stylist :=
  let stylist := stylist.invalidate key
  match stylist.nodeSheets.find? key with
  | none => stylist
  | some old =>
      { stylist with nodeSheets := stylist.nodeSheets.erase key }.forgetSheet old.id

/-! ### Nodes for queries -/

/-- A node that exists only to be asked about, below another one of its kind or at the top. -/
def createQuery (stylist : Stylist) (typeName objectName : String) (parent : Option Lineage) :
    Lineage × Stylist :=
  ({ node := ⟨.query stylist.nextQuery, typeName, objectName, false⟩
     ancestors := (parent.map Lineage.path).getD [] },
    { stylist with nextQuery := stylist.nextQuery + 1 })

/-- The nodes whose entries are taken out with a change of the sheet of a node made for a query: the
node alone. Such a node knows those above it, but none of those below. -/
def querySubtree (query : Lineage) : List NodeKey := [query.key]

/-- Put a sheet on a node made for a query, or take it off with a blank text. -/
def setQuerySheet (stylist : Stylist) (query : Lineage) (text : String) : Stylist :=
  stylist.setNodeSheet query.key (querySubtree query) text

/-- Take the sheet off a node made for a query. -/
def clearQuerySheet (stylist : Stylist) (query : Lineage) : Stylist :=
  stylist.clearNodeSheet query.key (querySubtree query)

/-- Drop everything that is held for a node made for a query. -/
def removeQuery (stylist : Stylist) (query : Lineage) : Stylist := stylist.nodeDestroyed query.key

/-! ### What can be observed -/

/-- The number of sets of matched rules in the cache. -/
def ruleSetCount (stylist : Stylist) : Nat := stylist.ruleSets.size

/-- The caches hold an entry of the node. -/
def isCached (stylist : Stylist) (key : NodeKey) : Bool :=
  stylist.matchedRules.contains key || stylist.nodeRuleSets.contains key

end Stylist

end StyledWidgets.Style
