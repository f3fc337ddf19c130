/-
Module: StyledWidgets.Proofs.StyleChanges
Purpose: Changes of sheets and of the places of nodes keep the caches of a stylist coherent. Each
  change takes entries out; what it leaves is what the nodes would still be given.
Main exports: Stylist.TakenOut, Stylist.Coherent.takenOut, Stylist.Coherent.setAppSheet,
  Stylist.Installs, Stylist.Coherent.setNodeSheet, Stylist.nodesDestroyed_takenOut
-/
import Mathlib.Data.List.Basic
import StyledWidgets.Proofs.StyleCache

namespace StyledWidgets.Style

open StyledWidgets.Sheet

namespace Stylist

variable {stylist after : Stylist} {placed placedAfter : NodeKey → Option Lineage}

/-! ### What a change may leave -/

/-- Styles that are held after nothing has been added were held before, for a known set. -/
theorem held?_of_kept
    (kept : ∀ set styles, after.ruleSets.find? set = some styles →
      stylist.ruleSets.find? set = some styles)
    {set : RuleSetKey} {mask : PseudoMask} {style : ResolvedStyle}
    (held : after.held? set mask = some style) :
    stylist.held? set mask = some style ∧ stylist.ruleSets.contains set = true := by
  rw [held?, Option.bind_eq_some_iff] at held
  obtain ⟨styles, found, isStyle⟩ := held
  have before := kept set styles found
  constructor
  · rw [held?, before]
    exact isStyle
  · rw [Table.contains, before]
    rfl

/-- The references of a known set are to sheets that were in use before, so none is to a new
sheet. -/
theorem Coherent.fromInstalled_of_known (coherent : stylist.Coherent placed)
    (isNew : ∀ sheet, after.Installed sheet →
      stylist.Installed sheet ∨ stylist.nextSheet ≤ sheet.id.raw) {rules : List MatchedRule}
    (known : stylist.ruleSets.contains (RuleSetKey.ofMatched rules) = true)
    (installed : after.FromInstalled rules) : stylist.FromInstalled rules := by
  intro rule member
  obtain ⟨sheet, isInstalled, isSheet, isRule⟩ := installed rule member
  obtain ⟨old, oldInstalled, isOld⟩ :=
    coherent.current known rule.ref (List.mem_map_of_mem member)
  rcases isNew sheet isInstalled with before | beyond
  · exact ⟨sheet, before, isSheet, isRule⟩
  · have small := coherent.read.handedOut oldInstalled
    rw [← isOld, isSheet] at small
    omega

/-- Caches stay coherent if nothing is added to them, if the entries that stay are still right, and
if every sheet that comes into use has a new identity. -/
theorem Coherent.transfer (coherent : stylist.Coherent placed) (read : after.SheetsRead)
    (settings : after.settings = stylist.settings)
    (nextSerial : after.nextSerial = stylist.nextSerial)
    (isNew : ∀ sheet, after.Installed sheet →
      stylist.Installed sheet ∨ stylist.nextSheet ≤ sheet.id.raw)
    (matched : ∀ key rules, after.matchedRules.find? key = some rules →
      stylist.matchedRules.find? key = some rules ∧
        ∀ lineage, Placed placed key lineage →
          Placed placedAfter key lineage ∧
            after.matchLineage lineage = stylist.matchLineage lineage)
    (sets : ∀ key set, after.nodeRuleSets.find? key = some set →
      stylist.nodeRuleSets.find? key = some set ∧
        ∀ lineage, Placed placed key lineage →
          Placed placedAfter key lineage ∧
            after.matchLineage lineage = stylist.matchLineage lineage)
    (kept : ∀ set styles, after.ruleSets.find? set = some styles →
      stylist.ruleSets.find? set = some styles ∧
        ∀ ref ∈ set.refs, ∀ sheet, stylist.Installed sheet → ref.sheet = sheet.id →
          after.Installed sheet) :
    after.Coherent placedAfter where
  read := read
  matched := by
    intro key rules found
    obtain ⟨before, still⟩ := matched key rules found
    obtain ⟨lineage, isPlaced, rfl⟩ := coherent.matched before
    exact ⟨lineage, (still lineage isPlaced).1, (still lineage isPlaced).2.symm⟩
  sets := by
    intro key set found
    obtain ⟨before, still⟩ := sets key set found
    obtain ⟨lineage, isPlaced, rfl⟩ := coherent.sets before
    exact ⟨lineage, (still lineage isPlaced).1, by rw [(still lineage isPlaced).2]⟩
  current := by
    intro set found ref member
    obtain ⟨styles, isHeld⟩ := Option.isSome_iff_exists.mp found
    obtain ⟨before, stays⟩ := kept set styles isHeld
    obtain ⟨sheet, installed, isSheet⟩ :=
      coherent.current (Option.isSome_iff_exists.mpr ⟨styles, before⟩) ref member
    exact ⟨sheet, stays ref member sheet installed isSheet, isSheet⟩
  styles := by
    rintro set mask style held rules installed rfl
    obtain ⟨before, known⟩ := held?_of_kept (fun set styles found => (kept set styles found).1) held
    rw [settings]
    exact coherent.styles before rules (coherent.fromInstalled_of_known isNew known installed) rfl
  serials := by
    intro set mask made held
    have before := fun set styles found => (kept set styles found).1
    rw [nextSerial]
    exact coherent.serials (held?_of_kept before held).1
  instances := by
    intro set other mask otherMask made madeToo held heldToo
    have before := fun set styles found => (kept set styles found).1
    exact coherent.instances (held?_of_kept before held).1 (held?_of_kept before heldToo).1

/-- A node matches as before while the sheets on its path stay. -/
theorem matchLineage_congr (appSheet : after.appSheet = stylist.appSheet) {lineage : Lineage}
    (same : ∀ node ∈ lineage.path,
      after.nodeSheets.find? node.key = stylist.nodeSheets.find? node.key) :
    after.matchLineage lineage = stylist.matchLineage lineage := by
  rw [Stylist.matchLineage, Stylist.matchLineage, sheetsFor, sheetsFor, appSheet,
    List.filterMap_congr same]

/-- The entries of nodes are taken out, and the sheets of nodes with all that mentions them. -/
structure TakenOut (before after : Stylist) (entries sheets : List NodeKey) : Prop where
  settings : after.settings = before.settings
  nextSheet : after.nextSheet = before.nextSheet
  nextSerial : after.nextSerial = before.nextSerial
  appSheet : after.appSheet = before.appSheet
  nodeSheets : ∀ key sheet, after.nodeSheets.find? key = some sheet ↔
    key ∉ sheets ∧ before.nodeSheets.find? key = some sheet
  matched : ∀ key rules, after.matchedRules.find? key = some rules →
    key ∉ entries ∧ before.matchedRules.find? key = some rules
  sets : ∀ key set, after.nodeRuleSets.find? key = some set →
    key ∉ entries ∧ before.nodeRuleSets.find? key = some set
  ruleSets : ∀ set styles, after.ruleSets.find? set = some styles →
    before.ruleSets.find? set = some styles ∧
      ∀ key ∈ sheets, ∀ sheet, before.nodeSheets.find? key = some sheet →
        set.references sheet.id = false

namespace TakenOut

variable {entries sheets moreEntries moreSheets : List NodeKey} {last : Stylist}

theorem refl (stylist : Stylist) : TakenOut stylist stylist [] [] where
  settings := rfl
  nextSheet := rfl
  nextSerial := rfl
  appSheet := rfl
  nodeSheets _ _ := (and_iff_right List.not_mem_nil).symm
  matched _ _ found := ⟨List.not_mem_nil, found⟩
  sets _ _ found := ⟨List.not_mem_nil, found⟩
  ruleSets _ _ found := ⟨found, fun _ member => absurd member List.not_mem_nil⟩

theorem trans (first : TakenOut stylist after entries sheets)
    (second : TakenOut after last moreEntries moreSheets) :
    TakenOut stylist last (entries ++ moreEntries) (sheets ++ moreSheets) where
  settings := second.settings.trans first.settings
  nextSheet := second.nextSheet.trans first.nextSheet
  nextSerial := second.nextSerial.trans first.nextSerial
  appSheet := second.appSheet.trans first.appSheet
  nodeSheets key sheet := by
    rw [second.nodeSheets, first.nodeSheets, List.mem_append, not_or, and_assoc, and_left_comm]
  matched key rules found := by
    obtain ⟨kept, found⟩ := second.matched key rules found
    obtain ⟨keptBefore, found⟩ := first.matched key rules found
    rw [List.mem_append, not_or]
    exact ⟨⟨keptBefore, kept⟩, found⟩
  sets key set found := by
    obtain ⟨kept, found⟩ := second.sets key set found
    obtain ⟨keptBefore, found⟩ := first.sets key set found
    rw [List.mem_append, not_or]
    exact ⟨⟨keptBefore, kept⟩, found⟩
  ruleSets set styles found := by
    obtain ⟨found, unmentioned⟩ := second.ruleSets set styles found
    obtain ⟨found, unmentionedBefore⟩ := first.ruleSets set styles found
    refine ⟨found, fun key member sheet isSheet => ?_⟩
    by_cases gone : key ∈ sheets
    · exact unmentionedBefore key gone sheet isSheet
    · have further := (List.mem_append.mp member).resolve_left gone
      exact unmentioned key further sheet ((first.nodeSheets key sheet).mpr ⟨gone, isSheet⟩)

theorem installed (out : TakenOut stylist after entries sheets) {sheet : StyleSheet}
    (isInstalled : after.Installed sheet) : stylist.Installed sheet := by
  rcases isInstalled with app | ⟨key, found⟩
  · exact Or.inl (out.appSheet.symm.trans app)
  · exact Or.inr ⟨key, ((out.nodeSheets key sheet).mp found).2⟩

theorem read (out : TakenOut stylist after entries sheets) (before : stylist.SheetsRead) :
    after.SheetsRead where
  parsed isInstalled := before.parsed (out.installed isInstalled)
  handedOut isInstalled := by
    rw [out.nextSheet]
    exact before.handedOut (out.installed isInstalled)
  visible found := before.visible ((out.nodeSheets _ _).mp found).2
  apart app found :=
    before.apart (out.appSheet.symm.trans app) ((out.nodeSheets _ _).mp found).2
  distinct first second :=
    before.distinct ((out.nodeSheets _ _).mp first).2 ((out.nodeSheets _ _).mp second).2

/-- A node none of whose sheets are taken off matches as before. -/
theorem matchLineage (out : TakenOut stylist after entries sheets) {lineage : Lineage}
    (kept : ∀ node ∈ lineage.path, node.key ∉ sheets) :
    after.matchLineage lineage = stylist.matchLineage lineage := by
  apply matchLineage_congr out.appSheet
  intro node member
  apply Option.ext
  intro sheet
  rw [out.nodeSheets]
  exact and_iff_right (kept node member)

end TakenOut

/-- Caches stay coherent if every entry that stays is of a node that keeps its place and the sheets
on its path. -/
theorem Coherent.takenOut (coherent : stylist.Coherent placed) {entries sheets : List NodeKey}
    (out : TakenOut stylist after entries sheets)
    (kept : ∀ key lineage, Placed placed key lineage → key ∉ entries →
      Placed placedAfter key lineage ∧ ∀ node ∈ lineage.path, node.key ∉ sheets) :
    after.Coherent placedAfter := by
  have still : ∀ key, key ∉ entries → ∀ lineage, Placed placed key lineage →
      Placed placedAfter key lineage ∧
        after.matchLineage lineage = stylist.matchLineage lineage := by
    intro key stays lineage isPlaced
    obtain ⟨same, untouched⟩ := kept key lineage isPlaced stays
    exact ⟨same, out.matchLineage untouched⟩
  apply coherent.transfer (out.read coherent.read) out.settings out.nextSerial
  · intro sheet isInstalled
    exact Or.inl (out.installed isInstalled)
  · intro key rules found
    obtain ⟨stays, before⟩ := out.matched key rules found
    exact ⟨before, still key stays⟩
  · intro key set found
    obtain ⟨stays, before⟩ := out.sets key set found
    exact ⟨before, still key stays⟩
  · intro set styles found
    obtain ⟨before, unmentioned⟩ := out.ruleSets set styles found
    refine ⟨before, fun ref member sheet isInstalled isSheet => ?_⟩
    rcases isInstalled with app | ⟨key, onNode⟩
    · exact Or.inl (out.appSheet.trans app)
    · refine Or.inr ⟨key, (out.nodeSheets key sheet).mpr ⟨fun gone => ?_, onNode⟩⟩
      have mentioned : set.references sheet.id = true := by
        rw [RuleSetKey.references, List.any_eq_true]
        exact ⟨ref, member, beq_iff_eq.mpr isSheet⟩
      rw [unmentioned key gone sheet onNode] at mentioned
      cases mentioned

/-! ### Taking out -/

theorem invalidate_takenOut (key : NodeKey) :
    TakenOut stylist (stylist.invalidate key) [key] [] where
  settings := rfl
  nextSheet := rfl
  nextSerial := rfl
  appSheet := rfl
  nodeSheets _ _ := (and_iff_right List.not_mem_nil).symm
  matched other rules found := by
    rw [invalidate, Table.find?_erase] at found
    split at found
    case isTrue => cases found
    case isFalse apart => exact ⟨mt List.mem_singleton.mp apart, found⟩
  sets other set found := by
    rw [invalidate, Table.find?_erase] at found
    split at found
    case isTrue => cases found
    case isFalse apart => exact ⟨mt List.mem_singleton.mp apart, found⟩
  ruleSets _ _ found := ⟨found, fun _ member => absurd member List.not_mem_nil⟩

theorem invalidateSubtree_takenOut (subtree : List NodeKey) :
    ∀ stylist : Stylist, TakenOut stylist (stylist.invalidateSubtree subtree) subtree [] := by
  induction subtree with
  | nil => exact TakenOut.refl
  | cons key later inductionHypothesis =>
      intro stylist
      exact (invalidate_takenOut key).trans (inductionHypothesis (stylist.invalidate key))

theorem invalidateSubtree_eq (subtree : List NodeKey) :
    ∀ stylist : Stylist, ∃ stats, stylist.invalidateSubtree subtree =
      { stylist with
        matchedRules := subtree.foldl Table.erase stylist.matchedRules
        nodeRuleSets := subtree.foldl Table.erase stylist.nodeRuleSets
        stats := stats } := by
  induction subtree with
  | nil => exact fun stylist => ⟨stylist.stats, rfl⟩
  | cons key later inductionHypothesis =>
      intro stylist
      exact inductionHypothesis (stylist.invalidate key)

theorem invalidateSubtree_nodeSheets (subtree : List NodeKey) (stylist : Stylist) :
    (stylist.invalidateSubtree subtree).nodeSheets = stylist.nodeSheets := by
  obtain ⟨stats, same⟩ := invalidateSubtree_eq subtree stylist
  rw [same]

/-- A stylist without the sheet of a node and without what mentions the sheet. -/
def unsheet (stylist : Stylist) (key : NodeKey) : Stylist :=
  match stylist.nodeSheets.find? key with
  | none => stylist
  | some old => { stylist with nodeSheets := stylist.nodeSheets.erase key }.forgetSheet old.id

/-- Taking the sheet off a node takes out the entries of the subtree, if there is a sheet. -/
theorem clearNodeSheet_eq (key : NodeKey) (subtree : List NodeKey) :
    stylist.clearNodeSheet key subtree =
      if (stylist.nodeSheets.find? key).isSome then
        (stylist.unsheet key).invalidateSubtree subtree
      else stylist := by
  rw [clearNodeSheet, unsheet]
  cases stylist.nodeSheets.find? key with
  | none => rfl
  | some old => rfl

theorem unsheet_takenOut (key : NodeKey) : TakenOut stylist (stylist.unsheet key) [] [key] := by
  rw [unsheet]
  split
  case h_1 onNode =>
    refine ⟨rfl, rfl, rfl, rfl, ?_, ?_, ?_, ?_⟩
    · intro other sheet
      rw [List.mem_singleton]
      refine ⟨fun found => ⟨fun same => ?_, found⟩, And.right⟩
      rw [same, onNode] at found
      cases found
    · exact fun _ _ found => ⟨List.not_mem_nil, found⟩
    · exact fun _ _ found => ⟨List.not_mem_nil, found⟩
    · intro set styles found
      refine ⟨found, fun other member sheet isSheet => ?_⟩
      rw [List.mem_singleton.mp member, onNode] at isSheet
      cases isSheet
  case h_2 old onNode =>
    refine ⟨rfl, rfl, rfl, rfl, ?_, ?_, ?_, ?_⟩
    · intro other sheet
      rw [forgetSheet, Table.find?_erase, List.mem_singleton]
      split
      case isTrue same => simp [same]
      case isFalse apart => simp [apart]
    · exact fun _ _ found => ⟨List.not_mem_nil, found⟩
    · exact fun _ _ found => ⟨List.not_mem_nil, found⟩
    · intro set styles found
      rw [forgetSheet, Table.find?_filterKeys] at found
      split at found
      case isTrue unmentioned =>
        refine ⟨found, fun other member sheet isSheet => ?_⟩
        rw [List.mem_singleton.mp member, onNode, Option.some_inj] at isSheet
        rw [← isSheet, ← Bool.not_eq_true']
        exact unmentioned
      case isFalse => cases found

theorem unsheetSubtree_takenOut (key : NodeKey) (subtree : List NodeKey) :
    TakenOut stylist ((stylist.unsheet key).invalidateSubtree subtree) subtree [key] :=
  (unsheet_takenOut key).trans (invalidateSubtree_takenOut subtree _)

theorem nodeDestroyed_takenOut (key : NodeKey) :
    TakenOut stylist (stylist.nodeDestroyed key) [key] [key] :=
  (invalidate_takenOut key).trans (unsheet_takenOut key)

theorem nodesDestroyed_takenOut (gone : List NodeKey) :
    ∀ stylist : Stylist, TakenOut stylist (gone.foldl nodeDestroyed stylist) gone gone := by
  induction gone with
  | nil => exact TakenOut.refl
  | cons key later inductionHypothesis =>
      intro stylist
      exact (nodeDestroyed_takenOut key).trans (inductionHypothesis (stylist.nodeDestroyed key))

/-! ### Sheets -/

/-- With a new sheet of the application, the sheets in use are that one and those of the nodes. -/
theorem setAppSheet_installed {text : String} {sheet : StyleSheet}
    (isInstalled : (stylist.setAppSheet text).Installed sheet) :
    sheet = StyleSheet.parse ⟨stylist.nextSheet⟩ text ∨
      ∃ key, stylist.nodeSheets.find? key = some sheet := by
  rcases isInstalled with app | onNode
  · exact Or.inl (Option.some_inj.mp app).symm
  · exact Or.inr onNode

theorem SheetsRead.setAppSheet (read : stylist.SheetsRead) (text : String) :
    (stylist.setAppSheet text).SheetsRead := by
  have apart : ∀ {key sheet}, stylist.nodeSheets.find? key = some sheet →
      sheet.id.raw < stylist.nextSheet := by
    intro key sheet onNode
    exact read.handedOut (Or.inr ⟨key, onNode⟩)
  constructor
  · intro sheet isInstalled
    rcases setAppSheet_installed isInstalled with rfl | onNode
    · rfl
    · exact read.parsed (Or.inr onNode)
  · intro sheet isInstalled
    rcases setAppSheet_installed isInstalled with rfl | ⟨key, onNode⟩
    · exact Nat.lt_succ_self _
    · exact Nat.lt_succ_of_lt (apart onNode)
  · exact read.visible
  · intro key app sheet isApp onNode same
    have small := apart onNode
    rw [← same, ← Option.some_inj.mp isApp] at small
    exact Nat.lt_irrefl _ small
  · exact read.distinct

theorem Coherent.setAppSheet (coherent : stylist.Coherent placed) (text : String) :
    (stylist.setAppSheet text).Coherent placed := by
  refine coherent.transfer (coherent.read.setAppSheet text) rfl rfl ?_ ?_ ?_ ?_
  · intro sheet isInstalled
    rcases setAppSheet_installed isInstalled with rfl | onNode
    · exact Or.inr (Nat.le_refl _)
    · exact Or.inl (Or.inr onNode)
  · intro key rules found
    cases found
  · intro key set found
    cases found
  · intro set styles found
    cases found

/-- The sheet of a node is taken off, with the entries of the subtree. -/
theorem Coherent.unsheet (coherent : stylist.Coherent placed) {key : NodeKey}
    {subtree : List NodeKey}
    (covers : ∀ other lineage, Placed placed other lineage →
      (∃ node ∈ lineage.path, node.key = key) → other ∈ subtree) :
    ((stylist.unsheet key).invalidateSubtree subtree).Coherent placed := by
  apply coherent.takenOut (unsheetSubtree_takenOut key subtree)
  intro other lineage isPlaced stays
  refine ⟨isPlaced, fun node member isKey => stays ?_⟩
  exact covers other lineage isPlaced ⟨node, member, List.mem_singleton.mp isKey⟩

theorem Coherent.clearNodeSheet (coherent : stylist.Coherent placed) {key : NodeKey}
    {subtree : List NodeKey}
    (covers : ∀ other lineage, Placed placed other lineage →
      (∃ node ∈ lineage.path, node.key = key) → other ∈ subtree) :
    (stylist.clearNodeSheet key subtree).Coherent placed := by
  rw [clearNodeSheet_eq]
  split
  · exact coherent.unsheet covers
  · exact coherent

/-- A sheet with a new identity comes into use for a node; the caches stay as they are. -/
structure Installs (stylist after : Stylist) (key : NodeKey) (text : String) : Prop where
  settings : after.settings = stylist.settings
  nextSheet : after.nextSheet = stylist.nextSheet + 1
  nextSerial : after.nextSerial = stylist.nextSerial
  appSheet : after.appSheet = stylist.appSheet
  nodeSheets : ∀ other, after.nodeSheets.find? other =
    if key = other then some (StyleSheet.parse ⟨stylist.nextSheet⟩ text)
    else stylist.nodeSheets.find? other
  matched : after.matchedRules = stylist.matchedRules
  sets : after.nodeRuleSets = stylist.nodeRuleSets
  ruleSets : after.ruleSets = stylist.ruleSets

namespace Installs

variable {key other : NodeKey} {text : String} {sheet : StyleSheet}

theorem onNode (installs : Installs stylist after key text)
    (found : after.nodeSheets.find? other = some sheet) :
    (other = key ∧ sheet = StyleSheet.parse ⟨stylist.nextSheet⟩ text) ∨
      stylist.nodeSheets.find? other = some sheet := by
  rw [installs.nodeSheets] at found
  split at found
  case isTrue same => exact Or.inl ⟨same.symm, (Option.some_inj.mp found).symm⟩
  case isFalse => exact Or.inr found

theorem installed (installs : Installs stylist after key text)
    (isInstalled : after.Installed sheet) :
    sheet = StyleSheet.parse ⟨stylist.nextSheet⟩ text ∨ stylist.Installed sheet := by
  rcases isInstalled with app | ⟨other, found⟩
  · exact Or.inr (Or.inl (installs.appSheet.symm.trans app))
  · rcases installs.onNode found with ⟨-, isNew⟩ | before
    · exact Or.inl isNew
    · exact Or.inr (Or.inr ⟨other, before⟩)

/-- The sheets of the other nodes stay in use. -/
theorem stays (installs : Installs stylist after key text)
    (bare : stylist.nodeSheets.find? key = none) (isInstalled : stylist.Installed sheet) :
    after.Installed sheet := by
  rcases isInstalled with app | ⟨other, before⟩
  · exact Or.inl (installs.appSheet.trans app)
  · refine Or.inr ⟨other, ?_⟩
    rw [installs.nodeSheets, if_neg, before]
    rintro rfl
    rw [bare] at before
    cases before

/-- No sheet in use has the new identity. -/
theorem apart (read : stylist.SheetsRead) (before : stylist.Installed sheet) :
    sheet.id ≠ ⟨stylist.nextSheet⟩ := by
  intro same
  have small := read.handedOut before
  rw [same] at small
  exact Nat.lt_irrefl _ small

theorem sheetsRead (installs : Installs stylist after key text) (read : stylist.SheetsRead)
    (visible : Text.trim text.toList ≠ []) : after.SheetsRead where
  parsed isInstalled := by
    rcases installs.installed isInstalled with rfl | before
    · rfl
    · exact read.parsed before
  handedOut isInstalled := by
    rw [installs.nextSheet]
    rcases installs.installed isInstalled with rfl | before
    · exact Nat.lt_succ_self _
    · exact Nat.lt_succ_of_lt (read.handedOut before)
  visible found := by
    rcases installs.onNode found with ⟨-, rfl⟩ | before
    · exact visible
    · exact read.visible before
  apart isApp found := by
    rw [installs.appSheet] at isApp
    rcases installs.onNode found with ⟨-, rfl⟩ | before
    · exact apart read (Or.inl isApp)
    · exact read.apart isApp before
  distinct foundFirst foundSecond same := by
    rcases installs.onNode foundFirst with ⟨isOne, rfl⟩ | before
    · rcases installs.onNode foundSecond with ⟨isOther, -⟩ | beforeToo
      · exact isOne.trans isOther.symm
      · exact absurd same.symm (apart read (Or.inr ⟨_, beforeToo⟩))
    · rcases installs.onNode foundSecond with ⟨-, rfl⟩ | beforeToo
      · exact absurd same (apart read (Or.inr ⟨_, before⟩))
      · exact read.distinct before beforeToo same

/-- Away from the node the same rules match. -/
theorem matchLineage (installs : Installs stylist after key text) {lineage : Lineage}
    (away : ∀ node ∈ lineage.path, node.key ≠ key) :
    after.matchLineage lineage = stylist.matchLineage lineage := by
  apply matchLineage_congr installs.appSheet
  intro node member
  rw [installs.nodeSheets, if_neg (Ne.symm (away node member))]

end Installs

/-- A sheet may come into use for a node without one if nothing is cached for it or below it. -/
theorem Coherent.install (coherent : stylist.Coherent placed) {key : NodeKey} {text : String}
    (bare : stylist.nodeSheets.find? key = none) (visible : Text.trim text.toList ≠ [])
    (unheld : ∀ other lineage, Placed placed other lineage →
      (∃ node ∈ lineage.path, node.key = key) →
        stylist.matchedRules.find? other = none ∧ stylist.nodeRuleSets.find? other = none)
    (installs : Installs stylist after key text) : after.Coherent placed := by
  apply coherent.transfer (installs.sheetsRead coherent.read visible) installs.settings
    installs.nextSerial
  · intro sheet isInstalled
    rcases installs.installed isInstalled with rfl | before
    · exact Or.inr (Nat.le_refl _)
    · exact Or.inl before
  · intro other rules found
    rw [installs.matched] at found
    refine ⟨found, fun lineage isPlaced => ⟨isPlaced, installs.matchLineage ?_⟩⟩
    intro node member isKey
    rw [(unheld other lineage isPlaced ⟨node, member, isKey⟩).1] at found
    cases found
  · intro other set found
    rw [installs.sets] at found
    refine ⟨found, fun lineage isPlaced => ⟨isPlaced, installs.matchLineage ?_⟩⟩
    intro node member isKey
    rw [(unheld other lineage isPlaced ⟨node, member, isKey⟩).2] at found
    cases found
  · intro set styles found
    rw [installs.ruleSets] at found
    exact ⟨found, fun _ _ sheet isInstalled _ => installs.stays bare isInstalled⟩

/-- Putting a sheet on a node is taking off the one before, with the entries of the subtree, and
then bringing the new one into use. -/
theorem setNodeSheet_installs (key : NodeKey) (subtree : List NodeKey) {text : String}
    (visible : Text.trim text.toList ≠ []) :
    Installs ((stylist.unsheet key).invalidateSubtree subtree)
      (stylist.setNodeSheet key subtree text) key text := by
  rw [Stylist.setNodeSheet, if_neg visible]
  obtain ⟨stats, isCleared⟩ := invalidateSubtree_eq subtree (stylist.unsheet key)
  simp only [isCleared, readSheet]
  generalize isInstalled : Stylist.invalidateSubtree _ subtree = result
  obtain ⟨stats, isResult⟩ := invalidateSubtree_eq subtree _
  rw [isInstalled] at isResult
  subst isResult
  cases onNode : stylist.nodeSheets.find? key with
  | none =>
      have same : stylist.unsheet key = stylist := by rw [Stylist.unsheet, onNode]
      rw [same]
      exact ⟨rfl, rfl, rfl, rfl, fun _ => Table.find?_insert .., rfl, rfl, rfl⟩
  | some old =>
      have same : stylist.unsheet key =
          { stylist with nodeSheets := stylist.nodeSheets.erase key }.forgetSheet old.id := by
        rw [Stylist.unsheet, onNode]
      rw [same]
      refine ⟨rfl, rfl, rfl, rfl, fun other => ?_, rfl, rfl, rfl⟩
      simp only [forgetSheet, Table.find?_insert, Table.find?_erase]
      split
      case isTrue => rfl
      case isFalse apart => rw [if_neg (Ne.symm apart)]

/-- A sheet is put on a node: the one before is taken off, with the entries of the subtree. -/
theorem Coherent.setNodeSheet (coherent : stylist.Coherent placed) {key : NodeKey}
    {subtree : List NodeKey} (text : String)
    (covers : ∀ other lineage, Placed placed other lineage →
      (∃ node ∈ lineage.path, node.key = key) → other ∈ subtree) :
    (stylist.setNodeSheet key subtree text).Coherent placed := by
  by_cases visible : Text.trim text.toList = []
  · rw [Stylist.setNodeSheet, if_pos visible]
    exact coherent.clearNodeSheet covers
  · -- The same steps without the new sheet leave caches that know nothing of the node.
    have taken : TakenOut stylist _ subtree [key] := unsheetSubtree_takenOut key subtree
    refine (coherent.unsheet covers).install ?_ visible ?_
      (setNodeSheet_installs key subtree visible)
    · rw [Option.eq_none_iff_forall_ne_some]
      intro sheet onNode
      exact ((taken.nodeSheets key sheet).mp onNode).1 (List.mem_singleton_self key)
    · intro other lineage isPlaced onPath
      have inSubtree := covers other lineage isPlaced onPath
      constructor
      · rw [Option.eq_none_iff_forall_ne_some]
        exact fun rules found => (taken.matched other rules found).1 inSubtree
      · rw [Option.eq_none_iff_forall_ne_some]
        exact fun set found => (taken.sets other set found).1 inSubtree

/-- A sheet that is put on a node leaves the settings and all other sheets. -/
theorem setNodeSheet_others (key : NodeKey) (subtree : List NodeKey) (text : String) :
    (stylist.setNodeSheet key subtree text).settings = stylist.settings ∧
      (stylist.setNodeSheet key subtree text).appSheet = stylist.appSheet ∧
        ∀ other, other ≠ key → (stylist.setNodeSheet key subtree text).nodeSheets.find? other =
          stylist.nodeSheets.find? other := by
  rw [Stylist.setNodeSheet]
  split
  · rw [Stylist.clearNodeSheet]
    split
    · exact ⟨rfl, rfl, fun _ _ => rfl⟩
    · have out := invalidateSubtree_takenOut subtree
      refine ⟨(out _).settings, (out _).appSheet, fun other apart => ?_⟩
      rw [invalidateSubtree_nodeSheets, forgetSheet, Table.find?_erase, if_neg apart]
  · have out := invalidateSubtree_takenOut subtree
    refine ⟨(out _).settings.trans ?_, (out _).appSheet.trans ?_, fun other apart => ?_⟩
    · split <;> rfl
    · split <;> rfl
    · have inserted : ∀ sheet, (stylist.nodeSheets.insert key sheet).find? other =
          stylist.nodeSheets.find? other := by
        intro sheet
        rw [Table.find?_insert, if_neg (Ne.symm apart)]
      rw [invalidateSubtree_nodeSheets]
      split
      · exact inserted _
      · exact inserted _

end Stylist

end StyledWidgets.Style
