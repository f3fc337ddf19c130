/-
Module: StyledWidgets.Proofs.IndexedMatching
Purpose: Matching looks only into the buckets that the names of a node lead to, and finds what a
  search through every selector of every sheet finds: nothing is missed, nothing is found twice,
  and the order is the strict order of the cascade.
Main exports: SelectorIndex.Sorted, matchSheet_perm, Stylist.everyMatch,
  Stylist.Reachable.matchLineage_indexed
-/
import StyledWidgets.Proofs.FreshStyle
import StyledWidgets.Proofs.SheetReading
import StyledWidgets.Proofs.StylistRuns

namespace StyledWidgets.Style

open StyledWidgets.Sheet

/-! ### Buckets -/

namespace SelectorIndex

/-- The selectors whose subject requires no name, a type name only, and an object name. -/
def requiresNothing (entry : Alternative) : Bool :=
  entry.selector.subject.id.isNone && entry.selector.subject.element.isNone

def requiresType (name : String) (entry : Alternative) : Bool :=
  entry.selector.subject.id.isNone && entry.selector.subject.element == some name

def requiresId (name : String) (entry : Alternative) : Bool :=
  entry.selector.subject.id == some name

/-- Every bucket holds the selectors of a list that belong there, in the order of the list. -/
structure Sorted (index : SelectorIndex) (entries : List Alternative) : Prop where
  universal : index.universal = entries.filter requiresNothing
  byType : ∀ name, bucket index.byType name = entries.filter (requiresType name)
  byId : ∀ name, bucket index.byId name = entries.filter (requiresId name)

theorem bucket_push (table : Table String (List Alternative)) (name other : String)
    (entry : Alternative) :
    bucket (push table name entry) other =
      bucket table other ++ (if name = other then [entry] else []) := by
  simp only [bucket, push, Table.find?_insert]
  split
  case isTrue same => rw [same, Option.getD_some]
  case isFalse => rw [List.append_nil]

theorem Sorted.add {index : SelectorIndex} {entries : List Alternative}
    (sorted : index.Sorted entries) (entry : Alternative) :
    (index.add entry).Sorted (entries ++ [entry]) := by
  cases id : entry.selector.subject.id with
  | some name =>
      constructor
      · simp [SelectorIndex.add, id, requiresNothing, sorted.universal]
      · intro other
        simp [SelectorIndex.add, id, requiresType, sorted.byType]
      · intro other
        simp [SelectorIndex.add, id, requiresId, sorted.byId, bucket_push, List.filter_cons]
  | none =>
      cases element : entry.selector.subject.element with
      | some name =>
          constructor
          · simp [SelectorIndex.add, id, element, requiresNothing, sorted.universal]
          · intro other
            simp [SelectorIndex.add, id, element, requiresType, sorted.byType, bucket_push,
              List.filter_cons]
          · intro other
            simp [SelectorIndex.add, id, element, requiresId, sorted.byId]
      | none =>
          constructor
          · simp [SelectorIndex.add, id, element, requiresNothing, sorted.universal]
          · intro other
            simp [SelectorIndex.add, id, element, requiresType, sorted.byType]
          · intro other
            simp [SelectorIndex.add, id, element, requiresId, sorted.byId]

theorem sorted_ofRules (rules : List StyleRule) :
    (ofRules rules).Sorted (rules.flatMap alternativesOf) := by
  have run : ∀ (later : List Alternative) {index : SelectorIndex} {entries : List Alternative},
      index.Sorted entries → (later.foldl SelectorIndex.add index).Sorted (entries ++ later) := by
    intro later
    induction later with
    | nil =>
        intro index entries sorted
        rw [List.append_nil]
        exact sorted
    | cons entry later inductionHypothesis =>
        intro index entries sorted
        rw [List.append_cons]
        exact inductionHypothesis (sorted.add entry)
  have start : Sorted {} [] := ⟨rfl, fun _ => rfl, fun _ => rfl⟩
  exact run _ start

end SelectorIndex

/-! ### One sheet -/

/-- A matched rule of a sheet at a level. -/
def matchedAt (sheet : StyleSheet) (level : Nat) (entry : Alternative) : MatchedRule where
  rule := entry.rule
  selector := entry.selector
  ref := ⟨sheet.id, entry.rule.order, entry.index⟩
  weight := ⟨level, entry.selector.specificity, entry.rule.order⟩

/-- The selectors of one sheet that match a node, found by trying every selector of every rule. -/
def everyMatchIn (lineage : Lineage) (level : Nat) (sheet : StyleSheet) : List MatchedRule :=
  ((sheet.rules.flatMap alternativesOf).filter fun entry =>
    matchesLineage entry.selector lineage).map (matchedAt sheet level)

private theorem count_filter_ite {α : Type} [BEq α] [LawfulBEq α] (p : α → Bool) (a : α)
    (l : List α) : (l.filter p).count a = if p a then l.count a else 0 := by
  split
  case isTrue kept => exact List.count_filter kept
  case isFalse dropped =>
    apply List.count_eq_zero_of_not_mem
    intro member
    exact dropped (List.mem_filter.mp member).2

/-- The bucket of the empty object name is never looked into, but no selector is in it. -/
theorem count_byId {entries : List Alternative} {index : SelectorIndex}
    (sorted : index.Sorted entries) (named : ∀ entry ∈ entries, entry.selector.Named)
    (name : String) (entry : Alternative) :
    (if name = "" then [] else SelectorIndex.bucket index.byId name).count entry =
      if SelectorIndex.requiresId name entry then entries.count entry else 0 := by
  split
  case isTrue empty =>
    rw [List.count_nil]
    split
    case isTrue required =>
      apply Eq.symm
      apply List.count_eq_zero_of_not_mem
      intro member
      apply (named entry member).1.2
      rw [← empty]
      exact beq_iff_eq.mp required
    case isFalse => rfl
  case isFalse => rw [sorted.byId, count_filter_ite]

/-- A selector that matches a node is in exactly one of the buckets that the names of the node lead
to. -/
theorem candidates_perm {entries : List Alternative} {index : SelectorIndex}
    (sorted : index.Sorted entries) (named : ∀ entry ∈ entries, entry.selector.Named)
    (lineage : Lineage) :
    ((index.candidates lineage.node.objectName lineage.node.typeName).filter fun entry =>
        matchesLineage entry.selector lineage).Perm
      (entries.filter fun entry => matchesLineage entry.selector lineage) := by
  apply List.perm_iff_count.mpr
  intro entry
  rw [count_filter_ite, count_filter_ite]
  split
  case isFalse => rfl
  case isTrue isMatch =>
    rw [SelectorIndex.candidates, List.count_append, List.count_append, sorted.universal,
      sorted.byType, count_filter_ite, count_filter_ite, count_byId sorted named]
    rw [matchesLineage, Bool.and_eq_true, matchesNode, Bool.and_eq_true] at isMatch
    obtain ⟨⟨idMatches, elementMatches⟩, -⟩ := isMatch
    cases id : entry.selector.subject.id with
    | some name =>
        rw [id] at idMatches
        simp [SelectorIndex.requiresNothing, SelectorIndex.requiresType, SelectorIndex.requiresId,
          id, beq_iff_eq.mp idMatches]
    | none =>
        cases element : entry.selector.subject.element with
        | some name =>
            rw [element] at elementMatches
            simp [SelectorIndex.requiresNothing, SelectorIndex.requiresType,
              SelectorIndex.requiresId, id, element, beq_iff_eq.mp elementMatches]
        | none =>
            simp [SelectorIndex.requiresNothing, SelectorIndex.requiresType,
              SelectorIndex.requiresId, id, element]

/-- The index of a sheet loses nothing and repeats nothing. -/
theorem matchSheet_perm {sheet : StyleSheet}
    (parsed : sheet = StyleSheet.parse sheet.id sheet.source) (lineage : Lineage) (level : Nat) :
    (Stylist.matchSheet lineage level sheet).Perm (everyMatchIn lineage level sheet) := by
  obtain ⟨isRead, isIndexed⟩ := rules_of_parsed parsed
  apply List.Perm.map
  rw [StyleSheet.candidates, isIndexed]
  apply candidates_perm (SelectorIndex.sorted_ofRules sheet.rules)
  intro entry member
  obtain ⟨rule, ruleMember, alternative⟩ := List.mem_flatMap.mp member
  rw [alternativesOf, List.mem_map] at alternative
  obtain ⟨⟨selector, index⟩, place, rfl⟩ := alternative
  rw [isRead] at ruleMember
  exact named_of_mem_parseSheet ruleMember
    (List.mem_of_getElem? (List.mem_zipIdx_iff_getElem?.mp place))

theorem MatchedRule.le_iff {a b : MatchedRule} : a.le b = true ↔ ¬b.rank < a.rank := by
  rw [MatchedRule.le, Bool.not_eq_true', decide_eq_false_iff_not]

namespace Stylist

variable {stylist : Stylist} {lineage : Lineage}

/-! ### All sheets -/

/-- The sheets that apply to a node from the outside to the inside: that of the application, then
those of its ancestors from the root on, and last its own. -/
def sheetsInward (stylist : Stylist) (lineage : Lineage) : List StyleSheet :=
  stylist.appSheet.toList ++
    lineage.path.reverse.filterMap fun node => stylist.nodeSheets.find? node.key

/-- Every selector of every rule of every sheet that applies to a node and that matches it. The
outermost sheet has level zero. -/
def everyMatch (stylist : Stylist) (lineage : Lineage) : List MatchedRule :=
  (stylist.sheetsInward lineage).zipIdx.flatMap fun (sheet, level) =>
    everyMatchIn lineage level sheet

theorem sheetsInward_eq : stylist.sheetsInward lineage = (stylist.sheetsFor lineage).reverse := by
  rw [sheetsInward, sheetsFor, List.reverse_append, List.filterMap_reverse]
  cases stylist.appSheet with
  | none => rfl
  | some sheet => rfl

theorem matchSheets_perm (lineage : Lineage) {sheets : List StyleSheet}
    (parsed : ∀ sheet ∈ sheets, sheet = StyleSheet.parse sheet.id sheet.source) :
    (matchSheets lineage sheets).Perm
      (sheets.reverse.zipIdx.flatMap fun (sheet, level) => everyMatchIn lineage level sheet) := by
  induction sheets with
  | nil => exact List.Perm.refl _
  | cons sheet outer inductionHypothesis =>
      have here := matchSheet_perm (parsed sheet (List.mem_cons_self ..)) lineage outer.length
      have further := inductionHypothesis fun other member =>
        parsed other (List.mem_cons_of_mem _ member)
      rw [matchSheets, List.reverse_cons, List.zipIdx_append, List.flatMap_append,
        List.length_reverse, Nat.zero_add]
      apply (here.append further).trans
      simpa using List.perm_append_comm

theorem SheetsRead.matchLineage_perm (read : stylist.SheetsRead) (lineage : Lineage) :
    (stylist.matchLineage lineage).Perm (stylist.everyMatch lineage) := by
  rw [everyMatch, sheetsInward_eq]
  apply (List.mergeSort_perm ..).trans
  apply matchSheets_perm
  intro sheet member
  exact read.parsed (mem_sheetsFor member)

/-! ### Places of matched rules -/

/-- Where a matched rule comes from: the level of its sheet, the place of the rule in the sheet and
that of the selector in the rule. -/
def place (matched : MatchedRule) : Nat × Nat × Nat :=
  (matched.weight.level, matched.weight.order, matched.ref.selector)

private theorem zipIdx_pairwise {α : Type} (l : List α) :
    l.zipIdx.Pairwise fun a b => a.2 ≠ b.2 := by
  apply List.pairwise_map.mp
  rw [List.zipIdx_map_snd]
  exact List.nodup_range'

private theorem alternativesOf_pairwise {rules : List StyleRule}
    (sorted : rules.Pairwise fun a b => a.order < b.order) :
    (rules.flatMap alternativesOf).Pairwise fun a b =>
      (a.rule.order, a.index) ≠ (b.rule.order, b.index) := by
  apply List.pairwise_flatMap.mpr
  constructor
  · intro rule _
    rw [alternativesOf, List.pairwise_map]
    apply (zipIdx_pairwise rule.selectors).imp
    intro a b apart same
    exact apart (Prod.mk.inj same).2
  · apply sorted.imp
    intro a b before first isFirst second isSecond same
    rw [alternativesOf, List.mem_map] at isFirst isSecond
    obtain ⟨_, _, rfl⟩ := isFirst
    obtain ⟨_, _, rfl⟩ := isSecond
    exact Nat.ne_of_lt before (Prod.mk.inj same).1

/-- No two matched rules come from the same place. -/
theorem SheetsRead.places_nodup (read : stylist.SheetsRead) (lineage : Lineage) :
    ((stylist.matchLineage lineage).map place).Nodup := by
  apply ((read.matchLineage_perm lineage).map place).nodup_iff.mpr
  rw [everyMatch, List.map_flatMap]
  apply List.pairwise_flatMap.mpr
  constructor
  · rintro ⟨sheet, level⟩ member
    have used : sheet ∈ stylist.sheetsInward lineage :=
      List.mem_of_getElem? (List.mem_zipIdx_iff_getElem?.mp member)
    rw [sheetsInward_eq, List.mem_reverse] at used
    have isRead := (rules_of_parsed (read.parsed (mem_sheetsFor used))).1
    simp only [everyMatchIn, List.map_map]
    apply List.pairwise_map.mpr
    apply List.Pairwise.filter
    apply (alternativesOf_pairwise (isRead ▸ parseSheet_sorted sheet.source)).imp
    intro a b apart same
    exact apart (Prod.mk.inj same).2
  · apply (zipIdx_pairwise _).imp
    rintro ⟨sheet, level⟩ ⟨other, levelToo⟩ apart first isFirst second isSecond same
    simp only [everyMatchIn, List.map_map, List.mem_map] at isFirst isSecond
    obtain ⟨_, _, rfl⟩ := isFirst
    obtain ⟨_, _, rfl⟩ := isSecond
    exact apart (Prod.mk.inj same).1

/-- The order of matched rules is strict. -/
theorem SheetsRead.matchLineage_sorted (read : stylist.SheetsRead) (lineage : Lineage) :
    (stylist.matchLineage lineage).Pairwise fun a b => a.rank < b.rank := by
  have ascending :
      (stylist.matchLineage lineage).Pairwise fun a b => MatchedRule.le a b = true := by
    apply List.pairwise_mergeSort
    · intro a b c first second
      rw [MatchedRule.le_iff, List.not_lt] at first second ⊢
      exact List.le_trans first second
    · intro a b
      rw [Bool.or_eq_true, MatchedRule.le_iff, MatchedRule.le_iff, List.not_lt, List.not_lt]
      exact List.le_total a.rank b.rank
  apply (ascending.and (List.pairwise_map.mp (read.places_nodup lineage))).imp
  rintro a b ⟨before, apart⟩
  apply List.not_le.mp
  intro after
  apply apart
  have same : a.rank = b.rank :=
    List.le_antisymm (List.not_lt.mp (MatchedRule.le_iff.mp before)) after
  simp only [MatchedRule.rank, CascadeWeight.rank, List.cons_append, List.nil_append,
    List.cons.injEq] at same
  rw [place, place, same.1, same.2.2.1, same.2.2.2.1]

/-- If the sheets of a node are different ones, no two matched rules have the same reference. -/
theorem SheetsRead.refs_nodup (read : stylist.SheetsRead)
    (path : (lineage.path.map StyleNode.key).Nodup) :
    ((stylist.matchLineage lineage).map MatchedRule.ref).Nodup := by
  have ordered : ∀ matched ∈ stylist.matchLineage lineage,
      matched.weight.order = matched.ref.rule := by
    intro matched member
    have found := (read.matchLineage_perm lineage).subset member
    simp only [everyMatch, everyMatchIn, List.mem_flatMap, List.mem_map] at found
    obtain ⟨_, _, _, _, rfl⟩ := found
    rfl
  apply List.pairwise_map.mpr
  apply (List.pairwise_map.mp (read.places_nodup lineage)).imp_of_mem
  intro a b first second apart same
  apply apart
  have levels := byLevel_sameRule (read.sheetsFor_nodup path)
    ((List.mergeSort_perm ..).subset first) ((List.mergeSort_perm ..).subset second)
  rw [RuleRef.sameRule_iff.mpr ⟨congrArg RuleRef.sheet same, congrArg RuleRef.rule same⟩] at levels
  have sameLevel := SheetId.mk.inj (RuleRef.sameRule_iff.mp levels).1
  rw [place, place, ordered a first, ordered b second, same, sameLevel]

/-- In every state that calls lead to, and for every node in its place, matching gives exactly the
selectors that a search through all sheets finds, in the strict order of level, specificity, place
of the rule and place of the selector. While no node stands twice on the path, no selector is
there twice. -/
theorem Reachable.matchLineage_indexed (reachable : stylist.Reachable) (lineage : Lineage) :
    (stylist.matchLineage lineage).Perm (stylist.everyMatch lineage) ∧
      (stylist.matchLineage lineage).Pairwise (fun a b => a.rank < b.rank) ∧
        ((lineage.path.map StyleNode.key).Nodup →
          ((stylist.matchLineage lineage).map MatchedRule.ref).Nodup) := by
  have read := reachable.sound.read
  exact ⟨read.matchLineage_perm lineage, read.matchLineage_sorted lineage, read.refs_nodup⟩

/-- A sheet of the application that requires names, and one of a dialog that requires nothing. -/
def dialogSheets : Stylist :=
  Call.apply (Call.apply (new {}) (.setAppSheet "#ok, Button { width: 6px; }"))
    (.setNodeSheet (.widget 0) [.widget 0, .widget 1] "* { width: 5px; }")

/-- A button without an object name in the dialog. -/
def dialogButton : Lineage where
  node := ⟨.widget 1, "Button", "", false⟩
  ancestors := [⟨.widget 0, "Dialog", "main", false⟩]

theorem matchLineage_indexed_dialogButton :
    dialogSheets.Reachable ∧ (dialogButton.path.map StyleNode.key).Nodup ∧
      (dialogSheets.everyMatch dialogButton).map MatchedRule.rank =
        [[0, 1, 0, 1], [1, 0, 0, 0]] ∧
      (dialogSheets.matchLineage dialogButton).Perm (dialogSheets.everyMatch dialogButton) ∧
        (dialogSheets.matchLineage dialogButton).Pairwise (fun a b => a.rank < b.rank) ∧
          ((dialogSheets.matchLineage dialogButton).map MatchedRule.ref).Nodup := by
  have reachable : dialogSheets.Reachable := by
    unfold dialogSheets
    exact .call _ (.call _ (.new {}))
  have path : (dialogButton.path.map StyleNode.key).Nodup := by decide
  have ranks : (dialogSheets.everyMatch dialogButton).map MatchedRule.rank =
      [[0, 1, 0, 1], [1, 0, 0, 0]] := by decide +kernel
  obtain ⟨complete, sorted, once⟩ := reachable.matchLineage_indexed dialogButton
  exact ⟨reachable, path, ranks, complete, sorted, once path⟩

end Stylist

end StyledWidgets.Style
