/-
Module: StyledWidgets.Proofs.StyleCache
Purpose: The caches of a stylist hold nothing that a computation without caches would not give.
  Coherence is the invariant, and a lookup keeps it.
Main exports: DrawnFrom.unweighed_eq, Stylist.SheetsRead, Stylist.Coherent, Stylist.Remembers,
  Stylist.Coherent.resolve
-/
import StyledWidgets.Proofs.StyleMatching

namespace StyledWidgets.Style

open StyledWidgets.Sheet

/-! ### Rules without their weights -/

/-- A matched rule without its weight. -/
def unweighed (matched : MatchedRule) : MatchedRule := { matched with weight := ⟨0, 0, 0⟩ }

/-- The rules and selectors of matched rules are those that their references name in known
sheets. -/
def DrawnFrom (known : StyleSheet → Prop) (rules : List MatchedRule) : Prop :=
  ∀ matched ∈ rules, ∃ sheet, known sheet ∧ matched.ref.sheet = sheet.id ∧
    sheet.rules[matched.ref.rule]? = some matched.rule ∧
      matched.rule.selectors[matched.ref.selector]? = some matched.selector

section DrawnFrom

variable {known knownToo : StyleSheet → Prop}

theorem DrawnFrom.mono {rules : List MatchedRule} (drawn : DrawnFrom known rules)
    (wider : ∀ sheet, known sheet → knownToo sheet) : DrawnFrom knownToo rules := by
  intro matched member
  obtain ⟨sheet, isKnown, facts⟩ := drawn matched member
  exact ⟨sheet, wider sheet isKnown, facts⟩

/-- Rules whose references do not name a new sheet are not drawn from it. -/
theorem DrawnFrom.without_new {sheet : StyleSheet} {rules : List MatchedRule}
    (drawn : DrawnFrom (fun other => known other ∨ other = sheet) rules)
    (apart : ∀ ref ∈ (RuleSetKey.ofMatched rules).refs, ref.sheet ≠ sheet.id) :
    DrawnFrom known rules := by
  intro matched member
  obtain ⟨other, isKnown | rfl, isSheet, facts⟩ := drawn matched member
  · exact ⟨other, isKnown, isSheet, facts⟩
  · exact absurd isSheet (apart matched.ref (List.mem_map_of_mem member))

/-- Matched rules with one reference have the same rule and the same selector. -/
theorem DrawnFrom.eq_of_ref
    (unique : ∀ {one other}, known one → known other → one.id = other.id → one = other)
    {one other : List MatchedRule} (first : DrawnFrom known one) (second : DrawnFrom known other)
    {matched matchedToo : MatchedRule} (member : matched ∈ one) (memberToo : matchedToo ∈ other)
    (same : matched.ref = matchedToo.ref) :
    matched.rule = matchedToo.rule ∧ matched.selector = matchedToo.selector := by
  obtain ⟨sheet, isKnown, isSheet, rule, selector⟩ := first matched member
  obtain ⟨sheetToo, isKnownToo, isSheetToo, ruleToo, selectorToo⟩ := second matchedToo memberToo
  rw [same] at isSheet rule selector
  rw [unique isKnown isKnownToo (isSheet.symm.trans isSheetToo), ruleToo, Option.some_inj] at rule
  rw [← rule, selectorToo, Option.some_inj] at selector
  exact ⟨rule.symm, selector.symm⟩

/-- The weights are all that matched rules with the same references may differ in. -/
theorem DrawnFrom.unweighed_eq
    (unique : ∀ {one other}, known one → known other → one.id = other.id → one = other) :
    ∀ {one other : List MatchedRule}, DrawnFrom known one → DrawnFrom known other →
      RuleSetKey.ofMatched one = RuleSetKey.ofMatched other →
        one.map unweighed = other.map unweighed := by
  intro one
  induction one with
  | nil =>
      intro other _ _ same
      have refs := RuleSetKey.mk.inj same
      rw [List.map_nil, List.nil_eq, List.map_eq_nil_iff] at refs
      rw [refs]
  | cons matched later inductionHypothesis =>
      intro other first second same
      have refs := RuleSetKey.mk.inj same
      cases other with
      | nil => cases refs
      | cons matchedToo laterToo =>
          rw [List.map_cons, List.map_cons, List.cons.injEq] at refs
          rw [List.map_cons, List.map_cons, List.cons.injEq]
          refine ⟨?_, inductionHypothesis
            (fun rule member => first rule (List.mem_cons_of_mem _ member))
            (fun rule member => second rule (List.mem_cons_of_mem _ member))
            (congrArg RuleSetKey.mk refs.2)⟩
          obtain ⟨rule, selector⟩ := first.eq_of_ref unique second (List.mem_cons_self ..)
            (List.mem_cons_self ..) refs.1
          rw [unweighed, unweighed, MatchedRule.mk.injEq]
          exact ⟨rule, selector, refs.1, rfl⟩

/-- Matched rules with the same references lead to the same appearance. -/
theorem DrawnFrom.appearanceOf_congr
    (unique : ∀ {one other}, known one → known other → one.id = other.id → one = other)
    {one other : List MatchedRule} (first : DrawnFrom known one) (second : DrawnFrom known other)
    (same : RuleSetKey.ofMatched one = RuleSetKey.ofMatched other) (settings : StyleSettings)
    (mask : PseudoMask) : appearanceOf settings one mask = appearanceOf settings other mask := by
  have forget := fun rules => appearanceOf_map unweighed rules
    (fun _ => rfl) (fun _ => rfl) (fun _ _ _ _ => rfl) settings mask
  rw [← forget one, ← forget other, DrawnFrom.unweighed_eq unique first second same]

end DrawnFrom

namespace Stylist

variable {stylist : Stylist} {placed : NodeKey → Option Lineage}

/-! ### Sheets in use -/

/-- A sheet is in use for the application or for a node. -/
def Installed (stylist : Stylist) (sheet : StyleSheet) : Prop :=
  stylist.appSheet = some sheet ∨ ∃ key, stylist.nodeSheets.find? key = some sheet

/-- Every sheet in use has been read from its text under an identity of its own. -/
structure SheetsRead (stylist : Stylist) : Prop where
  parsed : ∀ {sheet : StyleSheet}, stylist.Installed sheet →
    sheet = StyleSheet.parse sheet.id sheet.source
  handedOut : ∀ {sheet : StyleSheet}, stylist.Installed sheet →
    sheet.id.raw < stylist.nextSheet
  visible : ∀ {key : NodeKey} {sheet : StyleSheet}, stylist.nodeSheets.find? key = some sheet →
    Text.trim sheet.source.toList ≠ []
  apart : ∀ {key : NodeKey} {app sheet : StyleSheet}, stylist.appSheet = some app →
    stylist.nodeSheets.find? key = some sheet → app.id ≠ sheet.id
  distinct : ∀ {one other : NodeKey} {first second : StyleSheet},
    stylist.nodeSheets.find? one = some first → stylist.nodeSheets.find? other = some second →
      first.id = second.id → one = other

theorem SheetsRead.unique (read : stylist.SheetsRead) {one other : StyleSheet}
    (first : stylist.Installed one) (second : stylist.Installed other) (same : one.id = other.id) :
    one = other := by
  rcases first with app | ⟨key, found⟩
  · rcases second with appToo | ⟨key, found⟩
    · exact Option.some_inj.mp (app.symm.trans appToo)
    · exact absurd same (read.apart app found)
  · rcases second with app | ⟨place, foundToo⟩
    · exact absurd same.symm (read.apart app found)
    · rw [read.distinct found foundToo same] at found
      exact Option.some_inj.mp (found.symm.trans foundToo)

/-- The rules and selectors of matched rules are those that their references name in the sheets in
use. -/
def FromInstalled (stylist : Stylist) (rules : List MatchedRule) : Prop :=
  ∀ matched ∈ rules, ∃ sheet, stylist.Installed sheet ∧ matched.ref.sheet = sheet.id ∧
    sheet.rules[matched.ref.rule]? = some matched.rule ∧
      matched.rule.selectors[matched.ref.selector]? = some matched.selector

theorem mem_sheetsFor {lineage : Lineage} {sheet : StyleSheet}
    (member : sheet ∈ stylist.sheetsFor lineage) : stylist.Installed sheet := by
  rw [sheetsFor, List.mem_append, List.mem_filterMap, Option.mem_toList] at member
  rcases member with ⟨node, -, found⟩ | app
  · exact Or.inr ⟨node.key, found⟩
  · exact Or.inl app

private theorem mem_matchSheets {lineage : Lineage} {matched : MatchedRule}
    {sheets : List StyleSheet} (member : matched ∈ matchSheets lineage sheets) :
    ∃ sheet ∈ sheets, ∃ level, matched ∈ matchSheet lineage level sheet := by
  induction sheets with
  | nil => simp [matchSheets] at member
  | cons sheet outer inductionHypothesis =>
      rw [matchSheets, List.mem_append] at member
      rcases member with here | further
      · exact ⟨sheet, List.mem_cons_self .., _, here⟩
      · obtain ⟨other, isOuter, level, found⟩ := inductionHypothesis further
        exact ⟨other, List.mem_cons_of_mem _ isOuter, level, found⟩

/-- A matched rule stands in one of the sheets that apply to the node, under its reference. -/
theorem SheetsRead.mem_matchLineage (read : stylist.SheetsRead) {lineage : Lineage}
    {matched : MatchedRule} (member : matched ∈ stylist.matchLineage lineage) :
    ∃ sheet ∈ stylist.sheetsFor lineage, matched.ref.sheet = sheet.id ∧
      sheet.rules[matched.ref.rule]? = some matched.rule ∧
        matched.rule.selectors[matched.ref.selector]? = some matched.selector := by
  rw [matchLineage, List.mem_mergeSort] at member
  obtain ⟨sheet, sheetMember, level, found⟩ := mem_matchSheets member
  rw [matchSheet, List.mem_map] at found
  obtain ⟨entry, entryMember, rfl⟩ := found
  have isParsed := read.parsed (mem_sheetsFor sheetMember)
  have candidate := (List.mem_filter.mp entryMember).1
  rw [isParsed] at candidate
  obtain ⟨rule, selector⟩ := StyleSheet.mem_candidates candidate
  refine ⟨sheet, sheetMember, rfl, ?_, selector⟩
  rw [isParsed]
  exact rule

theorem SheetsRead.fromInstalled (read : stylist.SheetsRead) (lineage : Lineage) :
    stylist.FromInstalled (stylist.matchLineage lineage) := by
  intro matched member
  obtain ⟨sheet, sheetMember, found⟩ := read.mem_matchLineage member
  exact ⟨sheet, mem_sheetsFor sheetMember, found⟩

/-- Matched rules with the same references lead to the same appearance. -/
theorem SheetsRead.appearanceOf_congr (read : stylist.SheetsRead)
    {one other : List MatchedRule} (first : stylist.FromInstalled one)
    (second : stylist.FromInstalled other)
    (same : RuleSetKey.ofMatched one = RuleSetKey.ofMatched other) (settings : StyleSettings)
    (mask : PseudoMask) : appearanceOf settings one mask = appearanceOf settings other mask :=
  DrawnFrom.appearanceOf_congr (fun first second => read.unique first second) first second same
    settings mask

/-! ### Coherent caches -/

/-- The style that is held for a set of matched rules in a pseudo state. -/
def held? (stylist : Stylist) (set : RuleSetKey) (mask : PseudoMask) : Option ResolvedStyle :=
  (stylist.ruleSets.find? set).bind fun styles => styles.find? mask

/-- A lineage as it is now, for which styles are looked up in the caches. -/
def Placed (placed : NodeKey → Option Lineage) (key : NodeKey) (lineage : Lineage) : Prop :=
  placed key = some lineage ∧ lineage.node.ignoresSheets = false

/-- The caches agree with the sheets in use and with the places of the nodes. -/
structure Coherent (stylist : Stylist) (placed : NodeKey → Option Lineage) : Prop where
  read : stylist.SheetsRead
  matched : ∀ {key : NodeKey} {rules : List MatchedRule},
    stylist.matchedRules.find? key = some rules →
      ∃ lineage, Placed placed key lineage ∧ rules = stylist.matchLineage lineage
  sets : ∀ {key : NodeKey} {set : RuleSetKey}, stylist.nodeRuleSets.find? key = some set →
    ∃ lineage, Placed placed key lineage ∧
      set = RuleSetKey.ofMatched (stylist.matchLineage lineage)
  /-- No set of matched rules mentions a sheet that is no longer in use. -/
  current : ∀ {set : RuleSetKey}, stylist.ruleSets.contains set = true → ∀ ref ∈ set.refs,
    ∃ sheet, stylist.Installed sheet ∧ ref.sheet = sheet.id
  styles : ∀ {set : RuleSetKey} {mask : PseudoMask} {style : ResolvedStyle},
    stylist.held? set mask = some style → ∀ rules, stylist.FromInstalled rules →
      RuleSetKey.ofMatched rules = set →
        style.appearance? = appearanceOf stylist.settings rules mask
  serials : ∀ {set : RuleSetKey} {mask : PseudoMask} {made : StyleInstance},
    stylist.held? set mask = some (some made) → made.serial < stylist.nextSerial
  /-- An instance is known by its serial number. -/
  instances : ∀ {set other : RuleSetKey} {mask otherMask : PseudoMask}
    {made madeToo : StyleInstance}, stylist.held? set mask = some (some made) →
      stylist.held? other otherMask = some (some madeToo) → made.serial = madeToo.serial →
        made.appearance = madeToo.appearance

theorem coherent_new (settings : StyleSettings) (placed : NodeKey → Option Lineage) :
    (new settings).Coherent placed where
  read :=
    { parsed := by rintro sheet (found | ⟨key, found⟩) <;> cases found
      handedOut := by rintro sheet (found | ⟨key, found⟩) <;> cases found
      visible := fun found => by cases found
      apart := fun found => by cases found
      distinct := fun found => by cases found }
  matched found := by cases found
  sets found := by cases found
  current found := by cases found
  styles found := by cases found
  serials found := by cases found
  instances found := by cases found

/-- What a lookup may change: it answers from the caches and fills them. -/
structure SameSheets (before after : Stylist) : Prop where
  settings : after.settings = before.settings
  nextSheet : after.nextSheet = before.nextSheet
  appSheet : after.appSheet = before.appSheet
  nodeSheets : after.nodeSheets = before.nodeSheets

theorem SameSheets.trans {after last : Stylist} (first : SameSheets stylist after)
    (second : SameSheets after last) : SameSheets stylist last where
  settings := second.settings.trans first.settings
  nextSheet := second.nextSheet.trans first.nextSheet
  appSheet := second.appSheet.trans first.appSheet
  nodeSheets := second.nodeSheets.trans first.nodeSheets

theorem SameSheets.installed {after : Stylist} (same : SameSheets stylist after) :
    after.Installed = stylist.Installed := by
  funext sheet
  rw [Installed, Installed, same.appSheet, same.nodeSheets]

theorem SameSheets.matchLineage {after : Stylist} (same : SameSheets stylist after) :
    after.matchLineage = stylist.matchLineage := by
  funext lineage
  rw [Stylist.matchLineage, Stylist.matchLineage, sheetsFor, sheetsFor, same.appSheet,
    same.nodeSheets]

theorem SameSheets.read {after : Stylist} (same : SameSheets stylist after)
    (read : stylist.SheetsRead) : after.SheetsRead where
  parsed := by
    rw [same.installed]
    exact read.parsed
  handedOut := by
    rw [same.installed, same.nextSheet]
    exact read.handedOut
  visible := by
    rw [same.nodeSheets]
    exact read.visible
  apart := by
    rw [same.nodeSheets, same.appSheet]
    exact read.apart
  distinct := by
    rw [same.nodeSheets]
    exact read.distinct

/-- A style may be held for a set of matched rules in a pseudo state: it has the right appearance,
and its instance was held before or is a new one. -/
structure MayHold (stylist : Stylist) (fresh : Option StyleInstance) (set : RuleSetKey)
    (mask : PseudoMask) (style : ResolvedStyle) : Prop where
  right : ∀ rules, stylist.FromInstalled rules → RuleSetKey.ofMatched rules = set →
    style.appearance? = appearanceOf stylist.settings rules mask
  origin : ∀ made, style = some made →
    (∃ other otherMask, stylist.held? other otherMask = some (some made)) ∨ fresh = some made

theorem Coherent.mayHold (coherent : stylist.Coherent placed) (fresh : Option StyleInstance)
    {set : RuleSetKey} {mask : PseudoMask} {style : ResolvedStyle}
    (held : stylist.held? set mask = some style) : stylist.MayHold fresh set mask style where
  right := coherent.styles held
  origin _ same := Or.inl ⟨set, mask, same ▸ held⟩

/-- Instances that may be held are known by their serial numbers, a new one among them. -/
theorem Coherent.appearance_of_mayHold (coherent : stylist.Coherent placed)
    {fresh : Option StyleInstance}
    (isFresh : ∀ made, fresh = some made → stylist.nextSerial ≤ made.serial)
    {set other : RuleSetKey} {mask otherMask : PseudoMask} {made madeToo : StyleInstance}
    (first : stylist.MayHold fresh set mask (some made))
    (second : stylist.MayHold fresh other otherMask (some madeToo))
    (sameSerial : made.serial = madeToo.serial) : made.appearance = madeToo.appearance := by
  rcases first.origin made rfl with ⟨place, placeMask, held⟩ | isNew
  · rcases second.origin madeToo rfl with ⟨placeToo, placeMaskToo, heldToo⟩ | isNewToo
    · exact coherent.instances held heldToo sameSerial
    · have small := coherent.serials held
      have large := isFresh madeToo isNewToo
      omega
  · rcases second.origin madeToo rfl with ⟨placeToo, placeMaskToo, heldToo⟩ | isNewToo
    · have small := coherent.serials heldToo
      have large := isFresh made isNew
      omega
    · rw [isNew, Option.some_inj] at isNewToo
      rw [isNewToo]

/-- Caches stay coherent if only right entries are added to them. -/
theorem Coherent.extend {after : Stylist} (coherent : stylist.Coherent placed)
    (same : SameSheets stylist after) (fresh : Option StyleInstance)
    (matched : ∀ key rules, after.matchedRules.find? key = some rules →
      stylist.matchedRules.find? key = some rules ∨
        ∃ lineage, Placed placed key lineage ∧ rules = stylist.matchLineage lineage)
    (sets : ∀ key set, after.nodeRuleSets.find? key = some set →
      stylist.nodeRuleSets.find? key = some set ∨
        ∃ lineage, Placed placed key lineage ∧
          set = RuleSetKey.ofMatched (stylist.matchLineage lineage))
    (current : ∀ set, after.ruleSets.contains set = true →
      stylist.ruleSets.contains set = true ∨
        ∃ rules, stylist.FromInstalled rules ∧ RuleSetKey.ofMatched rules = set)
    (styles : ∀ set mask style, after.held? set mask = some style →
      stylist.MayHold fresh set mask style)
    (grows : stylist.nextSerial ≤ after.nextSerial)
    (isFresh : ∀ made, fresh = some made →
      stylist.nextSerial ≤ made.serial ∧ made.serial < after.nextSerial) :
    after.Coherent placed where
  read := same.read coherent.read
  matched := by
    intro key rules found
    rw [same.matchLineage]
    exact (matched key rules found).elim coherent.matched id
  sets := by
    intro key set found
    rw [same.matchLineage]
    exact (sets key set found).elim coherent.sets id
  current := by
    intro set found ref member
    rw [same.installed]
    rcases current set found with before | ⟨rules, installed, rfl⟩
    · exact coherent.current before ref member
    · obtain ⟨rule, ruleMember, rfl⟩ := List.mem_map.mp member
      obtain ⟨sheet, isInstalled, isSheet, -⟩ := installed rule ruleMember
      exact ⟨sheet, isInstalled, isSheet⟩
  styles := by
    intro set mask style held rules installed isSet
    rw [same.settings]
    apply (styles set mask style held).right rules _ isSet
    rwa [FromInstalled, ← same.installed]
  serials := by
    intro set mask made held
    rcases (styles set mask _ held).origin made rfl with ⟨other, otherMask, before⟩ | isNew
    · exact Nat.lt_of_lt_of_le (coherent.serials before) grows
    · exact (isFresh made isNew).2
  instances := by
    intro set other mask otherMask made madeToo held heldToo
    exact coherent.appearance_of_mayHold (fun made isNew => (isFresh made isNew).1)
      (styles set mask _ held) (styles other otherMask _ heldToo)

/-! ### Lookups -/

/-- What a lookup does: it gives the appearance that the sheets and the place of the node lead to,
and keeps the caches coherent. -/
structure Looks (stylist : Stylist) (placed : NodeKey → Option Lineage)
    (appearance : Option Appearance) (outcome : ResolvedStyle × Stylist) : Prop where
  appearance : outcome.1.appearance? = appearance
  same : SameSheets stylist outcome.2
  coherent : outcome.2.Coherent placed
  /-- An instance that is found is held from now on. -/
  held : ∀ made, outcome.1 = some made → ∃ set mask, outcome.2.held? set mask = some (some made)
  /-- It was held before, or it has a new serial number. -/
  origin : ∀ made, outcome.1 = some made →
    (∃ set mask, stylist.held? set mask = some (some made)) ∨ stylist.nextSerial ≤ made.serial

theorem Coherent.matchedFor (coherent : stylist.Coherent placed) {lineage : Lineage}
    (isPlaced : Placed placed lineage.key lineage) :
    (stylist.matchedFor lineage).1 = stylist.matchLineage lineage ∧
      SameSheets stylist (stylist.matchedFor lineage).2 ∧
        (stylist.matchedFor lineage).2.Coherent placed := by
  rw [Stylist.matchedFor]
  cases found : stylist.matchedRules.find? lineage.key with
  | some rules =>
      obtain ⟨other, otherPlaced, isMatched⟩ := coherent.matched found
      have same := Option.some_inj.mp (otherPlaced.1.symm.trans isPlaced.1)
      exact ⟨by rw [isMatched, same], ⟨rfl, rfl, rfl, rfl⟩, coherent⟩
  | none =>
      refine ⟨rfl, ⟨rfl, rfl, rfl, rfl⟩, ?_⟩
      refine coherent.extend ⟨rfl, rfl, rfl, rfl⟩ none ?_ (fun _ _ found => Or.inl found)
        (fun _ found => Or.inl found) (fun _ _ _ held => coherent.mayHold none held)
        (Nat.le_refl _) (fun _ isNew => by cases isNew)
      intro key rules found
      rw [Table.find?_insert] at found
      split at found
      case isTrue same =>
        rw [Option.some_inj] at found
        exact Or.inr ⟨lineage, same ▸ isPlaced, found.symm⟩
      case isFalse => exact Or.inl found

theorem ruleSets_enterRuleSet (key : NodeKey) (set other : RuleSetKey) :
    (stylist.enterRuleSet key set).ruleSets.find? other =
      if other = set then some ((stylist.ruleSets.find? set).getD ∅)
      else stylist.ruleSets.find? other := by
  rw [Stylist.enterRuleSet]
  cases known : stylist.ruleSets.find? set with
  | some styles =>
      simp only [Table.contains, known, Option.isSome_some, if_true, Option.getD_some]
      split
      case isTrue same => rw [same, known]
      case isFalse => rfl
  | none =>
      simp only [Table.contains, known, Option.isSome_none, Bool.false_eq_true, if_false,
        Table.find?_insert, Option.getD_none, eq_comm]

theorem contains_enterRuleSet {key : NodeKey} {set other : RuleSetKey}
    (found : (stylist.enterRuleSet key set).ruleSets.contains other = true) :
    other = set ∨ stylist.ruleSets.contains other = true := by
  rw [Table.contains, ruleSets_enterRuleSet] at found
  split at found
  case isTrue same => exact Or.inl same
  case isFalse => exact Or.inr found

theorem held?_enterRuleSet (key : NodeKey) (set : RuleSetKey) :
    (stylist.enterRuleSet key set).held? = stylist.held? := by
  funext other mask
  rw [held?, held?, ruleSets_enterRuleSet]
  split
  case isTrue same =>
    rw [same]
    cases stylist.ruleSets.find? set with
    | some styles => rfl
    | none => rfl
  case isFalse => rfl

theorem Coherent.enterRuleSet (coherent : stylist.Coherent placed) {lineage : Lineage}
    (isPlaced : Placed placed lineage.key lineage) :
    (stylist.enterRuleSet lineage.key
      (RuleSetKey.ofMatched (stylist.matchLineage lineage))).Coherent placed := by
  refine coherent.extend ⟨rfl, rfl, rfl, rfl⟩ none (fun _ _ found => Or.inl found) ?_ ?_ ?_
    (Nat.le_refl _) (fun _ isNew => by cases isNew)
  · intro key set found
    rw [Stylist.enterRuleSet, Table.find?_insert] at found
    split at found
    case isTrue same =>
      rw [Option.some_inj] at found
      exact Or.inr ⟨lineage, same ▸ isPlaced, found.symm⟩
    case isFalse => exact Or.inl found
  · intro set found
    rcases contains_enterRuleSet found with rfl | before
    · exact Or.inr ⟨_, coherent.read.fromInstalled lineage, rfl⟩
    · exact Or.inl before
  · intro set mask style held
    rw [held?_enterRuleSet] at held
    exact coherent.mayHold none held

/-- A new instance takes the next serial number; nothing else changes. -/
theorem materialize_spec (merge : Merge) :
    ∃ nextSerial, stylist.nextSerial ≤ nextSerial ∧
      (stylist.materialize merge).2 = { stylist with nextSerial := nextSerial } ∧
      (stylist.materialize merge).1.appearance? =
        (if merge.isEmpty then none else some (Appearance.ofMerge merge stylist.settings)) ∧
      ∀ made, (stylist.materialize merge).1 = some made →
        stylist.nextSerial ≤ made.serial ∧ made.serial < nextSerial := by
  rw [materialize]
  split
  · refine ⟨stylist.nextSerial, Nat.le_refl _, rfl, rfl, fun made same => ?_⟩
    cases same
  · refine ⟨stylist.nextSerial + 1, Nat.le_succ _, rfl, rfl, fun made same => ?_⟩
    cases same
    exact ⟨Nat.le_refl _, Nat.lt_succ_self _⟩

/-- A style that is right for some rules with the references is right for all of them. -/
theorem Coherent.mayHold_of_rules (coherent : stylist.Coherent placed)
    {fresh : Option StyleInstance} {rules : List MatchedRule} {mask : PseudoMask}
    {style : ResolvedStyle} (installed : stylist.FromInstalled rules)
    (right : style.appearance? = appearanceOf stylist.settings rules mask)
    (origin : ∀ made, style = some made →
      (∃ other otherMask, stylist.held? other otherMask = some (some made)) ∨
        fresh = some made) :
    stylist.MayHold fresh (RuleSetKey.ofMatched rules) mask style where
  right other otherInstalled isSet := by
    rw [right]
    exact coherent.read.appearanceOf_congr installed otherInstalled isSet.symm _ mask
  origin := origin

/-- The styles of a set of matched rules are replaced. The instance that may be new among them takes
a serial number of its own. -/
structure Remembers (before after : Stylist) (set : RuleSetKey)
    (styles : Table PseudoMask ResolvedStyle) (fresh : Option StyleInstance) : Prop where
  same : SameSheets before after
  matched : after.matchedRules = before.matchedRules
  sets : after.nodeRuleSets = before.nodeRuleSets
  ruleSets : after.ruleSets = before.ruleSets.insert set styles
  grows : before.nextSerial ≤ after.nextSerial
  isFresh : ∀ made, fresh = some made →
    before.nextSerial ≤ made.serial ∧ made.serial < after.nextSerial

/-- Caches stay coherent if the styles of a known set of matched rules are replaced by right
ones. -/
theorem Coherent.remembers {after : Stylist} (coherent : stylist.Coherent placed)
    {fresh : Option StyleInstance} {set : RuleSetKey} {styles : Table PseudoMask ResolvedStyle}
    (remembers : Remembers stylist after set styles fresh)
    (known : stylist.ruleSets.contains set = true)
    (right : ∀ mask style, styles.find? mask = some style →
      stylist.MayHold fresh set mask style) : after.Coherent placed := by
  refine coherent.extend remembers.same fresh (fun _ _ found => Or.inl (remembers.matched ▸ found))
    (fun _ _ found => Or.inl (remembers.sets ▸ found)) ?_ ?_ remembers.grows remembers.isFresh
  · intro other found
    apply Or.inl
    rw [remembers.ruleSets, Table.contains, Table.find?_insert] at found
    split at found
    case isTrue isSet => exact isSet ▸ known
    case isFalse => exact found
  · intro other mask style held
    rw [held?, remembers.ruleSets, Table.find?_insert] at held
    split at held
    case isTrue isSet => exact isSet ▸ right mask style held
    case isFalse => exact coherent.mayHold fresh held

theorem Coherent.mayHold_styles (coherent : stylist.Coherent placed)
    (fresh : Option StyleInstance) {set : RuleSetKey} {styles : Table PseudoMask ResolvedStyle}
    (found : stylist.ruleSets.find? set = some styles) :
    ∀ mask style, styles.find? mask = some style → stylist.MayHold fresh set mask style := by
  intro mask style isKept
  apply coherent.mayHold
  rw [held?, found]
  exact isKept

/-- A style that may be held is put beside others. -/
theorem mayHold_insert {fresh : Option StyleInstance} {set : RuleSetKey}
    {styles : Table PseudoMask ResolvedStyle} {mask : PseudoMask} {style : ResolvedStyle}
    (added : stylist.MayHold fresh set mask style)
    (kept : ∀ other kept, styles.find? other = some kept →
      stylist.MayHold fresh set other kept) :
    ∀ other kept, (styles.insert mask style).find? other = some kept →
      stylist.MayHold fresh set other kept := by
  intro other found isFound
  rw [Table.find?_insert] at isFound
  split at isFound
  case isTrue isMask =>
    rw [Option.some_inj] at isFound
    subst isMask isFound
    exact added
  case isFalse => exact kept other found isFound

/-- A style answers a lookup that remembers it beside other right ones. -/
theorem Coherent.looks_remembers {after : Stylist} (coherent : stylist.Coherent placed)
    {fresh : Option StyleInstance} {rules : List MatchedRule}
    {styles : Table PseudoMask ResolvedStyle}
    (remembers : Remembers stylist after (RuleSetKey.ofMatched rules) styles fresh)
    (installed : stylist.FromInstalled rules)
    (known : stylist.ruleSets.contains (RuleSetKey.ofMatched rules) = true)
    (right : ∀ mask style, styles.find? mask = some style →
      stylist.MayHold fresh (RuleSetKey.ofMatched rules) mask style)
    {mask : PseudoMask} {style : ResolvedStyle} (answer : styles.find? mask = some style) :
    Looks stylist placed (appearanceOf stylist.settings rules mask) (style, after) where
  appearance := (right mask style answer).right rules installed rfl
  same := remembers.same
  coherent := coherent.remembers remembers known right
  held := by
    intro made isMade
    refine ⟨RuleSetKey.ofMatched rules, mask, ?_⟩
    rw [held?, remembers.ruleSets, Table.find?_insert, if_pos rfl, Option.bind_some, answer]
    exact congrArg some isMade
  origin made isMade :=
    ((right mask style answer).origin made isMade).imp_right fun isNew =>
      (remembers.isFresh made isNew).1

/-- A style is taken over from the pseudo-classes that contribute, or a new one is remembered for
both. -/
theorem Coherent.build (coherent : stylist.Coherent placed) {rules : List MatchedRule}
    (installed : stylist.FromInstalled rules)
    (known : stylist.ruleSets.contains (RuleSetKey.ofMatched rules) = true)
    (mask : PseudoMask) :
    Looks stylist placed (appearanceOf stylist.settings rules mask)
      (stylist.build rules (RuleSetKey.ofMatched rules) mask) := by
  obtain ⟨styles, found⟩ := Option.isSome_iff_exists.mp known
  rw [Stylist.build, found]
  have realRight := appearanceOf_contributing stylist.settings rules mask
  rw [appliedIn] at realRight
  generalize contributing
    (applicable (fun selector => selector.acceptsPseudo mask) rules) = real at realRight
  simp only
  generalize (stylist.settings.aliasPseudoStates && real != mask) = aliases
  cases taken : (if aliases then styles.find? real else none) with
  | some style =>
      have held : stylist.held? (RuleSetKey.ofMatched rules) real = some style := by
        rw [held?, found]
        cases aliases with
        | true => exact taken
        | false => cases taken
      have mayHold : stylist.MayHold none (RuleSetKey.ofMatched rules) mask style :=
        coherent.mayHold_of_rules installed
          ((coherent.styles held rules installed rfl).trans realRight)
          fun made isMade => Or.inl ⟨_, _, isMade ▸ held⟩
      refine coherent.looks_remembers ?_ installed known
        (mayHold_insert mayHold (coherent.mayHold_styles none found)) ?_
      · exact ⟨⟨rfl, rfl, rfl, rfl⟩, rfl, rfl, rfl, Nat.le_refl _, fun _ isNew => by cases isNew⟩
      · rw [Table.find?_insert, if_pos rfl]
  | none =>
      obtain ⟨nextSerial, grows, after, right, isFresh⟩ := stylist.materialize_spec
        (mergeOf (applicable (fun selector => selector.acceptsPseudo mask) rules))
      simp only [after]
      generalize (stylist.materialize
        (mergeOf (applicable (fun selector => selector.acceptsPseudo mask) rules))).1 = style
        at right isFresh
      have wanted : style.appearance? = appearanceOf stylist.settings rules mask := right
      have mayHold : ∀ other, appearanceOf stylist.settings rules other =
          appearanceOf stylist.settings rules mask →
            stylist.MayHold style (RuleSetKey.ofMatched rules) other style :=
        fun other same => coherent.mayHold_of_rules installed (wanted.trans same.symm)
          fun made isMade => Or.inr isMade
      have kept := mayHold_insert (mayHold mask rfl) (coherent.mayHold_styles style found)
      have keptToo : ∀ other held, (if aliases then (styles.insert mask style).insert real style
          else styles.insert mask style).find? other = some held →
            stylist.MayHold style (RuleSetKey.ofMatched rules) other held := by
        split
        · exact mayHold_insert (mayHold real realRight) kept
        · exact kept
      refine coherent.looks_remembers ?_ installed known keptToo ?_
      · exact ⟨⟨rfl, rfl, rfl, rfl⟩, rfl, rfl, rfl, grows, isFresh⟩
      · split
        · rw [Table.find?_insert, Table.find?_insert, if_pos rfl, ite_self]
        · rw [Table.find?_insert, if_pos rfl]

/-- The counters of a stylist do not matter. -/
theorem Coherent.counted (coherent : stylist.Coherent placed) (stats : StyleStats) :
    { stylist with stats := stats }.Coherent placed :=
  coherent.extend ⟨rfl, rfl, rfl, rfl⟩ none (fun _ _ found => Or.inl found)
    (fun _ _ found => Or.inl found) (fun _ found => Or.inl found)
    (fun _ _ _ held => coherent.mayHold none held) (Nat.le_refl _)
    (fun _ isNew => by cases isNew)

/-- A lookup in caches that have been filled with no styles is one in the caches before. -/
theorem Looks.before {before : Stylist} {appearance : Option Appearance}
    {outcome : ResolvedStyle × Stylist} (looks : Looks stylist placed appearance outcome)
    (same : SameSheets before stylist) (held : stylist.held? = before.held?)
    (serial : stylist.nextSerial = before.nextSerial) :
    Looks before placed appearance outcome where
  appearance := looks.appearance
  same := same.trans looks.same
  coherent := looks.coherent
  held := looks.held
  origin := by
    rw [← held, ← serial]
    exact looks.origin

/-- A style that is held answers a lookup. -/
theorem Coherent.answer (coherent : stylist.Coherent placed) {rules : List MatchedRule}
    (installed : stylist.FromInstalled rules) {mask : PseudoMask} {style : ResolvedStyle}
    (held : stylist.held? (RuleSetKey.ofMatched rules) mask = some style) (stats : StyleStats) :
    Looks stylist placed (appearanceOf stylist.settings rules mask)
      (style, { stylist with stats := stats }) where
  appearance := coherent.styles held rules installed rfl
  same := ⟨rfl, rfl, rfl, rfl⟩
  coherent := coherent.counted stats
  held _ isMade := ⟨_, mask, held.trans (congrArg some isMade)⟩
  origin _ isMade := Or.inl ⟨_, mask, held.trans (congrArg some isMade)⟩

/-- The appearance that the sheets in use give to a node in its place, worked out without caches. -/
def freshAppearance (stylist : Stylist) (lineage : Lineage) (mask : PseudoMask) :
    Option Appearance :=
  if lineage.node.ignoresSheets then none
  else appearanceOf stylist.settings (stylist.matchLineage lineage) mask

theorem Coherent.resolve (coherent : stylist.Coherent placed) {lineage : Lineage}
    (isPlaced : lineage.node.ignoresSheets = false → placed lineage.key = some lineage)
    (mask : PseudoMask) :
    Looks stylist placed (stylist.freshAppearance lineage mask)
      (stylist.resolve lineage mask) := by
  rw [Stylist.resolve, freshAppearance]
  cases ignores : lineage.node.ignoresSheets with
  | true =>
      refine ⟨rfl, ⟨rfl, rfl, rfl, rfl⟩, coherent, fun made isMade => ?_, fun made isMade => ?_⟩
      · cases isMade
      · cases isMade
  | false =>
      have isThere : Placed placed lineage.key lineage := ⟨isPlaced ignores, ignores⟩
      simp only [Bool.false_eq_true, if_false]
      cases cached : stylist.cached? lineage.key mask with
      | some style =>
          rw [cached?, Option.bind_eq_bind, Option.bind_eq_some_iff] at cached
          obtain ⟨set, known, found⟩ := cached
          obtain ⟨other, otherPlaced, isSet⟩ := coherent.sets known
          rw [Option.some_inj.mp (otherPlaced.1.symm.trans isThere.1)] at isSet
          subst isSet
          exact coherent.answer (coherent.read.fromInstalled lineage) found _
      | none =>
          obtain ⟨isMatched, same, filled⟩ := coherent.matchedFor isThere
          have unheld : (stylist.matchedFor lineage).2.held? = stylist.held? ∧
              (stylist.matchedFor lineage).2.nextSerial = stylist.nextSerial := by
            rw [Stylist.matchedFor]
            split
            · exact ⟨rfl, rfl⟩
            · exact ⟨rfl, rfl⟩
          have settings := same.settings
          have sameMatch := same.matchLineage
          simp only [isMatched]
          generalize (stylist.matchedFor lineage).2 = filledStylist at *
          rw [← sameMatch, ← settings]
          have entered := filled.enterRuleSet isThere
          have heldNow := filledStylist.held?_enterRuleSet lineage.key
            (RuleSetKey.ofMatched (filledStylist.matchLineage lineage))
          have known : (filledStylist.enterRuleSet lineage.key
              (RuleSetKey.ofMatched (filledStylist.matchLineage lineage))).ruleSets.contains
                (RuleSetKey.ofMatched (filledStylist.matchLineage lineage)) = true := by
            rw [Table.contains, ruleSets_enterRuleSet, if_pos rfl]
            rfl
          have installed := entered.read.fromInstalled lineage
          have sameBefore : SameSheets stylist (filledStylist.enterRuleSet lineage.key
              (RuleSetKey.ofMatched (filledStylist.matchLineage lineage))) :=
            ⟨settings, same.nextSheet, same.appSheet, same.nodeSheets⟩
          refine Looks.before ?_ sameBefore (heldNow.trans unheld.1) unheld.2
          split
          next style held => exact entered.answer installed held _
          next => exact entered.build installed known mask

end Stylist

end StyledWidgets.Style
