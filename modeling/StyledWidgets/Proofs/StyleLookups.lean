/-
Module: StyledWidgets.Proofs.StyleLookups
Purpose: Everything that a lookup of a style does to a stylist, said once. It works with the rules
  that are kept for the node, or else with those that match now; the style is one that is held
  already or a new one; and it is noted for the pseudo states that it serves.
Main exports: Stylist.rulesFor, Stylist.SetsFollow, Stylist.Finds, Stylist.Resolved,
  Stylist.resolve_spec
-/
import StyledWidgets.Proofs.StyleCache

namespace StyledWidgets.Style

open StyledWidgets.Sheet

namespace Stylist

variable {stylist : Stylist}

/-! ### How a lookup finds a style -/

/-- The rules that a lookup of a node works with: those that are kept for its key, and if there are
none, those that match the node in its place. -/
def rulesFor (stylist : Stylist) (lineage : Lineage) : List MatchedRule :=
  (stylist.matchedRules.find? lineage.key).getD (stylist.matchLineage lineage)

/-- A set of matched rules is noted for a node only beside the rules that are kept for it, and is
the set of these. -/
def SetsFollow (stylist : Stylist) : Prop :=
  ∀ key set, stylist.nodeRuleSets.find? key = some set →
    ∃ rules, stylist.matchedRules.find? key = some rules ∧ set = RuleSetKey.ofMatched rules

/-- The pseudo-classes on which the choice of the rules that apply depends. -/
def realMask (rules : List MatchedRule) (mask : PseudoMask) : PseudoMask :=
  contributing (appliedIn mask rules)

/-- The styles that are held once a style has been noted for some pseudo states of a set. -/
def withNoted (held : RuleSetKey → PseudoMask → Option ResolvedStyle) (set : RuleSetKey)
    (masks : List PseudoMask) (style : ResolvedStyle) :
    RuleSetKey → PseudoMask → Option ResolvedStyle :=
  fun other mask => if other = set ∧ mask ∈ masks then some style else held other mask

/-- Where the style of some rules in a pseudo state comes from, the pseudo states for which it is
noted, and the serial number that is next. -/
inductive Finds (stylist : Stylist) (rules : List MatchedRule) (mask : PseudoMask) :
    ResolvedStyle → List PseudoMask → Nat → Prop where
  /-- It is held already. -/
  | kept {style : ResolvedStyle}
      (held : stylist.held? (RuleSetKey.ofMatched rules) mask = some style) :
      Finds stylist rules mask style [] stylist.nextSerial
  /-- It is held for the pseudo-classes on which the choice depends. -/
  | aliased {style : ResolvedStyle} (aliasing : stylist.settings.aliasPseudoStates = true)
      (isNew : stylist.held? (RuleSetKey.ofMatched rules) mask = none)
      (held : stylist.held? (RuleSetKey.ofMatched rules) (realMask rules mask) = some style) :
      Finds stylist rules mask style [mask] stylist.nextSerial
  /-- It is made from the declarations. -/
  | made (isNew : stylist.held? (RuleSetKey.ofMatched rules) mask = none)
      (unaliased : stylist.settings.aliasPseudoStates = true →
        stylist.held? (RuleSetKey.ofMatched rules) (realMask rules mask) = none) :
      Finds stylist rules mask (stylist.materialize (mergeOf (appliedIn mask rules))).1
        (if stylist.settings.aliasPseudoStates then [mask, realMask rules mask] else [mask])
        (stylist.materialize (mergeOf (appliedIn mask rules))).2.nextSerial

/-- What a lookup of a node answers and leaves behind. -/
structure Resolved (stylist : Stylist) (lineage : Lineage) (mask : PseudoMask)
    (outcome : ResolvedStyle × Stylist) : Prop where
  same : SameSheets stylist outcome.2
  nextQuery : outcome.2.nextQuery = stylist.nextQuery
  matched : ∀ key, outcome.2.matchedRules.find? key =
    if lineage.key = key then some (stylist.rulesFor lineage) else stylist.matchedRules.find? key
  sets : ∀ key, outcome.2.nodeRuleSets.find? key =
    if lineage.key = key then some (RuleSetKey.ofMatched (stylist.rulesFor lineage))
    else stylist.nodeRuleSets.find? key
  found : ∃ masks,
    Finds stylist (stylist.rulesFor lineage) mask outcome.1 masks outcome.2.nextSerial ∧
      outcome.2.held? = withNoted stylist.held? (RuleSetKey.ofMatched (stylist.rulesFor lineage))
        masks outcome.1

/-! ### The steps of a lookup -/

theorem withNoted_nil (held : RuleSetKey → PseudoMask → Option ResolvedStyle) (set : RuleSetKey)
    (style : ResolvedStyle) : withNoted held set [] style = held := by
  funext other mask
  simp [withNoted]

/-- A style is held because it has just been noted, or it was held before. -/
theorem withNoted_cases {held : RuleSetKey → PseudoMask → Option ResolvedStyle}
    {set other : RuleSetKey} {masks : List PseudoMask} {mask : PseudoMask}
    {style answer : ResolvedStyle}
    (isHeld : withNoted held set masks style other mask = some answer) :
    (other = set ∧ mask ∈ masks ∧ answer = style) ∨ held other mask = some answer := by
  rw [withNoted] at isHeld
  split at isHeld
  case isTrue noted => exact Or.inl ⟨noted.1, noted.2, (Option.some_inj.mp isHeld).symm⟩
  case isFalse => exact Or.inr isHeld

/-- A table that has a value reads as if the value had just been entered. -/
private theorem find?_of_noted {α : Type} {table : Table NodeKey α} {key : NodeKey} {value : α}
    (noted : table.find? key = some value) (other : NodeKey) :
    table.find? other = if key = other then some value else table.find? other := by
  split
  case isTrue same => exact same ▸ noted
  case isFalse => rfl

theorem matchedFor_eq (lineage : Lineage) :
    ∃ table stats, stylist.matchedFor lineage =
        (stylist.rulesFor lineage, { stylist with matchedRules := table, stats := stats }) ∧
      ∀ key, table.find? key =
        if lineage.key = key then some (stylist.rulesFor lineage)
        else stylist.matchedRules.find? key := by
  simp only [matchedFor, rulesFor]
  cases found : stylist.matchedRules.find? lineage.key with
  | some rules => exact ⟨stylist.matchedRules, stylist.stats, rfl, find?_of_noted found⟩
  | none => exact ⟨_, _, rfl, fun key => Table.find?_insert ..⟩

/-- Styles that are kept for a set are held from then on. -/
theorem held?_replaced {after : Stylist} {set : RuleSetKey}
    {styles : Table PseudoMask ResolvedStyle}
    (replaced : after.ruleSets = stylist.ruleSets.insert set styles) {masks : List PseudoMask}
    {style : ResolvedStyle}
    (kept : ∀ mask, styles.find? mask =
      if mask ∈ masks then some style else stylist.held? set mask) :
    after.held? = withNoted stylist.held? set masks style := by
  funext other mask
  simp only [held?, replaced, Table.find?_insert, withNoted]
  by_cases same : set = other
  · subst same
    simpa [held?] using kept mask
  · simp [same, Ne.symm same]

/-- What answering from the styles of a set does: the rules and sets that are kept for nodes
stay. -/
structure Answered (stylist : Stylist) (rules : List MatchedRule) (mask : PseudoMask)
    (outcome : ResolvedStyle × Stylist) : Prop where
  same : SameSheets stylist outcome.2
  nextQuery : outcome.2.nextQuery = stylist.nextQuery
  matched : outcome.2.matchedRules = stylist.matchedRules
  sets : outcome.2.nodeRuleSets = stylist.nodeRuleSets
  found : ∃ masks, Finds stylist rules mask outcome.1 masks outcome.2.nextSerial ∧
    outcome.2.held? = withNoted stylist.held? (RuleSetKey.ofMatched rules) masks outcome.1

/-- The style that is worked out for a set is one that the set holds for the pseudo-classes that
contribute, or a new one. -/
theorem build_answered {rules : List MatchedRule} {mask : PseudoMask}
    (known : stylist.ruleSets.contains (RuleSetKey.ofMatched rules) = true)
    (isNew : stylist.held? (RuleSetKey.ofMatched rules) mask = none) :
    Answered stylist rules mask (stylist.build rules (RuleSetKey.ofMatched rules) mask) := by
  obtain ⟨styles, found⟩ := Option.isSome_iff_exists.mp known
  have held : ∀ other, stylist.held? (RuleSetKey.ofMatched rules) other = styles.find? other := by
    intro other
    simp [held?, found]
  have real : contributing (applicable (fun selector => selector.acceptsPseudo mask) rules) =
      realMask rules mask := rfl
  simp only [build, found, real]
  cases taken : (if stylist.settings.aliasPseudoStates && realMask rules mask != mask then
      styles.find? (realMask rules mask) else none) with
  | some style =>
      split at taken
      case isFalse => cases taken
      case isTrue aliases =>
        simp only [Bool.and_eq_true] at aliases
        refine ⟨⟨rfl, rfl, rfl, rfl⟩, rfl, rfl, rfl, [mask],
          .aliased aliases.1 isNew ((held _).trans taken), held?_replaced rfl fun other => ?_⟩
        simp only [Table.find?_insert, held, List.mem_singleton, eq_comm]
  | none =>
      have made : Finds stylist rules mask _ _ _ := .made isNew fun aliasing => by
        by_cases own : realMask rules mask = mask
        · rw [own]
          exact isNew
        · rw [held]
          simpa [aliasing, own] using taken
      obtain ⟨nextSerial, -, after, -⟩ := stylist.materialize_spec (mergeOf (appliedIn mask rules))
      rw [appliedIn] at made after
      simp only [after] at made ⊢
      refine ⟨⟨rfl, rfl, rfl, rfl⟩, rfl, rfl, rfl, _, made, held?_replaced rfl fun other => ?_⟩
      cases stylist.settings.aliasPseudoStates with
      | false => simp only [Table.find?_insert, held, List.mem_singleton, eq_comm, Bool.false_and,
          Bool.false_eq_true, if_false]
      | true =>
          simp only [Bool.true_and, bne_iff_ne, ne_eq, if_true, List.mem_cons, List.not_mem_nil,
            or_false, held]
          by_cases own : realMask rules mask = mask
          · simp [own, eq_comm]
          · simp only [own, not_false_eq_true, if_true, Table.find?_insert]
            by_cases isReal : realMask rules mask = other
            · simp [isReal]
            · simp [isReal, Ne.symm isReal, eq_comm]

/-- Only the settings, the next serial number and the styles that are held matter. -/
theorem Finds.before {before : Stylist} {rules : List MatchedRule} {mask : PseudoMask}
    {style : ResolvedStyle} {masks : List PseudoMask} {nextSerial : Nat}
    (finds : Finds stylist rules mask style masks nextSerial)
    (settings : stylist.settings = before.settings)
    (serial : stylist.nextSerial = before.nextSerial) (held : stylist.held? = before.held?) :
    Finds before rules mask style masks nextSerial := by
  cases finds with
  | kept isHeld =>
      rw [serial]
      exact .kept (held ▸ isHeld)
  | aliased aliasing isNew isHeld =>
      rw [serial]
      exact .aliased (settings ▸ aliasing) (held ▸ isNew) (held ▸ isHeld)
  | made isNew unaliased =>
      have same : ∀ merge, (stylist.materialize merge).1 = (before.materialize merge).1 ∧
          (stylist.materialize merge).2.nextSerial = (before.materialize merge).2.nextSerial := by
        intro merge
        simp only [materialize, settings, serial]
        split
        · exact ⟨rfl, serial⟩
        · exact ⟨rfl, rfl⟩
      rw [(same _).1, (same _).2, settings]
      exact .made (held ▸ isNew) (by rwa [settings, held] at unaliased)

/-! ### A lookup -/

/-- A lookup that the caches cannot answer works with the rules that are kept for the node, or with
those that match now, and notes the style. -/
theorem resolved_of_uncached {lineage : Lineage} (heeds : lineage.node.ignoresSheets = false)
    {mask : PseudoMask} (uncached : stylist.cached? lineage.key mask = none) :
    Resolved stylist lineage mask (stylist.resolve lineage mask) := by
  simp only [Stylist.resolve, heeds, Bool.false_eq_true, if_false, uncached]
  obtain ⟨table, stats, matched, kept⟩ := stylist.matchedFor_eq lineage
  simp only [matched]
  generalize filling : ({ stylist with matchedRules := table, stats := stats } : Stylist) =
    filled
  have sameHeld := filled.held?_enterRuleSet lineage.key
    (RuleSetKey.ofMatched (stylist.rulesFor lineage))
  have answered : ∀ outcome, Answered (filled.enterRuleSet lineage.key
      (RuleSetKey.ofMatched (stylist.rulesFor lineage))) (stylist.rulesFor lineage) mask
        outcome → Resolved stylist lineage mask outcome := by
    intro outcome answered
    subst filling
    obtain ⟨masks, finds, held⟩ := answered.found
    have same := answered.same
    refine ⟨⟨same.settings, same.nextSheet, same.appSheet, same.nodeSheets⟩,
      answered.nextQuery, fun key => ?_, fun key => ?_, masks,
      finds.before rfl rfl sameHeld, held.trans (congrArg (withNoted · _ _ _) sameHeld)⟩
    · simp only [answered.matched]
      exact kept key
    · simp only [answered.sets]
      exact Table.find?_insert ..
  apply answered
  split
  next style isHeld =>
    exact ⟨⟨rfl, rfl, rfl, rfl⟩, rfl, rfl, rfl, [], .kept isHeld, (withNoted_nil ..).symm⟩
  next isNew =>
    apply build_answered _ isNew
    simp [Table.contains, ruleSets_enterRuleSet]

/-- A lookup of a node that heeds sheets answers with the style of the rules that are kept for the
node, or of those that match now, and notes it. -/
theorem SetsFollow.resolve (follows : stylist.SetsFollow) {lineage : Lineage}
    (heeds : lineage.node.ignoresSheets = false) (mask : PseudoMask) :
    Resolved stylist lineage mask (stylist.resolve lineage mask) := by
  cases cached : stylist.cached? lineage.key mask with
  | none => exact resolved_of_uncached heeds cached
  | some style =>
      simp only [Stylist.resolve, heeds, Bool.false_eq_true, if_false, cached]
      simp only [cached?, Option.bind_eq_bind, Option.bind_eq_some_iff] at cached
      obtain ⟨set, noted, styles, known, isStyle⟩ := cached
      obtain ⟨rules, kept, rfl⟩ := follows _ _ noted
      have working : stylist.rulesFor lineage = rules := by rw [rulesFor, kept, Option.getD_some]
      have held : stylist.held? (RuleSetKey.ofMatched rules) mask = some style := by
        simp [held?, known, isStyle]
      rw [← working] at held kept noted
      exact ⟨⟨rfl, rfl, rfl, rfl⟩, rfl, find?_of_noted kept, find?_of_noted noted, [],
        .kept held, (withNoted_nil ..).symm⟩

theorem Resolved.follows {lineage : Lineage} {mask : PseudoMask}
    {outcome : ResolvedStyle × Stylist} (resolved : Resolved stylist lineage mask outcome)
    (follows : stylist.SetsFollow) : outcome.2.SetsFollow := by
  intro key set noted
  rw [resolved.sets] at noted
  rw [resolved.matched]
  split at noted
  case isTrue same => exact ⟨_, if_pos same, (Option.some_inj.mp noted).symm⟩
  case isFalse apart =>
    rw [if_neg apart]
    exact follows key set noted

/-! ### What is held -/

section Held

variable {known : StyleSheet → Prop} {rules : List MatchedRule} {mask : PseudoMask}
  {style : ResolvedStyle} {masks : List PseudoMask} {nextSerial : Nat}

theorem realMask_realMask (rules : List MatchedRule) (mask : PseudoMask) :
    realMask rules (realMask rules mask) = realMask rules mask := by
  rw [realMask, realMask, appliedIn_contributing]

/-- The pseudo states for which a style is noted lead to the same choice of rules. -/
theorem Finds.realMask_eq (finds : Finds stylist rules mask style masks nextSerial)
    {other : PseudoMask} (noted : other ∈ masks) : realMask rules other = realMask rules mask := by
  cases finds with
  | kept => cases noted
  | aliased => rw [List.mem_singleton.mp noted]
  | made =>
      split at noted
      · rcases List.mem_cons.mp noted with rfl | isReal
        · rfl
        · rw [List.mem_singleton.mp isReal, realMask_realMask]
      · rw [List.mem_singleton.mp noted]

/-- A style is noted only where none was held. -/
theorem Finds.free (finds : Finds stylist rules mask style masks nextSerial)
    {other : PseudoMask} (noted : other ∈ masks) :
    stylist.held? (RuleSetKey.ofMatched rules) other = none := by
  cases finds with
  | kept => cases noted
  | aliased _ isNew =>
      rw [List.mem_singleton.mp noted]
      exact isNew
  | made isNew unaliased =>
      split at noted
      case isTrue aliasing =>
        rcases List.mem_cons.mp noted with rfl | isReal
        · exact isNew
        · rw [List.mem_singleton.mp isReal]
          exact unaliased aliasing
      case isFalse =>
        rw [List.mem_singleton.mp noted]
        exact isNew

/-- The style that answers a lookup is held for its pseudo state from then on. -/
theorem Finds.held (finds : Finds stylist rules mask style masks nextSerial) :
    withNoted stylist.held? (RuleSetKey.ofMatched rules) masks style (RuleSetKey.ofMatched rules)
      mask = some style := by
  cases finds with
  | kept held => rw [withNoted_nil, held]
  | aliased => simp [withNoted]
  | made =>
      split
      · simp [withNoted]
      · simp [withNoted]

/-- What has been held stays held. -/
theorem Finds.stays (finds : Finds stylist rules mask style masks nextSerial) {set : RuleSetKey}
    {other : PseudoMask} {before : ResolvedStyle} (held : stylist.held? set other = some before) :
    withNoted stylist.held? (RuleSetKey.ofMatched rules) masks style set other = some before := by
  rw [withNoted, if_neg, held]
  rintro ⟨rfl, noted⟩
  rw [finds.free noted] at held
  cases held

/-- The styles that are held are right for all rules of their sets that known sheets have. -/
def HeldRight (settings : StyleSettings) (known : StyleSheet → Prop)
    (held : RuleSetKey → PseudoMask → Option ResolvedStyle) : Prop :=
  ∀ set mask style, held set mask = some style → ∀ rules, DrawnFrom known rules →
    RuleSetKey.ofMatched rules = set → style.appearance? = appearanceOf settings rules mask

/-- A lookup answers with the appearance that its rules lead to. -/
theorem Finds.appearance (finds : Finds stylist rules mask style masks nextSerial)
    (right : HeldRight stylist.settings known stylist.held?) (drawn : DrawnFrom known rules) :
    style.appearance? = appearanceOf stylist.settings rules mask := by
  cases finds with
  | kept held => exact right _ _ _ held rules drawn rfl
  | aliased _ _ held =>
      rw [right _ _ _ held rules drawn rfl]
      exact appearanceOf_contributing ..
  | made =>
      obtain ⟨-, -, -, isMade, -⟩ := stylist.materialize_spec (mergeOf (appliedIn mask rules))
      exact isMade

theorem HeldRight.noted
    (unique : ∀ {one other}, known one → known other → one.id = other.id → one = other)
    (right : HeldRight stylist.settings known stylist.held?) (drawn : DrawnFrom known rules)
    (finds : Finds stylist rules mask style masks nextSerial) :
    HeldRight stylist.settings known
      (withNoted stylist.held? (RuleSetKey.ofMatched rules) masks style) := by
  intro set other answer held rulesToo drawnToo isSet
  rcases withNoted_cases held with ⟨rfl, noted, rfl⟩ | before
  · rw [finds.appearance right drawn, drawnToo.appearanceOf_congr unique drawn isSet,
      ← appearanceOf_contributing _ _ other, ← appearanceOf_contributing _ _ mask]
    exact congrArg (appearanceOf stylist.settings rules) (finds.realMask_eq noted).symm
  · exact right set other answer before rulesToo drawnToo isSet

end Held

end Stylist

end StyledWidgets.Style
