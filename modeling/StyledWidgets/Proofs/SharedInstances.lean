/-
Module: StyledWidgets.Proofs.SharedInstances
Purpose: Which lookups share an instance. While sheets and places stay, two lookups are answered
  with one instance exactly if the nodes matched the same selectors and the pseudo states pick the
  same of them; it does not matter which lookup came first or what was invalidated in between.
Main exports: appearanceOf_eq_none_iff, Stylist.Tree, Stylist.answers, Stylist.Shares,
  Stylist.Reachable.instances_shared
-/
import StyledWidgets.Proofs.SheetReading
import StyledWidgets.Proofs.StylistRuns

namespace StyledWidgets.Style

open StyledWidgets.Sheet

/-! ### The selectors that are picked -/

section Picks

variable {accepts : Selector → Bool}

theorem applicableFrom_cons (rule : MatchedRule) (later : List MatchedRule) (start : Nat) :
    applicableFrom accepts ((rule :: later).zipIdx start) =
      if accepts rule.selector && !outdone accepts rule later then
        (rule, start) :: applicableFrom accepts (later.zipIdx (start + 1))
      else applicableFrom accepts (later.zipIdx (start + 1)) := by
  have follows : ((later.zipIdx (start + 1)).any fun other =>
      other.1.ref.sameRule rule.ref && accepts other.1.selector) = outdone accepts rule later := by
    rw [outdone]
    conv => rhs; rw [← List.zipIdx_map_fst (start + 1) later, List.any_map]
    rfl
  simp only [List.zipIdx_cons, applicableFrom, follows]

/-- The picked selectors stand where their places say. -/
theorem applicable_eq_filterMap (rules : List MatchedRule) :
    applicable accepts rules = (applicableIndices accepts rules).filterMap (rules[·]?) := by
  have stands : ∀ entry ∈ applicableFrom accepts rules.zipIdx, rules[entry.2]? = some entry.1 := by
    have sublist : ∀ entries : List (MatchedRule × Nat),
        (applicableFrom accepts entries).Sublist entries := by
      intro entries
      induction entries with
      | nil => exact List.Sublist.refl _
      | cons entry later inductionHypothesis =>
          simp only [applicableFrom]
          split
          · exact inductionHypothesis.cons_cons _
          · exact inductionHypothesis.cons _
    intro entry member
    exact List.mem_zipIdx_iff_getElem?.mp ((sublist _).subset member)
  rw [applicable, applicableIndices, List.filterMap_map, ← List.filterMap_eq_map]
  apply List.filterMap_congr
  intro entry member
  exact (stands entry member).symm

/-- A narrower condition that still accepts all picked selectors picks at the same places. -/
theorem applicableIndices_of_narrower {narrower : Selector → Bool} {rules : List MatchedRule}
    (implies : ∀ selector, narrower selector = true → accepts selector = true)
    (keeps : ∀ matched ∈ chosen accepts rules, narrower matched.selector = true) :
    applicableIndices narrower rules = applicableIndices accepts rules := by
  have run : ∀ start, (∀ matched ∈ chosen accepts rules, narrower matched.selector = true) →
      applicableFrom narrower (rules.zipIdx start) =
        applicableFrom accepts (rules.zipIdx start) := by
    clear keeps
    induction rules with
    | nil => exact fun _ _ => rfl
    | cons rule later inductionHypothesis =>
        intro start keeps
        have laterKept : ∀ matched ∈ chosen accepts later, narrower matched.selector = true := by
          intro matched member
          apply keeps
          rw [chosen]
          split
          · exact List.mem_cons_of_mem _ member
          · exact member
        have whole := chosen_eq_of_narrower implies keeps
        have rest := chosen_eq_of_narrower implies laterKept
        simp only [chosen, rest] at whole
        simp only [applicableFrom_cons, inductionHypothesis (start + 1) laterKept]
        split at whole
        case isTrue picked =>
          split at whole
          case isTrue pickedToo => rw [if_pos picked, if_pos pickedToo]
          case isFalse => exact absurd whole (List.cons_ne_self _ _)
        case isFalse passed =>
          split at whole
          case isTrue => exact absurd whole.symm (List.cons_ne_self _ _)
          case isFalse passedToo => rw [if_neg passed, if_neg passedToo]
  rw [applicableIndices, applicableIndices, run 0 keeps]

/-- The weights of matched rules do not matter for what is picked. -/
theorem applicableIndices_unweighed (rules : List MatchedRule) :
    applicableIndices accepts (rules.map unweighed) = applicableIndices accepts rules := by
  have run : ∀ start, (applicableFrom accepts ((rules.map unweighed).zipIdx start)).map (·.2) =
      (applicableFrom accepts (rules.zipIdx start)).map (·.2) := by
    induction rules with
    | nil => exact fun _ => rfl
    | cons rule later inductionHypothesis =>
        intro start
        have follows : outdone accepts (unweighed rule) (later.map unweighed) =
            outdone accepts rule later := by
          rw [outdone, outdone, List.any_map]
          rfl
        have selector : (unweighed rule).selector = rule.selector := rfl
        simp only [List.map_cons, applicableFrom_cons, follows, selector]
        split
        · simp only [List.map_cons, inductionHypothesis]
        · exact inductionHypothesis _
  exact run 0

/-- The places of the selectors that are picked in a pseudo state. -/
def picks (mask : PseudoMask) (rules : List MatchedRule) : List Nat :=
  applicableIndices (fun selector => selector.acceptsPseudo mask) rules

/-- The pseudo-classes that contribute pick the same selectors as the pseudo state. -/
theorem picks_realMask (rules : List MatchedRule) (mask : PseudoMask) :
    picks (Stylist.realMask rules mask) rules = picks mask rules := by
  obtain ⟨implies, keeps⟩ := contributing_narrower mask rules
  exact applicableIndices_of_narrower implies keeps

theorem picks_congr {one other : List MatchedRule}
    (same : one.map unweighed = other.map unweighed) (mask : PseudoMask) :
    picks mask one = picks mask other := by
  rw [picks, picks, ← applicableIndices_unweighed one, ← applicableIndices_unweighed other, same]

end Picks

/-- Rules that differ in their weights only have the same contributing pseudo-classes in two pseudo
states exactly if these pick the same selectors. -/
theorem realMask_eq_iff {one other : List MatchedRule}
    (same : one.map unweighed = other.map unweighed) (mask otherMask : PseudoMask) :
    Stylist.realMask one mask = Stylist.realMask other otherMask ↔
      picks mask one = picks otherMask other := by
  have sameMasks : ∀ places : List Nat, Stylist.contributing (places.filterMap (one[·]?)) =
      Stylist.contributing (places.filterMap (other[·]?)) := by
    have forget : ∀ rules : List MatchedRule,
        Stylist.contributing rules = Stylist.contributing (rules.map unweighed) := by
      intro rules
      rw [Stylist.contributing, Stylist.contributing, List.foldl_map]
      rfl
    intro places
    rw [forget, forget (places.filterMap (other[·]?)), List.map_filterMap, List.map_filterMap]
    simp only [← List.getElem?_map, same]
  constructor
  · intro real
    rw [← picks_realMask, real, picks_congr same, picks_realMask]
  · intro picked
    rw [Stylist.realMask, Stylist.realMask, appliedIn, appliedIn, applicable_eq_filterMap,
      applicable_eq_filterMap]
    exact (sameMasks _).trans (congrArg _ (congrArg _ picked))

theorem DrawnFrom.realMask_congr {known : StyleSheet → Prop}
    (unique : ∀ {one other}, known one → known other → one.id = other.id → one = other)
    {one other : List MatchedRule} (first : DrawnFrom known one) (second : DrawnFrom known other)
    (same : RuleSetKey.ofMatched one = RuleSetKey.ofMatched other) (mask : PseudoMask) :
    Stylist.realMask one mask = Stylist.realMask other mask := by
  have sameRules := DrawnFrom.unweighed_eq unique first second same
  exact (realMask_eq_iff sameRules mask mask).mpr (picks_congr sameRules mask)

/-! ### Nothing applies -/

theorem Merge.isEmpty_add (merge : Merge) (declaration : Declaration) :
    (merge.add declaration).isEmpty = false := by
  have inserted : ∀ property, (merge.properties.insert property declaration).isEmpty = false := by
    intro property
    rw [Table.isEmpty, Table.insert]
    cases merge.properties.entries with
    | nil => rfl
    | cons entry rest =>
        rw [Table.insertIn]
        split
        · rfl
        · rfl
  rw [Merge.add]
  split
  · simp [Merge.isEmpty]
  · simp [Merge.isEmpty, inserted]

/-- Rules that declare something leave something declared. -/
theorem isEmpty_mergeOf {applied : List MatchedRule}
    (declared : ∀ matched ∈ applied, matched.rule.declarations ≠ []) :
    (Stylist.mergeOf applied).isEmpty = true ↔ applied = [] := by
  constructor
  · intro empty
    rcases List.eq_nil_or_concat applied with none | ⟨before, last, rfl⟩
    · exact none
    · exfalso
      rcases List.eq_nil_or_concat last.rule.declarations with none | ⟨some, final, isLast⟩
      · exact declared last (by simp) none
      · simp [Stylist.mergeOf, Merge.apply, isLast, Merge.isEmpty_add] at empty
  · rintro rfl
    rfl

/-- No selector is picked exactly if none is accepted. -/
theorem appliedIn_eq_nil_iff {rules : List MatchedRule} {mask : PseudoMask} :
    appliedIn mask rules = [] ↔
      ∀ matched ∈ rules, matched.selector.acceptsPseudo mask = false := by
  rw [appliedIn, applicable_eq_chosen]
  constructor
  · intro none matched member
    rw [Bool.eq_false_iff]
    intro accepted
    have some : outdone (fun selector => selector.acceptsPseudo mask) matched rules = true := by
      apply List.any_eq_true.mpr
      refine ⟨matched, member, ?_⟩
      rw [Bool.and_eq_true, RuleRef.sameRule_iff]
      exact ⟨⟨rfl, rfl⟩, accepted⟩
    obtain ⟨other, isChosen, -⟩ := exists_chosen some
    rw [none] at isChosen
    cases isChosen
  · intro refused
    rw [List.eq_nil_iff_forall_not_mem]
    intro matched isChosen
    obtain ⟨member, accepted⟩ := chosen_subset isChosen
    rw [refused matched member] at accepted
    cases accepted

/-- Nothing applies exactly if no selector is accepted. -/
theorem appearanceOf_eq_none_iff {rules : List MatchedRule}
    (declared : ∀ matched ∈ rules, matched.rule.declarations ≠ []) (settings : StyleSettings)
    (mask : PseudoMask) :
    appearanceOf settings rules mask = none ↔
      ∀ matched ∈ rules, matched.selector.acceptsPseudo mask = false := by
  have declaredToo : ∀ matched ∈ appliedIn mask rules, matched.rule.declarations ≠ [] := by
    intro matched member
    rw [appliedIn, applicable_eq_chosen] at member
    exact declared matched (chosen_subset member).1
  rw [appearanceOf, ← appliedIn_eq_nil_iff, ← isEmpty_mergeOf declaredToo]
  split
  case isTrue empty => exact ⟨fun _ => empty, fun _ => rfl⟩
  case isFalse full => exact iff_of_false (Option.some_ne_none _) full

namespace Stylist

/-- Every rule that matches declares something. -/
theorem SheetsRead.declared {stylist : Stylist} (read : stylist.SheetsRead) (lineage : Lineage) :
    ∀ matched ∈ stylist.matchLineage lineage, matched.rule.declarations ≠ [] := by
  intro matched member
  obtain ⟨sheet, installed, -, isRule, -⟩ := read.fromInstalled lineage matched member
  rw [(rules_of_parsed (read.parsed installed)).1] at isRule
  exact declarations_of_mem_parseSheet (List.mem_of_getElem? isRule)

/-! ### Lookups in a tree that stays -/

/-- A tree that stays as it is, known by the place that it gives to every key. -/
structure Tree where
  lineage : NodeKey → Lineage
  keyed : ∀ key, (lineage key).key = key

/-- A call that neither changes a sheet nor empties the caches as a whole. -/
inductive TreeCall where
  | resolve (key : NodeKey) (mask : PseudoMask)
  | invalidate (key : NodeKey)
  | invalidateSubtree (subtree : List NodeKey)
  deriving Repr, DecidableEq, Inhabited

/-- A lookup with the style that it was given. -/
structure Answer where
  key : NodeKey
  mask : PseudoMask
  style : ResolvedStyle
  deriving Repr, DecidableEq, Inhabited

/-- The stylist after a call. -/
def TreeCall.apply (tree : Tree) (stylist : Stylist) : TreeCall → Stylist
  | .resolve key mask => (stylist.resolve (tree.lineage key) mask).2
  | .invalidate key => stylist.invalidate key
  | .invalidateSubtree subtree => stylist.invalidateSubtree subtree

/-- What a call answers, if it is a lookup. -/
def TreeCall.answer? (tree : Tree) (stylist : Stylist) : TreeCall → Option Answer
  | .resolve key mask => some ⟨key, mask, (stylist.resolve (tree.lineage key) mask).1⟩
  | .invalidate _ => none
  | .invalidateSubtree _ => none

/-- The answers to the lookups among calls. -/
def answers (tree : Tree) (stylist : Stylist) : List TreeCall → List Answer
  | [] => []
  | call :: later =>
      (call.answer? tree stylist).toList ++ answers tree (call.apply tree stylist) later

/-! ### Held instances -/

/-- Held styles are held for their contributing pseudo-classes as well. -/
def RealHeld (known : StyleSheet → Prop)
    (held : RuleSetKey → PseudoMask → Option ResolvedStyle) : Prop :=
  ∀ set mask style, held set mask = some style → ∀ rules, DrawnFrom known rules →
    RuleSetKey.ofMatched rules = set → held set (realMask rules mask) = some style

/-- Held styles are held for their contributing pseudo-classes as well, and an instance belongs to
one set of matched rules and one choice from it. -/
structure HeldOnce (known : StyleSheet → Prop)
    (held : RuleSetKey → PseudoMask → Option ResolvedStyle) (nextSerial : Nat) : Prop where
  real : ∀ set mask style, held set mask = some style → ∀ rules, DrawnFrom known rules →
    RuleSetKey.ofMatched rules = set → held set (realMask rules mask) = some style
  serials : ∀ set mask made, held set mask = some (some made) → made.serial < nextSerial
  apart : ∀ set mask made other otherMask madeToo, held set mask = some (some made) →
    held other otherMask = some (some madeToo) → made.serial = madeToo.serial → set = other ∧
      ∀ rules, DrawnFrom known rules → RuleSetKey.ofMatched rules = set →
        realMask rules mask = realMask rules otherMask

section HeldOnce

variable {stylist : Stylist} {known : StyleSheet → Prop} {rules : List MatchedRule}
  {mask : PseudoMask} {style : ResolvedStyle} {masks : List PseudoMask} {nextSerial : Nat}

theorem heldOnce_none : HeldOnce known (fun _ _ => none) nextSerial := by
  constructor
  · intro set mask style isHeld
    cases isHeld
  · intro set mask made isHeld
    cases isHeld
  · intro set mask made other otherMask madeToo isHeld
    cases isHeld

theorem Finds.grows (finds : Finds stylist rules mask style masks nextSerial) :
    stylist.nextSerial ≤ nextSerial := by
  cases finds with
  | kept => exact Nat.le_refl _
  | aliased => exact Nat.le_refl _
  | made =>
      obtain ⟨serial, grows, after, -⟩ :=
        stylist.materialize_spec (mergeOf (appliedIn mask rules))
      rw [after]
      exact grows

/-- A style that is noted is held already for its contributing pseudo-classes, or has a new serial
number. -/
theorem Finds.origin (finds : Finds stylist rules mask style masks nextSerial)
    (noted : masks ≠ []) :
    stylist.held? (RuleSetKey.ofMatched rules) (realMask rules mask) = some style ∨
      ∀ made, style = some made →
        stylist.nextSerial ≤ made.serial ∧ made.serial < nextSerial := by
  cases finds with
  | kept => exact absurd rfl noted
  | aliased _ _ held => exact Or.inl held
  | made =>
      obtain ⟨serial, -, after, -, isFresh⟩ :=
        stylist.materialize_spec (mergeOf (appliedIn mask rules))
      rw [after]
      exact Or.inr isFresh

/-- Where aliasing is on, a style that is found is held for its contributing pseudo-classes from
then on. -/
theorem RealHeld.held_real (real : RealHeld known stylist.held?)
    (drawn : DrawnFrom known rules) (aliasing : stylist.settings.aliasPseudoStates = true)
    (finds : Finds stylist rules mask style masks nextSerial) :
    withNoted stylist.held? (RuleSetKey.ofMatched rules) masks style (RuleSetKey.ofMatched rules)
      (realMask rules mask) = some style := by
  cases finds with
  | kept held =>
      rw [withNoted_nil]
      exact real _ _ _ held rules drawn rfl
  | aliased _ isNew held => exact (Finds.aliased aliasing isNew held).stays held
  | made => simp [withNoted, aliasing]

/-- For equal sets of matched rules too, the pseudo states for which a style is noted lead to one
choice of rules. -/
theorem Finds.realMask_congr
    (unique : ∀ {one other}, known one → known other → one.id = other.id → one = other)
    (finds : Finds stylist rules mask style masks nextSerial) (drawn : DrawnFrom known rules)
    {rulesToo : List MatchedRule} (drawnToo : DrawnFrom known rulesToo)
    (sets : RuleSetKey.ofMatched rulesToo = RuleSetKey.ofMatched rules) {other : PseudoMask}
    (noted : other ∈ masks) : realMask rulesToo other = realMask rules mask := by
  rw [drawnToo.realMask_congr unique drawn sets, finds.realMask_eq noted]

/-- What a lookup notes is held for its contributing pseudo-classes as well. -/
theorem RealHeld.noted
    (unique : ∀ {one other}, known one → known other → one.id = other.id → one = other)
    (aliasing : stylist.settings.aliasPseudoStates = true) (real : RealHeld known stylist.held?)
    (drawn : DrawnFrom known rules) (finds : Finds stylist rules mask style masks nextSerial) :
    RealHeld known (withNoted stylist.held? (RuleSetKey.ofMatched rules) masks style) := by
  intro set other answer held rulesToo drawnToo sets
  rcases withNoted_cases held with ⟨rfl, noted, rfl⟩ | before
  · rw [finds.realMask_congr unique drawn drawnToo sets noted]
    exact real.held_real drawn aliasing finds
  · exact finds.stays (real _ _ _ before rulesToo drawnToo sets)

/-- An instance that is held after a lookup was held before for an equivalent pseudo state, or it
is new and noted by the lookup. -/
theorem Finds.source
    (unique : ∀ {one other}, known one → known other → one.id = other.id → one = other)
    (finds : Finds stylist rules mask style masks nextSerial) (drawn : DrawnFrom known rules)
    {set : RuleSetKey} {other : PseudoMask} {made : StyleInstance}
    (held : withNoted stylist.held? (RuleSetKey.ofMatched rules) masks style set other =
      some (some made)) :
    (∃ before, stylist.held? set before = some (some made) ∧
      ∀ rulesToo, DrawnFrom known rulesToo → RuleSetKey.ofMatched rulesToo = set →
        realMask rulesToo before = realMask rulesToo other) ∨
    (set = RuleSetKey.ofMatched rules ∧ other ∈ masks ∧
      stylist.nextSerial ≤ made.serial ∧ made.serial < nextSerial) := by
  rcases withNoted_cases held with ⟨rfl, noted, isStyle⟩ | before
  · rcases finds.origin (List.ne_nil_of_mem noted) with held | isFresh
    · refine Or.inl ⟨_, held.trans (congrArg some isStyle.symm), ?_⟩
      intro rulesToo drawnToo sets
      rw [finds.realMask_congr unique drawn drawnToo sets noted,
        drawnToo.realMask_congr unique drawn sets, realMask_realMask]
    · exact Or.inr ⟨rfl, noted, isFresh made isStyle.symm⟩
  · exact Or.inl ⟨other, before, fun _ _ _ => rfl⟩

/-- What a lookup notes leaves instances held as they should be. -/
theorem HeldOnce.noted
    (unique : ∀ {one other}, known one → known other → one.id = other.id → one = other)
    (aliasing : stylist.settings.aliasPseudoStates = true)
    (once : HeldOnce known stylist.held? stylist.nextSerial) (drawn : DrawnFrom known rules)
    (finds : Finds stylist rules mask style masks nextSerial) :
    HeldOnce known (withNoted stylist.held? (RuleSetKey.ofMatched rules) masks style)
      nextSerial := by
  constructor
  · exact RealHeld.noted unique aliasing once.real drawn finds
  · intro set other made held
    rcases finds.source unique drawn held with ⟨before, heldBefore, -⟩ | ⟨-, -, -, small⟩
    · exact Nat.lt_of_lt_of_le (once.serials _ _ _ heldBefore) finds.grows
    · exact small
  · intro set one made other two madeToo first second same
    -- Serial numbers tell what is new from what was held before.
    rcases finds.source unique drawn first with
      ⟨before, held, equivalent⟩ | ⟨rfl, noted, isNew, -⟩ <;>
    rcases finds.source unique drawn second with
      ⟨beforeToo, heldToo, equivalentToo⟩ | ⟨isSet, notedToo, isNewToo, -⟩
    · obtain ⟨rfl, choice⟩ := once.apart _ _ _ _ _ _ held heldToo same
      refine ⟨rfl, fun rulesToo drawnToo sets => ?_⟩
      rw [← equivalent rulesToo drawnToo sets, choice rulesToo drawnToo sets,
        equivalentToo rulesToo drawnToo sets]
    · have old := once.serials _ _ _ held
      omega
    · have old := once.serials _ _ _ heldToo
      omega
    · refine ⟨isSet.symm, fun rulesToo drawnToo sets => ?_⟩
      rw [finds.realMask_congr unique drawn drawnToo sets noted,
        finds.realMask_congr unique drawn drawnToo sets notedToo]

/-- Two styles that are held for the sets of two lists of rules are one instance exactly if neither
is valid, or the sets are equal and the pseudo states pick the same selectors. -/
theorem HeldOnce.same_iff {held : RuleSetKey → PseudoMask → Option ResolvedStyle}
    (once : HeldOnce known held nextSerial)
    (unique : ∀ {one other}, known one → known other → one.id = other.id → one = other)
    {rulesToo : List MatchedRule} (drawn : DrawnFrom known rules)
    (drawnToo : DrawnFrom known rulesToo) {one other : PseudoMask} {style styleToo : ResolvedStyle}
    (isHeld : held (RuleSetKey.ofMatched rules) one = some style)
    (isHeldToo : held (RuleSetKey.ofMatched rulesToo) other = some styleToo) :
    style.same styleToo = true ↔
      (style = none ∧ styleToo = none) ∨
        (RuleSetKey.ofMatched rules = RuleSetKey.ofMatched rulesToo ∧
          picks one rules = picks other rulesToo) := by
  constructor
  · intro same
    rw [ResolvedStyle.same, beq_iff_eq] at same
    cases style with
    | none =>
        rw [Option.map_none, eq_comm, Option.map_eq_none_iff] at same
        exact Or.inl ⟨rfl, same⟩
    | some made =>
        cases styleToo with
        | none => cases same
        | some madeToo =>
            obtain ⟨sets, choice⟩ := once.apart _ _ _ _ _ _ isHeld isHeldToo
              (Option.some_inj.mp same)
            refine Or.inr ⟨sets, ?_⟩
            rw [← realMask_eq_iff (DrawnFrom.unweighed_eq unique drawn drawnToo sets),
              choice rules drawn rfl, DrawnFrom.realMask_congr unique drawn drawnToo sets]
  · rintro (⟨rfl, rfl⟩ | ⟨sets, picked⟩)
    · rfl
    · have real := once.real _ _ _ isHeld rules drawn rfl
      have realToo := once.real _ _ _ isHeldToo rulesToo drawnToo rfl
      rw [← realMask_eq_iff (DrawnFrom.unweighed_eq unique drawn drawnToo sets)] at picked
      rw [← sets, ← picked, real, Option.some_inj] at realToo
      rw [ResolvedStyle.same, realToo, beq_self_eq_true]

end HeldOnce

/-! ### Runs -/

section Shares

variable {start stylist : Stylist} {tree : Tree}

/-- What calls keep that start from empty caches: the sheets are those of the start, the rules that
are kept for a node are those that match it, and instances are held as they should be. -/
structure Shares (start : Stylist) (tree : Tree) (stylist : Stylist) : Prop where
  same : SameSheets start stylist
  follows : stylist.SetsFollow
  matched : ∀ key rules, stylist.matchedRules.find? key = some rules →
    rules = start.matchLineage (tree.lineage key)
  right : HeldRight start.settings start.Installed stylist.held?
  once : HeldOnce start.Installed stylist.held? stylist.nextSerial

theorem shares_start (empty : start.clear = start) : Shares start tree start := by
  have matched : start.matchedRules = ∅ := (congrArg matchedRules empty).symm
  have sets : start.nodeRuleSets = ∅ := (congrArg nodeRuleSets empty).symm
  have held : start.held? = fun _ _ => none := by
    funext set mask
    rw [held?, ← empty]
    rfl
  constructor
  · exact ⟨rfl, rfl, rfl, rfl⟩
  · intro key set noted
    rw [sets] at noted
    cases noted
  · intro key rules kept
    rw [matched] at kept
    cases kept
  · intro set mask style isHeld
    rw [held] at isHeld
    cases isHeld
  · rw [held]
    exact heldOnce_none

theorem Shares.rulesFor (shares : Shares start tree stylist) (key : NodeKey) :
    stylist.rulesFor (tree.lineage key) = start.matchLineage (tree.lineage key) := by
  rw [Stylist.rulesFor, tree.keyed, shares.same.matchLineage]
  cases kept : stylist.matchedRules.find? key with
  | some rules => exact shares.matched key rules kept
  | none => rfl

/-- A lookup keeps what calls keep and what is held, and its answer is held from then on. -/
theorem Shares.resolve (read : start.SheetsRead)
    (aliasing : start.settings.aliasPseudoStates = true) (shares : Shares start tree stylist)
    {key : NodeKey} (heeds : (tree.lineage key).node.ignoresSheets = false) (mask : PseudoMask) :
    Shares start tree (stylist.resolve (tree.lineage key) mask).2 ∧
      (∀ set other style, stylist.held? set other = some style →
        (stylist.resolve (tree.lineage key) mask).2.held? set other = some style) ∧
      (stylist.resolve (tree.lineage key) mask).2.held?
        (RuleSetKey.ofMatched (start.matchLineage (tree.lineage key))) mask =
          some (stylist.resolve (tree.lineage key) mask).1 := by
  have resolved := shares.follows.resolve heeds mask
  generalize stylist.resolve (tree.lineage key) mask = outcome at resolved
  obtain ⟨masks, finds, held⟩ := resolved.found
  have matched := resolved.matched
  rw [shares.rulesFor] at finds held matched
  have drawn := read.fromInstalled (tree.lineage key)
  have unique : ∀ {one other}, start.Installed one → start.Installed other →
      one.id = other.id → one = other := fun first second => read.unique first second
  have right := shares.right
  have aliasingNow := aliasing
  rw [← shares.same.settings] at right aliasingNow
  refine ⟨⟨shares.same.trans resolved.same, resolved.follows shares.follows, ?_, ?_, ?_⟩, ?_, ?_⟩
  · intro other rules kept
    rw [matched, tree.keyed] at kept
    split at kept
    case isTrue isKey => rw [← isKey, Option.some_inj.mp kept]
    case isFalse => exact shares.matched other rules kept
  · rw [held, ← shares.same.settings]
    exact right.noted unique drawn finds
  · rw [held]
    exact shares.once.noted unique aliasingNow drawn finds
  · intro set other style before
    rw [held]
    exact finds.stays before
  · rw [held]
    exact finds.held

theorem Shares.invalidateSubtree (shares : Shares start tree stylist) (subtree : List NodeKey) :
    Shares start tree (stylist.invalidateSubtree subtree) ∧
      (stylist.invalidateSubtree subtree).held? = stylist.held? := by
  have taken := invalidateSubtree_takenOut subtree stylist
  obtain ⟨stats, after⟩ := invalidateSubtree_eq subtree stylist
  have held : (stylist.invalidateSubtree subtree).held? = stylist.held? := by
    rw [after]
    rfl
  have sheets : SameSheets stylist (stylist.invalidateSubtree subtree) := by
    rw [after]
    exact ⟨rfl, rfl, rfl, rfl⟩
  refine ⟨⟨shares.same.trans sheets, shares.follows.invalidateSubtree subtree, ?_, ?_, ?_⟩, held⟩
  · intro key rules kept
    exact shares.matched key rules (taken.matched key rules kept).2
  · rw [held]
    exact shares.right
  · rw [held, taken.nextSerial]
    exact shares.once

/-- A call keeps what calls keep and what is held, and the answer to a lookup of a node that heeds
sheets is held from then on. -/
theorem Shares.step (read : start.SheetsRead)
    (aliasing : start.settings.aliasPseudoStates = true) (shares : Shares start tree stylist)
    (call : TreeCall) :
    Shares start tree (call.apply tree stylist) ∧
      (∀ set mask style, stylist.held? set mask = some style →
        (call.apply tree stylist).held? set mask = some style) ∧
      ∀ answer ∈ call.answer? tree stylist,
        (tree.lineage answer.key).node.ignoresSheets = false →
          (call.apply tree stylist).held?
            (RuleSetKey.ofMatched (start.matchLineage (tree.lineage answer.key)))
            answer.mask = some answer.style := by
  cases call with
  | resolve key mask =>
      cases heeds : (tree.lineage key).node.ignoresSheets with
      | true =>
          have unchanged : stylist.resolve (tree.lineage key) mask = (none, stylist) := by
            rw [Stylist.resolve, heeds, if_pos rfl]
          rw [TreeCall.apply, unchanged]
          refine ⟨shares, fun _ _ _ held => held, ?_⟩
          rintro answer ⟨⟩ heedsToo
          rw [heeds] at heedsToo
          cases heedsToo
      | false =>
          obtain ⟨after, stays, isHeld⟩ := shares.resolve read aliasing heeds mask
          refine ⟨after, stays, ?_⟩
          rintro answer ⟨⟩ _
          exact isHeld
  | invalidate key =>
      obtain ⟨after, held⟩ := shares.invalidateSubtree [key]
      exact ⟨after, fun _ _ _ before => (congrFun (congrFun held _) _).trans before,
        fun _ member => by cases member⟩
  | invalidateSubtree subtree =>
      obtain ⟨after, held⟩ := shares.invalidateSubtree subtree
      exact ⟨after, fun _ _ _ before => (congrFun (congrFun held _) _).trans before,
        fun _ member => by cases member⟩

/-- In whatever order calls come, the answers to lookups of nodes that heed sheets are all held at
the end. -/
theorem Shares.run (read : start.SheetsRead)
    (aliasing : start.settings.aliasPseudoStates = true) (calls : List TreeCall) :
    ∀ {stylist : Stylist}, Shares start tree stylist →
      ∃ last, Shares start tree last ∧
        (∀ set mask style, stylist.held? set mask = some style →
          last.held? set mask = some style) ∧
        ∀ answer ∈ answers tree stylist calls,
          (tree.lineage answer.key).node.ignoresSheets = false →
            last.held? (RuleSetKey.ofMatched (start.matchLineage (tree.lineage answer.key)))
              answer.mask = some answer.style := by
  induction calls with
  | nil =>
      intro stylist shares
      exact ⟨stylist, shares, fun _ _ _ held => held,
        fun _ member => absurd member List.not_mem_nil⟩
  | cons call later inductionHypothesis =>
      intro stylist shares
      obtain ⟨after, stays, isAnswered⟩ := shares.step read aliasing call
      obtain ⟨last, final, staysLater, areAnswered⟩ := inductionHypothesis after
      refine ⟨last, final, fun set mask style held => staysLater _ _ _ (stays _ _ _ held), ?_⟩
      intro answer member heeds
      rcases List.mem_append.mp member with here | further
      · exact staysLater _ _ _ (isAnswered answer (Option.mem_toList.mp here) heeds)
      · exact areAnswered answer further heeds

end Shares

/-- In a stylist with aliasing, any sheets and empty caches, and with a tree that stays, every
lookup of a node that heeds sheets gets the appearance that its rules lead to, which is nothing
exactly if no matched rule has a selector that the pseudo state accepts; and two such lookups get
the same instance exactly if both get nothing, or the nodes matched the same selectors and the
pseudo states pick the same of them. -/
theorem Reachable.instances_shared {stylist : Stylist} (reachable : stylist.Reachable)
    (empty : stylist.clear = stylist) (aliasing : stylist.settings.aliasPseudoStates = true)
    (tree : Tree) (calls : List TreeCall) {one other : Answer}
    (first : one ∈ answers tree stylist calls) (second : other ∈ answers tree stylist calls)
    (heeds : (tree.lineage one.key).node.ignoresSheets = false)
    (heedsToo : (tree.lineage other.key).node.ignoresSheets = false) :
    one.style.appearance? = stylist.freshAppearance (tree.lineage one.key) one.mask ∧
      (one.style = none ↔ ∀ matched ∈ stylist.matchLineage (tree.lineage one.key),
        matched.selector.acceptsPseudo one.mask = false) ∧
      (one.style.same other.style = true ↔
        (one.style = none ∧ other.style = none) ∨
          (RuleSetKey.ofMatched (stylist.matchLineage (tree.lineage one.key)) =
              RuleSetKey.ofMatched (stylist.matchLineage (tree.lineage other.key)) ∧
            picks one.mask (stylist.matchLineage (tree.lineage one.key)) =
              picks other.mask (stylist.matchLineage (tree.lineage other.key)))) := by
  have read := reachable.sound.read
  have unique : ∀ {one other}, stylist.Installed one → stylist.Installed other →
      one.id = other.id → one = other := fun first second => read.unique first second
  obtain ⟨last, final, -, held⟩ := (shares_start empty).run read aliasing calls
  have isHeld := held one first heeds
  have isHeldToo := held other second heedsToo
  have drawn := read.fromInstalled (tree.lineage one.key)
  have drawnToo := read.fromInstalled (tree.lineage other.key)
  have declared := read.declared (tree.lineage one.key)
  have appearance := final.right _ _ _ isHeld _ drawn rfl
  rw [freshAppearance, heeds]
  refine ⟨appearance, ?_, final.once.same_iff unique drawn drawnToo isHeld isHeldToo⟩
  rw [← appearanceOf_eq_none_iff declared stylist.settings, ← appearance,
    ResolvedStyle.appearance?, Option.map_eq_none_iff]

/-- A sheet of the application that knows hovered buttons only. -/
def hoverSheet : Stylist := (Call.setAppSheet "Button:hover { width: 5px; }").apply (new {})

/-- Every key is a button at the top. -/
def buttons : Tree where
  lineage key := { node := ⟨key, "Button", "", false⟩ }
  keyed _ := rfl

/-- One button is looked up hovered and pressed, another one hovered. -/
def hoverCalls : List TreeCall :=
  [.resolve (.widget 1) (.ofList [.hover, .pressed]), .invalidate (.widget 1),
    .resolve (.widget 2) (.single .hover)]

theorem instances_shared_hoverCalls :
    hoverSheet.Reachable ∧ hoverSheet.clear = hoverSheet ∧
      hoverSheet.settings.aliasPseudoStates = true ∧
      (answers buttons hoverSheet hoverCalls).map (fun answer => (answer.key, answer.mask)) =
        [(.widget 1, .ofList [.hover, .pressed]), (.widget 2, .single .hover)] ∧
      ∀ one ∈ answers buttons hoverSheet hoverCalls,
        ∀ other ∈ answers buttons hoverSheet hoverCalls,
          one.style ≠ none ∧ one.style.same other.style = true := by
  have reachable : hoverSheet.Reachable := by
    unfold hoverSheet
    exact .call _ (.new {})
  have lookups : (answers buttons hoverSheet hoverCalls).map
      (fun answer => (answer.key, answer.mask)) =
        [(.widget 1, .ofList [.hover, .pressed]), (.widget 2, .single .hover)] := rfl
  have matching : ∀ one ∈ (answers buttons hoverSheet hoverCalls).map
        (fun answer => (answer.key, answer.mask)),
      ∀ other ∈ (answers buttons hoverSheet hoverCalls).map
          (fun answer => (answer.key, answer.mask)),
        (¬ ∀ matched ∈ hoverSheet.matchLineage (buttons.lineage one.1),
            matched.selector.acceptsPseudo one.2 = false) ∧
          RuleSetKey.ofMatched (hoverSheet.matchLineage (buttons.lineage one.1)) =
            RuleSetKey.ofMatched (hoverSheet.matchLineage (buttons.lineage other.1)) ∧
          picks one.2 (hoverSheet.matchLineage (buttons.lineage one.1)) =
            picks other.2 (hoverSheet.matchLineage (buttons.lineage other.1)) := by
    rw [lookups]
    decide +kernel
  refine ⟨reachable, rfl, rfl, lookups, fun one first other second => ?_⟩
  obtain ⟨accepted, sets, picked⟩ := matching _ (List.mem_map_of_mem first) _
    (List.mem_map_of_mem second)
  obtain ⟨-, nothing, shared⟩ :=
    reachable.instances_shared rfl rfl buttons hoverCalls first second rfl rfl
  exact ⟨mt nothing.mp accepted, shared.mpr (Or.inr ⟨sets, picked⟩)⟩

end Stylist

end StyledWidgets.Style
