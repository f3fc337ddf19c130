/-
Module: StyledWidgets.Proofs.CascadeWinners
Purpose: Which declarations the cascade picks. A rule that matched through several selectors counts
  once, with the strongest of those that are accepted; for every property the strongest rule that
  declares it wins, and the background layers of all rules stack in ascending order up to a cut.
Main exports: AppliedRule, AppliedRule.Applies, Wins, stackedLayers, Merge.Picks,
  Stylist.Reachable.merge_picks
-/
import Mathlib.Data.List.Induction
import Mathlib.Data.List.TakeWhile
import StyledWidgets.Proofs.IndexedMatching

namespace StyledWidgets.Style

open StyledWidgets.Sheet

/-! ### The rules that apply -/

/-- A rule of a sheet with its strength. -/
structure AppliedRule where
  sheet : SheetId
  rule : StyleRule
  weight : CascadeWeight
  deriving Repr, DecidableEq, Inhabited

/-- The matched selector is one of the rule, and it is accepted in a pseudo state. -/
def AppliedRule.AcceptedThrough (applied : AppliedRule) (mask : PseudoMask)
    (matched : MatchedRule) : Prop :=
  matched.ref.sheet = applied.sheet ∧ matched.rule = applied.rule ∧
    matched.selector.acceptsPseudo mask = true

/-- A rule applies in a pseudo state if one of its matched selectors is accepted. Its weight is the
greatest one of an accepted selector. -/
structure AppliedRule.Applies (applied : AppliedRule) (mask : PseudoMask)
    (matched : List MatchedRule) : Prop where
  accepted : ∃ through ∈ matched, applied.AcceptedThrough mask through ∧
    through.weight = applied.weight
  greatest : ∀ through ∈ matched, applied.AcceptedThrough mask through →
    ¬applied.weight.rank < through.weight.rank

/-! ### What rules in ascending order say -/

/-- The rule has a declaration of the property. -/
def AppliedRule.Declares (applied : AppliedRule) (property : Property) : Prop :=
  ∃ declaration ∈ applied.rule.declarations, declaration.property = property

/-- The last declaration of a property. -/
def lastOf (property : Property) (declarations : List Declaration) : Option Declaration :=
  (declarations.filter fun declaration => declaration.property == property).getLast?

/-- The declaration is the last one of the property in the strongest rule that has any. -/
def Wins (rules : List AppliedRule) (property : Property) (declaration : Declaration) : Prop :=
  ∃ applied ∈ rules, lastOf property applied.rule.declarations = some declaration ∧
    ∀ other ∈ rules, other.Declares property → ¬applied.weight.rank < other.weight.rank

/-- The background declarations of rules, one rule after the other. -/
def stackedLayers (rules : List AppliedRule) : List Declaration :=
  rules.flatMap fun applied =>
    applied.rule.declarations.filter fun declaration => declaration.property == .background

/-- Weaker layers stay below a `none`: the property that asks for it is declared, and the first
value of the declaration that wins is not `false`. -/
def KeepsLayers (rules : List AppliedRule) : Prop :=
  ∃ declaration, Wins rules .inheritBackground declaration ∧
    declaration.values.head? ≠ some (.keyword .falseWord)

/-- Declarations laid over each other are those that rules in ascending order lead to. -/
structure Merge.Picks (merge : Merge) (rules : List AppliedRule) : Prop where
  declared : ∀ property, property ≠ .background → ∀ declaration,
    merge.get? property = some declaration ↔ Wins rules property declaration
  absent : ∀ property, property ≠ .background →
    (merge.get? property = none ↔ ∀ applied ∈ rules, ¬applied.Declares property)
  kept : KeepsLayers rules →
    merge.backgrounds = (stackedLayers rules).filter fun layer => !isNone layer
  cut : ¬KeepsLayers rules → ∃ below, stackedLayers rules = below ++ merge.backgrounds ∧
    (∀ layer ∈ merge.backgrounds, isNone layer = false) ∧
      ∀ layer ∈ below.getLast?, isNone layer = true

/-! ### Laying declarations over each other -/

theorem Merge.get?_add (merge : Merge) (declaration : Declaration) {property : Property}
    (plain : property ≠ .background) :
    (merge.add declaration).get? property =
      if declaration.property = property then some declaration else merge.get? property := by
  rw [add]
  split
  case h_1 isLayer =>
    rw [isLayer, if_neg (Ne.symm plain)]
    rfl
  case h_2 => exact Table.find?_insert ..

theorem Merge.layers_add (merge : Merge) (declaration : Declaration) :
    (merge.add declaration).layers =
      merge.layers ++ [declaration].filter fun entry => entry.property == .background := by
  rw [add]
  split
  case h_1 isLayer => simp [isLayer]
  case h_2 other => simp [show declaration.property ≠ .background from other]

theorem lastOf_append (property : Property) (weaker stronger : List Declaration) :
    lastOf property (weaker ++ stronger) =
      (lastOf property stronger).or (lastOf property weaker) := by
  rw [lastOf, List.filter_append, List.getLast?_append]
  rfl

theorem Merge.get?_apply (declarations : List Declaration) {property : Property}
    (plain : property ≠ .background) :
    ∀ merge : Merge, (merge.apply declarations).get? property =
      (lastOf property declarations).or (merge.get? property) := by
  induction declarations with
  | nil => exact fun _ => rfl
  | cons declaration later inductionHypothesis =>
      intro merge
      have single : lastOf property [declaration] =
          if declaration.property = property then some declaration else none := by
        by_cases same : declaration.property = property <;> simp [lastOf, same]
      rw [apply, List.foldl_cons, ← apply, inductionHypothesis, get?_add merge declaration plain,
        ← List.singleton_append, lastOf_append, single, Option.or_assoc]
      split <;> rfl

theorem Merge.layers_apply (declarations : List Declaration) :
    ∀ merge : Merge, (merge.apply declarations).layers =
      merge.layers ++ declarations.filter fun entry => entry.property == .background := by
  induction declarations with
  | nil =>
      intro merge
      simp [apply]
  | cons declaration later inductionHypothesis =>
      intro merge
      rw [apply, List.foldl_cons, ← apply, inductionHypothesis, layers_add, List.append_assoc,
        ← List.filter_append, List.singleton_append]

/-- Rules are laid over each other declaration by declaration. -/
theorem mergeOf_eq_apply (applied : List MatchedRule) :
    Stylist.mergeOf applied =
      ({} : Merge).apply (applied.flatMap fun matched => matched.rule.declarations) := by
  rw [Stylist.mergeOf, Merge.apply, List.foldl_flatMap]
  rfl

/-! ### Winners -/

section Winners

variable {rules : List AppliedRule} {property : Property} {declaration : Declaration}

theorem lastOf_eq_none {declarations : List Declaration} :
    lastOf property declarations = none ↔
      ∀ declaration ∈ declarations, declaration.property ≠ property := by
  simp [lastOf]

theorem AppliedRule.not_declares_iff {applied : AppliedRule} :
    ¬applied.Declares property ↔ lastOf property applied.rule.declarations = none := by
  rw [lastOf_eq_none, Declares]
  push Not
  rfl

/-- The last declaration of a property in rules in ascending order is the one that wins. -/
theorem lastOf_eq_some_iff_wins
    (ascending : rules.Pairwise fun a b => a.weight.rank < b.weight.rank) :
    lastOf property (rules.flatMap fun applied => applied.rule.declarations) = some declaration ↔
      Wins rules property declaration := by
  induction rules using List.reverseRecOn with
  | nil => simp [lastOf, Wins]
  | append_singleton weaker strongest inductionHypothesis =>
      rw [List.pairwise_append] at ascending
      obtain ⟨weakerAscending, -, below⟩ := ascending
      rw [List.flatMap_append, List.flatMap_singleton, lastOf_append]
      cases last : lastOf property strongest.rule.declarations with
      | some found =>
          -- The strongest rule declares the property, so no other one can win.
          rw [Option.some_or, Option.some_inj]
          constructor
          · rintro rfl
            refine ⟨strongest, by simp, last, fun other member _ => ?_⟩
            rcases List.mem_append.mp member with before | here
            · exact List.lt_asymm (below other before strongest (List.mem_singleton_self _))
            · rw [List.mem_singleton.mp here]
              exact List.lt_irrefl _
          · rintro ⟨applied, member, isLast, greatest⟩
            have declares : strongest.Declares property := by
              by_contra silent
              rw [AppliedRule.not_declares_iff, last] at silent
              cases silent
            rcases List.mem_append.mp member with before | here
            · exact absurd (below applied before strongest (List.mem_singleton_self _))
                (greatest strongest (by simp) declares)
            · rw [List.mem_singleton.mp here, last, Option.some_inj] at isLast
              exact isLast
      | none =>
          rw [Option.none_or, inductionHypothesis weakerAscending]
          have silent := AppliedRule.not_declares_iff.mpr last
          constructor
          · rintro ⟨applied, member, isLast, greatest⟩
            refine ⟨applied, List.mem_append_left _ member, isLast, fun other isRule declares => ?_⟩
            rcases List.mem_append.mp isRule with before | here
            · exact greatest other before declares
            · rw [List.mem_singleton.mp here] at declares
              exact absurd declares silent
          · rintro ⟨applied, member, isLast, greatest⟩
            rcases List.mem_append.mp member with before | here
            · exact ⟨applied, before, isLast, fun other isRule =>
                greatest other (List.mem_append_left _ isRule)⟩
            · rw [List.mem_singleton.mp here, last] at isLast
              cases isLast

end Winners

/-! ### The cut of the layers -/

theorem inheritsBackground_iff {merge : Merge} :
    merge.inheritsBackground = true ↔ ∃ declaration,
      merge.get? .inheritBackground = some declaration ∧
        declaration.values.head? ≠ some (.keyword .falseWord) := by
  rw [Merge.inheritsBackground]
  cases merge.get? .inheritBackground with
  | none => simp
  | some declaration => simp

/-- Without inheritance the layers above the last `none` are left. -/
theorem backgrounds_cut {merge : Merge} (cut : merge.inheritsBackground = false) :
    ∃ below, merge.layers = below ++ merge.backgrounds ∧
      (∀ layer ∈ merge.backgrounds, isNone layer = false) ∧
        ∀ layer ∈ below.getLast?, isNone layer = true := by
  have shape : merge.backgrounds =
      (merge.layers.reverse.takeWhile fun layer => !isNone layer).reverse := by
    rw [Merge.backgrounds, cut]
    rfl
  refine ⟨(merge.layers.reverse.dropWhile fun layer => !isNone layer).reverse, ?_, ?_, ?_⟩
  · rw [shape, ← List.reverse_append, List.takeWhile_append_dropWhile, List.reverse_reverse]
  · intro layer member
    rw [shape, List.mem_reverse] at member
    have isLayer := List.mem_takeWhile_imp member
    simpa using isLayer
  · intro layer last
    rw [List.getLast?_reverse] at last
    have stops := List.head?_dropWhile_not (fun layer => !isNone layer) merge.layers.reverse
    rw [Option.mem_def] at last
    rw [last] at stops
    simpa using stops

/-- Declarations of rules in ascending order, laid over each other, are those that the rules lead
to. -/
theorem picks_apply {rules : List AppliedRule}
    (ascending : rules.Pairwise fun a b => a.weight.rank < b.weight.rank) :
    (({} : Merge).apply (rules.flatMap fun applied => applied.rule.declarations)).Picks rules := by
  have winners : ∀ property, property ≠ .background → ∀ declaration,
      (({} : Merge).apply (rules.flatMap fun applied => applied.rule.declarations)).get? property =
        some declaration ↔ Wins rules property declaration := by
    intro property plain declaration
    rw [Merge.get?_apply _ plain, ← lastOf_eq_some_iff_wins ascending]
    exact iff_of_eq (congrArg (· = some declaration) Option.or_none)
  have layers : (({} : Merge).apply
      (rules.flatMap fun applied => applied.rule.declarations)).layers = stackedLayers rules := by
    rw [Merge.layers_apply, stackedLayers, List.filter_flatMap]
    rfl
  have keeps : (({} : Merge).apply
      (rules.flatMap fun applied => applied.rule.declarations)).inheritsBackground = true ↔
        KeepsLayers rules := by
    rw [inheritsBackground_iff, KeepsLayers]
    exact exists_congr fun declaration =>
      and_congr_left fun _ => winners .inheritBackground (by decide) declaration
  constructor
  · exact winners
  · intro property plain
    rw [Merge.get?_apply _ plain]
    refine Iff.trans (iff_of_eq (congrArg (· = none) Option.or_none)) ?_
    rw [lastOf_eq_none]
    simp only [List.mem_flatMap, AppliedRule.Declares]
    grind
  · intro kept
    rw [Merge.backgrounds, if_pos (keeps.mpr kept), layers]
  · intro notKept
    rw [← layers]
    exact backgrounds_cut (Bool.eq_false_iff.mpr fun inherits => notKept (keeps.mp inherits))

/-! ### Matched selectors in their order -/

/-- A rule through one of its matched selectors. -/
def MatchedRule.applied (matched : MatchedRule) : AppliedRule :=
  ⟨matched.ref.sheet, matched.rule, matched.weight⟩

/-- What makes places in a list of matched selectors speak of rules: the list ascends, references
and weights say where the rule stands, and sheets are known by their level. -/
structure InOrder (matched : List MatchedRule) : Prop where
  ascending : matched.Pairwise fun a b => a.rank < b.rank
  place : ∀ one ∈ matched, one.rule.order = one.ref.rule ∧ one.weight.order = one.ref.rule
  rule : ∀ one ∈ matched, ∀ other ∈ matched, one.ref.sameRule other.ref = true →
    one.rule = other.rule
  sheet : ∀ one ∈ matched, ∀ other ∈ matched, one.weight.level = other.weight.level →
    one.ref.sheet = other.ref.sheet

section Order

variable {accepts : Selector → Bool} {matched : List MatchedRule} {a b : MatchedRule}

theorem chosen_sublist (accepts : Selector → Bool) (matched : List MatchedRule) :
    (chosen accepts matched).Sublist matched := by
  induction matched with
  | nil => exact List.Sublist.refl _
  | cons rule stronger inductionHypothesis =>
      rw [chosen]
      split
      · exact inductionHypothesis.cons_cons rule
      · exact inductionHypothesis.cons rule

/-- A rule is chosen through the last one of its accepted selectors. -/
theorem chosen_last (ascending : matched.Pairwise fun a b => a.rank < b.rank)
    (member : a ∈ chosen accepts matched) (isOne : b ∈ matched)
    (same : b.ref.sameRule a.ref = true) (accepted : accepts b.selector = true) :
    b = a ∨ b.rank < a.rank := by
  induction matched with
  | nil => cases isOne
  | cons rule stronger inductionHypothesis =>
      rw [List.pairwise_cons] at ascending
      have later : a ∈ chosen accepts stronger → b = a ∨ b.rank < a.rank := by
        intro further
        rcases List.mem_cons.mp isOne with isRule | isStronger
        · rw [isRule]
          exact Or.inr (ascending.1 a (chosen_subset further).1)
        · exact inductionHypothesis ascending.2 further isStronger
      rw [chosen] at member
      split at member
      case isFalse => exact later member
      case isTrue taken =>
        rcases List.mem_cons.mp member with isRule | further
        · rcases List.mem_cons.mp isOne with alsoRule | isStronger
          · exact Or.inl (alsoRule.trans isRule.symm)
          · have outdoes : outdone accepts rule stronger = true :=
              List.any_eq_true.mpr ⟨b, isStronger, by rw [← isRule, same, accepted]; rfl⟩
            simp [outdoes] at taken
        · exact later further

/-- No rule is chosen through two selectors. -/
theorem chosen_apart (accepts : Selector → Bool) (matched : List MatchedRule) :
    (chosen accepts matched).Pairwise fun one other => other.ref.sameRule one.ref = false := by
  induction matched with
  | nil => exact List.Pairwise.nil
  | cons rule stronger inductionHypothesis =>
      rw [chosen]
      split
      case isTrue taken =>
        rw [Bool.and_eq_true, Bool.not_eq_true'] at taken
        refine List.pairwise_cons.mpr ⟨fun other member => ?_, inductionHypothesis⟩
        obtain ⟨isStronger, accepted⟩ := chosen_subset member
        apply Bool.eq_false_iff.mpr
        intro same
        apply Bool.eq_false_iff.mp taken.2
        exact List.any_eq_true.mpr ⟨other, isStronger, by rw [same, accepted]; rfl⟩
      case isFalse => exact inductionHypothesis

theorem CascadeWeight.eq_of_rank {a b : CascadeWeight} (same : a.rank = b.rank) : a = b := by
  cases a
  cases b
  simpa [CascadeWeight.rank] using same

/-- The rank of a matched selector ascends with its weight first. -/
theorem MatchedRule.not_weight_lt_of_rank_lt (before : a.rank < b.rank) :
    ¬b.weight.rank < a.weight.rank := by
  simp only [MatchedRule.rank, CascadeWeight.rank, List.cons_append, List.nil_append,
    List.cons_lt_cons_iff] at before
  simp only [CascadeWeight.rank, List.cons_lt_cons_iff, List.not_lt_nil, and_false, or_false]
  omega

end Order

/-- The rules that apply in a pseudo state, in ascending order. -/
def appliedRules (mask : PseudoMask) (matched : List MatchedRule) : List AppliedRule :=
  (appliedIn mask matched).map MatchedRule.applied

namespace InOrder

variable {matched : List MatchedRule} {mask : PseudoMask} {a b : MatchedRule}

/-- Two matched selectors are of one rule if the references say so. -/
theorem sameRule_iff (inOrder : InOrder matched) (first : a ∈ matched) (second : b ∈ matched) :
    a.ref.sameRule b.ref = true ↔ a.ref.sheet = b.ref.sheet ∧ a.rule = b.rule := by
  constructor
  · intro same
    exact ⟨(RuleRef.sameRule_iff.mp same).1, inOrder.rule a first b second same⟩
  · rintro ⟨sheet, rule⟩
    refine RuleRef.sameRule_iff.mpr ⟨sheet, ?_⟩
    rw [← (inOrder.place a first).1, ← (inOrder.place b second).1, rule]

/-- Selectors of the same weight are of the same rule. -/
theorem sameRule_of_weight (inOrder : InOrder matched) (first : a ∈ matched)
    (second : b ∈ matched) (same : a.weight = b.weight) : a.ref.sameRule b.ref = true := by
  refine RuleRef.sameRule_iff.mpr ⟨inOrder.sheet a first b second (by rw [same]), ?_⟩
  rw [← (inOrder.place a first).2, ← (inOrder.place b second).2, same]

/-- The choice finds every rule that applies, with its weight, and no other. -/
theorem mem_appliedRules (inOrder : InOrder matched) (applied : AppliedRule) :
    applied ∈ appliedRules mask matched ↔ applied.Applies mask matched := by
  -- The weight of a chosen selector is the greatest one, since it is the last of its rule.
  have greatest : ∀ one ∈ chosen (fun selector => selector.acceptsPseudo mask) matched,
      ∀ through ∈ matched, one.applied.AcceptedThrough mask through →
        ¬one.weight.rank < through.weight.rank := by
    intro one member through isOne accepted
    have same := (inOrder.sameRule_iff isOne (chosen_subset member).1).mpr
      ⟨accepted.1, accepted.2.1⟩
    rcases chosen_last inOrder.ascending member isOne same accepted.2.2 with here | before
    · exact here ▸ List.lt_irrefl _
    · exact MatchedRule.not_weight_lt_of_rank_lt before
  rw [appliedRules, appliedIn, applicable_eq_chosen, List.mem_map]
  constructor
  · rintro ⟨one, member, rfl⟩
    obtain ⟨isMatched, accepted⟩ := chosen_subset member
    exact ⟨⟨one, isMatched, ⟨rfl, rfl, accepted⟩, rfl⟩, greatest one member⟩
  · rintro ⟨⟨through, isOne, accepted, weight⟩, bound⟩
    have someOne :
        outdone (fun selector => selector.acceptsPseudo mask) through matched = true := by
      refine List.any_eq_true.mpr ⟨through, isOne, ?_⟩
      exact Bool.and_eq_true_iff.mpr ⟨RuleRef.sameRule_iff.mpr ⟨rfl, rfl⟩, accepted.2.2⟩
    obtain ⟨one, member, same⟩ := exists_chosen someOne
    obtain ⟨isMatched, oneAccepted⟩ := chosen_subset member
    obtain ⟨sheet, rule⟩ := (inOrder.sameRule_iff isMatched isOne).mp same
    have isApplied : applied.AcceptedThrough mask one :=
      ⟨sheet.trans accepted.1, rule.trans accepted.2.1, oneAccepted⟩
    have sameWeight : one.weight = applied.weight := by
      apply CascadeWeight.eq_of_rank
      apply List.le_antisymm (bound one isMatched isApplied)
      rw [← weight]
      exact greatest one member through isOne ⟨sheet.symm, rule.symm, accepted.2.2⟩
    refine ⟨one, member, ?_⟩
    rw [MatchedRule.applied, isApplied.1, isApplied.2.1, sameWeight]

/-- The rules that apply have different weights. -/
theorem appliedRules_ascending (inOrder : InOrder matched) :
    (appliedRules mask matched).Pairwise fun a b => a.weight.rank < b.weight.rank := by
  rw [appliedRules, appliedIn, applicable_eq_chosen, List.pairwise_map]
  have sorted := inOrder.ascending.sublist
    (chosen_sublist (fun selector => selector.acceptsPseudo mask) matched)
  apply (sorted.and (chosen_apart _ matched)).imp_of_mem
  intro a b first second facts
  apply List.not_le.mp
  intro after
  have same : a.weight = b.weight :=
    CascadeWeight.eq_of_rank (List.le_antisymm (MatchedRule.not_weight_lt_of_rank_lt facts.1) after)
  have twice :=
    inOrder.sameRule_of_weight (chosen_subset second).1 (chosen_subset first).1 same.symm
  rw [facts.2] at twice
  cases twice

end InOrder

namespace Stylist

variable {stylist : Stylist}

/-- Matching gives selectors in their order. -/
theorem SheetsRead.inOrder (read : stylist.SheetsRead) (lineage : Lineage) :
    InOrder (stylist.matchLineage lineage) := by
  have found : ∀ one ∈ stylist.matchLineage lineage,
      (∃ sheet, (stylist.sheetsInward lineage)[one.weight.level]? = some sheet ∧
        one.ref.sheet = sheet.id) ∧
      one.rule.order = one.ref.rule ∧ one.weight.order = one.ref.rule := by
    intro one member
    have isMatch := (read.matchLineage_perm lineage).subset member
    simp only [everyMatch, everyMatchIn, List.mem_flatMap, List.mem_map] at isMatch
    obtain ⟨⟨sheet, level⟩, isUsed, entry, -, rfl⟩ := isMatch
    exact ⟨⟨sheet, List.mem_zipIdx_iff_getElem?.mp isUsed, rfl⟩, rfl, rfl⟩
  have installed := read.fromInstalled lineage
  constructor
  case ascending => exact read.matchLineage_sorted lineage
  case place => exact fun one member => (found one member).2
  case rule =>
    intro one member other memberToo same
    obtain ⟨sheet, isInstalled, isSheet, isRule, -⟩ := installed one member
    obtain ⟨sheetToo, isInstalledToo, isSheetToo, isRuleToo, -⟩ := installed other memberToo
    obtain ⟨sameSheet, sameOrder⟩ := RuleRef.sameRule_iff.mp same
    rw [isSheet, isSheetToo] at sameSheet
    rw [read.unique isInstalled isInstalledToo sameSheet, sameOrder, isRuleToo] at isRule
    exact (Option.some_inj.mp isRule).symm
  case sheet =>
    intro one member other memberToo same
    obtain ⟨⟨sheet, isUsed, isSheet⟩, -⟩ := found one member
    obtain ⟨⟨sheetToo, isUsedToo, isSheetToo⟩, -⟩ := found other memberToo
    rw [same, isUsedToo, Option.some_inj] at isUsed
    rw [isSheet, isSheetToo, isUsed]

/-- In every state that calls lead to, for every node in its place and every pseudo state, the
declarations that are laid over each other are those that the rules that apply lead to. These are
all rules with an accepted selector, each of them once, in the order of their greatest weights. -/
theorem Reachable.merge_picks (reachable : stylist.Reachable) (lineage : Lineage)
    (mask : PseudoMask) :
    ∃ rules : List AppliedRule,
      (∀ applied, applied ∈ rules ↔ applied.Applies mask (stylist.matchLineage lineage)) ∧
      rules.Pairwise (fun a b => a.weight.rank < b.weight.rank) ∧
      (mergeOf (applicable (fun selector => selector.acceptsPseudo mask)
        (stylist.matchLineage lineage))).Picks rules := by
  have inOrder := reachable.sound.read.inOrder lineage
  have ascending : (appliedRules mask (stylist.matchLineage lineage)).Pairwise
      fun a b => a.weight.rank < b.weight.rank := inOrder.appliedRules_ascending
  refine ⟨appliedRules mask (stylist.matchLineage lineage), inOrder.mem_appliedRules, ascending, ?_⟩
  have merged := picks_apply ascending
  rw [appliedRules, List.flatMap_map] at merged
  rw [mergeOf_eq_apply]
  exact merged

/-- A sheet of the application with a rule that a button matches through two selectors, one weaker
and one stronger than the rule that follows, and a sheet of the dialog around the button. -/
def hoverSheets : Stylist :=
  Call.apply (Call.apply (new {}) (.setAppSheet
      "Button, #ok:hover { width: 6px; background: none; } #ok { width: 7px; background: red; }"))
    (.setNodeSheet (.widget 0) [.widget 0, .widget 1] "* { background: blue; }")

/-- A button with an object name in the dialog. -/
def okButton : Lineage where
  node := ⟨.widget 1, "Button", "ok", false⟩
  ancestors := [⟨.widget 0, "Dialog", "main", false⟩]

theorem merge_picks_okButton :
    hoverSheets.Reachable ∧
      (hoverSheets.everyMatch okButton).map MatchedRule.rank =
        [[0, 1, 0, 0], [0, 272, 0, 1], [0, 256, 1, 0], [1, 0, 0, 0]] ∧
      ∃ rules : List AppliedRule,
        (∀ applied, applied ∈ rules ↔
          applied.Applies (.single .hover) (hoverSheets.matchLineage okButton)) ∧
        rules.Pairwise (fun a b => a.weight.rank < b.weight.rank) ∧
        (mergeOf (applicable (fun selector => selector.acceptsPseudo (.single .hover))
          (hoverSheets.matchLineage okButton))).Picks rules := by
  have reachable : hoverSheets.Reachable := by
    unfold hoverSheets
    exact .call _ (.call _ (.new {}))
  have ranks : (hoverSheets.everyMatch okButton).map MatchedRule.rank =
      [[0, 1, 0, 0], [0, 272, 0, 1], [0, 256, 1, 0], [1, 0, 0, 0]] := by decide +kernel
  exact ⟨reachable, ranks, reachable.merge_picks okButton (.single .hover)⟩

end Stylist

end StyledWidgets.Style
