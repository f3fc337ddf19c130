/-
Module: StyledWidgets.Proofs.StyleMatching
Purpose: The appearance that matched rules lead to in a pseudo state, and what it depends on: not
  on the weights that have put the rules in order, not on the names of their sheets or their places
  there, and not on pseudo-classes that no applied selector asks for.
Main exports: appearanceOf, appearanceOf_contributing, appearanceOf_map, StyleSheet.mem_candidates
-/
import Mathlib.Tactic.Common
import StyledWidgets.Proofs.SheetReading
import StyledWidgets.Style.Stylist

namespace StyledWidgets.Sheet

/-! ### Sets of pseudo-classes -/

namespace PseudoMask

theorem contains_iff {mask required : PseudoMask} :
    mask.contains required = true ↔
      ∀ i, required.bits.getLsbD i = true → mask.bits.getLsbD i = true := by
  rw [contains, beq_iff_eq]
  constructor
  · intro same i asked
    rw [← same, BitVec.getLsbD_and, Bool.and_eq_true] at asked
    exact asked.1
  · intro subset
    apply BitVec.eq_of_getLsbD_eq
    intro i _
    rw [BitVec.getLsbD_and]
    cases asked : required.bits.getLsbD i with
    | false => simp
    | true => simp [subset i asked]

theorem contains_of_isEmpty {mask required : PseudoMask} (none : required.isEmpty = true) :
    mask.contains required = true := by
  rw [isEmpty, beq_iff_eq] at none
  rw [contains_iff]
  intro i asked
  simp [none] at asked

theorem union_contains_iff {a b required : PseudoMask} :
    required.contains (a.union b) = true ↔
      required.contains a = true ∧ required.contains b = true := by
  simp only [contains_iff, union, BitVec.getLsbD_or, Bool.or_eq_true]
  constructor
  · intro both
    exact ⟨fun i asked => both i (Or.inl asked), fun i asked => both i (Or.inr asked)⟩
  · rintro ⟨left, right⟩ i (asked | asked)
    · exact left i asked
    · exact right i asked

theorem contains_trans {high middle low : PseudoMask} (upper : high.contains middle = true)
    (lower : middle.contains low = true) : high.contains low = true := by
  rw [contains_iff] at upper lower ⊢
  intro i asked
  exact upper i (lower i asked)

theorem contains_self (mask : PseudoMask) : mask.contains mask = true := by
  rw [contains_iff]
  intro i asked
  exact asked

theorem contains_antisymm {one other : PseudoMask} (upper : one.contains other = true)
    (lower : other.contains one = true) : one = other := by
  rw [contains_iff] at upper lower
  obtain ⟨bits⟩ := one
  obtain ⟨bitsToo⟩ := other
  congr 1
  apply BitVec.eq_of_getLsbD_eq
  intro i _
  exact Bool.eq_iff_iff.mpr ⟨lower i, upper i⟩

end PseudoMask

theorem Selector.acceptsPseudo_iff {selector : Selector} {mask : PseudoMask} :
    selector.acceptsPseudo mask = true ↔ mask.contains selector.pseudo = true := by
  rw [acceptsPseudo, Bool.or_eq_true]
  constructor
  · rintro (none | asked)
    · exact PseudoMask.contains_of_isEmpty none
    · exact asked
  · exact Or.inr

end StyledWidgets.Sheet

namespace StyledWidgets.Style

open StyledWidgets.Sheet

/-! ### Candidates -/

namespace SelectorIndex

/-- Everything in the buckets comes from a list. -/
def Within (index : SelectorIndex) (entries : List Alternative) : Prop :=
  (∀ entry ∈ index.universal, entry ∈ entries) ∧
    (∀ name, ∀ entry ∈ bucket index.byType name, entry ∈ entries) ∧
    ∀ name, ∀ entry ∈ bucket index.byId name, entry ∈ entries

private theorem mem_bucket_push {table : Table String (List Alternative)} {name other : String}
    {entry added : Alternative} (member : entry ∈ bucket (push table name added) other) :
    entry = added ∨ entry ∈ bucket table other := by
  rw [bucket, push, Table.find?_insert] at member
  split at member
  case isTrue same =>
    subst same
    rw [Option.getD_some, List.mem_append, List.mem_singleton] at member
    exact member.symm
  case isFalse => exact Or.inr member

theorem Within.add {index : SelectorIndex} {entries : List Alternative} {entry : Alternative}
    (within : index.Within entries) (member : entry ∈ entries) :
    (index.add entry).Within entries := by
  obtain ⟨universal, byType, byId⟩ := within
  rw [SelectorIndex.add]
  split
  · refine ⟨universal, byType, fun name other held => ?_⟩
    rcases mem_bucket_push held with rfl | before
    · exact member
    · exact byId name other before
  · refine ⟨universal, fun name other held => ?_, byId⟩
    rcases mem_bucket_push held with rfl | before
    · exact member
    · exact byType name other before
  · refine ⟨fun other held => ?_, byType, byId⟩
    rcases List.mem_append.mp held with before | new
    · exact universal other before
    · rw [List.mem_singleton.mp new]
      exact member

theorem within_ofRules (rules : List StyleRule) :
    (ofRules rules).Within (rules.flatMap alternativesOf) := by
  have run : ∀ (later : List Alternative) (index : SelectorIndex),
      (∀ entry ∈ later, entry ∈ rules.flatMap alternativesOf) →
        index.Within (rules.flatMap alternativesOf) →
          (later.foldl SelectorIndex.add index).Within (rules.flatMap alternativesOf) := by
    intro later
    induction later with
    | nil => exact fun _ _ within => within
    | cons entry later inductionHypothesis =>
        intro index members within
        apply inductionHypothesis
        · exact fun other member => members other (List.mem_cons_of_mem entry member)
        · exact within.add (members entry (List.mem_cons_self ..))
  apply run
  · exact fun _ member => member
  · refine ⟨?_, ?_, ?_⟩ <;> simp [bucket, EmptyCollection.emptyCollection]

end SelectorIndex

/-- What a sheet holds follows from its text. -/
theorem rules_of_parsed {sheet : StyleSheet}
    (parsed : sheet = StyleSheet.parse sheet.id sheet.source) :
    sheet.rules = parseSheet sheet.source ∧ sheet.index = SelectorIndex.ofRules sheet.rules := by
  generalize sheet.id = id, sheet.source = source at parsed
  subst parsed
  simp only [StyleSheet.parse, and_self]

/-- A candidate is a selector of a rule of the sheet, and says which one. -/
theorem StyleSheet.mem_candidates {id : SheetId} {source objectName typeName : String}
    {entry : Alternative}
    (member : entry ∈ (StyleSheet.parse id source).candidates objectName typeName) :
    (parseSheet source)[entry.rule.order]? = some entry.rule ∧
      entry.rule.selectors[entry.index]? = some entry.selector := by
  obtain ⟨universal, byType, byId⟩ := SelectorIndex.within_ofRules (parseSheet source)
  have fromRules : entry ∈ (parseSheet source).flatMap alternativesOf := by
    rw [candidates, SelectorIndex.candidates, List.mem_append, List.mem_append] at member
    rcases member with (held | held) | held
    · exact universal entry held
    · exact byType typeName entry held
    · split at held
      · simp at held
      · exact byId objectName entry held
  obtain ⟨rule, ruleMember, alternative⟩ := List.mem_flatMap.mp fromRules
  rw [alternativesOf, List.mem_map] at alternative
  obtain ⟨⟨selector, index⟩, place, rfl⟩ := alternative
  exact ⟨parseSheet_order ruleMember, List.mem_zipIdx_iff_getElem?.mp place⟩

/-! ### Rules that apply -/

theorem RuleRef.sameRule_iff {a b : RuleRef} :
    a.sameRule b = true ↔ a.sheet = b.sheet ∧ a.rule = b.rule := by
  rw [sameRule, Bool.and_eq_true, beq_iff_eq, beq_iff_eq]

/-- An accepted selector of the same rule is among stronger ones. -/
def outdone (accepts : Selector → Bool) (matched : MatchedRule)
    (stronger : List MatchedRule) : Bool :=
  stronger.any fun other => other.ref.sameRule matched.ref && accepts other.selector

/-- The matched selectors through which rules apply, chosen without regard to their places. -/
def chosen (accepts : Selector → Bool) : List MatchedRule → List MatchedRule
  | [] => []
  | matched :: stronger =>
      if accepts matched.selector && !outdone accepts matched stronger then
        matched :: chosen accepts stronger
      else chosen accepts stronger

theorem applicable_eq_chosen (accepts : Selector → Bool) (rules : List MatchedRule) :
    applicable accepts rules = chosen accepts rules := by
  have follows : ∀ (first : MatchedRule) (rules : List MatchedRule) (start : Nat),
      ((rules.zipIdx start).any fun other =>
          other.1.ref.sameRule first.ref && accepts other.1.selector) =
        outdone accepts first rules := by
    intro first rules
    induction rules with
    | nil => exact fun _ => rfl
    | cons rule later inductionHypothesis =>
        intro start
        rw [List.zipIdx_cons, List.any_cons, inductionHypothesis]
        rfl
  have places : ∀ start,
      (applicableFrom accepts (rules.zipIdx start)).map (·.1) = chosen accepts rules := by
    induction rules with
    | nil => exact fun _ => rfl
    | cons rule later inductionHypothesis =>
        intro start
        simp only [List.zipIdx_cons, applicableFrom, follows, chosen]
        split
        · rw [List.map_cons, inductionHypothesis]
        · exact inductionHypothesis _
  exact places 0

section Chosen

variable {accepts : Selector → Bool}

theorem chosen_subset {rules : List MatchedRule} {matched : MatchedRule}
    (member : matched ∈ chosen accepts rules) :
    matched ∈ rules ∧ accepts matched.selector = true := by
  induction rules with
  | nil => simp [chosen] at member
  | cons rule later inductionHypothesis =>
      rw [chosen] at member
      split at member
      case isTrue taken =>
        rcases List.mem_cons.mp member with rfl | further
        · exact ⟨List.mem_cons_self .., (Bool.and_eq_true _ _ ▸ taken).1⟩
        · exact (inductionHypothesis further).imp_left (List.mem_cons_of_mem _)
      case isFalse => exact (inductionHypothesis member).imp_left (List.mem_cons_of_mem _)

/-- A rule with an accepted selector is chosen through some selector. -/
theorem exists_chosen {rules : List MatchedRule} {first : MatchedRule}
    (some : outdone accepts first rules = true) :
    ∃ matched ∈ chosen accepts rules, matched.ref.sameRule first.ref = true := by
  induction rules with
  | nil => simp [outdone] at some
  | cons rule later inductionHypothesis =>
      by_cases further : outdone accepts first later = true
      · obtain ⟨matched, member, same⟩ := inductionHypothesis further
        refine ⟨matched, ?_, same⟩
        rw [chosen]
        split
        · exact List.mem_cons_of_mem _ member
        · exact member
      · rw [outdone, List.any_cons, Bool.or_eq_true] at some
        obtain ⟨same, accepted⟩ := Bool.and_eq_true _ _ ▸ some.resolve_right further
        refine ⟨rule, ?_, same⟩
        have last : outdone accepts rule later = false := by
          rw [Bool.eq_false_iff]
          intro stronger
          apply further
          obtain ⟨other, member, facts⟩ := List.any_eq_true.mp stronger
          rw [Bool.and_eq_true, RuleRef.sameRule_iff] at facts
          rw [RuleRef.sameRule_iff] at same
          refine List.any_eq_true.mpr ⟨other, member, ?_⟩
          rw [Bool.and_eq_true, RuleRef.sameRule_iff]
          exact ⟨⟨facts.1.1.trans same.1, facts.1.2.trans same.2⟩, facts.2⟩
        rw [chosen, accepted, last]
        exact List.mem_cons_self ..

/-- A narrower condition that still accepts all chosen selectors leads to the same choice. -/
theorem chosen_eq_of_narrower {narrower : Selector → Bool} {rules : List MatchedRule}
    (implies : ∀ selector, narrower selector = true → accepts selector = true)
    (keeps : ∀ matched ∈ chosen accepts rules, narrower matched.selector = true) :
    chosen narrower rules = chosen accepts rules := by
  induction rules with
  | nil => rfl
  | cons rule later inductionHypothesis =>
      have laterKept : ∀ matched ∈ chosen accepts later, narrower matched.selector = true := by
        intro matched member
        apply keeps
        rw [chosen]
        split
        · exact List.mem_cons_of_mem _ member
        · exact member
      have same := inductionHypothesis laterKept
      have sameFollows : outdone narrower rule later = outdone accepts rule later := by
        rw [Bool.eq_iff_iff]
        constructor
        · intro stronger
          obtain ⟨other, member, facts⟩ := List.any_eq_true.mp stronger
          rw [Bool.and_eq_true] at facts
          exact List.any_eq_true.mpr
            ⟨other, member, by rw [facts.1, implies _ facts.2]; rfl⟩
        · intro stronger
          obtain ⟨matched, member, isSame⟩ := exists_chosen stronger
          exact List.any_eq_true.mpr
            ⟨matched, (chosen_subset member).1, by rw [isSame, laterKept matched member]; rfl⟩
      rw [chosen, chosen, same, sameFollows]
      cases stronger : outdone accepts rule later with
      | true => simp
      | false =>
          have sameHere : narrower rule.selector = accepts rule.selector := by
            rw [Bool.eq_iff_iff]
            refine ⟨implies _, fun accepted => keeps rule ?_⟩
            rw [chosen, accepted, stronger]
            exact List.mem_cons_self ..
          rw [sameHere]

/-- Renaming rules does not change the choice if it keeps rules apart. -/
theorem chosen_map {rename : MatchedRule → MatchedRule} {rules : List MatchedRule}
    (selectors : ∀ matched, (rename matched).selector = matched.selector)
    (apart : ∀ a ∈ rules, ∀ b ∈ rules,
      (rename a).ref.sameRule (rename b).ref = a.ref.sameRule b.ref) :
    chosen accepts (rules.map rename) = (chosen accepts rules).map rename := by
  induction rules with
  | nil => rfl
  | cons rule later inductionHypothesis =>
      have same := inductionHypothesis fun a memberA b memberB =>
        apart a (List.mem_cons_of_mem _ memberA) b (List.mem_cons_of_mem _ memberB)
      have sameFollows :
          outdone accepts (rename rule) (later.map rename) = outdone accepts rule later := by
        rw [outdone, outdone, List.any_map, Bool.eq_iff_iff, List.any_eq_true,
          List.any_eq_true]
        refine exists_congr fun other => and_congr_right fun member => ?_
        rw [Function.comp, selectors,
          apart other (List.mem_cons_of_mem _ member) rule (List.mem_cons_self ..)]
      rw [List.map_cons, chosen, chosen, same, sameFollows, selectors]
      split <;> rfl

end Chosen

/-! ### Appearances -/

/-- The rules that apply in a pseudo state. -/
def appliedIn (mask : PseudoMask) (matched : List MatchedRule) : List MatchedRule :=
  applicable (fun selector => selector.acceptsPseudo mask) matched

/-- The appearance that matched rules lead to in a pseudo state, if any declaration applies. -/
def appearanceOf (settings : StyleSettings) (matched : List MatchedRule) (mask : PseudoMask) :
    Option Appearance :=
  let merge := Stylist.mergeOf (appliedIn mask matched)
  if merge.isEmpty then none else some (Appearance.ofMerge merge settings)

/-- The pseudo-classes that contribute are active, and every rule that applies finds those that it
requires among them. -/
theorem contributing_iff (required : PseudoMask) (applied : List MatchedRule) :
    required.contains (Stylist.contributing applied) = true ↔
      ∀ matched ∈ applied, required.contains matched.selector.pseudo = true := by
  have gathered : ∀ (rules : List MatchedRule) (start : PseudoMask),
      required.contains
          (rules.foldl (fun mask matched => mask.union matched.selector.pseudo) start) = true ↔
        required.contains start = true ∧
          ∀ matched ∈ rules, required.contains matched.selector.pseudo = true := by
    intro rules
    induction rules with
    | nil => simp
    | cons rule later inductionHypothesis =>
        intro start
        rw [List.foldl_cons, inductionHypothesis, PseudoMask.union_contains_iff]
        simp only [List.mem_cons, forall_eq_or_imp, and_assoc]
  rw [Stylist.contributing, gathered]
  exact and_iff_right (PseudoMask.contains_of_isEmpty rfl)

/-- The pseudo-classes that contribute accept no selector that the pseudo state does not, and still
all through which rules apply. -/
theorem contributing_narrower (mask : PseudoMask) (matched : List MatchedRule) :
    (∀ selector : Selector,
        selector.acceptsPseudo (Stylist.contributing (appliedIn mask matched)) = true →
          selector.acceptsPseudo mask = true) ∧
      ∀ rule ∈ chosen (fun selector => selector.acceptsPseudo mask) matched,
        rule.selector.acceptsPseudo (Stylist.contributing (appliedIn mask matched)) = true := by
  have active : mask.contains (Stylist.contributing (appliedIn mask matched)) = true := by
    rw [contributing_iff]
    intro rule member
    rw [appliedIn, applicable_eq_chosen] at member
    exact Selector.acceptsPseudo_iff.mp (chosen_subset member).2
  have all := (contributing_iff (Stylist.contributing (appliedIn mask matched)) _).mp
    (PseudoMask.contains_self _)
  constructor
  · intro selector accepted
    rw [Selector.acceptsPseudo_iff] at accepted ⊢
    exact PseudoMask.contains_trans active accepted
  · intro rule member
    rw [Selector.acceptsPseudo_iff]
    apply all
    rw [appliedIn, applicable_eq_chosen]
    exact member

/-- Only the pseudo-classes that contribute matter. -/
theorem appliedIn_contributing (mask : PseudoMask) (matched : List MatchedRule) :
    appliedIn (Stylist.contributing (appliedIn mask matched)) matched =
      appliedIn mask matched := by
  obtain ⟨implies, keeps⟩ := contributing_narrower mask matched
  generalize Stylist.contributing (appliedIn mask matched) = real at implies keeps
  rw [appliedIn, appliedIn, applicable_eq_chosen, applicable_eq_chosen]
  exact chosen_eq_of_narrower implies keeps

theorem appearanceOf_contributing (settings : StyleSettings) (matched : List MatchedRule)
    (mask : PseudoMask) :
    appearanceOf settings matched (Stylist.contributing (appliedIn mask matched)) =
      appearanceOf settings matched mask := by
  rw [appearanceOf, appearanceOf, appliedIn_contributing]

/-- Renaming rules does not change the appearance if it keeps rules apart. -/
theorem appearanceOf_map (rename : MatchedRule → MatchedRule) (matched : List MatchedRule)
    (declarations : ∀ rule, (rename rule).rule.declarations = rule.rule.declarations)
    (selectors : ∀ rule, (rename rule).selector = rule.selector)
    (apart : ∀ a ∈ matched, ∀ b ∈ matched,
      (rename a).ref.sameRule (rename b).ref = a.ref.sameRule b.ref)
    (settings : StyleSettings) (mask : PseudoMask) :
    appearanceOf settings (matched.map rename) mask = appearanceOf settings matched mask := by
  have applied : appliedIn mask (matched.map rename) = (appliedIn mask matched).map rename := by
    rw [appliedIn, appliedIn, applicable_eq_chosen, applicable_eq_chosen,
      chosen_map selectors apart]
  have merged : Stylist.mergeOf (appliedIn mask (matched.map rename)) =
      Stylist.mergeOf (appliedIn mask matched) := by
    rw [applied, Stylist.mergeOf, Stylist.mergeOf, List.foldl_map]
    simp only [declarations]
  rw [appearanceOf, appearanceOf, merged]

end StyledWidgets.Style
