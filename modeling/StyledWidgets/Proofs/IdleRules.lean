/-
Module: StyledWidgets.Proofs.IdleRules
Purpose: Rules that do not match a node leave its appearance alone. Taking them out of a sheet moves
  the rules behind them forward and changes the buckets and the references, but not which of two
  matched selectors comes first, and nothing else decides the appearance.
Main exports: Without, Idle, Without.exists_places, moveMatched, Stylist.resolve_withoutIdle
-/
import Mathlib.Order.Monotone.Basic
import StyledWidgets.Proofs.IndexedMatching
import StyledWidgets.Proofs.QuerySheets
import StyledWidgets.Proofs.SheetBlocks

namespace StyledWidgets.Style

open StyledWidgets.Sheet

/-! ### Members left out -/

/-- The second list is the first one without some of its idle members. -/
inductive Without {α : Type} (idle : α → Prop) : List α → List α → Prop
  | nil : Without idle [] []
  | keep {member : α} {members kept : List α} (rest : Without idle members kept) :
      Without idle (member :: members) (member :: kept)
  | drop {member : α} {members kept : List α} (isIdle : idle member)
      (rest : Without idle members kept) : Without idle (member :: members) kept

/-- What is idle is still idle after a function, or gone. -/
theorem Without.filterMap {α β : Type} {idle : α → Prop} {idleToo : β → Prop} (f : α → Option β)
    (carried : ∀ a b, idle a → f a = some b → idleToo b) {members kept : List α}
    (without : Without idle members kept) :
    Without idleToo (members.filterMap f) (kept.filterMap f) := by
  induction without with
  | nil => exact .nil
  | @keep member members kept rest inductionHypothesis =>
    cases image : f member with
    | none =>
      rw [List.filterMap_cons_none image, List.filterMap_cons_none image]
      exact inductionHypothesis
    | some value =>
      rw [List.filterMap_cons_some image, List.filterMap_cons_some image]
      exact .keep inductionHypothesis
  | @drop member members kept isIdle rest inductionHypothesis =>
    cases image : f member with
    | none =>
      rw [List.filterMap_cons_none image]
      exact inductionHypothesis
    | some value =>
      rw [List.filterMap_cons_some image]
      exact .drop (carried member value isIdle image) inductionHypothesis

/-! ### Rules at other places -/

/-- Rules whose places are given by a function of their positions. -/
def numberedBy : (Nat → Nat) → List StyleRule → List StyleRule
  | _, [] => []
  | places, rule :: rules =>
      { rule with order := places 0 } :: numberedBy (fun i => places (i + 1)) rules

theorem renumbered_eq (rules : List StyleRule) : renumbered rules = numberedBy id rules := by
  have run : ∀ start : Nat,
      ((rules.zipIdx start).map fun placed => { placed.1 with order := placed.2 }) =
        numberedBy (fun i => start + i) rules := by
    induction rules with
    | nil => exact fun _ => rfl
    | cons rule rules inductionHypothesis =>
      intro start
      rw [List.zipIdx_cons, List.map_cons, inductionHypothesis, numberedBy]
      simp only [Nat.add_zero, Nat.add_assoc, Nat.add_comm 1]
  have whole := run 0
  simp only [Nat.zero_add] at whole
  exact whole

/-- A rule at the place that a function gives for its own. -/
def moveRule (places : Nat → Nat) (rule : StyleRule) : StyleRule :=
  { rule with order := places rule.order }

/-- A selector of a rule that is moved. -/
def moveAlternative (places : Nat → Nat) (entry : Alternative) : Alternative :=
  { entry with rule := moveRule places entry.rule }

/-- A matched selector of a rule that is moved. -/
def moveMatched (places : Nat → Nat) (matched : MatchedRule) : MatchedRule where
  rule := moveRule places matched.rule
  selector := matched.selector
  ref := { matched.ref with rule := places matched.ref.rule }
  weight := { matched.weight with order := places matched.weight.order }

theorem numberedBy_comp (places first : Nat → Nat) (rules : List StyleRule) :
    numberedBy (places ∘ first) rules = (numberedBy first rules).map (moveRule places) := by
  induction rules generalizing first with
  | nil => rfl
  | cons rule rules inductionHypothesis =>
    exact congrArg (List.cons _) (inductionHypothesis fun i => first (i + 1))

theorem alternativesOf_moveRule (places : Nat → Nat) (rule : StyleRule) :
    alternativesOf (moveRule places rule) = (alternativesOf rule).map (moveAlternative places) := by
  rw [alternativesOf, alternativesOf, List.map_map]
  rfl

/-! ### Selectors that match -/

section Matching

variable (lineage : Lineage)

/-- The selectors of rules that match a node. -/
def matchingIn (rules : List StyleRule) : List Alternative :=
  (rules.flatMap alternativesOf).filter fun entry => matchesLineage entry.selector lineage

/-- No selector of the rule matches the node. -/
def Unmatched (rule : StyleRule) : Prop :=
  ∀ selector ∈ rule.selectors, matchesLineage selector lineage = false

variable {lineage}

theorem matchingIn_cons (rule : StyleRule) (rules : List StyleRule) :
    matchingIn lineage (rule :: rules) =
      matchingIn lineage [rule] ++ matchingIn lineage rules := by
  simp [matchingIn]

theorem Unmatched.matchingIn_eq_nil {rule : StyleRule} (unmatched : Unmatched lineage rule)
    (order : Nat) : matchingIn lineage [{ rule with order := order }] = [] := by
  simp only [matchingIn, List.flatMap_singleton, List.filter_eq_nil_iff]
  intro entry member
  obtain ⟨⟨selector, index⟩, place, rfl⟩ := List.mem_map.mp member
  simpa using unmatched selector (List.mem_of_getElem? (List.mem_zipIdx_iff_getElem?.mp place))

theorem matchingIn_moveRule (places : Nat → Nat) (rules : List StyleRule) :
    matchingIn lineage (rules.map (moveRule places)) =
      (matchingIn lineage rules).map (moveAlternative places) := by
  rw [matchingIn, matchingIn, List.flatMap_map]
  simp only [alternativesOf_moveRule]
  rw [← List.map_flatMap, List.filter_map]
  rfl

/-- The rules that are left have their places among all rules, in the same order, and without the
others nothing matches that did not match before. -/
theorem Without.exists_places {rules kept : List StyleRule}
    (without : Without (Unmatched lineage) rules kept) :
    ∃ places : Nat → Nat, StrictMono places ∧
      ∀ first : Nat → Nat, matchingIn lineage (numberedBy first rules) =
        matchingIn lineage (numberedBy (first ∘ places) kept) := by
  induction without with
  | nil => exact ⟨id, strictMono_id, fun _ => rfl⟩
  | @keep rule rules kept rest inductionHypothesis =>
    obtain ⟨places, ascending, same⟩ := inductionHypothesis
    -- The rule stays the first one, and the places of the others go up by one.
    refine ⟨fun i => Nat.casesOn i 0 fun i => places i + 1,
      strictMono_nat_of_lt_succ fun i => ?_, fun first => ?_⟩
    · cases i with
      | zero => exact Nat.succ_pos _
      | succ i => exact Nat.succ_lt_succ (ascending (Nat.lt_succ_self i))
    · rw [numberedBy, matchingIn_cons, same]
      exact (matchingIn_cons _ _).symm
  | @drop rule rules kept isIdle rest inductionHypothesis =>
    obtain ⟨places, ascending, same⟩ := inductionHypothesis
    refine ⟨fun i => places i + 1, fun i j before => Nat.succ_lt_succ (ascending before),
      fun first => ?_⟩
    rw [numberedBy, matchingIn_cons, isIdle.matchingIn_eq_nil, List.nil_append, same]
    rfl

end Matching

/-! ### The order of what matches -/

section Ascending

variable {places : Nat → Nat} (ascending : StrictMono places)

include ascending

/-- Rules that are moved in their order come in the same order. -/
theorem moveMatched_rank_lt {a b : MatchedRule} (before : a.rank < b.rank) :
    (moveMatched places a).rank < (moveMatched places b).rank := by
  simpa only [moveMatched, MatchedRule.rank, CascadeWeight.rank, List.cons_append, List.nil_append,
    List.cons_lt_cons_iff, ascending.lt_iff_lt, ascending.injective.eq_iff] using before

/-- Rules that are moved in their order stay apart. -/
theorem moveMatched_sameRule (a b : MatchedRule) :
    (moveMatched places a).ref.sameRule (moveMatched places b).ref = a.ref.sameRule b.ref := by
  rw [Bool.eq_iff_iff, RuleRef.sameRule_iff, RuleRef.sameRule_iff]
  exact and_congr_right fun _ => ascending.injective.eq_iff

end Ascending

/-! ### Sheets without idle rules -/

/-- The rule that a piece of a sheet gives, if it can be read. -/
def ruleOf? (piece : String × String) : Option StyleRule :=
  readRule? 0 ⟨piece.1.toList, piece.2.toList⟩

/-- Nothing that is read from the piece of a sheet matches the node. -/
def Idle (lineage : Lineage) (piece : String × String) : Prop :=
  ∀ rule ∈ ruleOf? piece, Unmatched lineage rule

instance (lineage : Lineage) : DecidablePred (Idle lineage) := fun piece =>
  inferInstanceAs (Decidable (∀ rule ∈ ruleOf? piece, ∀ selector ∈ rule.selectors,
    matchesLineage selector lineage = false))

namespace Stylist

/-- A new stylist whose application has a sheet of some pieces. -/
def ofPieces (settings : StyleSettings) (pieces : List (String × String)) : Stylist :=
  (new settings).setAppSheet (String.join (pieces.map blockText))

theorem coherent_ofPieces (settings : StyleSettings) (pieces : List (String × String)) :
    (ofPieces settings pieces).Coherent fun _ => none :=
  (coherent_new settings _).setAppSheet _

theorem everyMatch_ofPieces (settings : StyleSettings) (lineage : Lineage)
    {pieces : List (String × String)} (plain : Plain pieces) :
    (ofPieces settings pieces).everyMatch lineage =
      (matchingIn lineage (numberedBy id (pieces.filterMap ruleOf?))).map
        (matchedAt (StyleSheet.parse ⟨1⟩ (String.join (pieces.map blockText))) 0) := by
  have bare : lineage.path.reverse.filterMap
      (fun node => (ofPieces settings pieces).nodeSheets.find? node.key) = [] :=
    List.filterMap_eq_nil_iff.mpr fun _ _ => rfl
  have only : (ofPieces settings pieces).sheetsInward lineage =
      [StyleSheet.parse ⟨1⟩ (String.join (pieces.map blockText))] := by
    rw [sheetsInward, bare]
    rfl
  have rules : parseSheet (String.join (pieces.map blockText)) =
      numberedBy id (pieces.filterMap ruleOf?) :=
    (parseSheet_of_plain plain).trans (renumbered_eq _)
  rw [everyMatch, only, ← rules]
  exact List.append_nil _

section WithoutIdle

variable (settings : StyleSettings) {lineage : Lineage} {pieces kept : List (String × String)}
  (plain : Plain pieces) (plainToo : Plain kept) (without : Without (Idle lineage) pieces kept)

include plain plainToo without

/-- Without idle rules a search through the whole sheet finds the same selectors, moved. -/
theorem exists_moved_everyMatch :
    ∃ places, StrictMono places ∧ (ofPieces settings pieces).everyMatch lineage =
      ((ofPieces settings kept).everyMatch lineage).map (moveMatched places) := by
  have rulesWithout : Without (Unmatched lineage) (pieces.filterMap ruleOf?)
      (kept.filterMap ruleOf?) :=
    without.filterMap ruleOf? fun _ rule isIdle isRead => isIdle rule isRead
  obtain ⟨places, ascending, same⟩ := rulesWithout.exists_places
  refine ⟨places, ascending, ?_⟩
  have moved : matchingIn lineage (numberedBy id (pieces.filterMap ruleOf?)) =
      (matchingIn lineage (numberedBy id (kept.filterMap ruleOf?))).map
        (moveAlternative places) := by
    rw [same, ← matchingIn_moveRule, ← numberedBy_comp]
    rfl
  rw [everyMatch_ofPieces settings lineage plain, everyMatch_ofPieces settings lineage plainToo,
    moved, List.map_map, List.map_map]
  rfl

/-- Without idle rules the same selectors match in the same order, moved. -/
theorem exists_moved_matchLineage :
    ∃ places, StrictMono places ∧ (ofPieces settings pieces).matchLineage lineage =
      ((ofPieces settings kept).matchLineage lineage).map (moveMatched places) := by
  obtain ⟨places, ascending, moved⟩ := exists_moved_everyMatch settings plain plainToo without
  have read := (coherent_ofPieces settings pieces).read
  have readToo := (coherent_ofPieces settings kept).read
  refine ⟨places, ascending, ?_⟩
  -- Both sides have the same members, and both ascend strictly.
  have sameMembers : ((ofPieces settings pieces).matchLineage lineage).Perm
      (((ofPieces settings kept).matchLineage lineage).map (moveMatched places)) := by
    apply (read.matchLineage_perm lineage).trans
    rw [moved]
    exact ((readToo.matchLineage_perm lineage).map _).symm
  apply sameMembers.eq_of_pairwise
  · intro a b _ _ before after
    exact absurd (List.lt_trans before after) (List.lt_irrefl a.rank)
  · exact read.matchLineage_sorted lineage
  · apply List.pairwise_map.mpr
    exact (readToo.matchLineage_sorted lineage).imp (moveMatched_rank_lt ascending)

end WithoutIdle

/-- Rules that do not match a node can be left out of the sheet of the application: in every pseudo
state the node is given the same appearance, or none in both cases. However many nodes have been
made for queries, the node may be one of them, or any other in its place. -/
theorem resolve_withoutIdle (settings : StyleSettings) (made : Nat) (lineage : Lineage)
    (mask : PseudoMask) {pieces kept : List (String × String)} (plain : Plain pieces)
    (plainToo : Plain kept) (without : Without (Idle lineage) pieces kept) :
    ({ ofPieces settings pieces with nextQuery := made }.resolve lineage mask).1.appearance? =
      ({ ofPieces settings kept with nextQuery := made }.resolve lineage mask).1.appearance? := by
  obtain ⟨places, ascending, moved⟩ := exists_moved_matchLineage settings plain plainToo without
  have same : appearanceOf settings ((ofPieces settings pieces).matchLineage lineage) mask =
      appearanceOf settings ((ofPieces settings kept).matchLineage lineage) mask := by
    rw [moved]
    exact appearanceOf_map (moveMatched places) _ (fun _ => rfl) (fun _ => rfl)
      (fun a _ b _ => moveMatched_sameRule ascending a b) settings mask
  have unasked : ∀ pieces, { ofPieces settings pieces with nextQuery := made }.Coherent
      fun _ => none :=
    fun pieces => (coherent_ofPieces settings pieces).unasked made _
  rw [(unasked pieces).resolve_unasked, (unasked kept).resolve_unasked, freshAppearance,
    freshAppearance]
  split
  · rfl
  · exact same

/-- A sheet whose last rule is for buttons. The third one holds what would open a comment if it
stood outside of the string. -/
def buttonPieces : List (String × String) :=
  [("Label", "width: 9px;"), ("Dialog:hover", " width: 5px "),
    (" #title, Page Label", "font: '/*'"), ("Page > Button", "width: 4px; height: 3px")]

/-- A button on a page, made for a query. -/
def pageButton : Lineage :=
  ⟨⟨.query 2, "Button", "ok", false⟩, [⟨.query 1, "Page", "", false⟩]⟩

theorem resolve_withoutIdle_pageButton :
    let whole : Stylist := { ofPieces {} buttonPieces with nextQuery := 3 }
    let rest : Stylist :=
      { ofPieces {} [buttonPieces[1], buttonPieces[3]] with nextQuery := 3 }
    Plain buttonPieces ∧ Plain [buttonPieces[1], buttonPieces[3]] ∧
      Without (Idle pageButton) buttonPieces [buttonPieces[1], buttonPieces[3]] ∧
      (whole.resolve pageButton PseudoMask.empty).1.appearance?.isSome = true ∧
        (whole.resolve pageButton PseudoMask.empty).1.appearance? =
          (rest.resolve pageButton PseudoMask.empty).1.appearance? := by
  have plain : Plain buttonPieces := by decide +kernel
  have plainToo : Plain [buttonPieces[1], buttonPieces[3]] :=
    plain_of_contained (by decide +kernel)
  have without : Without (Idle pageButton) buttonPieces [buttonPieces[1], buttonPieces[3]] :=
    .drop (by decide +kernel) (.keep (.drop (by decide +kernel) (.keep .nil)))
  exact ⟨plain, plainToo, without, by decide +kernel,
    resolve_withoutIdle {} 3 pageButton _ plain plainToo without⟩

end Stylist

end StyledWidgets.Style
