/-
Module: StyledWidgets.Proofs.RepeatedLookups
Purpose: Lookups of styles that are repeated. What has been found for a node is found again, however
  many other nodes have been looked up in between, and the counters of a stylist have no say in any
  of it. Nothing is asked of the caches: they may hold what is out of date.
Main exports: Stylist.uncounted, Stylist.resolve_congr, Stylist.Answers, Stylist.answers_resolve,
  Stylist.Answers.resolve, Stylist.Answers.again
-/
import StyledWidgets.Proofs.StyleLookups

namespace StyledWidgets.Style

open StyledWidgets.Sheet

namespace Stylist

variable {stylist : Stylist} {lineage other : Lineage} {mask otherMask : PseudoMask}
  {style : ResolvedStyle}

/-! ### Counters -/

/-- A stylist with its counters at zero. -/
def uncounted (stylist : Stylist) : Stylist := { stylist with stats := {} }

theorem materialize_uncounted (merge : Merge) :
    (stylist.uncounted.materialize merge).1 = (stylist.materialize merge).1 ∧
      (stylist.uncounted.materialize merge).2.uncounted =
        (stylist.materialize merge).2.uncounted := by
  rw [materialize, materialize]
  split <;> exact ⟨rfl, rfl⟩

theorem build_uncounted (rules : List MatchedRule) (set : RuleSetKey) (mask : PseudoMask) :
    (stylist.uncounted.build rules set mask).1 = (stylist.build rules set mask).1 ∧
      (stylist.uncounted.build rules set mask).2.uncounted =
        (stylist.build rules set mask).2.uncounted := by
  have ruleSets : stylist.uncounted.ruleSets = stylist.ruleSets := rfl
  have settings : stylist.uncounted.settings = stylist.settings := rfl
  simp only [build, ruleSets, settings]
  cases stylist.ruleSets.find? set with
  | none => exact materialize_uncounted _
  | some styles =>
      simp only
      split
      · exact ⟨rfl, rfl⟩
      · simp only [materialize]
        split <;> exact ⟨rfl, rfl⟩

theorem matchedFor_uncounted (lineage : Lineage) :
    (stylist.uncounted.matchedFor lineage).1 = (stylist.matchedFor lineage).1 ∧
      (stylist.uncounted.matchedFor lineage).2.uncounted =
        (stylist.matchedFor lineage).2.uncounted := by
  have matchedRules : stylist.uncounted.matchedRules = stylist.matchedRules := rfl
  simp only [matchedFor, matchedRules]
  split <;> exact ⟨rfl, rfl⟩

/-- The styles of a set answer alike, whatever the counters say. -/
theorem build_congr {one two : Stylist} (same : one.uncounted = two.uncounted)
    (rules : List MatchedRule) (set : RuleSetKey) (mask : PseudoMask) :
    (one.build rules set mask).1 = (two.build rules set mask).1 ∧
      (one.build rules set mask).2.uncounted = (two.build rules set mask).2.uncounted := by
  obtain ⟨style, after⟩ := one.build_uncounted rules set mask
  obtain ⟨styleToo, afterToo⟩ := two.build_uncounted rules set mask
  exact ⟨style.symm.trans (same ▸ styleToo), after.symm.trans (same ▸ afterToo)⟩

/-- A lookup answers and fills the caches whatever the counters say. -/
theorem resolve_uncounted (lineage : Lineage) (mask : PseudoMask) :
    (stylist.uncounted.resolve lineage mask).1 = (stylist.resolve lineage mask).1 ∧
      (stylist.uncounted.resolve lineage mask).2.uncounted =
        (stylist.resolve lineage mask).2.uncounted := by
  have cached : stylist.uncounted.cached? lineage.key mask = stylist.cached? lineage.key mask := rfl
  simp only [resolve, cached]
  split
  · exact ⟨rfl, rfl⟩
  · cases stylist.cached? lineage.key mask with
    | some style => exact ⟨rfl, rfl⟩
    | none =>
        obtain ⟨sameRules, sameFilled⟩ := stylist.matchedFor_uncounted lineage
        simp only [sameRules]
        generalize (stylist.uncounted.matchedFor lineage).2 = filled at sameFilled ⊢
        generalize (stylist.matchedFor lineage).2 = filledToo at sameFilled ⊢
        generalize RuleSetKey.ofMatched (stylist.matchedFor lineage).1 = set
        have entered : (filled.enterRuleSet lineage.key set).uncounted =
            (filledToo.enterRuleSet lineage.key set).uncounted :=
          congrArg (enterRuleSet · lineage.key set) sameFilled
        generalize filled.enterRuleSet lineage.key set = one at entered ⊢
        generalize filledToo.enterRuleSet lineage.key set = two at entered ⊢
        have held : (one.ruleSets.find? set).bind (·.find? mask) =
            (two.ruleSets.find? set).bind (·.find? mask) :=
          (congrArg (held? · set mask) entered :)
        cases found : (two.ruleSets.find? set).bind (·.find? mask) with
        | some style =>
            simp only [held.trans found]
            exact ⟨trivial, entered⟩
        | none =>
            simp only [held.trans found]
            exact build_congr entered ..

/-- Two stylists that differ in nothing but their counters answer alike and stay alike. -/
theorem resolve_congr {one two : Stylist} (same : one.uncounted = two.uncounted)
    (lineage : Lineage) (mask : PseudoMask) :
    (one.resolve lineage mask).1 = (two.resolve lineage mask).1 ∧
      (one.resolve lineage mask).2.uncounted = (two.resolve lineage mask).2.uncounted := by
  obtain ⟨style, after⟩ := one.resolve_uncounted lineage mask
  obtain ⟨styleToo, afterToo⟩ := two.resolve_uncounted lineage mask
  exact ⟨style.symm.trans (same ▸ styleToo), after.symm.trans (same ▸ afterToo)⟩

/-! ### Answers -/

/-- A style that the caches hold for a node in a pseudo state, or no style for a node that ignores
all sheets: a lookup answers with it and leaves the caches as they are. -/
inductive Answers (stylist : Stylist) (lineage : Lineage) (mask : PseudoMask) :
    ResolvedStyle → Prop where
  | unstyled (ignores : lineage.node.ignoresSheets = true) : Answers stylist lineage mask none
  | cached {style : ResolvedStyle} (heeds : lineage.node.ignoresSheets = false)
      (found : stylist.cached? lineage.key mask = some style) : Answers stylist lineage mask style

/-- Looking up what has been found answers the same again and changes nothing but a counter. -/
theorem Answers.again (answers : stylist.Answers lineage mask style) :
    (stylist.resolve lineage mask).1 = style ∧
      (stylist.resolve lineage mask).2.uncounted = stylist.uncounted := by
  rw [resolve]
  cases answers with
  | unstyled ignores =>
      rw [if_pos ignores]
      exact ⟨rfl, rfl⟩
  | cached heeds found =>
      simp only [heeds, Bool.false_eq_true, if_false, found]
      exact ⟨trivial, rfl⟩

/-- The caches hold a style for a node if they note a set for it that holds the style. -/
theorem cached?_eq_some {key : NodeKey} :
    stylist.cached? key mask = some style ↔
      ∃ set, stylist.nodeRuleSets.find? key = some set ∧ stylist.held? set mask = some style := by
  simp only [cached?, held?, Option.bind_eq_bind, Option.bind_eq_some_iff]

/-- What a lookup has answered is what the caches hold from then on. -/
theorem answers_resolve (stylist : Stylist) (lineage : Lineage) (mask : PseudoMask) :
    (stylist.resolve lineage mask).2.Answers lineage mask (stylist.resolve lineage mask).1 := by
  cases heeds : lineage.node.ignoresSheets with
  | true =>
      rw [resolve, if_pos heeds]
      exact .unstyled heeds
  | false =>
      refine .cached heeds ?_
      cases found : stylist.cached? lineage.key mask with
      | some style =>
          simp only [resolve, heeds, Bool.false_eq_true, if_false, found]
          exact found
      | none =>
          have resolved := resolved_of_uncached heeds found
          obtain ⟨masks, finds, held⟩ := resolved.found
          exact cached?_eq_some.mpr ⟨_, (resolved.sets lineage.key).trans (if_pos rfl),
            held ▸ finds.held⟩

/-- What is held for a node stays so when the style of another node is looked up, or that of the
node itself in the same pseudo state. -/
theorem Answers.resolve (answers : stylist.Answers lineage mask style)
    (apart : lineage.key = other.key → lineage = other ∧ mask = otherMask) :
    (stylist.resolve other otherMask).2.Answers lineage mask style := by
  cases answers with
  | unstyled ignores => exact .unstyled ignores
  | cached heeds found =>
      refine .cached heeds ?_
      cases otherHeeds : other.node.ignoresSheets with
      | true =>
          rw [Stylist.resolve, if_pos otherHeeds]
          exact found
      | false =>
          cases otherFound : stylist.cached? other.key otherMask with
          | some otherStyle =>
              simp only [Stylist.resolve, otherHeeds, Bool.false_eq_true, if_false, otherFound]
              exact found
          | none =>
              have distinct : other.key ≠ lineage.key := by
                intro sameKey
                obtain ⟨rfl, rfl⟩ := apart sameKey.symm
                rw [found] at otherFound
                cases otherFound
              have resolved := resolved_of_uncached otherHeeds otherFound
              obtain ⟨masks, finds, held⟩ := resolved.found
              obtain ⟨set, noted, isHeld⟩ := cached?_eq_some.mp found
              exact cached?_eq_some.mpr ⟨set,
                (resolved.sets lineage.key).trans ((if_neg distinct).trans noted),
                held ▸ finds.stays isHeld⟩

end Stylist

end StyledWidgets.Style
