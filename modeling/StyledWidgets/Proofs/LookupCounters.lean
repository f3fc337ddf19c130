/-
Module: StyledWidgets.Proofs.LookupCounters
Purpose: Every lookup of a style is counted once. It is answered in one of four ways and raises the
  counter of that way; beside it a lookup counts a run of matching exactly if no rules are kept for
  the node. There is no fifth way, since the set whose styles are worked out has just been entered.
Main exports: LookupWay, StyleStats.count, Stylist.entered, Stylist.contains_entered,
  Stylist.resolve_uncached, Stylist.SetsFollow.resolve_stats
-/
import StyledWidgets.Proofs.StyleLookups

namespace StyledWidgets.Style

open StyledWidgets.Sheet

/-! ### Counters -/

/-- How a lookup is answered: from the entry of the node, from the styles of its set of matched
rules, with the style of the pseudo-classes that contribute, or with a style that is worked out. -/
inductive LookupWay where
  | nodeHit
  | sharedHit
  | aliased
  | built
  deriving Repr, DecidableEq, Inhabited

namespace StyleStats

/-- One more lookup that is answered in a way. -/
def count (stats : StyleStats) : LookupWay → StyleStats
  | .nodeHit => { stats with nodeHits := stats.nodeHits + 1 }
  | .sharedHit => { stats with sharedHits := stats.sharedHits + 1 }
  | .aliased => { stats with aliased := stats.aliased + 1 }
  | .built => { stats with built := stats.built + 1 }

/-- One more run of selector matching, if there is one. -/
def countMatching (stats : StyleStats) (runs : Bool) : StyleStats :=
  { stats with matched := stats.matched + (if runs then 1 else 0) }

end StyleStats

namespace Stylist

variable {stylist : Stylist} {lineage : Lineage} {mask : PseudoMask}

/-- The stylist after one more lookup that is answered in a way. -/
def counting (stylist : Stylist) (way : LookupWay) : Stylist :=
  { stylist with stats := stylist.stats.count way }

theorem stats_matchedFor (stylist : Stylist) (lineage : Lineage) :
    (stylist.matchedFor lineage).2.stats =
      stylist.stats.countMatching (!stylist.matchedRules.contains lineage.key) := by
  rw [matchedFor, Table.contains]
  cases stylist.matchedRules.find? lineage.key <;> rfl

theorem stats_materialize (stylist : Stylist) (merge : Merge) :
    (stylist.materialize merge).2.stats = stylist.stats := by
  obtain ⟨nextSerial, -, after, -⟩ := stylist.materialize_spec merge
  rw [after]

/-! ### The set that a lookup enters -/

/-- The stylist with the rules of a node and their set noted: the state in which a lookup that the
entry of the node does not answer looks for the styles of the set. -/
def entered (stylist : Stylist) (lineage : Lineage) : Stylist :=
  (stylist.matchedFor lineage).2.enterRuleSet lineage.key
    (RuleSetKey.ofMatched (stylist.matchedFor lineage).1)

/-- A set that has been entered is found. -/
theorem contains_entered (stylist : Stylist) (lineage : Lineage) :
    (stylist.entered lineage).ruleSets.contains
      (RuleSetKey.ofMatched (stylist.matchedFor lineage).1) = true := by
  rw [entered, Table.contains, ruleSets_enterRuleSet, if_pos rfl]
  rfl

/-- A lookup that the entry of the node does not answer is answered from the styles of its set,
which has been entered by then, or works a style out. -/
theorem resolve_uncached (heeds : lineage.node.ignoresSheets = false)
    (uncached : stylist.cached? lineage.key mask = none) :
    stylist.resolve lineage mask =
      match (stylist.entered lineage).held?
        (RuleSetKey.ofMatched (stylist.matchedFor lineage).1) mask with
      | some style => (style, (stylist.entered lineage).counting .sharedHit)
      | none => (stylist.entered lineage).build (stylist.matchedFor lineage).1
          (RuleSetKey.ofMatched (stylist.matchedFor lineage).1) mask := by
  rw [resolve, heeds, uncached]
  rfl

/-! ### Every lookup is counted -/

/-- Working a style out for a set that is known is counted, as an alias or as a new style. -/
theorem build_stats {rules : List MatchedRule} {set : RuleSetKey}
    (known : stylist.ruleSets.contains set = true) :
    ∃ way, (stylist.build rules set mask).2.stats = stylist.stats.count way := by
  obtain ⟨styles, found⟩ := Option.isSome_iff_exists.mp known
  simp only [build, found]
  split
  · exact ⟨.aliased, rfl⟩
  · exact ⟨.built, congrArg (StyleStats.count · .built) (stats_materialize stylist _)⟩

/-- A lookup of a node that heeds sheets raises one of four counters, and a fifth if no rules are
kept for the node. Nothing else is counted. -/
theorem SetsFollow.resolve_stats (follows : stylist.SetsFollow)
    (heeds : lineage.node.ignoresSheets = false) (mask : PseudoMask) :
    ∃ way, (stylist.resolve lineage mask).2.stats =
      (stylist.stats.countMatching (!stylist.matchedRules.contains lineage.key)).count way := by
  cases cached : stylist.cached? lineage.key mask with
  | some style =>
      refine ⟨.nodeHit, ?_⟩
      simp only [Stylist.resolve, heeds, Bool.false_eq_true, if_false, cached]
      -- The entry of the node stands beside rules that are kept for it, so nothing is matched.
      simp only [cached?, Option.bind_eq_bind, Option.bind_eq_some_iff] at cached
      obtain ⟨set, noted, -⟩ := cached
      obtain ⟨rules, kept, -⟩ := follows _ _ noted
      rw [Table.contains, kept]
      rfl
  | none =>
      have before : (stylist.entered lineage).stats =
          stylist.stats.countMatching (!stylist.matchedRules.contains lineage.key) :=
        stylist.stats_matchedFor lineage
      rw [resolve_uncached heeds cached, ← before]
      split
      · exact ⟨.sharedHit, rfl⟩
      · exact build_stats (stylist.contains_entered lineage)

/-- The second lookup of a node is answered from its entry, without matching. -/
example :
    let label : Lineage := { node := ⟨.widget 1, "Label", "title", false⟩ }
    let first := ((new {}).resolve label .empty).2
    (first.resolve label .empty).2.stats = { built := 1, matched := 1, nodeHits := 1 } := by
  cbv

end Stylist

end StyledWidgets.Style
