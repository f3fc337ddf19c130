/-
Module: StyledWidgets.Proofs.SortedSets
Purpose: A stylist that keeps its sets of matched rules in a search tree, in the order of their
  keys. The order is total and only equal keys stand side by side in it, so a key that has been
  found or entered is found again, whatever the tree holds. Such a stylist answers and counts like
  one with a plain table, and never comes to a set that it has lost.
Main exports: RuleSetKey.rank_injective, SetTree.enter_eq, SortedStylist, SortedStylist.Mirrors,
  SortedStylist.Mirrors.resolve, SortedStylist.Mirrors.call, SortedStylist.lookups_counted
-/
import StyledWidgets.Proofs.LookupCounters
import StyledWidgets.Proofs.StylistRuns

namespace StyledWidgets.Style

open StyledWidgets.Sheet

/-! ### The order of keys -/

namespace RuleSetKey

theorem rank_ref_injective {one other : RuleRef} (same : one.rank = other.rank) : one = other := by
  obtain ⟨⟨sheet⟩, rule, selector⟩ := one
  obtain ⟨⟨sheetToo⟩, ruleToo, selectorToo⟩ := other
  simpa [RuleRef.rank] using same

/-- The fields of references, one after the other, tell the references. -/
theorem flatMap_rank_injective {refs : List RuleRef} :
    ∀ {others : List RuleRef}, refs.flatMap RuleRef.rank = others.flatMap RuleRef.rank →
      refs = others := by
  induction refs with
  | nil =>
      intro others same
      cases others with
      | nil => rfl
      | cons other later => cases same
  | cons ref rest inductionHypothesis =>
      intro others same
      cases others with
      | nil => cases same
      | cons other later =>
          rw [List.flatMap_cons, List.flatMap_cons] at same
          obtain ⟨first, further⟩ := List.append_inj same rfl
          rw [rank_ref_injective first, inductionHypothesis further]

theorem rank_injective {one other : RuleSetKey} (same : one.rank = other.rank) : one = other := by
  obtain ⟨refs⟩ := one
  obtain ⟨others⟩ := other
  exact congrArg mk (flatMap_rank_injective (List.cons.inj same).2)

/-- The order is that of the lists of fields, so it is total. -/
instance : Std.TransCmp order := inferInstanceAs (Std.TransCmp (compareOn rank))

/-- Only equal keys stand side by side. -/
instance : Std.LawfulEqCmp order where
  eq_of_compare same := rank_injective (Std.LawfulEqOrd.eq_of_compare same)

end RuleSetKey

/-! ### Search trees of sets -/

/-- Sets of matched rules with their styles, in the order of their keys. -/
abbrev SetTree := Std.TreeMap RuleSetKey (Table PseudoMask ResolvedStyle) RuleSetKey.order

namespace SetTree

/-- The key that the tree has for a set. A new set is entered, without styles. -/
def enter (sets : SetTree) (set : RuleSetKey) : RuleSetKey × SetTree :=
  match sets.getKey? set with
  | some shared => (shared, sets)
  | none => (set, sets.insert set ∅)

/-- The tree without the sets that mention a sheet. -/
def forget (sets : SetTree) (sheet : SheetId) : SetTree :=
  sets.filter fun set _ => !set.references sheet

/-- A key that has been found or entered is found again, whatever the tree holds. -/
theorem enter_eq (sets : SetTree) (set : RuleSetKey) :
    (sets.enter set).1 = set ∧ ∀ other, (sets.enter set).2[other]? =
      if other = set then some (sets[set]?.getD ∅) else sets[other]? := by
  by_cases known : set ∈ sets
  · obtain ⟨styles, found⟩ := Option.isSome_iff_exists.mp
      (Std.TreeMap.mem_iff_isSome_getElem?.mp known)
    have kept : sets.enter set = (set, sets) := by
      rw [enter, Std.TreeMap.getKey?_eq_some known]
    rw [kept]
    refine ⟨rfl, fun other => ?_⟩
    split
    case isTrue same => rw [same, found, Option.getD_some]
    case isFalse => rfl
  · have grown : sets.enter set = (set, sets.insert set ∅) := by
      rw [enter, Std.TreeMap.getKey?_eq_none known]
    rw [grown]
    refine ⟨rfl, fun other => ?_⟩
    rw [Std.TreeMap.getElem?_insert, Std.TreeMap.getElem?_eq_none known]
    exact if_congr (Std.LawfulEqCmp.compare_eq_iff_eq.trans eq_comm) rfl rfl

theorem getElem?_forget (sets : SetTree) (sheet : SheetId) (set : RuleSetKey) :
    (sets.forget sheet)[set]? = if !set.references sheet then sets[set]? else none := by
  rw [forget, Std.TreeMap.getElem?_filter']
  cases sets[set]? <;> simp [Option.filter]

end SetTree

/-! ### A stylist apart from its sets -/

namespace Stylist

/-- A stylist without its sets of matched rules. What nodes are noted for stays. -/
def withoutSets (stylist : Stylist) : Stylist := { stylist with ruleSets := ∅ }

theorem unsheet_withoutSets (stylist : Stylist) (key : NodeKey) :
    stylist.withoutSets.unsheet key = (stylist.unsheet key).withoutSets := by
  simp only [unsheet, withoutSets]
  cases stylist.nodeSheets.find? key <;> rfl

theorem invalidateSubtree_withoutSets (subtree : List NodeKey) :
    ∀ stylist : Stylist, stylist.withoutSets.invalidateSubtree subtree =
      (stylist.invalidateSubtree subtree).withoutSets := by
  induction subtree with
  | nil => exact fun _ => rfl
  | cons key later inductionHypothesis =>
      exact fun stylist => inductionHypothesis (stylist.invalidate key)

theorem clearNodeSheet_withoutSets (stylist : Stylist) (key : NodeKey) (subtree : List NodeKey) :
    stylist.withoutSets.clearNodeSheet key subtree =
      (stylist.clearNodeSheet key subtree).withoutSets := by
  rw [clearNodeSheet_eq, clearNodeSheet_eq, unsheet_withoutSets, invalidateSubtree_withoutSets,
    apply_ite withoutSets]
  rfl

theorem setNodeSheet_withoutSets (stylist : Stylist) (key : NodeKey) (subtree : List NodeKey)
    (text : String) : stylist.withoutSets.setNodeSheet key subtree text =
      (stylist.setNodeSheet key subtree text).withoutSets := by
  rw [setNodeSheet, setNodeSheet]
  split
  · exact clearNodeSheet_withoutSets stylist key subtree
  · refine Eq.trans (congrArg (invalidateSubtree · subtree) ?_)
      (invalidateSubtree_withoutSets subtree _)
    simp only [withoutSets]
    cases stylist.nodeSheets.find? key <;> rfl

end Stylist

/-! ### A stylist with a search tree -/

/-- A stylist that keeps its sets of matched rules in a search tree. -/
structure SortedStylist where
  /-- Everything but the sets; the table for them stays empty. -/
  base : Stylist
  sets : SetTree

namespace SortedStylist

/-- What to answer for merged declarations if the styles of their set cannot be kept, because the
set is not there. -/
abbrev Fallback := Stylist → Merge → ResolvedStyle × Stylist

/-- A stylist without sheets. -/
def new (settings : StyleSettings) : SortedStylist := ⟨Stylist.new settings, ∅⟩

/-- The style that is held for a set of matched rules in a pseudo state. -/
def held? (sorted : SortedStylist) (set : RuleSetKey) (mask : PseudoMask) :
    Option ResolvedStyle :=
  sorted.sets[set]?.bind fun styles => styles.find? mask

/-- The style that the caches hold for a node in a pseudo state. -/
def cached? (sorted : SortedStylist) (key : NodeKey) (mask : PseudoMask) :
    Option ResolvedStyle := do
  let set ← sorted.base.nodeRuleSets.find? key
  sorted.held? set mask

/-- The key that the tree has for the set of a node, and the stylist with it noted. -/
def enterRuleSet (sorted : SortedStylist) (key : NodeKey) (set : RuleSetKey) :
    RuleSetKey × SortedStylist :=
  let (shared, sets) := sorted.sets.enter set
  (shared,
    ⟨{ sorted.base with nodeRuleSets := sorted.base.nodeRuleSets.insert key shared }, sets⟩)

/-- Work out the style of a set of matched rules in a pseudo state and remember it. -/
def build (lost : Fallback) (sorted : SortedStylist) (matched : List MatchedRule)
    (set : RuleSetKey) (mask : PseudoMask) : ResolvedStyle × SortedStylist :=
  let applied := applicable (fun selector => selector.acceptsPseudo mask) matched
  let real := Stylist.contributing applied
  let merge := Stylist.mergeOf applied
  let aliases := sorted.base.settings.aliasPseudoStates && real != mask
  match sorted.sets[set]? with
  | none =>
      let (style, base) := lost sorted.base merge
      (style, { sorted with base := base })
  | some styles =>
      match if aliases then styles.find? real else none with
      | some known =>
          (known,
            ⟨sorted.base.counting .aliased, sorted.sets.insert set (styles.insert mask known)⟩)
      | none =>
          let (made, base) := sorted.base.materialize merge
          let styles := styles.insert mask made
          let styles := if aliases then styles.insert real made else styles
          (made, ⟨base.counting .built, sorted.sets.insert set styles⟩)

/-- The style of a node in a pseudo state. -/
def resolve (lost : Fallback) (sorted : SortedStylist) (lineage : Lineage) (mask : PseudoMask) :
    ResolvedStyle × SortedStylist :=
  if lineage.node.ignoresSheets then (none, sorted)
  else
    match sorted.cached? lineage.key mask with
    | some style => (style, { sorted with base := sorted.base.counting .nodeHit })
    | none =>
        let (matched, base) := sorted.base.matchedFor lineage
        let (set, sorted) := { sorted with base := base }.enterRuleSet lineage.key
          (RuleSetKey.ofMatched matched)
        match sorted.held? set mask with
        | some style => (style, { sorted with base := sorted.base.counting .sharedHit })
        | none => sorted.build lost matched set mask

/-- The sets without those that mention the sheet of a node. -/
def withoutSheetOf (sorted : SortedStylist) (key : NodeKey) : SetTree :=
  match sorted.base.nodeSheets.find? key with
  | some old => sorted.sets.forget old.id
  | none => sorted.sets

/-- The sets that a call other than a lookup leaves. -/
def keptSets (sorted : SortedStylist) : Stylist.Call → SetTree
  | .setAppSheet _ | .clear => ∅
  | .setNodeSheet key _ _ | .clearNodeSheet key _ | .nodeDestroyed key => sorted.withoutSheetOf key
  | .removeQuery query => sorted.withoutSheetOf query.key
  | .resolve .. | .invalidate _ | .invalidateSubtree _ | .createQuery .. => sorted.sets

/-- The stylist after a call. -/
def apply (lost : Fallback) (sorted : SortedStylist) : Stylist.Call → SortedStylist
  | .resolve lineage mask => (sorted.resolve lost lineage mask).2
  | call => ⟨call.apply sorted.base, sorted.keptSets call⟩

/-! ### Both stylists do the same -/

/-- The search tree holds what the table holds, and all else is the same. -/
structure Mirrors (sorted : SortedStylist) (stylist : Stylist) : Prop where
  base : sorted.base = stylist.withoutSets
  sets : ∀ set, sorted.sets[set]? = stylist.ruleSets.find? set

variable {sorted : SortedStylist} {stylist : Stylist}

theorem mirrors_new (settings : StyleSettings) :
    (new settings).Mirrors (Stylist.new settings) where
  base := rfl
  sets _ := Std.TreeMap.getElem?_emptyc

namespace Mirrors

theorem held? (mirrors : sorted.Mirrors stylist) : sorted.held? = stylist.held? := by
  funext set mask
  rw [SortedStylist.held?, Stylist.held?, mirrors.sets]

theorem cached? (mirrors : sorted.Mirrors stylist) : sorted.cached? = stylist.cached? := by
  funext key mask
  rw [SortedStylist.cached?, mirrors.held?, mirrors.base]
  rfl

theorem counting (mirrors : sorted.Mirrors stylist) (way : LookupWay) :
    Mirrors { sorted with base := sorted.base.counting way } (stylist.counting way) where
  base := congrArg (Stylist.counting · way) mirrors.base
  sets := mirrors.sets

theorem matchedFor (mirrors : sorted.Mirrors stylist) (lineage : Lineage) :
    (sorted.base.matchedFor lineage).1 = (stylist.matchedFor lineage).1 ∧
      Mirrors { sorted with base := (sorted.base.matchedFor lineage).2 }
        (stylist.matchedFor lineage).2 := by
  obtain ⟨base, sets⟩ := mirrors
  have rules : sorted.base.matchedRules = stylist.matchedRules :=
    (congrArg Stylist.matchedRules base).trans rfl
  simp only [Stylist.matchedFor, rules]
  cases stylist.matchedRules.find? lineage.key with
  | some matched => exact ⟨rfl, base, sets⟩
  | none =>
      have rules : sorted.base.matchLineage lineage = stylist.matchLineage lineage := by
        rw [base]
        rfl
      refine ⟨rules, ?_, sets⟩
      simp only [base]
      rfl

theorem enterRuleSet (mirrors : sorted.Mirrors stylist) (key : NodeKey) (set : RuleSetKey) :
    (sorted.enterRuleSet key set).1 = set ∧
      (sorted.enterRuleSet key set).2.Mirrors (stylist.enterRuleSet key set) := by
  obtain ⟨shared, sets⟩ := sorted.sets.enter_eq set
  refine ⟨shared, ?_, ?_⟩
  · simp only [SortedStylist.enterRuleSet, shared, mirrors.base]
    rfl
  · intro other
    rw [Stylist.ruleSets_enterRuleSet, ← mirrors.sets, ← mirrors.sets]
    exact sets other

theorem remember (mirrors : sorted.Mirrors stylist) (set : RuleSetKey)
    (styles : Table PseudoMask ResolvedStyle) :
    Mirrors { sorted with sets := sorted.sets.insert set styles }
      (stylist.remember set styles) where
  base := mirrors.base
  sets other := by
    simp only [Std.TreeMap.getElem?_insert, Std.LawfulEqCmp.compare_eq_iff_eq, Stylist.remember,
      Table.find?_insert, mirrors.sets]

theorem materialize (mirrors : sorted.Mirrors stylist) (merge : Merge) :
    (sorted.base.materialize merge).1 = (stylist.materialize merge).1 ∧
      Mirrors { sorted with base := (sorted.base.materialize merge).2 }
        (stylist.materialize merge).2 := by
  obtain ⟨base, sets⟩ := mirrors
  simp only [Stylist.materialize, base]
  split
  · exact ⟨rfl, rfl, sets⟩
  · exact ⟨rfl, rfl, sets⟩

/-- For a set that is there both work out the same style, whatever the one with the tree would do
for a set that it has lost. -/
theorem build (mirrors : sorted.Mirrors stylist) (lost : Fallback) (rules : List MatchedRule)
    {set : RuleSetKey} (known : stylist.ruleSets.contains set = true) (mask : PseudoMask) :
    (sorted.build lost rules set mask).1 = (stylist.build rules set mask).1 ∧
      (sorted.build lost rules set mask).2.Mirrors (stylist.build rules set mask).2 := by
  obtain ⟨styles, found⟩ := Option.isSome_iff_exists.mp known
  have settings : sorted.base.settings = stylist.settings :=
    (congrArg Stylist.settings mirrors.base).trans rfl
  have real : Stylist.contributing
      (applicable (fun selector => selector.acceptsPseudo mask) rules) =
        Stylist.realMask rules mask := rfl
  simp only [SortedStylist.build, Stylist.build, mirrors.sets, found, settings, real]
  cases (if stylist.settings.aliasPseudoStates && Stylist.realMask rules mask != mask then
      styles.find? (Stylist.realMask rules mask) else none) with
  | some style => exact ⟨rfl, (mirrors.remember set _).counting .aliased⟩
  | none =>
      obtain ⟨made, further⟩ := mirrors.materialize (Stylist.mergeOf
        (applicable (fun selector => selector.acceptsPseudo mask) rules))
      simp only [made, true_and]
      exact (further.remember set _).counting .built

/-- A lookup gives both the same style, and they stay alike. -/
theorem resolve (mirrors : sorted.Mirrors stylist) (lost : Fallback) (lineage : Lineage)
    (mask : PseudoMask) :
    (sorted.resolve lost lineage mask).1 = (stylist.resolve lineage mask).1 ∧
      (sorted.resolve lost lineage mask).2.Mirrors (stylist.resolve lineage mask).2 := by
  cases heeds : lineage.node.ignoresSheets with
  | true =>
      rw [SortedStylist.resolve, Stylist.resolve, if_pos heeds, if_pos heeds]
      exact ⟨rfl, mirrors⟩
  | false =>
      cases cached : stylist.cached? lineage.key mask with
      | some style =>
          simp only [SortedStylist.resolve, Stylist.resolve, heeds, Bool.false_eq_true, if_false,
            mirrors.cached?, cached, true_and]
          exact mirrors.counting .nodeHit
      | none =>
          obtain ⟨rules, filled⟩ := mirrors.matchedFor lineage
          obtain ⟨shared, entered⟩ := filled.enterRuleSet lineage.key
            (RuleSetKey.ofMatched (stylist.matchedFor lineage).1)
          rw [← Stylist.entered] at entered
          rw [Stylist.resolve_uncached heeds cached]
          simp only [SortedStylist.resolve, heeds, Bool.false_eq_true, if_false, mirrors.cached?,
            cached, rules, shared, entered.held?]
          cases (stylist.entered lineage).held?
              (RuleSetKey.ofMatched (stylist.matchedFor lineage).1) mask with
          | some style => exact ⟨rfl, entered.counting .sharedHit⟩
          | none => exact entered.build lost _ (stylist.contains_entered lineage) mask

theorem unsheet (mirrors : sorted.Mirrors stylist) (key : NodeKey) :
    Mirrors ⟨sorted.base.unsheet key, sorted.withoutSheetOf key⟩ (stylist.unsheet key) where
  base := by rw [mirrors.base, Stylist.unsheet_withoutSets]
  sets set := by
    have sheets : sorted.base.nodeSheets = stylist.nodeSheets :=
      (congrArg Stylist.nodeSheets mirrors.base).trans rfl
    simp only [SortedStylist.withoutSheetOf, Stylist.unsheet, sheets]
    cases stylist.nodeSheets.find? key with
    | none => exact mirrors.sets set
    | some old =>
        simp only [SetTree.getElem?_forget, Stylist.forgetSheet, Table.find?_filterKeys,
          mirrors.sets]

theorem invalidateSubtree (mirrors : sorted.Mirrors stylist) (subtree : List NodeKey) :
    Mirrors { sorted with base := sorted.base.invalidateSubtree subtree }
      (stylist.invalidateSubtree subtree) where
  base := by rw [mirrors.base, Stylist.invalidateSubtree_withoutSets]
  sets set := by
    obtain ⟨stats, same⟩ := Stylist.invalidateSubtree_eq subtree stylist
    rw [same]
    exact mirrors.sets set

theorem clearNodeSheet (mirrors : sorted.Mirrors stylist) (key : NodeKey)
    (subtree : List NodeKey) :
    Mirrors ⟨sorted.base.clearNodeSheet key subtree, sorted.withoutSheetOf key⟩
      (stylist.clearNodeSheet key subtree) where
  base := by rw [mirrors.base, Stylist.clearNodeSheet_withoutSets]
  sets set := by
    change (sorted.withoutSheetOf key)[set]? = _
    rw [Stylist.clearNodeSheet_eq]
    split
    case isTrue => exact ((mirrors.unsheet key).invalidateSubtree subtree).sets set
    case isFalse bare =>
      have same : stylist.unsheet key = stylist := by
        rw [Stylist.unsheet, Option.not_isSome_iff_eq_none.mp bare]
      rw [← same]
      exact (mirrors.unsheet key).sets set

theorem setNodeSheet (mirrors : sorted.Mirrors stylist) (key : NodeKey) (subtree : List NodeKey)
    (text : String) :
    Mirrors ⟨sorted.base.setNodeSheet key subtree text, sorted.withoutSheetOf key⟩
      (stylist.setNodeSheet key subtree text) where
  base := by rw [mirrors.base, Stylist.setNodeSheet_withoutSets]
  sets set := by
    change (sorted.withoutSheetOf key)[set]? = _
    by_cases visible : Text.trim text.toList = []
    · rw [Stylist.setNodeSheet, if_pos visible]
      exact (mirrors.clearNodeSheet key subtree).sets set
    · rw [(Stylist.setNodeSheet_installs key subtree visible).ruleSets]
      exact ((mirrors.unsheet key).invalidateSubtree subtree).sets set

theorem nodeDestroyed (mirrors : sorted.Mirrors stylist) (key : NodeKey) :
    Mirrors ⟨sorted.base.nodeDestroyed key, sorted.withoutSheetOf key⟩
      (stylist.nodeDestroyed key) :=
  (mirrors.invalidateSubtree [key]).unsheet key

/-- Every call leaves them alike. -/
theorem call (mirrors : sorted.Mirrors stylist) (lost : Fallback) (call : Stylist.Call) :
    (sorted.apply lost call).Mirrors (call.apply stylist) := by
  cases call with
  | setAppSheet text =>
      refine ⟨?_, fun _ => Std.TreeMap.getElem?_emptyc⟩
      simp only [SortedStylist.apply, mirrors.base]
      rfl
  | setNodeSheet key subtree text => exact mirrors.setNodeSheet key subtree text
  | clearNodeSheet key subtree => exact mirrors.clearNodeSheet key subtree
  | resolve lineage mask => exact (mirrors.resolve lost lineage mask).2
  | invalidate key => exact mirrors.invalidateSubtree [key]
  | invalidateSubtree subtree => exact mirrors.invalidateSubtree subtree
  | clear =>
      refine ⟨?_, fun _ => Std.TreeMap.getElem?_emptyc⟩
      simp only [SortedStylist.apply, mirrors.base]
      rfl
  | nodeDestroyed key => exact mirrors.nodeDestroyed key
  | createQuery typeName objectName parent =>
      refine ⟨?_, mirrors.sets⟩
      simp only [SortedStylist.apply, mirrors.base]
      rfl
  | removeQuery query => exact mirrors.nodeDestroyed query.key

theorem calls (lost : Fallback) (calls : List Stylist.Call) :
    ∀ {sorted : SortedStylist} {stylist : Stylist}, sorted.Mirrors stylist →
      (calls.foldl (SortedStylist.apply lost) sorted).Mirrors
        (calls.foldl Stylist.Call.apply stylist) := by
  induction calls with
  | nil => exact id
  | cons first later inductionHypothesis =>
      intro sorted stylist mirrors
      exact inductionHypothesis (mirrors.call lost first)

end Mirrors

/-- After any calls a lookup is counted once, in one of four ways, and a run of matching is counted
exactly if no rules are kept for the node; a node that ignores sheets changes nothing. The set whose
styles are worked out is there, so a stylist with a search tree answers and counts the same whatever
it would do for a set that it has lost. -/
theorem lookups_counted (lost : Fallback) (settings : StyleSettings) (calls : List Stylist.Call)
    (lineage : Lineage) (mask : PseudoMask) :
    let stylist := calls.foldl Stylist.Call.apply (Stylist.new settings)
    let sorted := calls.foldl (apply lost) (new settings)
    (if lineage.node.ignoresSheets then stylist.resolve lineage mask = (none, stylist)
      else
        (∃ way, (stylist.resolve lineage mask).2.stats =
          (stylist.stats.countMatching (!stylist.matchedRules.contains lineage.key)).count way) ∧
        (stylist.entered lineage).ruleSets.contains
          (RuleSetKey.ofMatched (stylist.matchedFor lineage).1) = true) ∧
      sorted.Mirrors stylist ∧
      (sorted.resolve lost lineage mask).1 = (stylist.resolve lineage mask).1 ∧
      (sorted.resolve lost lineage mask).2.Mirrors (stylist.resolve lineage mask).2 := by
  intro stylist sorted
  have sound : stylist.Sound := (Stylist.Reachable.new settings).calls calls |>.sound
  have mirrors : sorted.Mirrors stylist := Mirrors.calls lost calls (mirrors_new settings)
  refine ⟨?_, mirrors, mirrors.resolve lost lineage mask⟩
  cases heeds : lineage.node.ignoresSheets with
  | true =>
      rw [if_pos rfl, Stylist.resolve, if_pos heeds]
  | false =>
      rw [if_neg Bool.false_ne_true]
      exact ⟨sound.follows.resolve_stats heeds mask, stylist.contains_entered lineage⟩

end SortedStylist

end StyledWidgets.Style
