/-
Module: StyledWidgets.Proofs.PseudoChanges
Purpose: A change of pseudo-classes asks for the widget to be repainted exactly when its style can
  change. The decision compares the serial numbers of two lookups; with aliasing it comes to
  whether the two pseudo states pick the same selectors, whatever has been looked up before.
Main exports: pickedRefs, DrawnFrom.pickedRefs_eq_iff, Stylist.Reachable.same_iff_pickedRefs,
  Application.appearance?, Application.Reachable.setPseudoState_asks
-/
import Mathlib.Data.Finset.Dedup
import Mathlib.Data.Finset.Empty
import StyledWidgets.Proofs.ProbedWindows
import StyledWidgets.Proofs.ScreenChanges

namespace StyledWidgets

open StyledWidgets.Sheet StyledWidgets.Style

namespace Style

/-! ### Picked selectors -/

/-- The selectors that apply in a pseudo state, each known by its rule and its place in the
rule. -/
def pickedRefs (mask : PseudoMask) (rules : List MatchedRule) : Finset RuleRef :=
  ((applicable (fun selector => selector.acceptsPseudo mask) rules).map MatchedRule.ref).toFinset

section PickedRefs

variable {known : StyleSheet → Prop} {rules : List MatchedRule} {mask one other : PseudoMask}

theorem mem_pickedRefs {ref : RuleRef} :
    ref ∈ pickedRefs mask rules ↔ ∃ matched ∈ appliedIn mask rules, matched.ref = ref := by
  rw [pickedRefs, List.mem_toFinset, List.mem_map, appliedIn]

theorem pickedRefs_of_nil (none : appliedIn mask rules = []) : pickedRefs mask rules = ∅ := by
  rw [appliedIn] at none
  rw [pickedRefs, none]
  rfl

theorem mem_of_mem_appliedIn {matched : MatchedRule} (member : matched ∈ appliedIn mask rules) :
    matched ∈ rules := by
  rw [appliedIn, applicable_eq_chosen] at member
  exact (chosen_subset member).1

variable (unique : ∀ {one other}, known one → known other → one.id = other.id → one = other)
  (drawn : DrawnFrom known rules)

include unique drawn

/-- A pseudo state that picks no selector beyond those of another depends on no pseudo-class beyond
those of the other. -/
theorem DrawnFrom.realMask_contains (subset : pickedRefs one rules ⊆ pickedRefs other rules) :
    (Stylist.realMask rules other).contains (Stylist.realMask rules one) = true := by
  rw [Stylist.realMask, Stylist.realMask, contributing_iff]
  intro matched member
  obtain ⟨found, isPicked, same⟩ :=
    mem_pickedRefs.mp (subset (mem_pickedRefs.mpr ⟨matched, member, rfl⟩))
  obtain ⟨-, selector⟩ := drawn.eq_of_ref unique drawn (mem_of_mem_appliedIn isPicked)
    (mem_of_mem_appliedIn member) same
  rw [← selector]
  exact (contributing_iff _ _).mp (PseudoMask.contains_self _) found isPicked

/-- Two pseudo states pick the same selectors exactly if they pick at the same places. -/
theorem DrawnFrom.pickedRefs_eq_iff :
    pickedRefs one rules = pickedRefs other rules ↔ picks one rules = picks other rules := by
  constructor
  · intro same
    rw [← realMask_eq_iff rfl]
    apply PseudoMask.contains_antisymm
    · exact drawn.realMask_contains unique (subset_of_eq same.symm)
    · exact drawn.realMask_contains unique (subset_of_eq same)
  · intro same
    rw [pickedRefs, pickedRefs, applicable_eq_filterMap, applicable_eq_filterMap]
    exact congrArg (fun places => ((places.filterMap (rules[·]?)).map MatchedRule.ref).toFinset)
      same

end PickedRefs

/-! ### Two lookups of a node -/

namespace Stylist

variable {stylist : Stylist} {lineage : Lineage}

/-- A pseudo state without a style picks nothing. -/
theorem Knows.pickedRefs_of_none {known : StyleSheet → Prop} (knows : stylist.Knows known)
    {rules : List MatchedRule} (drawn : DrawnFrom known rules)
    (declared : ∀ matched ∈ rules, matched.rule.declarations ≠ []) {mask : PseudoMask}
    (held : stylist.held? (RuleSetKey.ofMatched rules) mask = some none) :
    pickedRefs mask rules = ∅ := by
  have none := knows.right _ _ _ held rules drawn rfl
  rw [ResolvedStyle.appearance?, Option.map_none, eq_comm, appearanceOf_eq_none_iff declared,
    ← appliedIn_eq_nil_iff] at none
  exact pickedRefs_of_nil none

/-- With aliasing, two lookups of a node one after the other are answered with one instance exactly
if the pseudo states pick the same selectors. -/
theorem Reachable.same_iff_pickedRefs (reachable : stylist.Reachable)
    (aliasing : stylist.settings.aliasPseudoStates = true)
    (heeds : lineage.node.ignoresSheets = false)
    (current : stylist.rulesFor lineage = stylist.matchLineage lineage) (one other : PseudoMask) :
    ResolvedStyle.same (stylist.resolve lineage one).1
        ((stylist.resolve lineage one).2.resolve lineage other).1 = true ↔
      pickedRefs one (stylist.matchLineage lineage) =
        pickedRefs other (stylist.matchLineage lineage) := by
  have calls : (stylist.resolve lineage one).2.Reachable := .call (.resolve lineage one) reachable
  obtain ⟨known, aliases⟩ := reachable.aliases
  have aliasesAfter := (aliases.resolve reachable.sound lineage one).resolve calls.sound lineage
    other
  have drawn := aliases.knows.drawn reachable.sound.read lineage
  have resolved := reachable.sound.follows.resolve heeds one
  have resolvedToo := calls.sound.follows.resolve heeds other
  have currentToo : (stylist.resolve lineage one).2.rulesFor lineage =
      stylist.matchLineage lineage := by
    rw [rulesFor, resolved.matched, if_pos rfl, Option.getD_some, current]
  have declared := reachable.sound.read.declared lineage
  have aliasingAfter := resolvedToo.same.settings.trans resolved.same.settings ▸ aliasing
  obtain ⟨masks, finds, held⟩ := resolved.found
  obtain ⟨masksToo, findsToo, heldToo⟩ := resolvedToo.found
  rw [current] at drawn finds held
  rw [currentToo] at findsToo heldToo
  generalize stylist.resolve lineage one = first at *
  generalize first.2.resolve lineage other = second at *
  generalize stylist.matchLineage lineage = rules at *
  -- What the first lookup has noted is still held when the second one is done.
  have isHeld : second.2.held? (RuleSetKey.ofMatched rules) one = some first.1 := by
    rw [heldToo]
    apply findsToo.stays
    rw [held]
    exact finds.held
  have isHeldToo : second.2.held? (RuleSetKey.ofMatched rules) other = some second.1 := by
    rw [heldToo]
    exact findsToo.held
  have same := (aliasesAfter.once aliasingAfter).same_iff aliases.knows.unique drawn drawn isHeld
    isHeldToo
  rw [same]
  constructor
  · rintro (⟨isNone, isNoneToo⟩ | ⟨-, picked⟩)
    · rw [isNone] at isHeld
      rw [isNoneToo] at isHeldToo
      rw [aliasesAfter.knows.pickedRefs_of_none drawn declared isHeld,
        aliasesAfter.knows.pickedRefs_of_none drawn declared isHeldToo]
    · exact (drawn.pickedRefs_eq_iff aliases.knows.unique).mpr picked
  · intro picked
    exact Or.inr ⟨rfl, (drawn.pickedRefs_eq_iff aliases.knows.unique).mp picked⟩

end Stylist

end Style

/-! ### Changes of pseudo-classes -/

namespace Application

open Forest

variable {app after : Application} {id : WidgetId}

/-- The appearance that a lookup gives to a widget in a pseudo state, if there is one. -/
def appearance? (app : Application) (id : WidgetId) (mask : PseudoMask) : Option Appearance :=
  (app.stylist.resolve (app.forest.lineage id) mask).1.appearance?

theorem Sound.appearance?_eq (sound : app.Sound) (live : app.forest.contains id = true)
    (mask : PseudoMask) :
    app.appearance? id mask = app.stylist.freshAppearance (app.forest.lineage id) mask :=
  (sound.coherent.resolve (isPlaced live) mask).appearance

/-- A widget in its place is given the same appearance as long as the sheets stay. -/
theorem Sound.appearance?_congr (sound : app.Sound) (soundAfter : after.Sound)
    (live : app.forest.contains id = true) (liveAfter : after.forest.contains id = true)
    (lineage : after.forest.lineage id = app.forest.lineage id)
    (same : Stylist.SameSheets app.stylist after.stylist) :
    after.appearance? id = app.appearance? id := by
  funext mask
  rw [sound.appearance?_eq live, soundAfter.appearance?_eq liveAfter, lineage,
    freshAppearance_congr same]

theorem ignoresSheets_lineage {forest : Forest} {widget : Widget}
    (found : forest.get? id = some widget) :
    (forest.lineage id).node.ignoresSheets = widget.ignoresSheets := by
  rw [lineage, styleNode, found]

/-- A whole widget that has been asked for waits in its window. -/
theorem Reachable.pending_schedule (reachable : (app.schedule id none).Reachable)
    (live : app.forest.contains id = true) :
    ∃ window damage, (app.schedule id none).forest.windowOf? id = some window ∧
      (app.schedule id none).windows.find? window = some damage ∧
        damage.pending.find? id = some none := by
  obtain ⟨forest, -, -⟩ : (app.schedule id none).forest = app.forest ∧ _ ∧ _ :=
    schedule_rest none
  have linked := reachable.sound.linked
  rw [forest] at linked ⊢
  obtain ⟨window, isHome, -⟩ := exists_windowOf live
  obtain ⟨-, member, top⟩ := linked.windowOf?_eq_some_iff.mp isHome
  obtain ⟨damage, isDamage⟩ := reachable.tidy.roots
    (by rw [forest]; exact linked.contains_of_mem_path live member) (by rw [forest]; exact top)
  refine ⟨window, damage, isHome, isDamage, ?_⟩
  rw [damage_schedule, Option.map_eq_some_iff] at isDamage
  obtain ⟨before, -, rfl⟩ := isDamage
  exact pending_asked isHome before

/-- In every state that operations can lead to, a change of the pseudo-classes of a widget that
exists does not fail and leaves what lookups give to the widget. If the answer is that nothing
changes, the old and the new pseudo state look the same and no window is asked for anything; else
the whole widget waits in its window. With aliasing, a widget that heeds sheets is found to change
exactly if the two pseudo states pick different selectors. -/
theorem Reachable.setPseudoState_asks (reachable : app.Reachable) {widget : Widget}
    (found : app.forest.get? id = some widget) (mask : PseudoMask) :
    ∃ answer after, (setPseudoState id mask).run app = (.ok answer, after) ∧
      (∀ other, after.appearance? id other = app.appearance? id other) ∧
      (answer = false →
        app.appearance? id widget.pseudo = app.appearance? id mask ∧
          after.windows = app.windows) ∧
      (answer = true →
        ∃ window damage, after.forest.windowOf? id = some window ∧
          after.windows.find? window = some damage ∧ damage.pending.find? id = some none) ∧
      (app.settings.style.aliasPseudoStates = true → widget.ignoresSheets = false →
        (answer = true ↔
          pickedRefs widget.pseudo (app.stylist.matchLineage (app.forest.lineage id)) ≠
            pickedRefs mask (app.stylist.matchLineage (app.forest.lineage id)))) := by
  have sound := reachable.sound
  have live : app.forest.contains id = true := contains_iff.mpr ⟨widget, found⟩
  have reachableAfter : ((setPseudoState id mask).run app).2.Reachable :=
    .change (.setPseudoState id mask) reachable
  have run := setPseudoState_run found mask
  have sameLineage := sound.linked.lineage_setPseudo id id mask
  generalize isTurned : (app.forest.adjust id fun widget => { widget with pseudo := mask }) =
    turned at run sameLineage
  have liveAfter : turned.contains id = true := by rw [← isTurned, contains_adjust, live]
  simp only [sameLineage] at run
  have looks := sound.coherent.resolve (isPlaced live) widget.pseudo
  have looksAfter := looks.coherent.resolve (isPlaced live) mask
  have sheets := looks.same.trans looksAfter.same
  have decided : app.settings.style.aliasPseudoStates = true → widget.ignoresSheets = false → _ :=
    fun aliasing heeds => reachable.housed.calls.same_iff_pickedRefs (sound.settings ▸ aliasing)
      ((ignoresSheets_lineage found).trans heeds) (sound.rulesFor live) widget.pseudo mask
  by_cases unchanged : widget.pseudo = mask
  · rw [if_pos unchanged] at run
    rw [run] at reachableAfter
    refine ⟨false, _, run, congrFun ?_, fun _ => ⟨by rw [unchanged], rfl⟩,
      fun asked => absurd asked Bool.false_ne_true, fun _ _ => ?_⟩
    · exact sound.appearance?_congr reachableAfter.sound live liveAfter sameLineage
        ⟨rfl, rfl, rfl, rfl⟩
    · rw [unchanged]
      exact iff_of_false Bool.false_ne_true (not_not_intro rfl)
  · rw [if_neg unchanged] at run
    split at run
    case isTrue same =>
      rw [run] at reachableAfter
      refine ⟨false, _, run, congrFun ?_, fun _ => ⟨?_, rfl⟩,
        fun asked => absurd asked Bool.false_ne_true, fun aliasing heeds => ?_⟩
      · exact sound.appearance?_congr reachableAfter.sound live liveAfter sameLineage sheets
      · rw [sound.appearance?_eq live, sound.appearance?_eq live]
        exact same_appearance sound.coherent (isPlaced live) same
      · rw [ne_eq, ← decided aliasing heeds, same]
        exact iff_of_false Bool.false_ne_true (not_not_intro rfl)
    case isFalse differs =>
      rw [run] at reachableAfter
      refine ⟨true, _, run, congrFun ?_, fun quiet => absurd quiet.symm Bool.false_ne_true,
        fun _ => ?_, fun aliasing heeds => ?_⟩
      · apply sound.appearance?_congr reachableAfter.sound live
        · simpa using liveAfter
        · simpa using sameLineage
        · simpa using sheets
      · exact reachableAfter.pending_schedule liveAfter
      · rw [ne_eq, ← decided aliasing heeds]
        exact iff_of_true rfl differs

/-- A hovered button that is no longer pressed looks the same, and nothing is asked for; one that
is no longer hovered waits in its window. -/
theorem setPseudoState_asks_hoveredButton :
    hoveredButton.Reachable ∧
    (∃ widget, hoveredButton.forest.get? ⟨0⟩ = some widget ∧
      widget.pseudo = .ofList [.hover, .pressed]) ∧
    (∃ after, (setPseudoState ⟨0⟩ (.single .hover)).run hoveredButton = (.ok false, after) ∧
      after.windows = hoveredButton.windows) ∧
    ∃ after window damage,
      (setPseudoState ⟨0⟩ (.single .pressed)).run hoveredButton = (.ok true, after) ∧
        after.windows.find? window = some damage ∧ damage.pending.find? ⟨0⟩ = some none := by
  have found : hoveredButton.forest.get? ⟨0⟩ =
      some { typeName := "Button", pseudo := .ofList [.hover, .pressed] } := by decide +kernel
  refine ⟨hoveredButton_reachable, ⟨_, found, rfl⟩, ?_, ?_⟩
  · obtain ⟨answer, after, run, -, quiet, -, decided⟩ :=
      hoveredButton_reachable.setPseudoState_asks found (.single .hover)
    have isFalse : answer = false := by
      rw [← Bool.not_eq_true, decided rfl rfl, not_not]
      decide +kernel
    subst isFalse
    exact ⟨after, run, (quiet rfl).2⟩
  · obtain ⟨answer, after, run, -, -, asks, decided⟩ :=
      hoveredButton_reachable.setPseudoState_asks found (.single .pressed)
    have isTrue : answer = true := by
      rw [decided rfl rfl]
      decide +kernel
    subst isTrue
    obtain ⟨window, damage, -, isDamage, waits⟩ := asks rfl
    exact ⟨after, window, damage, run, isDamage, waits⟩

end Application

end StyledWidgets
