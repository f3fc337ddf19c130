/-
Module: StyledWidgets.Proofs.SubtreeInvalidation
Purpose: A change of the sheet or of the place of a widget takes out what is cached for the widget
  and those below it, and nothing else. The sets of matched rules are shared by all nodes, so that
  an entry outside survives is owed to the sheets on its path: none of them is the one that goes.
Main exports: Stylist.Coherent.cached?_setNodeSheet, Application.SparesOutside,
  Application.EmptiesInside, Application.Reachable.invalidation_local
-/
import StyledWidgets.Proofs.OlderInstances
import StyledWidgets.Proofs.RepeatedLookups
import StyledWidgets.Proofs.WindowEntries

namespace StyledWidgets

open StyledWidgets.Sheet StyledWidgets.Style

namespace Style.Stylist

variable {stylist after : Stylist} {placed : NodeKey → Option Lineage} {key other : NodeKey}
  {lineage : Lineage} {mask : PseudoMask} {style : ResolvedStyle} {subtree : List NodeKey}

/-! ### Entries that stay -/

theorem cached?_eq (stylist : Stylist) (key : NodeKey) (mask : PseudoMask) :
    stylist.cached? key mask =
      (stylist.nodeRuleSets.find? key).bind fun set => stylist.held? set mask := rfl

/-- An answer from the entry of the node counts as such and changes nothing else. -/
theorem resolve_of_cached (heeds : lineage.node.ignoresSheets = false)
    (found : stylist.cached? lineage.key mask = some style) :
    stylist.resolve lineage mask =
      (style,
        { stylist with
          stats := { stylist.stats with nodeHits := stylist.stats.nodeHits + 1 } }) := by
  simp only [resolve, heeds, Bool.false_eq_true, if_false, found]

/-- What is cached belongs to a node in its place that heeds sheets. -/
theorem Coherent.placed_of_cached (coherent : stylist.Coherent placed)
    (found : stylist.cached? key mask = some style) : ∃ lineage, Placed placed key lineage := by
  obtain ⟨set, noted, -⟩ := cached?_eq_some.mp found
  obtain ⟨lineage, isPlaced, -⟩ := coherent.sets noted
  exact ⟨lineage, isPlaced⟩

theorem cached?_invalidateSubtree :
    ∀ {stylist : Stylist}, other ∉ subtree →
      (stylist.invalidateSubtree subtree).cached? other mask = stylist.cached? other mask := by
  induction subtree with
  | nil => exact fun _ => rfl
  | cons key later inductionHypothesis =>
      intro stylist outside
      rw [List.mem_cons, not_or] at outside
      refine (inductionHypothesis outside.2).trans ?_
      rw [cached?_eq, cached?_eq, invalidate, Table.find?_erase, if_neg outside.1]
      rfl

/-- The rules that match a node do not mention a sheet that is not on its path. -/
theorem SheetsRead.references_eq_false (read : stylist.SheetsRead) {sheet : StyleSheet}
    (onNode : stylist.nodeSheets.find? key = some sheet)
    (away : ∀ node ∈ lineage.path, node.key ≠ key) :
    (RuleSetKey.ofMatched (stylist.matchLineage lineage)).references sheet.id = false := by
  rw [RuleSetKey.references, List.any_eq_false]
  intro ref member isSheet
  rw [beq_iff_eq] at isSheet
  obtain ⟨matched, isMatched, rfl⟩ := List.mem_map.mp member
  obtain ⟨found, applies, isFound, -⟩ := read.mem_matchLineage isMatched
  have same : found.id = sheet.id := isFound.symm.trans isSheet
  rw [sheetsFor, List.mem_append, List.mem_filterMap, Option.mem_toList] at applies
  rcases applies with ⟨node, onPath, found⟩ | isApp
  · exact away node onPath (read.distinct found onNode same)
  · exact read.apart isApp onNode same

section SetNodeSheet

variable (coherent : stylist.Coherent placed) (isPlaced : placed other = some lineage)
  (away : ∀ node ∈ lineage.path, node.key ≠ key)

include coherent isPlaced away

theorem Coherent.cached?_unsheet :
    (stylist.unsheet key).cached? other mask = stylist.cached? other mask := by
  rw [Stylist.unsheet]
  cases onNode : stylist.nodeSheets.find? key with
  | none => rfl
  | some old =>
      rw [cached?_eq, cached?_eq]
      refine Option.bind_congr fun set noted => ?_
      obtain ⟨found, ⟨foundPlaced, -⟩, rfl⟩ := coherent.sets noted
      rw [foundPlaced, Option.some_inj] at isPlaced
      rw [held?_forgetSheet, isPlaced, coherent.read.references_eq_false onNode away]
      rfl

/-- A sheet that is put on a node or taken off it leaves what is cached for the nodes that do not
stand below the node. -/
theorem Coherent.cached?_setNodeSheet (outside : other ∉ subtree) (text : String) :
    (stylist.setNodeSheet key subtree text).cached? other mask = stylist.cached? other mask := by
  have kept : ((stylist.unsheet key).invalidateSubtree subtree).cached? other mask =
      stylist.cached? other mask :=
    (cached?_invalidateSubtree outside).trans (coherent.cached?_unsheet isPlaced away)
  by_cases visible : Text.trim text.toList = []
  · rw [Stylist.setNodeSheet, if_pos visible, clearNodeSheet_eq]
    split
    · exact kept
    · rfl
  · have installs : Installs _ (stylist.setNodeSheet key subtree text) key text :=
      setNodeSheet_installs key subtree visible
    rw [← kept, cached?_eq, cached?_eq, installs.sets, installs.held]

end SetNodeSheet

/-! ### Entries that go -/

theorem TakenOut.isCached {entries sheets : List NodeKey}
    (out : TakenOut stylist after entries sheets) (member : key ∈ entries) :
    after.isCached key = false := by
  rw [Stylist.isCached, Bool.or_eq_false_iff, Table.contains, Table.contains,
    Option.isSome_eq_false_iff, Option.isSome_eq_false_iff, Option.isNone_iff_eq_none,
    Option.isNone_iff_eq_none, Option.eq_none_iff_forall_ne_some,
    Option.eq_none_iff_forall_ne_some]
  exact ⟨fun rules found => (out.matched key rules found).1 member,
    fun set found => (out.sets key set found).1 member⟩

/-- A sheet that is put on a node or taken off it leaves nothing cached for the subtree; it is only
that a node without a sheet loses none. -/
theorem isCached_setNodeSheet (member : other ∈ subtree) {text : String}
    (changes : ¬(Text.trim text.toList = [] ∧ stylist.nodeSheets.find? key = none)) :
    (stylist.setNodeSheet key subtree text).isCached other = false := by
  have emptied : ((stylist.unsheet key).invalidateSubtree subtree).isCached other = false :=
    (invalidateSubtree_takenOut subtree _).isCached member
  by_cases visible : Text.trim text.toList = []
  · have sheeted : (stylist.nodeSheets.find? key).isSome := by
      rw [Option.isSome_iff_ne_none]
      exact fun bare => changes ⟨visible, bare⟩
    rwa [setNodeSheet, if_pos visible, clearNodeSheet_eq, if_pos sheeted]
  · have installs : Installs _ (stylist.setNodeSheet key subtree text) key text :=
      setNodeSheet_installs key subtree visible
    rwa [isCached, installs.matched, installs.sets]

theorem setNodeSheet_of_bare {text : String} (blank : Text.trim text.toList = [])
    (bare : stylist.nodeSheets.find? key = none) :
    stylist.setNodeSheet key subtree text = stylist := by
  rw [setNodeSheet, if_pos blank, clearNodeSheet_eq, bare]
  rfl

end Style.Stylist

namespace Forest

variable {forest after : Forest} {id other : WidgetId}

/-- A move leaves the same widgets below the widget that moves. -/
theorem Linked.mem_path_reparent_iff (linked : forest.Linked) {newParent : Option WidgetId}
    (moved : forest.reparent id newParent = .ok after) :
    id ∈ after.path other ↔ id ∈ forest.path other := by
  refine ⟨linked.mem_path_of_reparent moved, ?_⟩
  induction other using linked.upward with
  | step other inductionHypothesis =>
      intro below
      rw [linked.mem_path_iff] at below
      rw [(linked.reparent moved).mem_path_iff]
      by_cases same : other = id
      · exact Or.inl same.symm
      · obtain ⟨parent, up, above⟩ := below.resolve_left (Ne.symm same)
        refine Or.inr ⟨parent, ?_, inductionHypothesis parent up above⟩
        rw [(linked.reparent_links moved).1, if_neg same, up]

end Forest

namespace Application

open Forest

variable {app after : Application} {id other : WidgetId}

/-! ### Changes of a subtree -/

/-- What is cached for a widget that is below another one neither before nor after a change stays:
the next lookup gives the instance that a lookup before would have given, from the entry of the
widget. -/
def SparesOutside (app after : Application) (id : WidgetId) : Prop :=
  ∀ other mask style, app.forest.contains other = true → other ∉ app.forest.subtree id →
    other ∉ after.forest.subtree id → app.stylist.cached? (styleKey other) mask = some style →
      (app.stylist.resolve (app.forest.lineage other) mask).1 = style ∧
        after.stylist.resolve (after.forest.lineage other) mask =
          (style,
            { after.stylist with
              stats :=
                { after.stylist.stats with nodeHits := after.stylist.stats.nodeHits + 1 } })

/-- Nothing is cached for a widget or those below it, before or after a change. -/
def EmptiesInside (app after : Application) (id : WidgetId) : Prop :=
  ∀ other, other ∈ app.forest.subtree id ∨ other ∈ after.forest.subtree id →
    after.isStyleCached other = false

theorem Sound.sparesOutside (sound : app.Sound)
    (lineage : ∀ {other}, app.forest.contains other = true → id ∉ after.forest.path other →
      after.forest.lineage other = app.forest.lineage other)
    (linkedAfter : after.forest.Linked)
    (kept : ∀ {other mask}, app.forest.contains other = true → id ∉ app.forest.path other →
      id ∉ after.forest.path other →
      after.stylist.cached? (styleKey other) mask = app.stylist.cached? (styleKey other) mask) :
    SparesOutside app after id := by
  intro other mask style live outside outsideAfter cached
  rw [sound.linked.mem_subtree_iff] at outside
  rw [linkedAfter.mem_subtree_iff] at outsideAfter
  obtain ⟨found, isPlaced, heeds⟩ := sound.coherent.placed_of_cached cached
  rw [placed_of_contains live, Option.some_inj] at isPlaced
  subst isPlaced
  have cachedAfter := (kept live outside outsideAfter).trans cached
  rw [← lineage_key] at cached cachedAfter
  rw [lineage live outsideAfter, Stylist.resolve_of_cached heeds cached,
    Stylist.resolve_of_cached heeds cachedAfter]
  exact ⟨rfl, rfl⟩

/-- The sheet of a widget is put on or taken off. -/
theorem Sound.setWidgetSheet_local (sound : app.Sound) {text : String}
    (done : ((Application.setWidgetSheet id text).run app).1 = .ok ⟨⟩) :
    SparesOutside app ((Application.setWidgetSheet id text).run app).2 id ∧
      (Text.trim text.toList = [] ∧ app.widgetSheet? id = none →
        ((Application.setWidgetSheet id text).run app).2.stylist = app.stylist) ∧
      (¬(Text.trim text.toList = [] ∧ app.widgetSheet? id = none) →
        EmptiesInside app ((Application.setWidgetSheet id text).run app).2 id) := by
  cases found : app.forest.get? id with
  | none =>
      simp only [Application.setWidgetSheet, run_bind, requireWidget_run,
        require_eq_error found] at done
      cases done
  | some widget =>
      obtain ⟨home, isHome, -⟩ := exists_windowOf (contains_iff.mpr ⟨widget, found⟩)
      have run := setWidgetSheet_run found isHome text
      have forest : ((Application.setWidgetSheet id text).run app).2.forest = app.forest := by
        rw [run]
        simp
      have stylist : ((Application.setWidgetSheet id text).run app).2.stylist =
          app.stylist.setNodeSheet (styleKey id) (app.forest.subtreeKeys id) text := by
        rw [run]
        simp
      generalize ((Application.setWidgetSheet id text).run app).2 = after at forest stylist ⊢
      have bare : app.widgetSheet? id = none ↔
          app.stylist.nodeSheets.find? (styleKey id) = none := Option.map_eq_none_iff
      rw [bare]
      refine ⟨?_, fun unchanged => ?_, fun changes other inside => ?_⟩
      · apply sound.sparesOutside
        · exact fun _ _ => by rw [forest]
        · rw [forest]
          exact sound.linked
        · intro other mask live outside _
          rw [stylist]
          apply sound.coherent.cached?_setNodeSheet (placed_of_contains live)
          · intro node member
            rw [sound.linked.lineage_path] at member
            obtain ⟨above, onPath, rfl⟩ := List.mem_map.mp member
            rw [styleNode_key]
            rintro same
            exact outside (styleKey_injective same ▸ onPath)
          · rwa [mem_subtreeKeys_iff sound.linked]
      · rw [stylist, Stylist.setNodeSheet_of_bare unchanged.1 unchanged.2]
      · rw [forest, or_self, sound.linked.mem_subtree_iff, ← mem_subtreeKeys_iff sound.linked]
          at inside
        rw [isStyleCached, stylist]
        exact Stylist.isCached_setNodeSheet inside changes

/-- A widget gets a new place, and those below it with it. -/
theorem Sound.reparent_local (sound : app.Sound) {newParent : Option WidgetId}
    (done : ((Application.reparent id newParent).run app).1 = .ok ⟨⟩) :
    SparesOutside app ((Application.reparent id newParent).run app).2 id ∧
      EmptiesInside app ((Application.reparent id newParent).run app).2 id := by
  cases found : app.forest.get? id with
  | none =>
      simp only [Application.reparent, run_bind, requireWidget_run, require_eq_error found] at done
      cases done
  | some widget =>
      cases moved : app.forest.reparent id newParent with
      | error cause =>
          simp only [Application.reparent, run_bind, requireWidget_run, require_eq_ok found,
            Except.mapError, get_run, ofForest_run, moved] at done
          cases done
      | ok turned =>
          obtain ⟨-, forest, -, stylist, -⟩ := reparent_run found moved
          generalize ((Application.reparent id newParent).run app).2 = after at forest stylist ⊢
          subst forest
          have linked := sound.linked.reparent moved
          have alike := (sound.linked.unchangedAway_reparent moved).toAlikeAway
          constructor
          · apply sound.sparesOutside
            · intro other live outside
              rw [← contains_reparent moved] at live
              exact (alike.lineage sound.linked linked live outside).2.symm
            · exact linked
            · intro other mask _ _ outside
              rw [stylist]
              apply Stylist.cached?_invalidateSubtree
              rwa [mem_subtreeKeys_iff linked]
          · intro other inside
            rw [sound.linked.mem_subtree_iff, linked.mem_subtree_iff,
              ← sound.linked.mem_path_reparent_iff moved, or_self, ← mem_subtreeKeys_iff linked]
              at inside
            rw [isStyleCached, stylist]
            exact (Stylist.invalidateSubtree_takenOut _ app.stylist).isCached inside

/-- In every state that operations can lead to, a sheet that is put on a widget or taken off it, and
a widget that is moved, take out what is cached for the widget and those below it; whatever is
cached for other widgets stays and answers the next lookup. Only a blank text for a widget without
a sheet changes nothing at all. -/
theorem Reachable.invalidation_local (reachable : app.Reachable) (id : WidgetId) :
    (∀ text after, (setWidgetSheet id text).run app = (.ok ⟨⟩, after) →
      SparesOutside app after id ∧
        if Text.trim text.toList = [] ∧ app.widgetSheet? id = none then after.stylist = app.stylist
        else EmptiesInside app after id) ∧
    ∀ newParent after, (reparent id newParent).run app = (.ok ⟨⟩, after) →
      SparesOutside app after id ∧ EmptiesInside app after id := by
  constructor
  · intro text after run
    obtain ⟨spares, unchanged, empties⟩ :=
      reachable.sound.setWidgetSheet_local (congrArg Prod.fst run)
    rw [run] at spares unchanged empties
    refine ⟨spares, ?_⟩
    split
    case isTrue blank => exact unchanged blank
    case isFalse changes => exact empties changes
  · intro newParent after run
    have changed := reachable.sound.reparent_local (congrArg Prod.fst run)
    rwa [run] at changed

/-- Two labels that share a style, which has been looked up for both. -/
def siblingLabels : Application :=
  let styled := Change.apply (new {}) (.setAppSheet "Label { color: red; }")
  let window := Change.apply styled (.createWindow { typeName := "Window" })
  let first := Change.apply window (.createWidget ⟨0⟩ { typeName := "Label" })
  let second := Change.apply first (.createWidget ⟨0⟩ { typeName := "Label" })
  ((widgetStyle ⟨2⟩).run ((widgetStyle ⟨1⟩).run second).2).2

/-- A sheet for the first label leaves the style that both have shared to the second one. -/
theorem invalidation_local_siblingLabels :
    siblingLabels.Reachable ∧
    ∃ style after, (setWidgetSheet ⟨1⟩ "Label { color: blue; }").run siblingLabels =
        (.ok ⟨⟩, after) ∧
      siblingLabels.stylist.cached? (styleKey ⟨1⟩) PseudoMask.empty = some style ∧
      siblingLabels.stylist.cached? (styleKey ⟨2⟩) PseudoMask.empty = some style ∧
      (after.stylist.resolve (after.forest.lineage ⟨2⟩) PseudoMask.empty).1 = style ∧
      after.isStyleCached ⟨1⟩ = false := by
  have reachable : siblingLabels.Reachable := by
    unfold siblingLabels
    exact .widgetStyle _ (.widgetStyle _ (.change _ (.change _ (.change _ (.change _ (.new {}))))))
  obtain ⟨style, cached⟩ : ∃ style, siblingLabels.stylist.cached? (styleKey ⟨1⟩) PseudoMask.empty =
      some style := Option.isSome_iff_exists.mp (by decide +kernel)
  have shared : siblingLabels.stylist.cached? (styleKey ⟨2⟩) PseudoMask.empty = some style := by
    rw [← cached]
    decide +kernel
  have found : siblingLabels.forest.get? ⟨1⟩ =
      some { typeName := "Label", parent := some ⟨0⟩ } := by decide +kernel
  have isHome : siblingLabels.forest.windowOf? ⟨1⟩ = some ⟨0⟩ := by decide +kernel
  have run := setWidgetSheet_run found isHome "Label { color: blue; }"
  obtain ⟨spares, rest⟩ := (reachable.invalidation_local ⟨1⟩).1 _ _ run
  rw [if_neg fun blank => absurd blank.1 (by decide)] at rest
  refine ⟨reachable, style, _, run, cached, shared, ?_, ?_⟩
  · obtain ⟨-, again⟩ := spares ⟨2⟩ PseudoMask.empty style (by decide +kernel) (by decide +kernel)
      (by decide +kernel) shared
    rw [again]
  · exact rest ⟨1⟩ (Or.inl (by decide +kernel))

end Application

end StyledWidgets
