/-
Module: StyledWidgets.Proofs.LiveCaches
Purpose: The caches of an application hold nothing dead. A sheet that is taken off is dropped from
  one cache, the widgets below it from two others, and both have to agree with the widgets that are
  there, whatever is moved or destroyed in between.
Main exports: Application.Housed, Application.Housed.change, Application.Reachable.housed,
  Application.Reachable.caches_live
-/
import StyledWidgets.Proofs.StylistRuns
import StyledWidgets.Proofs.WindowEntries

namespace StyledWidgets

open StyledWidgets.Sheet StyledWidgets.Style

namespace Application

variable {app after : Application} {id : WidgetId}

/-! ### Sheets of widgets -/

/-- The stylist of an application is one that its calls lead to, and sheets are only kept for
widgets that are there. -/
structure Housed (app : Application) : Prop where
  calls : app.stylist.Reachable
  sheets : ∀ {key : NodeKey} {sheet : StyleSheet}, app.stylist.nodeSheets.find? key = some sheet →
    ∃ id, key = Forest.styleKey id ∧ app.forest.contains id = true

theorem housed_new (settings : Settings) : (new settings).Housed where
  calls := .new settings.style
  sheets found := by cases found

/-- No sheet comes into use and no widget goes away. -/
theorem Housed.step (housed : app.Housed) (calls : after.stylist.Reachable)
    (sheets : ∀ {key sheet}, after.stylist.nodeSheets.find? key = some sheet →
      app.stylist.nodeSheets.find? key = some sheet)
    (stays : ∀ {id}, app.forest.contains id = true → after.forest.contains id = true) :
    after.Housed where
  calls := calls
  sheets found := by
    obtain ⟨id, isKey, live⟩ := housed.sheets (sheets found)
    exact ⟨id, isKey, stays live⟩

theorem Housed.kept (housed : app.Housed) (stylist : after.stylist = app.stylist)
    (stays : ∀ {id}, app.forest.contains id = true → after.forest.contains id = true) :
    after.Housed :=
  housed.step (stylist ▸ housed.calls) (fun found => stylist ▸ found) stays

theorem Housed.adjusted (housed : app.Housed) {change : Widget → Widget}
    (stylist : after.stylist = app.stylist)
    (forest : after.forest = app.forest.adjust id change) : after.Housed := by
  apply housed.kept stylist
  intro other live
  rwa [forest, Forest.contains_adjust]

theorem Housed.schedule (housed : app.Housed) (id : WidgetId) (rect : Option Rect) :
    (app.schedule id rect).Housed := by
  obtain ⟨forest, stylist, -⟩ : (app.schedule id rect).forest = app.forest ∧ _ ∧ _ :=
    schedule_rest rect
  exact housed.kept stylist fun live => forest ▸ live

theorem resolve_nodeSheets {stylist : Stylist} (calls : stylist.Reachable) (lineage : Lineage)
    (mask : PseudoMask) :
    (stylist.resolve lineage mask).2.nodeSheets = stylist.nodeSheets := by
  cases heeds : lineage.node.ignoresSheets with
  | true =>
      simp only [Stylist.resolve, heeds, if_true]
  | false => exact (calls.sound.follows.resolve heeds mask).same.nodeSheets

theorem Housed.resolve (housed : app.Housed) (lineage : Lineage) (mask : PseudoMask) :
    { app with stylist := (app.stylist.resolve lineage mask).2 }.Housed := by
  apply housed.step
  · exact .call (.resolve lineage mask) housed.calls
  · intro key sheet found
    rwa [resolve_nodeSheets housed.calls] at found
  · exact id

/-! ### Operations -/

section Operations

variable (housed : app.Housed)

include housed

theorem Housed.setAppSheet (text : String) : (app.setAppSheet text).Housed :=
  housed.step (.call (.setAppSheet text) housed.calls) id id

theorem Housed.setWidgetSheet (text : String) :
    ((Application.setWidgetSheet id text).run app).2.Housed := by
  rcases setWidgetSheet_after text with same | ⟨home, isHome, after⟩
  · rw [same]
    exact housed
  · rw [after]
    apply Housed.schedule
    constructor
    case calls => exact .call (.setNodeSheet _ _ text) housed.calls
    case sheets =>
      intro key sheet found
      by_cases same : key = Forest.styleKey id
      · exact ⟨id, same, Forest.contains_of_windowOf? isHome⟩
      · rw [(Stylist.setNodeSheet_others _ _ text).2.2 key same] at found
        exact housed.sheets found

theorem Housed.createWindow (widget : Widget) : (app.createWindow widget).2.Housed :=
  housed.kept rfl fun live => Forest.contains_push.mpr (Or.inr live)

theorem Housed.createWidget (parent : WidgetId) (widget : Widget) :
    ((Application.createWidget parent widget).run app).2.Housed := by
  rcases createWidget_after parent widget with same | ⟨id, forest, inserted, after⟩
  · rw [same]
    exact housed
  · rw [after]
    apply Housed.schedule
    exact housed.kept rfl fun live => (Forest.contains_insert inserted).mpr (Or.inr live)

theorem Housed.reparent (newParent : Option WidgetId) :
    ((Application.reparent id newParent).run app).2.Housed := by
  rcases reparent_after newParent with same | ⟨widget, forest, -, moved, isForest, -, stylist, -⟩
  · rw [same]
    exact housed
  · apply housed.step
    · rw [stylist]
      exact .call (.invalidateSubtree _) housed.calls
    · intro key sheet found
      rwa [stylist, Stylist.invalidateSubtree_nodeSheets] at found
    · intro other live
      rwa [isForest, contains_reparent moved]

/-- The sheets of destroyed widgets go with them. -/
theorem Housed.destroyWidget (linked : app.forest.Linked) :
    ((Application.destroyWidget id).run app).2.Housed := by
  rcases destroyWidget_after with same | ⟨widget, removed, forest, -, gone, isForest, -, stylist, -⟩
  · rw [same]
    exact housed
  · constructor
    case calls =>
      rw [stylist]
      have calls := housed.calls
      generalize app.stylist = before at calls
      induction removed.map Forest.styleKey generalizing before with
      | nil => exact calls
      | cons key later inductionHypothesis =>
          exact inductionHypothesis _ (.call (.nodeDestroyed key) calls)
    case sheets =>
      intro key sheet found
      rw [stylist, (Stylist.nodesDestroyed_takenOut _ app.stylist).nodeSheets] at found
      obtain ⟨id, rfl, live⟩ := housed.sheets found.2
      refine ⟨id, rfl, ?_⟩
      rw [isForest, contains_remove linked gone]
      refine ⟨live, fun below => found.1 (List.mem_map_of_mem ?_)⟩
      rwa [mem_removed_iff linked gone]

theorem Housed.setGeometry (geometry : Rect) :
    ((Application.setGeometry id geometry).run app).2.Housed := by
  rcases setGeometry_after geometry with same | ⟨widget, -, after⟩
  · rw [same]
    exact housed
  · rw [after]
    apply Housed.schedule
    exact housed.adjusted (scheduleIn_rest widget.parent widget.geometry).2.1 rfl

theorem Housed.setVisible (visible : Bool) :
    ((Application.setVisible id visible).run app).2.Housed := by
  rcases setVisible_after visible with same | ⟨widget, -, -, after⟩
  · rw [same]
    exact housed
  · rw [after]
    cases visible with
    | true =>
        apply Housed.schedule
        exact housed.adjusted rfl rfl
    | false => exact housed.adjusted (scheduleIn_rest widget.parent widget.geometry).2.1 rfl

theorem Housed.setOpaque (isOpaque : Bool) :
    ((Application.setOpaque id isOpaque).run app).2.Housed := by
  rcases setOpaque_after isOpaque with same | ⟨widget, -, after⟩
  · rw [same]
    exact housed
  · rw [after]
    apply Housed.schedule
    exact housed.adjusted rfl rfl

theorem Housed.setText (text : String) : ((Application.setText id text).run app).2.Housed := by
  rcases setText_after text with same | ⟨widget, -, after⟩
  · rw [same]
    exact housed
  · rw [after]
    apply Housed.schedule
    exact housed.adjusted rfl rfl

theorem Housed.setPseudoState (mask : PseudoMask) :
    ((Application.setPseudoState id mask).run app).2.Housed := by
  rcases setPseudoState_after mask with same | ⟨widget, -, outcome⟩
  · rw [same]
    exact housed
  · have turned : { app with
        forest := app.forest.adjust id fun widget => { widget with pseudo := mask } }.Housed :=
      housed.adjusted rfl rfl
    rcases outcome with ⟨-, after⟩ | ⟨-, after⟩ | after
    · rw [after]
      exact turned
    · rw [after]
      exact (turned.resolve _ widget.pseudo).resolve _ mask
    · rw [after]
      apply Housed.schedule
      exact (turned.resolve _ widget.pseudo).resolve _ mask

theorem Housed.advanceAnimation : ((Application.advanceAnimation id).run app).2.Housed := by
  rcases advanceAnimation_after with same | ⟨widget, -, outcome⟩
  · rw [same]
    exact housed
  · have looked := housed.resolve (app.forest.lineage id) widget.pseudo
    rcases outcome with after | after
    · rw [after]
      exact looked
    · rw [after]
      apply Housed.schedule
      exact looked.adjusted rfl rfl

theorem Housed.requestUpdate (rect : Option Rect) :
    ((Application.requestUpdate id rect).run app).2.Housed := by
  rcases requestUpdate_after rect with same | after
  · rw [same]
    exact housed
  · rw [after]
    exact housed.schedule id rect

theorem Housed.change (linked : app.forest.Linked) (change : Change) :
    (change.apply app).Housed := by
  cases change with
  | setAppSheet text => exact housed.setAppSheet text
  | setWidgetSheet id text => exact housed.setWidgetSheet text
  | createWindow widget => exact housed.createWindow widget
  | createWidget parent widget => exact housed.createWidget parent widget
  | reparent id newParent => exact housed.reparent newParent
  | destroyWidget id => exact housed.destroyWidget linked
  | setGeometry id geometry => exact housed.setGeometry geometry
  | setVisible id visible => exact housed.setVisible visible
  | setOpaque id isOpaque => exact housed.setOpaque isOpaque
  | setText id text => exact housed.setText text
  | setPseudoState id mask => exact housed.setPseudoState mask
  | advanceAnimation id => exact housed.advanceAnimation
  | requestUpdate id rect => exact housed.requestUpdate rect

theorem Housed.widgetStyle : ((Application.widgetStyle id).run app).2.Housed := by
  rw [widgetStyle_run]
  cases app.forest.get? id with
  | none => exact housed
  | some widget => exact housed.resolve (app.forest.lineage id) widget.pseudo

/-- The node made for a query leaves nothing behind. -/
theorem Housed.probeStyle (typeName objectName : String) (mask : PseudoMask) :
    (app.probeStyle typeName objectName mask).2.Housed := by
  obtain ⟨probe, isProbe⟩ : ∃ probe, probe =
    (app.stylist.createQuery typeName objectName none).1 := ⟨_, rfl⟩
  obtain ⟨asking, isAsking⟩ : ∃ asking, asking =
    (app.stylist.createQuery typeName objectName none).2 := ⟨_, rfl⟩
  have calls : asking.Reachable :=
    isAsking ▸ .call (.createQuery typeName objectName none) housed.calls
  have after : (app.probeStyle typeName objectName mask).2 =
      { app with stylist := (asking.resolve probe mask).2.nodeDestroyed probe.key } := by
    rw [isAsking, isProbe]
    rfl
  rw [after]
  apply housed.step
  · exact .call (.nodeDestroyed probe.key) (.call (.resolve probe mask) calls)
  · intro key sheet found
    rw [(Stylist.nodeDestroyed_takenOut probe.key).nodeSheets, resolve_nodeSheets calls] at found
    rw [isAsking] at found
    exact found.2
  · exact id

theorem Housed.paintWindow {σ : Type} (backend : Backend σ) (window : WidgetId) (state : σ) :
    (app.paintWindow backend window state).2.1.Housed := by
  rcases paintWindow_after backend window state with same | ⟨damage, -, after⟩
  · rw [same]
    exact housed
  · -- Whatever styles a painting looks up, it takes no other steps.
    have looks : ResolvesTo app.forest (fun _ _ => True) fun stylist =>
        { app with stylist := stylist }.Housed :=
      fun stylist id _ kept => ⟨trivial, kept.resolve (app.forest.lineage id) _⟩
    have begun : { app with stylist := (PaintState.mk app.stylist state).stylist }.Housed := housed
    have painted := Damage.paint_keeps backend looks
      (damage.compute app.forest app.settings.repaint) app.settings.retry.maxAttempts begun
    rw [after]
    exact painted.step painted.calls id id

end Operations

/-! ### Runs -/

theorem Reachable.housed (reachable : app.Reachable) : app.Housed := by
  induction reachable with
  | new settings => exact housed_new settings
  | change change reachable housed => exact housed.change reachable.sound.linked change
  | widgetStyle id _ housed => exact housed.widgetStyle
  | probeStyle typeName objectName mask _ housed => exact housed.probeStyle typeName objectName mask
  | paintWindow backend window state _ housed => exact housed.paintWindow backend window state
  | paintAll backend state _ housed =>
      apply paintEach_induction backend _ _ _ state housed
      exact fun app window state housed => housed.paintWindow backend window state

/-- In every state that operations can lead to, the sets of matched rules only name sheets that are
in use, whatever is cached belongs to a widget that is there, the rules kept for a widget stand in
the sheet of the application or in those of the widgets on its path, and the set kept for a widget
is that of these rules. -/
theorem Reachable.caches_live (reachable : app.Reachable) :
    (∀ set ∈ app.stylist.ruleSets.keys, ∀ number, set.references number = true →
      ∃ sheet, app.stylist.Installed sheet ∧ sheet.id = number) ∧
    (∀ key, key ∈ app.stylist.matchedRules.keys ∨ key ∈ app.stylist.nodeRuleSets.keys ∨
      key ∈ app.stylist.nodeSheets.keys →
        ∃ id, key = Forest.styleKey id ∧ app.forest.contains id = true) ∧
    (∀ id rules, app.stylist.matchedRules.find? (Forest.styleKey id) = some rules →
      ∀ matched ∈ rules, ∃ sheet,
        (app.stylist.appSheet = some sheet ∨ ∃ above ∈ app.forest.path id,
          app.stylist.nodeSheets.find? (Forest.styleKey above) = some sheet) ∧
        matched.ref.sheet = sheet.id ∧ sheet.rules[matched.ref.rule]? = some matched.rule) ∧
    ∀ key set, app.stylist.nodeRuleSets.find? key = some set →
      ∃ rules, app.stylist.matchedRules.find? key = some rules ∧
        set = RuleSetKey.ofMatched rules := by
  obtain ⟨linked, -, coherent, -⟩ := reachable.sound
  obtain ⟨calls, sheets⟩ := reachable.housed
  refine ⟨?_, ?_, ?_, calls.sound.follows⟩
  · intro set member number mentioned
    obtain ⟨styles, found⟩ := Table.mem_keys_iff.mp member
    obtain ⟨ref, isRef, isNumber⟩ := List.any_eq_true.mp mentioned
    have stored : app.stylist.ruleSets.contains set = true := by
      rw [Table.contains, found]
      rfl
    obtain ⟨sheet, installed, isSheet⟩ := coherent.current stored ref isRef
    exact ⟨sheet, installed, isSheet.symm.trans (beq_iff_eq.mp isNumber)⟩
  · intro key member
    have ofPlaced : ∀ {lineage}, Stylist.Placed app.forest.placed key lineage →
        ∃ id, key = Forest.styleKey id ∧ app.forest.contains id = true := by
      intro lineage isPlaced
      obtain ⟨id, isKey, live, -⟩ := Forest.placed_eq_some isPlaced.1
      exact ⟨id, isKey, live⟩
    rcases member with matched | noted | sheet
    · obtain ⟨rules, found⟩ := Table.mem_keys_iff.mp matched
      obtain ⟨lineage, isPlaced, -⟩ := coherent.matched found
      exact ofPlaced isPlaced
    · obtain ⟨set, found⟩ := Table.mem_keys_iff.mp noted
      obtain ⟨lineage, isPlaced, -⟩ := coherent.sets found
      exact ofPlaced isPlaced
    · obtain ⟨sheet, found⟩ := Table.mem_keys_iff.mp sheet
      exact sheets found
  · intro id rules found matched member
    obtain ⟨lineage, isPlaced, rfl⟩ := coherent.matched found
    obtain ⟨other, isKey, -, rfl⟩ := Forest.placed_eq_some isPlaced.1
    obtain rfl := Forest.styleKey_injective isKey
    obtain ⟨sheet, applies, isSheet, isRule, -⟩ := coherent.read.mem_matchLineage member
    refine ⟨sheet, ?_, isSheet, isRule⟩
    rw [Stylist.sheetsFor, List.mem_append, List.mem_filterMap, Option.mem_toList] at applies
    rcases applies with ⟨node, onPath, isOn⟩ | isApp
    · rw [linked.lineage_path] at onPath
      obtain ⟨above, member, rfl⟩ := List.mem_map.mp onPath
      exact Or.inr ⟨above, member, Forest.styleNode_key above ▸ isOn⟩
    · exact Or.inl isApp

/-- After its style is looked up, the rules of a widget that heeds sheets are kept. -/
theorem Housed.rules_widgetStyle (housed : app.Housed) {widget : Widget}
    (found : app.forest.get? id = some widget) (heeds : widget.ignoresSheets = false) :
    ∃ rules, ((Application.widgetStyle id).run app).2.stylist.matchedRules.find?
      (Forest.styleKey id) = some rules := by
  have heedsToo : (app.forest.lineage id).node.ignoresSheets = false := by
    rw [Forest.lineage, Forest.styleNode, found]
    exact heeds
  have resolved := housed.calls.sound.follows.resolve heedsToo widget.pseudo
  rw [widgetStyle_run, found]
  exact ⟨_, (resolved.matched _).trans (if_pos (Forest.lineage_key id))⟩

/-- A panel with a sheet that has been destroyed after its button was moved out of it; the style of
the button had been looked up before. -/
def destroyedPanel : Application :=
  let window := Change.apply (new {}) (.createWindow { typeName := "Window" })
  let panel := Change.apply window (.createWidget ⟨0⟩ { typeName := "Panel" })
  let button := Change.apply panel (.createWidget ⟨1⟩ { typeName := "Button" })
  let blue := Change.apply button (.setAppSheet "Button { color: blue; }")
  let red := Change.apply blue (.setWidgetSheet ⟨1⟩ "Button { color: red; }")
  let known := ((Application.widgetStyle ⟨2⟩).run red).2
  Change.apply (Change.apply known (.reparent ⟨2⟩ (some ⟨0⟩))) (.destroyWidget ⟨1⟩)

theorem destroyedPanel_reachable : destroyedPanel.Reachable := by
  unfold destroyedPanel
  exact .change _ (.change _ (.widgetStyle _ (.change _ (.change _ (.change _ (.change _
    (.change _ (.new {}))))))))

/-- With the style of the button looked up again, its rules are kept, and those of the sheet of the
panel are not among them. -/
theorem caches_live_destroyedPanel :
    destroyedPanel.Reachable ∧ destroyedPanel.forest.contains ⟨1⟩ = false ∧
    ∃ app : Application, app = ((Application.widgetStyle ⟨2⟩).run destroyedPanel).2 ∧
      app.stylist.nodeSheets.find? (Forest.styleKey ⟨1⟩) = none ∧
      ∃ rules, app.stylist.matchedRules.find? (Forest.styleKey ⟨2⟩) = some rules ∧
        ∀ matched ∈ rules, ∃ sheet,
          (app.stylist.appSheet = some sheet ∨ ∃ above ∈ app.forest.path ⟨2⟩,
            app.stylist.nodeSheets.find? (Forest.styleKey above) = some sheet) ∧
          matched.ref.sheet = sheet.id ∧ sheet.rules[matched.ref.rule]? = some matched.rule := by
  have button : destroyedPanel.forest.get? ⟨2⟩ =
      some { typeName := "Button", parent := some ⟨0⟩ } := rfl
  obtain ⟨-, keys, rules, -⟩ :=
    (Reachable.widgetStyle ⟨2⟩ destroyedPanel_reachable).caches_live
  refine ⟨destroyedPanel_reachable, rfl, _, rfl, ?_, ?_⟩
  · rw [Option.eq_none_iff_forall_ne_some]
    intro sheet found
    obtain ⟨id, isKey, live⟩ := keys _ (Or.inr (Or.inr (Table.mem_keys_iff.mpr ⟨sheet, found⟩)))
    obtain rfl := Forest.styleKey_injective isKey
    rw [widgetStyle_run, button] at live
    cases live
  · obtain ⟨kept, found⟩ := destroyedPanel_reachable.housed.rules_widgetStyle button rfl
    exact ⟨kept, found, rules _ _ found⟩

end Application

end StyledWidgets
