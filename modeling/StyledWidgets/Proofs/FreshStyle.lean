/-
Module: StyledWidgets.Proofs.FreshStyle
Purpose: The style of a widget is at every moment the one that a new stylist would give it from the
  texts of the sheets alone; nothing that the caches hold is out of date.
Main exports: Stylist.SheetsRead.freshAppearance_of_sameTexts, Application.freshStylist,
  Application.Reachable.widgetStyle_fresh
-/
import StyledWidgets.Proofs.ApplicationRuns

namespace StyledWidgets

open StyledWidgets.Sheet StyledWidgets.Style

namespace Style

namespace Stylist

variable {stylist other : Stylist} {lineage : Lineage}

/-! ### Sheets known by their level -/

/-- A matched rule whose reference names the level of its sheet instead of the sheet. -/
def byLevel (matched : MatchedRule) : MatchedRule :=
  { matched with ref := { matched.ref with sheet := ⟨matched.weight.level⟩ } }

/-- Every matched rule comes from a sheet at its level. -/
theorem mem_matchSheets_level {sheets : List StyleSheet} {matched : MatchedRule}
    (member : matched ∈ matchSheets lineage sheets) :
    ∃ inner sheet outer, sheets = inner ++ sheet :: outer ∧ matched.ref.sheet = sheet.id ∧
      matched.weight.level = outer.length := by
  induction sheets with
  | nil => simp [matchSheets] at member
  | cons sheet outer inductionHypothesis =>
      rw [matchSheets, List.mem_append] at member
      rcases member with here | further
      · obtain ⟨entry, -, rfl⟩ := List.mem_map.mp here
        exact ⟨[], sheet, outer, rfl, rfl, rfl⟩
      · obtain ⟨inner, found, rest, split, isSheet, level⟩ := inductionHypothesis further
        exact ⟨sheet :: inner, found, rest, by rw [split]; rfl, isSheet, level⟩

/-- Sheets with different identities are told apart by their levels. -/
theorem byLevel_sameRule {sheets : List StyleSheet} (distinct : (sheets.map StyleSheet.id).Nodup)
    {a b : MatchedRule} (first : a ∈ matchSheets lineage sheets)
    (second : b ∈ matchSheets lineage sheets) :
    (byLevel a).ref.sameRule (byLevel b).ref = a.ref.sameRule b.ref := by
  obtain ⟨inner, sheet, outer, split, isSheet, level⟩ := mem_matchSheets_level first
  obtain ⟨innerToo, sheetToo, outerToo, splitToo, isSheetToo, levelToo⟩ :=
    mem_matchSheets_level second
  have apart : a.weight.level = b.weight.level ↔ a.ref.sheet = b.ref.sheet := by
    rw [level, levelToo, isSheet, isSheetToo]
    constructor
    · intro sameLevel
      have whole := split.symm.trans splitToo
      have lengths : inner.length = innerToo.length := by
        have total := congrArg List.length whole
        simp only [List.length_append, List.length_cons] at total
        omega
      have tails := (List.append_inj whole lengths).2
      rw [List.cons.injEq] at tails
      rw [tails.1]
    · intro sameSheet
      rw [split, List.map_append, List.map_cons] at distinct
      have whole := congrArg (List.map StyleSheet.id) (split.symm.trans splitToo)
      rw [List.map_append, List.map_append, List.map_cons, List.map_cons, ← sameSheet] at whole
      have once := List.nodup_append.mp distinct
      have notBefore : sheet.id ∉ inner.map StyleSheet.id := fun held =>
        once.2.2 sheet.id held sheet.id (List.mem_cons_self ..) rfl
      have notAfter : sheet.id ∉ outer.map StyleSheet.id := (List.nodup_cons.mp once.2.1).1
      have tails := ((List.append_cons_inj_of_notMem notBefore notAfter).mp whole).2.2
      have lengths := congrArg List.length tails
      rwa [List.length_map, List.length_map] at lengths
  rw [Bool.eq_iff_iff, RuleRef.sameRule_iff, RuleRef.sameRule_iff]
  refine and_congr_left fun _ => ?_
  rw [← apart]
  simp [byLevel]

/-- Known by their levels, matched rules depend on the texts of the sheets only. -/
theorem matchSheets_byLevel {sheets others : List StyleSheet}
    (read : ∀ sheet ∈ sheets, sheet = StyleSheet.parse sheet.id sheet.source)
    (readToo : ∀ sheet ∈ others, sheet = StyleSheet.parse sheet.id sheet.source)
    (texts : sheets.map StyleSheet.source = others.map StyleSheet.source) :
    (matchSheets lineage sheets).map byLevel = (matchSheets lineage others).map byLevel := by
  induction sheets generalizing others with
  | nil =>
      rw [List.map_nil, List.nil_eq, List.map_eq_nil_iff] at texts
      rw [texts]
  | cons sheet outer inductionHypothesis =>
      cases others with
      | nil => cases texts
      | cons sheetToo outerToo =>
          rw [List.map_cons, List.map_cons, List.cons.injEq] at texts
          have further := inductionHypothesis
            (fun sheet member => read sheet (List.mem_cons_of_mem _ member))
            (fun sheet member => readToo sheet (List.mem_cons_of_mem _ member)) texts.2
          have levels : outer.length = outerToo.length := by
            have lengths := congrArg List.length texts.2
            rwa [List.length_map, List.length_map] at lengths
          have here : (matchSheet lineage outer.length sheet).map byLevel =
              (matchSheet lineage outerToo.length sheetToo).map byLevel := by
            rw [read sheet (List.mem_cons_self ..), readToo sheetToo (List.mem_cons_self ..),
              texts.1, levels, matchSheet, matchSheet, List.map_map, List.map_map]
            rfl
          rw [matchSheets, matchSheets, List.map_append, List.map_append, further, here]

theorem matchLineage_byLevel :
    (stylist.matchLineage lineage).map byLevel =
      ((matchSheets lineage (stylist.sheetsFor lineage)).map byLevel).mergeSort
        MatchedRule.le := by
  rw [matchLineage]
  apply List.map_mergeSort
  intro a _ b _
  rfl

/-- The sheets of a node in its place have different identities. -/
theorem SheetsRead.sheetsFor_nodup (read : stylist.SheetsRead)
    (path : (lineage.path.map StyleNode.key).Nodup) :
    ((stylist.sheetsFor lineage).map StyleSheet.id).Nodup := by
  have onPath : ((lineage.path.filterMap fun node =>
      stylist.nodeSheets.find? node.key).map StyleSheet.id).Nodup := by
    generalize lineage.path = nodes at path
    induction nodes with
    | nil => exact List.nodup_nil
    | cons node above inductionHypothesis =>
        rw [List.map_cons, List.nodup_cons] at path
        rw [List.filterMap_cons]
        split
        · exact inductionHypothesis path.2
        · rename_i sheet found
          rw [List.map_cons, List.nodup_cons]
          refine ⟨fun held => ?_, inductionHypothesis path.2⟩
          obtain ⟨twin, member, same⟩ := List.mem_map.mp held
          obtain ⟨place, placeMember, foundToo⟩ := List.mem_filterMap.mp member
          apply path.1
          rw [read.distinct found foundToo same.symm]
          exact List.mem_map_of_mem placeMember
  rw [sheetsFor, List.map_append, List.nodup_append]
  refine ⟨onPath, ?_, ?_⟩
  · cases stylist.appSheet with
    | none => exact List.nodup_nil
    | some app => exact List.nodup_singleton _
  · rintro first isFirst second isSecond rfl
    obtain ⟨sheet, member, rfl⟩ := List.mem_map.mp isFirst
    obtain ⟨app, isApp, same⟩ := List.mem_map.mp isSecond
    obtain ⟨node, -, found⟩ := List.mem_filterMap.mp member
    exact read.apart (Option.mem_toList.mp isApp) found same

/-- Stylists with the same texts on the path of a node give it the same appearance. -/
theorem SheetsRead.freshAppearance_of_sameTexts (read : stylist.SheetsRead)
    (readToo : other.SheetsRead) (settings : stylist.settings = other.settings)
    (path : (lineage.path.map StyleNode.key).Nodup)
    (app : stylist.appSheetText? = other.appSheetText?)
    (nodes : ∀ node ∈ lineage.path,
      stylist.nodeSheetText? node.key = other.nodeSheetText? node.key) (mask : PseudoMask) :
    stylist.freshAppearance lineage mask = other.freshAppearance lineage mask := by
  have texts : (stylist.sheetsFor lineage).map StyleSheet.source =
      (other.sheetsFor lineage).map StyleSheet.source := by
    have onPath : ∀ stylist : Stylist,
        (lineage.path.filterMap fun node => stylist.nodeSheets.find? node.key).map
            StyleSheet.source =
          lineage.path.filterMap fun node => stylist.nodeSheetText? node.key := by
      intro stylist
      rw [List.map_filterMap]
      rfl
    have ofApp : ∀ stylist : Stylist, stylist.appSheet.toList.map StyleSheet.source =
        stylist.appSheetText?.toList := by
      intro stylist
      rw [appSheetText?]
      cases stylist.appSheet <;> rfl
    rw [sheetsFor, sheetsFor, List.map_append, List.map_append, onPath, onPath, ofApp, ofApp,
      app, List.filterMap_congr nodes]
  have known : ∀ {stylist : Stylist}, stylist.SheetsRead →
      appearanceOf stylist.settings ((stylist.matchLineage lineage).map byLevel) mask =
        appearanceOf stylist.settings (stylist.matchLineage lineage) mask := by
    intro stylist read
    apply appearanceOf_map byLevel _ (fun _ => rfl) (fun _ => rfl)
    intro a first b second
    rw [matchLineage, List.mem_mergeSort] at first second
    exact byLevel_sameRule (read.sheetsFor_nodup path) first second
  have levels : (matchSheets lineage (stylist.sheetsFor lineage)).map byLevel =
      (matchSheets lineage (other.sheetsFor lineage)).map byLevel :=
    matchSheets_byLevel (fun _ member => read.parsed (mem_sheetsFor member))
      (fun _ member => readToo.parsed (mem_sheetsFor member)) texts
  rw [freshAppearance, freshAppearance, ← known read, ← known readToo, matchLineage_byLevel,
    matchLineage_byLevel, levels, settings]

/-! ### Texts of sheets -/

theorem appSheetText?_setNodeSheet (key : NodeKey) (subtree : List NodeKey) (text : String) :
    (stylist.setNodeSheet key subtree text).appSheetText? = stylist.appSheetText? := by
  rw [appSheetText?, appSheetText?, (setNodeSheet_others key subtree text).2.1]

theorem nodeSheetText?_setNodeSheet (key place : NodeKey) (subtree : List NodeKey)
    {text : String} (visible : Text.trim text.toList ≠ []) :
    (stylist.setNodeSheet key subtree text).nodeSheetText? place =
      if place = key then some text else stylist.nodeSheetText? place := by
  have nodes : (stylist.setNodeSheet key subtree text).nodeSheets =
      stylist.nodeSheets.insert key (StyleSheet.parse ⟨stylist.nextSheet⟩ text) := by
    rw [Stylist.setNodeSheet, if_neg visible]
    apply (invalidateSubtree_nodeSheets subtree _).trans
    split <;> rfl
  rw [nodeSheetText?, nodeSheetText?, nodes, Table.find?_insert]
  by_cases same : place = key
  · rw [if_pos same.symm, if_pos same]
    rfl
  · rw [if_neg (Ne.symm same), if_neg same]

end Stylist

end Style

namespace Application

open Forest

variable {app : Application} {id : WidgetId}

/-! ### A new stylist -/

/-- A new stylist that has been given the text of the sheet of the application and then those of
the sheets of the widgets. -/
def freshStylist (app : Application) : Stylist :=
  app.forest.handedOut.foldl
    (fun stylist id =>
      match app.widgetSheet? id with
      | some text => stylist.setNodeSheet (styleKey id) (app.forest.subtreeKeys id) text
      | none => stylist)
    (match app.appSheet? with
      | some text => (Stylist.new app.settings.style).setAppSheet text
      | none => Stylist.new app.settings.style)

/-- What a stylist that is given sheets one after the other has been given so far. -/
structure Given (app : Application) (stylist : Stylist) (ids : List WidgetId) : Prop where
  settings : stylist.settings = app.settings.style
  coherent : stylist.Coherent app.forest.placed
  ofApp : stylist.appSheetText? = app.appSheet?
  widgets : ∀ id, stylist.nodeSheetText? (styleKey id) = app.widgetSheet? id ∨
    id ∉ ids ∧ stylist.nodeSheetText? (styleKey id) = none

/-- With one more widget, every widget still has its sheet or is not reached. -/
theorem Given.widgets_append {stylist after : Stylist} {ids : List WidgetId}
    (given : app.Given stylist ids)
    (here : after.nodeSheetText? (styleKey id) = app.widgetSheet? id)
    (others : ∀ other, other ≠ id →
      after.nodeSheetText? (styleKey other) = stylist.nodeSheetText? (styleKey other))
    (other : WidgetId) :
    after.nodeSheetText? (styleKey other) = app.widgetSheet? other ∨
      other ∉ ids ++ [id] ∧ after.nodeSheetText? (styleKey other) = none := by
  by_cases same : other = id
  · exact Or.inl (same ▸ here)
  · rw [others other same]
    refine (given.widgets other).imp_right fun ⟨outside, bare⟩ => ⟨?_, bare⟩
    rw [List.mem_append, List.mem_singleton, not_or]
    exact ⟨outside, same⟩

/-- A widget without a sheet is passed over. -/
theorem Given.bare {stylist : Stylist} {ids : List WidgetId} (given : app.Given stylist ids)
    (noText : app.widgetSheet? id = none) : app.Given stylist (ids ++ [id]) where
  settings := given.settings
  coherent := given.coherent
  ofApp := given.ofApp
  widgets := by
    apply given.widgets_append ?_ fun _ _ => rfl
    rcases given.widgets id with done | ⟨-, bare⟩
    · exact done
    · exact bare.trans noText.symm

/-- A widget is given its sheet. -/
theorem Given.sheet (sound : app.Sound) {stylist : Stylist} {ids : List WidgetId}
    (given : app.Given stylist ids) {text : String} (isText : app.widgetSheet? id = some text) :
    app.Given (stylist.setNodeSheet (styleKey id) (app.forest.subtreeKeys id) text)
      (ids ++ [id]) where
  settings := (Stylist.setNodeSheet_others ..).1.trans given.settings
  coherent := given.coherent.setNodeSheet _ fun _ _ => sound.linked.mem_subtreeKeys_of_placed
  ofApp := (Stylist.appSheetText?_setNodeSheet ..).trans given.ofApp
  widgets := by
    obtain ⟨sheet, isSheet, source⟩ := Option.map_eq_some_iff.mp isText
    have visible := sound.coherent.read.visible isSheet
    rw [source] at visible
    apply given.widgets_append
    · rw [Stylist.nodeSheetText?_setNodeSheet _ _ _ visible, if_pos rfl, isText]
    · intro other apart
      rw [Stylist.nodeSheetText?_setNodeSheet _ _ _ visible,
        if_neg fun key => apart (styleKey_injective key)]

/-- After a run over widgets all of them have their sheets. -/
theorem Given.run (sound : app.Sound) (later : List WidgetId) :
    ∀ {stylist : Stylist} {ids : List WidgetId}, app.Given stylist ids →
      app.Given
        (later.foldl
          (fun stylist id =>
            match app.widgetSheet? id with
            | some text => stylist.setNodeSheet (styleKey id) (app.forest.subtreeKeys id) text
            | none => stylist) stylist) (ids ++ later) := by
  induction later with
  | nil =>
      intro stylist ids given
      rw [List.append_nil]
      exact given
  | cons id later inductionHypothesis =>
      intro stylist ids given
      rw [List.foldl_cons, List.append_cons]
      apply inductionHypothesis
      cases isText : app.widgetSheet? id with
      | none => exact given.bare isText
      | some text => exact given.sheet sound isText

theorem Sound.given_freshStylist (sound : app.Sound) :
    app.Given app.freshStylist app.forest.handedOut := by
  refine @Given.run app sound app.forest.handedOut _ [] ?_
  cases text : app.appSheet? with
  | none =>
      exact ⟨rfl, Stylist.coherent_new _ _, text.symm, fun _ => Or.inr ⟨List.not_mem_nil, rfl⟩⟩
  | some text =>
      exact ⟨rfl, (Stylist.coherent_new _ _).setAppSheet _, text.symm,
        fun _ => Or.inr ⟨List.not_mem_nil, rfl⟩⟩

/-- What the sheets in use give to a widget is what a new stylist finds. -/
theorem Sound.freshStylist_resolve (sound : app.Sound) (live : app.forest.contains id = true)
    (mask : PseudoMask) :
    (app.freshStylist.resolve (app.forest.lineage id) mask).1.appearance? =
      app.stylist.freshAppearance (app.forest.lineage id) mask := by
  obtain ⟨settings, coherent, isApp, widgets⟩ := sound.given_freshStylist
  rw [(coherent.resolve (isPlaced live) mask).appearance]
  apply coherent.read.freshAppearance_of_sameTexts sound.coherent.read
  · rw [settings, sound.settings]
  · rw [sound.linked.lineage_path, List.map_map]
    apply (sound.linked.path_nodup id).map_on
    intro one _ other _ same
    rw [Function.comp, Function.comp, styleNode_key, styleNode_key] at same
    exact styleKey_injective same
  · exact isApp
  · intro node member
    rw [sound.linked.lineage_path] at member
    obtain ⟨widget, onPath, rfl⟩ := List.mem_map.mp member
    rw [styleNode_key]
    refine (widgets widget).resolve_right fun missing => missing.1 ?_
    exact mem_handedOut (sound.linked.contains_of_mem_path live onPath)

/-- In every state that operations can lead to, the style of a widget is the one that a new stylist
with the same texts finds, in any state of the widget's pseudo-classes that is cached and in the
present one; and nothing else is cached. -/
theorem Reachable.widgetStyle_fresh (reachable : app.Reachable) {widget : Widget}
    (found : app.forest.get? id = some widget) :
    (∃ style, ((Application.widgetStyle id).run app).1 = .ok style ∧
        style.appearance? =
          (app.freshStylist.resolve (app.forest.lineage id) widget.pseudo).1.appearance?) ∧
      ∀ key mask style, app.stylist.cached? key mask = some style →
        ∃ other, key = styleKey other ∧ app.forest.contains other = true ∧
          style.appearance? =
            (app.freshStylist.resolve (app.forest.lineage other) mask).1.appearance? := by
  have sound := reachable.sound
  constructor
  · have live := contains_iff.mpr ⟨widget, found⟩
    refine ⟨(app.stylist.resolve (app.forest.lineage id) widget.pseudo).1, ?_, ?_⟩
    · rw [widgetStyle_run, found]
    · rw [sound.freshStylist_resolve live]
      exact (sound.coherent.resolve (isPlaced live) widget.pseudo).appearance
  · intro key mask style cached
    rw [Stylist.cached?, Option.bind_eq_bind, Option.bind_eq_some_iff] at cached
    obtain ⟨set, known, held⟩ := cached
    obtain ⟨lineage, ⟨placed, respects⟩, rfl⟩ := sound.coherent.sets known
    obtain ⟨other, rfl, live, rfl⟩ := placed_eq_some placed
    refine ⟨other, rfl, live, ?_⟩
    rw [sound.freshStylist_resolve live, Stylist.freshAppearance, respects]
    exact sound.coherent.styles held _ (sound.coherent.read.fromInstalled _) rfl

/-- A button below a sheet of the application whose style has been looked up, and which then gets
a sheet of its own. -/
def recoloredButton : Application :=
  let window := Change.apply (new {}) (.createWindow { typeName := "Window" })
  let button := Change.apply window (.createWidget ⟨0⟩ { typeName := "Button" })
  let red := Change.apply button (.setAppSheet "Button { color: red; }")
  Change.apply ((Application.widgetStyle ⟨1⟩).run red).2
    (.setWidgetSheet ⟨1⟩ "Button { color: blue; }")

theorem recoloredButton_reachable : recoloredButton.Reachable := by
  unfold recoloredButton
  exact .change _ (.widgetStyle _ (.change _ (.change _ (.change _ (.new {})))))

/-- What has been cached for the button is not handed out any more. -/
theorem widgetStyle_fresh_recoloredButton :
    recoloredButton.Reachable ∧
      recoloredButton.forest.get? ⟨1⟩ = some { typeName := "Button", parent := some ⟨0⟩ } ∧
      recoloredButton.widgetSheet? ⟨1⟩ = some "Button { color: blue; }" ∧
      ∃ style, ((Application.widgetStyle ⟨1⟩).run recoloredButton).1 = .ok style ∧
        style.appearance? =
          (recoloredButton.freshStylist.resolve (recoloredButton.forest.lineage ⟨1⟩)
            PseudoMask.empty).1.appearance? := by
  have button : recoloredButton.forest.get? ⟨1⟩ =
      some { typeName := "Button", parent := some ⟨0⟩ } := rfl
  refine ⟨recoloredButton_reachable, button, ?_, ?_⟩
  · exact (Stylist.nodeSheetText?_setNodeSheet _ _ _ (by decide)).trans (if_pos rfl)
  · exact (recoloredButton_reachable.widgetStyle_fresh button).1

end Application

end StyledWidgets
