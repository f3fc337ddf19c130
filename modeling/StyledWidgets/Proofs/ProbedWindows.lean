/-
Module: StyledWidgets.Proofs.ProbedWindows
Purpose: A probe for the style of a window answers with the instance that such a window would get,
  and whoever comes later cannot tell that it was made: it leaves the widgets, the windows, the
  sheets and what is cached for nodes, and every instance that had been made before goes on to
  serve the widgets that it would have served.
Main exports: Application.Step, Application.afterSteps, Application.Matches,
  Application.InStep.afterSteps, Application.Reachable.probeStyle_agrees
-/
import StyledWidgets.Proofs.LiveCaches
import StyledWidgets.Proofs.OlderInstances
import StyledWidgets.Proofs.ProbeAnswers

namespace StyledWidgets

open StyledWidgets.Sheet StyledWidgets.Style

namespace Style.Stylist

variable {stylist : Stylist}

/-- Where a style is held for rules, a lookup answers with it. -/
theorem Finds.eq_of_held {rules : List MatchedRule} {mask : PseudoMask}
    {style held : ResolvedStyle} {masks : List PseudoMask} {nextSerial : Nat}
    (finds : Finds stylist rules mask style masks nextSerial)
    (isHeld : stylist.held? (RuleSetKey.ofMatched rules) mask = some held) : style = held := by
  cases finds with
  | kept heldToo => exact Option.some_inj.mp (heldToo.symm.trans isHeld)
  | aliased _ isNew => cases isNew.symm.trans isHeld
  | made isNew => cases isNew.symm.trans isHeld

/-- A node without a sheet leaves nothing but its entries. -/
theorem nodeDestroyed_of_bare {key : NodeKey} (bare : stylist.nodeSheets.find? key = none) :
    stylist.nodeDestroyed key = stylist.invalidate key := by
  simp only [nodeDestroyed, invalidate, bare]

/-- Two nodes at the top with the same names match the same rules as long as neither has a sheet,
whatever their keys. -/
theorem matchLineage_rekeyed {key other : NodeKey} (bare : stylist.nodeSheets.find? key = none)
    (bareToo : stylist.nodeSheets.find? other = none) (typeName objectName : String) :
    stylist.matchLineage ⟨⟨key, typeName, objectName, false⟩, []⟩ =
      stylist.matchLineage ⟨⟨other, typeName, objectName, false⟩, []⟩ := by
  obtain ⟨plain, isPlain⟩ : ∃ plain, plain = { stylist with nodeSheets := ∅ } := ⟨_, rfl⟩
  have bareAll : ∀ key, plain.nodeSheets.find? key = none := fun key => by
    rw [isPlain]
    rfl
  have withoutSheets : ∀ {key}, stylist.nodeSheets.find? key = none →
      stylist.matchLineage ⟨⟨key, typeName, objectName, false⟩, []⟩ =
        plain.matchLineage ⟨⟨key, typeName, objectName, false⟩, []⟩ := by
    intro key bare
    have appSheet : stylist.appSheet = plain.appSheet := by rw [isPlain]
    refine matchLineage_congr appSheet fun node member => ?_
    rw [List.mem_singleton.mp member, bareAll]
    exact bare
  rw [withoutSheets bare, withoutSheets bareToo,
    ← matchLineage_unkeyed bareAll ⟨⟨key, typeName, objectName, false⟩, []⟩,
    ← matchLineage_unkeyed bareAll ⟨⟨other, typeName, objectName, false⟩, []⟩]
  rfl

end Style.Stylist

namespace Application

open Forest
open Style.Stylist (Agrees)

variable {app one other : Application} {id : WidgetId} {bound : Nat}

/-! ### Lookups of widgets -/

/-- Whatever is kept for a widget, a lookup of it works with the rules that match it now. -/
theorem Sound.rulesFor (sound : app.Sound) (live : app.forest.contains id = true) :
    app.stylist.rulesFor (app.forest.lineage id) =
      app.stylist.matchLineage (app.forest.lineage id) := by
  rw [Stylist.rulesFor]
  cases found : app.stylist.matchedRules.find? (app.forest.lineage id).key with
  | none => rfl
  | some rules =>
      obtain ⟨lineage, ⟨placed, -⟩, rfl⟩ := sound.coherent.matched found
      rw [lineage_key, placed_of_contains live] at placed
      rw [Option.getD_some, Option.some_inj.mp placed]

/-! ### What a probe leaves -/

/-- The node that is made for a probe. -/
def probeNode (app : Application) (typeName objectName : String) : Lineage :=
  ⟨⟨.query app.stylist.nextQuery, typeName, objectName, false⟩, []⟩

/-- The stylist of an application while it is probed. -/
def asking (app : Application) : Stylist :=
  { app.stylist with nextQuery := app.stylist.nextQuery + 1 }

/-- A new window has the names that it was made with, nobody above it and no sheet. -/
theorem Housed.window_new (housed : app.Housed) (sound : app.Sound) (widget : Widget) :
    (app.createWindow widget).2.forest.get? (app.createWindow widget).1 =
        some { widget with parent := none, children := [] } ∧
      (app.createWindow widget).2.forest.lineage (app.createWindow widget).1 =
        ⟨⟨styleKey (app.createWindow widget).1, widget.typeName, widget.objectName,
          widget.ignoresSheets⟩, []⟩ ∧
      app.stylist.nodeSheets.find? (styleKey (app.createWindow widget).1) = none := by
  have soundAfter := sound.createWindow widget
  have found : (app.createWindow widget).2.forest.get? (app.createWindow widget).1 =
      some { widget with parent := none, children := [] } :=
    (get?_push widget none _).trans (if_pos rfl)
  have isNew : app.forest.contains (app.createWindow widget).1 = false :=
    push_isNew app.forest widget none
  refine ⟨found, ?_, ?_⟩
  · have top := parent?_of_get? found
    rw [Forest.lineage, soundAfter.linked.path_of_root top, styleNode, found]
    rfl
  · rw [Option.eq_none_iff_forall_ne_some]
    intro sheet onNode
    obtain ⟨old, isKey, live⟩ := housed.sheets onNode
    rw [← styleKey_injective isKey, isNew] at live
    cases live

section Probe

variable (typeName objectName : String) (mask : PseudoMask)

theorem probeStyle_eq : app.probeStyle typeName objectName mask =
    ((app.asking.resolve (app.probeNode typeName objectName) mask).1,
      { app with
        stylist := (app.asking.resolve (app.probeNode typeName objectName) mask).2.nodeDestroyed
          (app.probeNode typeName objectName).key }) := rfl

/-- Nothing is cached for a node that is made for a probe, and it has no sheet. -/
theorem Housed.probeNode_unknown (housed : app.Housed) (sound : app.Sound) :
    app.stylist.matchedRules.find? (app.probeNode typeName objectName).key = none ∧
      app.stylist.nodeRuleSets.find? (app.probeNode typeName objectName).key = none ∧
      app.stylist.nodeSheets.find? (app.probeNode typeName objectName).key = none := by
  have unplaced : ∀ {lineage}, ¬Stylist.Placed app.forest.placed
      (app.probeNode typeName objectName).key lineage := fun isPlaced => by cases isPlaced.1
  refine ⟨?_, ?_, ?_⟩
  · rw [Option.eq_none_iff_forall_ne_some]
    intro rules found
    obtain ⟨lineage, isPlaced, -⟩ := sound.coherent.matched found
    exact unplaced isPlaced
  · rw [Option.eq_none_iff_forall_ne_some]
    intro set found
    obtain ⟨lineage, isPlaced, -⟩ := sound.coherent.sets found
    exact unplaced isPlaced
  · rw [Option.eq_none_iff_forall_ne_some]
    intro sheet found
    obtain ⟨id, isKey, -⟩ := housed.sheets found
    cases isKey

/-- What a probe leaves of a stylist: the sheets, what is cached for nodes, and a style that is held
for the rules that match the node of the probe. -/
structure Probed (before : Stylist) (probe : Lineage) (mask : PseudoMask) (style : ResolvedStyle)
    (after : Stylist) : Prop where
  same : Stylist.SameSheets before after
  matched : ∀ key, after.matchedRules.find? key = before.matchedRules.find? key
  sets : ∀ key, after.nodeRuleSets.find? key = before.nodeRuleSets.find? key
  held : after.held? (RuleSetKey.ofMatched (after.matchLineage probe)) mask = some style

theorem Reachable.probed (reachable : app.Reachable) :
    Probed app.stylist (app.probeNode typeName objectName) mask
      (app.probeStyle typeName objectName mask).1
      (app.probeStyle typeName objectName mask).2.stylist := by
  obtain ⟨unmatched, unset, bare⟩ :=
    reachable.housed.probeNode_unknown typeName objectName reachable.sound
  have follows : app.asking.SetsFollow := reachable.housed.calls.sound.follows
  have heeds : (app.probeNode typeName objectName).node.ignoresSheets = false := rfl
  have resolved := follows.resolve heeds mask
  rw [probeStyle_eq]
  generalize app.probeNode typeName objectName = probe at *
  generalize app.asking.resolve probe mask = outcome at resolved
  obtain ⟨same, -, matched, sets, masks, finds, held⟩ := resolved
  have rules : app.asking.rulesFor probe = app.asking.matchLineage probe := by
    rw [Stylist.rulesFor, show app.asking.matchedRules.find? probe.key = none from unmatched]
    rfl
  have bareAfter : outcome.2.nodeSheets.find? probe.key = none := by
    rw [same.nodeSheets]
    exact bare
  have sheets : Stylist.SameSheets app.stylist (outcome.2.invalidate probe.key) :=
    ⟨same.settings, same.nextSheet, same.appSheet, same.nodeSheets⟩
  simp only [Stylist.nodeDestroyed_of_bare bareAfter]
  refine ⟨sheets, fun key => ?_, fun key => ?_, ?_⟩
  · rw [Stylist.invalidate, Table.find?_erase, matched]
    split
    case isTrue own => rw [own, unmatched]
    case isFalse apart => exact if_neg (Ne.symm apart)
  · rw [Stylist.invalidate, Table.find?_erase, sets]
    split
    case isTrue own => rw [own, unset]
    case isFalse apart => exact if_neg (Ne.symm apart)
  · have isHeld : outcome.2.held? (RuleSetKey.ofMatched (app.asking.rulesFor probe)) mask =
        some outcome.1 := by
      rw [held]
      exact finds.held
    rw [rules] at isHeld
    rw [sheets.matchLineage]
    exact isHeld

/-- A window that is made right after a probe with its names and its pseudo state gets the instance
that the probe answered with. -/
theorem Reachable.window_probed (reachable : app.Reachable) :
    let probed := app.probeStyle typeName objectName mask
    let created := probed.2.createWindow
      { typeName := typeName, objectName := objectName, pseudo := mask }
    ((Application.widgetStyle created.1).run created.2).1 = .ok probed.1 := by
  intro probed created
  have result := reachable.probed typeName objectName mask
  have before : probed.2.Reachable := .probeStyle typeName objectName mask reachable
  have sound : created.2.Sound := before.sound.createWindow _
  obtain ⟨found, lineage, bare⟩ := before.housed.window_new before.sound
    { typeName := typeName, objectName := objectName, pseudo := mask }
  have live : created.2.forest.contains created.1 = true := contains_iff.mpr ⟨_, found⟩
  have heeds : (created.2.forest.lineage created.1).node.ignoresSheets = false := by rw [lineage]
  have follows : created.2.stylist.SetsFollow := before.housed.calls.sound.follows
  obtain ⟨masks, finds, -⟩ := (follows.resolve heeds mask).found
  have bareToo : probed.2.stylist.nodeSheets.find? (app.probeNode typeName objectName).key =
      none := by
    rw [result.same.nodeSheets]
    exact (reachable.housed.probeNode_unknown typeName objectName reachable.sound).2.2
  have held : created.2.stylist.held? (RuleSetKey.ofMatched (created.2.stylist.rulesFor
      (created.2.forest.lineage created.1))) mask = some probed.1 := by
    rw [sound.rulesFor live, lineage]
    exact (congrArg (fun rules => probed.2.stylist.held? (RuleSetKey.ofMatched rules) mask)
      (Stylist.matchLineage_rekeyed bare bareToo typeName objectName)).trans result.held
  rw [widgetStyle_run, found]
  exact congrArg Except.ok (finds.eq_of_held held)

end Probe

/-! ### Two applications side by side -/

/-- Two applications have the same widgets and the same sheets, and their stylists give the same
instances with a serial number below a bound. -/
structure Matches (bound : Nat) (one other : Application) : Prop where
  forest : other.forest = one.forest
  agrees : Agrees bound one.stylist other.stylist

theorem Matches.trans {last : Application} (first : Matches bound one other)
    (second : Matches bound other last) : Matches bound one last :=
  ⟨second.forest.trans first.forest, first.agrees.trans second.agrees⟩

theorem Matches.symm (matched : Matches bound one other) : Matches bound other one :=
  ⟨matched.forest.symm, matched.agrees.symm⟩

/-- What is to be repainted does not matter. -/
theorem Matches.schedule (matched : Matches bound one other) (id : WidgetId)
    (rect : Option Rect) : Matches bound (one.schedule id rect) (other.schedule id rect) := by
  constructor
  · simp only [schedule_rest]
    exact matched.forest
  · simp only [schedule_rest]
    exact matched.agrees

/-- Both have a widget, or neither has it. -/
theorem Matches.require {α : Type} (matched : Matches bound one other) {next : Widget → AppM α}
    (goesOn : ∀ widget, one.forest.get? id = some widget →
      Matches bound ((next widget).run one).2 ((next widget).run other).2) :
    Matches bound ((requireWidget id >>= next).run one).2
      ((requireWidget id >>= next).run other).2 := by
  simp only [run_bind, requireWidget_run, matched.forest]
  cases found : one.forest.get? id with
  | none =>
      rw [require_eq_error found]
      exact matched
  | some widget =>
      simp only [require_eq_ok found, Except.mapError]
      exact goesOn widget found

/-- An edit of the forest succeeds in both, or in neither. -/
theorem Matches.edit {α β : Type} (matched : Matches bound one other)
    (edit : Forest → Except ForestError β) {next : β → AppM α}
    (goesOn : ∀ value, edit one.forest = .ok value →
      Matches bound ((next value).run one).2 ((next value).run other).2) :
    Matches bound ((get >>= fun app => AppM.ofForest (edit app.forest) >>= next).run one).2
      ((get >>= fun app => AppM.ofForest (edit app.forest) >>= next).run other).2 := by
  simp only [run_bind, get_run, ofForest_run, matched.forest]
  cases edited : edit one.forest with
  | error cause => exact matched
  | ok value =>
      simp only [Except.mapError]
      exact goesOn value edited

/-- What each of two applications becomes by lookups alone still matches. -/
theorem Matches.of_both {oneAfter otherAfter : Application} (matched : Matches bound one other)
    (first : Matches bound one oneAfter) (second : Matches bound other otherAfter) :
    Matches bound oneAfter otherAfter :=
  first.symm.trans (matched.trans second)

/-- A lookup fills the caches. -/
theorem matches_resolve (calls : app.stylist.Reachable) (grown : bound ≤ app.stylist.nextSerial)
    (lineage : Lineage) (mask : PseudoMask) :
    Matches bound app { app with stylist := (app.stylist.resolve lineage mask).2 } :=
  ⟨rfl, calls.agrees_resolve grown lineage mask⟩

section Lookups

variable (reachable : app.Reachable) (grown : bound ≤ app.stylist.nextSerial)

include reachable grown

theorem Reachable.matches_widgetStyle (id : WidgetId) :
    Matches bound app ((Application.widgetStyle id).run app).2 := by
  rw [widgetStyle_run]
  cases app.forest.get? id with
  | none => exact ⟨rfl, .refl grown⟩
  | some widget =>
      exact matches_resolve reachable.housed.calls grown (app.forest.lineage id) widget.pseudo

theorem Reachable.matches_probeStyle (typeName objectName : String) (mask : PseudoMask) :
    Matches bound app (app.probeStyle typeName objectName mask).2 := by
  obtain ⟨-, -, bare⟩ := reachable.housed.probeNode_unknown typeName objectName reachable.sound
  have calls : app.asking.Reachable := .call (.createQuery typeName objectName none)
    reachable.housed.calls
  rw [probeStyle_eq]
  generalize app.probeNode typeName objectName = probe at *
  have first : Agrees bound app.stylist app.asking := .of_held ⟨rfl, rfl, rfl, rfl⟩ grown rfl rfl
  have second := calls.agrees_resolve grown probe mask
  have bareAfter : (app.asking.resolve probe mask).2.nodeSheets.find? probe.key = none := by
    rw [second.same.nodeSheets]
    exact bare
  refine ⟨rfl, ?_⟩
  simp only [Stylist.nodeDestroyed_of_bare bareAfter]
  exact (first.trans second).trans (.invalidateSubtree second.grownToo [probe.key])

variable {σ : Type} (backend : Backend σ)

theorem Reachable.matches_paintWindow (window : WidgetId) (state : σ) :
    Matches bound app (app.paintWindow backend window state).2.1 := by
  rcases paintWindow_after backend window state with same | ⟨damage, -, after⟩
  · rw [same]
    exact ⟨rfl, .refl grown⟩
  · have looks : ResolvesTo app.forest (fun _ _ => True) fun stylist =>
        stylist.Reachable ∧ Agrees bound app.stylist stylist := by
      rintro stylist id - ⟨calls, agrees⟩
      exact ⟨trivial, .call (.resolve _ _) calls,
        agrees.trans (calls.agrees_resolve agrees.grownToo _ _)⟩
    have begun : (PaintState.mk app.stylist state).stylist.Reachable ∧
        Agrees bound app.stylist (PaintState.mk app.stylist state).stylist :=
      ⟨reachable.housed.calls, .refl grown⟩
    have painted := Damage.paint_keeps backend looks
      (damage.compute app.forest app.settings.repaint) app.settings.retry.maxAttempts begun
    rw [after]
    exact ⟨rfl, painted.2⟩

theorem Reachable.matches_paintAll (state : σ) :
    Matches bound app (app.paintAll backend state).2.1 := by
  have painted := paintEach_induction backend
    (motive := fun after => after.Reachable ∧ Matches bound app after) ?step
  case step =>
    rintro after window state ⟨reachable, matched⟩
    exact ⟨.paintWindow backend window state reachable,
      matched.trans (reachable.matches_paintWindow matched.agrees.grownToo backend window state)⟩
  exact (painted _ app state ⟨reachable, rfl, .refl grown⟩).2

end Lookups

/-! ### The same operation on both -/

/-- Two applications that operations have led to match. -/
structure InStep (bound : Nat) (one other : Application) : Prop
    extends Matches bound one other where
  reachable : one.Reachable
  reachableToo : other.Reachable

namespace InStep

variable (inStep : InStep bound one other)

include inStep

/-- A widget looks the same in both. -/
theorem appearance (live : one.forest.contains id = true) (mask : PseudoMask) :
    (other.stylist.resolve (other.forest.lineage id) mask).1.appearance? =
      (one.stylist.resolve (one.forest.lineage id) mask).1.appearance? := by
  have liveToo : other.forest.contains id = true := inStep.forest ▸ live
  rw [(inStep.reachable.sound.coherent.resolve (isPlaced live) mask).appearance,
    (inStep.reachableToo.sound.coherent.resolve (isPlaced liveToo) mask).appearance,
    freshAppearance_congr inStep.agrees.same, inStep.forest]

theorem setAppSheet (text : String) :
    Matches bound (one.setAppSheet text) (other.setAppSheet text) :=
  ⟨inStep.forest, inStep.agrees.setAppSheet text⟩

theorem setWidgetSheet (text : String) :
    Matches bound ((Application.setWidgetSheet id text).run one).2
      ((Application.setWidgetSheet id text).run other).2 := by
  refine inStep.toMatches.require fun widget found => ?_
  obtain ⟨home, isHome, -⟩ := exists_windowOf (contains_iff.mpr ⟨widget, found⟩)
  simp only [modify_run, inStep.forest, isHome]
  apply Matches.schedule
  exact ⟨rfl, inStep.agrees.setNodeSheet inStep.reachable.housed.calls
    inStep.reachableToo.housed.calls _ _ text⟩

theorem createWindow (widget : Widget) :
    Matches bound (one.createWindow widget).2 (other.createWindow widget).2 :=
  ⟨congrArg (fun forest => (forest.insertWindow widget).2) inStep.forest, inStep.agrees⟩

theorem createWidget (parent : WidgetId) (widget : Widget) :
    Matches bound ((Application.createWidget parent widget).run one).2
      ((Application.createWidget parent widget).run other).2 := by
  refine inStep.toMatches.edit (fun forest => forest.insert (some parent) widget) fun made _ => ?_
  apply Matches.schedule
  exact ⟨rfl, inStep.agrees⟩

theorem reparent (newParent : Option WidgetId) :
    Matches bound ((Application.reparent id newParent).run one).2
      ((Application.reparent id newParent).run other).2 := by
  refine inStep.toMatches.require fun widget _ => ?_
  rw [run_bind, run_bind, get_run, get_run]
  simp only [inStep.forest]
  refine inStep.toMatches.edit (fun forest => forest.reparent id newParent) fun after _ => ?_
  simp only [modify_run, scheduleIn_rest]
  apply Matches.schedule
  have stylists := inStep.agrees.of_both
    (.invalidateSubtree inStep.agrees.grown (after.subtreeKeys id))
    (.invalidateSubtree inStep.agrees.grownToo (after.subtreeKeys id))
  by_cases stays : one.forest.windowOf? id = after.windowOf? id
  · constructor
    · simp only [if_pos stays, updateWindows_rest, scheduleIn_rest]
    · simp only [if_pos stays, updateWindows_rest, scheduleIn_rest]
      exact stylists
  · constructor
    · simp only [if_neg stays, updateWindows_rest, forgetIn_rest, scheduleIn_rest]
    · simp only [if_neg stays, updateWindows_rest, forgetIn_rest, scheduleIn_rest]
      exact stylists

theorem destroyWidget :
    Matches bound ((Application.destroyWidget id).run one).2
      ((Application.destroyWidget id).run other).2 := by
  refine inStep.toMatches.require fun widget _ => ?_
  rw [run_bind, run_bind, get_run, get_run]
  simp only [inStep.forest]
  refine inStep.toMatches.edit (fun forest => forest.remove id) fun outcome _ => ?_
  obtain ⟨removed, after⟩ := outcome
  have stylists := Agrees.nodesDestroyed (removed.map styleKey) inStep.agrees
  rw [List.foldl_map, List.foldl_map] at stylists
  simp only [run_bind, modify_run, pure_run]
  cases widget.parent with
  | none => exact ⟨rfl, stylists⟩
  | some parent =>
      apply Matches.schedule
      constructor
      · simp only [forgetIn_rest]
      · simp only [forgetIn_rest]
        exact stylists

theorem scheduleIn (parent : Option WidgetId) (rect : Rect) :
    Matches bound (one.scheduleIn parent rect) (other.scheduleIn parent rect) := by
  constructor
  · simp only [scheduleIn_rest]
    exact inStep.forest
  · simp only [scheduleIn_rest]
    exact inStep.agrees

theorem setGeometry (geometry : Rect) :
    Matches bound ((Application.setGeometry id geometry).run one).2
      ((Application.setGeometry id geometry).run other).2 := by
  refine inStep.toMatches.require fun widget _ => ?_
  split
  case isTrue => exact inStep.toMatches
  case isFalse =>
    rw [run_bind, run_bind, modify_run, modify_run]
    refine Matches.edit (inStep.scheduleIn _ _) (fun forest => forest.setGeometry id geometry)
      fun after _ => ?_
    apply Matches.schedule
    exact ⟨rfl, (inStep.scheduleIn _ _).agrees⟩

theorem setVisible (visible : Bool) :
    Matches bound ((Application.setVisible id visible).run one).2
      ((Application.setVisible id visible).run other).2 := by
  refine inStep.toMatches.require fun widget _ => ?_
  split
  case isTrue => exact inStep.toMatches
  case isFalse =>
    cases visible with
    | true =>
        refine inStep.toMatches.edit (fun forest => forest.setVisible id true) fun after _ => ?_
        apply Matches.schedule
        exact ⟨rfl, inStep.agrees⟩
    | false =>
        simp only [Bool.false_eq_true, if_false]
        rw [run_bind, run_bind, modify_run, modify_run]
        refine Matches.edit (inStep.scheduleIn _ _) (fun forest => forest.setVisible id false)
          fun after _ => ?_
        exact ⟨rfl, (inStep.scheduleIn _ _).agrees⟩

theorem setOpaque (isOpaque : Bool) :
    Matches bound ((Application.setOpaque id isOpaque).run one).2
      ((Application.setOpaque id isOpaque).run other).2 := by
  refine inStep.toMatches.edit (fun forest => forest.setOpaque id isOpaque) fun after _ => ?_
  apply Matches.schedule
  exact ⟨rfl, inStep.agrees⟩

theorem setText (text : String) :
    Matches bound ((Application.setText id text).run one).2
      ((Application.setText id text).run other).2 := by
  refine inStep.toMatches.edit (fun forest => forest.setText id text) fun after _ => ?_
  apply Matches.schedule
  exact ⟨rfl, inStep.agrees⟩

theorem requestUpdate (rect : Option Rect) :
    Matches bound ((Application.requestUpdate id rect).run one).2
      ((Application.requestUpdate id rect).run other).2 := by
  refine inStep.toMatches.require fun widget _ => ?_
  exact inStep.toMatches.schedule id rect

/-- Whether the widget is asked for depends on its styles, which may be other instances in the one
and in the other; the widgets and the sheets do not depend on it. -/
theorem setPseudoState (mask : PseudoMask) :
    Matches bound ((Application.setPseudoState id mask).run one).2
      ((Application.setPseudoState id mask).run other).2 := by
  refine inStep.toMatches.edit (fun forest => forest.setPseudo id mask) fun outcome _ => ?_
  obtain ⟨old, forest⟩ := outcome
  have looked : ∀ {app : Application}, app.stylist.Reachable → bound ≤ app.stylist.nextSerial →
      Matches bound app ((do
        let before ← resolve id old
        let after ← resolve id mask
        if ResolvedStyle.same before after then return false
        modify fun app => app.schedule id none
        return true : AppM Bool).run app).2 := by
    intro app calls grown
    have first := matches_resolve calls grown (app.forest.lineage id) old
    have second : Matches bound
        { app with stylist := (app.stylist.resolve (app.forest.lineage id) old).2 } _ :=
      matches_resolve (.call (.resolve _ _) calls) first.agrees.grownToo (app.forest.lineage id)
        mask
    simp only [run_bind, resolve_run]
    split
    case isTrue => exact first.trans second
    case isFalse =>
      refine (first.trans second).trans ⟨?_, ?_⟩
      · simp only [run_bind, modify_run, pure_run, schedule_rest]
      · simp only [run_bind, modify_run, pure_run, schedule_rest]
        exact .refl second.agrees.grownToo
  rw [run_bind, run_bind, modify_run, modify_run]
  dsimp only
  have turned : Matches bound { one with forest := forest } { other with forest := forest } :=
    ⟨rfl, inStep.agrees⟩
  split
  case isTrue => exact turned
  case isFalse =>
    exact turned.of_both (looked inStep.reachable.housed.calls inStep.agrees.grown)
      (looked inStep.reachableToo.housed.calls inStep.agrees.grownToo)

/-- Both have the same number of frames, so a frame is advanced in both or in neither. -/
theorem advanceAnimation :
    Matches bound ((Application.advanceAnimation id).run one).2
      ((Application.advanceAnimation id).run other).2 := by
  have frames : ∀ style : ResolvedStyle, style.frameCount =
      (style.appearance?.map Appearance.frameCount).getD 1 := by
    intro style
    cases style <;> rfl
  simp only [Application.advanceAnimation, run_bind, widgetStyle_run, inStep.forest]
  cases found : one.forest.get? id with
  | none => exact inStep.toMatches
  | some widget =>
      have looked := inStep.toMatches.of_both
        (matches_resolve inStep.reachable.housed.calls inStep.agrees.grown
          (one.forest.lineage id) widget.pseudo)
        (matches_resolve inStep.reachableToo.housed.calls inStep.agrees.grownToo
          (one.forest.lineage id) widget.pseudo)
      have same := inStep.appearance (contains_iff.mpr ⟨widget, found⟩) widget.pseudo
      rw [inStep.forest] at same looked
      simp only [frames, same]
      split
      case isTrue => exact looked
      case isFalse =>
        refine looked.edit (fun forest => forest.advanceFrame id) fun outcome _ => ?_
        apply Matches.schedule
        exact ⟨rfl, looked.agrees⟩

theorem change (change : Change) : Matches bound (change.apply one) (change.apply other) := by
  cases change with
  | setAppSheet text => exact inStep.setAppSheet text
  | setWidgetSheet id text => exact inStep.setWidgetSheet text
  | createWindow widget => exact inStep.createWindow widget
  | createWidget parent widget => exact inStep.createWidget parent widget
  | reparent id newParent => exact inStep.reparent newParent
  | destroyWidget id => exact inStep.destroyWidget
  | setGeometry id geometry => exact inStep.setGeometry geometry
  | setVisible id visible => exact inStep.setVisible visible
  | setOpaque id isOpaque => exact inStep.setOpaque isOpaque
  | setText id text => exact inStep.setText text
  | setPseudoState id mask => exact inStep.setPseudoState mask
  | advanceAnimation id => exact inStep.advanceAnimation
  | requestUpdate id rect => exact inStep.requestUpdate rect

end InStep

/-! ### Later steps -/

/-- A step of an application. -/
inductive Step : Type 1 where
  | change (change : Change)
  | widgetStyle (id : WidgetId)
  | probeStyle (typeName objectName : String) (mask : PseudoMask)
  | paintWindow {σ : Type} (backend : Backend σ) (window : WidgetId) (state : σ)
  | paintAll {σ : Type} (backend : Backend σ) (state : σ)

/-- The application after a step, whether or not it has failed. -/
def Step.apply (app : Application) : Step → Application
  | .change operation => operation.apply app
  | .widgetStyle id => ((Application.widgetStyle id).run app).2
  | .probeStyle typeName objectName mask => (app.probeStyle typeName objectName mask).2
  | .paintWindow backend window state => (app.paintWindow backend window state).2.1
  | .paintAll backend state => (app.paintAll backend state).2.1

/-- The application after steps. -/
def afterSteps (app : Application) (steps : List Step) : Application := steps.foldl Step.apply app

theorem Reachable.step (reachable : app.Reachable) (step : Step) : (step.apply app).Reachable := by
  cases step with
  | change change => exact .change change reachable
  | widgetStyle id => exact .widgetStyle id reachable
  | probeStyle typeName objectName mask => exact .probeStyle typeName objectName mask reachable
  | paintWindow backend window state => exact .paintWindow backend window state reachable
  | paintAll backend state => exact .paintAll backend state reachable

namespace InStep

theorem step (inStep : InStep bound one other) (step : Step) :
    InStep bound (step.apply one) (step.apply other) := by
  obtain ⟨matched, reachable, reachableToo⟩ := inStep
  obtain ⟨-, grown, grownToo, -⟩ := matched.agrees
  refine ⟨?_, reachable.step step, reachableToo.step step⟩
  cases step with
  | change change => exact InStep.change ⟨matched, reachable, reachableToo⟩ change
  | widgetStyle id =>
      exact matched.of_both (reachable.matches_widgetStyle grown id)
        (reachableToo.matches_widgetStyle grownToo id)
  | probeStyle typeName objectName mask =>
      exact matched.of_both (reachable.matches_probeStyle grown typeName objectName mask)
        (reachableToo.matches_probeStyle grownToo typeName objectName mask)
  | paintWindow backend window state =>
      exact matched.of_both (reachable.matches_paintWindow grown backend window state)
        (reachableToo.matches_paintWindow grownToo backend window state)
  | paintAll backend state =>
      exact matched.of_both (reachable.matches_paintAll grown backend state)
        (reachableToo.matches_paintAll grownToo backend state)

theorem afterSteps (steps : List Step) :
    ∀ {one other : Application}, InStep bound one other →
      InStep bound (one.afterSteps steps) (other.afterSteps steps) := by
  induction steps with
  | nil => exact id
  | cons step later inductionHypothesis =>
      intro one other inStep
      exact inductionHypothesis (inStep.step step)

/-- A lookup of a widget that fails or is answered with nothing or with an older instance in the one
does so in the other. -/
theorem widgetStyle (inStep : InStep bound one other) (id : WidgetId)
    (isOlder : ∀ made, ((Application.widgetStyle id).run one).1 = .ok (some made) →
      made.serial < bound) :
    ((Application.widgetStyle id).run other).1 = ((Application.widgetStyle id).run one).1 := by
  simp only [widgetStyle_run, inStep.forest] at isOlder ⊢
  cases found : one.forest.get? id with
  | none => rfl
  | some widget =>
      have live : one.forest.contains id = true := contains_iff.mpr ⟨widget, found⟩
      have liveToo : other.forest.contains id = true := inStep.forest ▸ live
      have same := inStep.appearance live widget.pseudo
      have current := inStep.reachable.sound.rulesFor live
      have currentToo := inStep.reachableToo.sound.rulesFor liveToo
      rw [inStep.forest] at same currentToo
      simp only [found, Except.ok.injEq] at isOlder ⊢
      cases answer : (one.stylist.resolve (one.forest.lineage id) widget.pseudo).1 with
      | none =>
          rw [answer] at same
          exact Option.map_eq_none_iff.mp same
      | some made =>
          exact inStep.agrees.answer inStep.reachable.housed.calls inStep.reachableToo.housed.calls
            current currentToo answer (isOlder made answer)

end InStep

/-- In every state that operations can lead to, a probe for the style of a window answers with the
instance that a window with the same names and pseudo state gets if it is made right afterwards, or
with nothing if that gets nothing. The probe leaves the widgets, the windows, the settings, the
sheets and what is cached for nodes as they are. Whatever is done later, a lookup of a widget that
without the probe fails, or is answered with nothing or with an instance that was held when the
probe was made, has the same outcome. -/
theorem Reachable.probeStyle_agrees (reachable : app.Reachable) (typeName objectName : String)
    (mask : PseudoMask) :
    let probed := app.probeStyle typeName objectName mask
    let created := probed.2.createWindow
      { typeName := typeName, objectName := objectName, pseudo := mask }
    ((Application.widgetStyle created.1).run created.2).1 = .ok probed.1 ∧
      (probed.2.forest = app.forest ∧ probed.2.windows = app.windows ∧
        probed.2.settings = app.settings ∧
        probed.2.stylist.appSheet = app.stylist.appSheet ∧
        probed.2.stylist.nodeSheets = app.stylist.nodeSheets ∧
        ∀ key, probed.2.stylist.matchedRules.find? key = app.stylist.matchedRules.find? key ∧
          probed.2.stylist.nodeRuleSets.find? key = app.stylist.nodeRuleSets.find? key) ∧
      ∀ (steps : List Step) (id : WidgetId),
        let outcome := ((Application.widgetStyle id).run (app.afterSteps steps)).1
        (∀ made, outcome = .ok (some made) →
          ∃ set pseudo, app.stylist.held? set pseudo = some (some made)) →
            ((Application.widgetStyle id).run (probed.2.afterSteps steps)).1 = outcome := by
  intro probed created
  obtain ⟨same, matched, sets, -⟩ := reachable.probed typeName objectName mask
  refine ⟨reachable.window_probed typeName objectName mask,
    ⟨rfl, rfl, rfl, same.appSheet, same.nodeSheets, fun key => ⟨matched key, sets key⟩⟩, ?_⟩
  intro steps id outcome isHeld
  have begun : InStep app.stylist.nextSerial app probed.2 :=
    ⟨reachable.matches_probeStyle (Nat.le_refl _) typeName objectName mask, reachable,
      .probeStyle typeName objectName mask reachable⟩
  refine (InStep.afterSteps steps begun).widgetStyle id fun made isMade => ?_
  obtain ⟨set, pseudo, held⟩ := isHeld made isMade
  exact reachable.sound.coherent.serials held

/-- A hovered and pressed button, for which a sheet that knows hovered buttons only has been looked
up. -/
def hoveredButton : Application :=
  let styled := Change.apply (new {}) (.setAppSheet "Button:hover { width: 5px; }")
  let window := Change.apply styled
    (.createWindow { typeName := "Button", pseudo := .ofList [.hover, .pressed] })
  ((widgetStyle ⟨0⟩).run window).2

theorem hoveredButton_reachable : hoveredButton.Reachable := by
  unfold hoveredButton
  exact .widgetStyle _ (.change _ (.change _ (.new {})))

/-- A probe for a hovered button answers with the instance of the button, a hovered button that is
made gets it, and the button still has it when its text has been set and another probe made. -/
theorem probeStyle_agrees_hoveredButton :
    hoveredButton.Reachable ∧
    ∃ (made : StyleInstance) (steps : List Step), steps ≠ [] ∧
      let probed := hoveredButton.probeStyle "Button" "" (.single .hover)
      let created := probed.2.createWindow
        { typeName := "Button", objectName := "", pseudo := .single .hover }
      ((widgetStyle created.1).run created.2).1 = .ok (some made) ∧
        ((widgetStyle ⟨0⟩).run (probed.2.afterSteps steps)).1 = .ok (some made) := by
  have reachable := hoveredButton_reachable
  obtain ⟨window, -, later⟩ := reachable.probeStyle_agrees "Button" "" (.single .hover)
  let steps : List Step :=
    [.change (.setText ⟨0⟩ "Go"), .probeStyle "Label" "" (.single .pressed)]
  obtain ⟨made, isMade⟩ :
      ∃ made, (hoveredButton.probeStyle "Button" "" (.single .hover)).1 = some made :=
    Option.isSome_iff_exists.mp (by decide +kernel)
  have without : ((widgetStyle ⟨0⟩).run (hoveredButton.afterSteps steps)).1 = .ok (some made) := by
    rw [← isMade]
    decide +kernel
  have held : hoveredButton.stylist.held?
      (RuleSetKey.ofMatched (hoveredButton.stylist.matchLineage (hoveredButton.forest.lineage ⟨0⟩)))
      (.single .hover) = some (some made) := by
    rw [← isMade]
    decide +kernel
  refine ⟨reachable, made, steps, List.cons_ne_nil _ _, window.trans (congrArg _ isMade), ?_⟩
  refine (later steps ⟨0⟩ fun other isOther => ?_).trans without
  cases without.symm.trans isOther
  exact ⟨_, _, held⟩

end Application

end StyledWidgets
