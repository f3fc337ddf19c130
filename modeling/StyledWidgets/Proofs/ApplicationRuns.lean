/-
Module: StyledWidgets.Proofs.ApplicationRuns
Purpose: What holds of an application after any operations: its widgets are linked, its windows are
  there, and the caches of its stylist are coherent with its sheets and its widgets.
Main exports: Application.Reachable, Application.Sound, Application.Reachable.sound
-/
import StyledWidgets.Proofs.ForestLikeness
import StyledWidgets.Proofs.Operations
import StyledWidgets.Proofs.StyleChanges

namespace StyledWidgets

open StyledWidgets.Sheet StyledWidgets.Style

/-! ### Lineages of widgets -/

namespace Forest

variable {forest : Forest} {id other : WidgetId} {key : NodeKey} {lineage : Lineage}

theorem styleKey_injective : Function.Injective styleKey := by
  rintro ⟨one⟩ ⟨other⟩ same
  cases same
  rfl

theorem styleNode_key (id : WidgetId) : (forest.styleNode id).key = styleKey id := by
  rw [styleNode]
  split <;> rfl

theorem lineage_key (id : WidgetId) : (forest.lineage id).key = styleKey id := styleNode_key id

theorem Linked.lineage_path (linked : forest.Linked) (id : WidgetId) :
    (forest.lineage id).path = (forest.path id).map forest.styleNode := by
  obtain ⟨rest, shape⟩ := linked.exists_path_cons id
  rw [lineage, Lineage.path, shape]
  rfl

theorem mem_subtreeKeys_iff (linked : forest.Linked) :
    styleKey other ∈ forest.subtreeKeys id ↔ id ∈ forest.path other := by
  rw [subtreeKeys, List.mem_map_of_injective styleKey_injective, linked.mem_subtree_iff]

/-- The lineages of the widgets of a forest by their keys. Nodes made for queries have none. -/
def placed (forest : Forest) : NodeKey → Option Lineage
  | .widget raw => if forest.contains ⟨raw⟩ then some (forest.lineage ⟨raw⟩) else none
  | .query _ => none

/-- The lineages of the widgets and that of a node made for a query. -/
def placedWith (forest : Forest) (probe : Lineage) (key : NodeKey) : Option Lineage :=
  if key = probe.key then some probe else forest.placed key

theorem placed_of_contains (live : forest.contains id = true) :
    forest.placed (styleKey id) = some (forest.lineage id) :=
  if_pos live

theorem placed_eq_some (isPlaced : forest.placed key = some lineage) :
    ∃ id, key = styleKey id ∧ forest.contains id = true ∧ lineage = forest.lineage id := by
  cases key with
  | query number => cases isPlaced
  | widget raw =>
      rw [placed] at isPlaced
      split at isPlaced
      case isTrue live =>
        exact ⟨⟨raw⟩, rfl, live, (Option.some_inj.mp isPlaced).symm⟩
      case isFalse => cases isPlaced

/-- Whoever has a widget on its path is in the subtree of the widget. -/
theorem Linked.mem_subtreeKeys_of_placed (linked : forest.Linked)
    (isPlaced : Stylist.Placed forest.placed key lineage)
    (onPath : ∃ node ∈ lineage.path, node.key = styleKey id) : key ∈ forest.subtreeKeys id := by
  obtain ⟨other, rfl, -, rfl⟩ := placed_eq_some isPlaced.1
  obtain ⟨node, member, isKey⟩ := onPath
  rw [linked.lineage_path] at member
  obtain ⟨widget, above, rfl⟩ := List.mem_map.mp member
  rw [styleNode_key] at isKey
  rw [mem_subtreeKeys_iff linked, ← styleKey_injective isKey]
  exact above

/-- A lineage says nothing that a change of other facts of a widget could touch. -/
theorem Linked.lineage_adjust (linked : forest.Linked) {change : Widget → Widget}
    (kin : ∀ widget, (change widget).kin = widget.kin)
    (children : ∀ widget, (change widget).children = widget.children) (other : WidgetId) :
    (forest.adjust id change).lineage other = forest.lineage other := by
  have linkedAfter : (forest.adjust id change).Linked :=
    linked.adjust (fun widget => congrArg (fun kin => kin.2.2.2) (kin widget)) children
  refine (linked.lineage_congr linkedAfter fun widget _ => ?_).2
  rw [get?_adjust]
  split
  case isTrue here =>
    rw [here, Option.map_map]
    exact Option.map_congr fun widget _ => kin widget
  case isFalse => rfl

theorem Linked.lineage_setPseudo (linked : forest.Linked) (id other : WidgetId)
    (mask : PseudoMask) :
    (forest.adjust id fun widget => { widget with pseudo := mask }).lineage other =
      forest.lineage other := by
  apply linked.lineage_adjust
  · exact fun _ => rfl
  · exact fun _ => rfl

theorem Linked.placed_adjust (linked : forest.Linked) {change : Widget → Widget}
    (kin : ∀ widget, (change widget).kin = widget.kin)
    (children : ∀ widget, (change widget).children = widget.children) :
    (forest.adjust id change).placed = forest.placed := by
  funext key
  cases key with
  | query number => rfl
  | widget raw => rw [placed, placed, contains_adjust, linked.lineage_adjust kin children]

/-- Every widget has kept its place. -/
theorem placed_of_alikeAway {before after : Forest} (alike : AlikeAway before after id)
    (linked : before.Linked) (linkedAfter : after.Linked)
    (stays : ∀ {other}, before.contains other = true → styleKey other = key →
      after.contains other = true ∧ id ∉ after.path other)
    (isPlaced : before.placed key = some lineage) :
    after.placed key = some lineage := by
  obtain ⟨other, rfl, live, rfl⟩ := placed_eq_some isPlaced
  obtain ⟨liveAfter, away⟩ := stays live rfl
  rw [placed_of_contains liveAfter, (alike.lineage linked linkedAfter liveAfter away).2]

end Forest

/-! ### Sound applications -/

namespace Application

open Forest

variable {app : Application} {id window : WidgetId}

/-- The widgets are linked, the caches of the stylist agree with the sheets and the widgets, and
every window is a widget without a parent. -/
structure Sound (app : Application) : Prop where
  linked : app.forest.Linked
  settings : app.stylist.settings = app.settings.style
  coherent : app.stylist.Coherent app.forest.placed
  windows : ∀ {window : WidgetId} {damage : Damage}, app.windows.find? window = some damage →
    damage.root = window ∧ app.forest.contains window = true ∧
      app.forest.parent? window = none

theorem sound_new (settings : Settings) : (new settings).Sound where
  linked := linked_empty
  settings := rfl
  coherent := Stylist.coherent_new settings.style _
  windows found := by cases found

/-- The same windows, perhaps fewer, with other damage. -/
def SameWindows (before after : Application) : Prop :=
  ∀ {window : WidgetId} {damage : Damage}, after.windows.find? window = some damage →
    ∃ old, before.windows.find? window = some old ∧ damage.root = old.root

theorem sameWindows_of_map {after : Application} {change : WidgetId → Damage → Damage}
    (windows : ∀ window,
      after.windows.find? window = (app.windows.find? window).map (change window))
    (root : ∀ window damage, (change window damage).root = damage.root) :
    SameWindows app after := by
  intro window damage found
  rw [windows, Option.map_eq_some_iff] at found
  obtain ⟨old, isOld, rfl⟩ := found
  exact ⟨old, isOld, root window old⟩

theorem asked_root (forest : Forest) (rect : Option Rect) (damage : Damage) :
    (asked forest window id rect damage).root = damage.root := by
  rw [asked]
  split <;> rfl

theorem askedIn_root (forest : Forest) (parent : Option WidgetId) (rect : Rect)
    (damage : Damage) : (askedIn forest window parent rect damage).root = damage.root := by
  cases parent with
  | none => rfl
  | some parent => exact asked_root forest (some rect) damage

theorem forgotten_root (home : Option WidgetId) (ids : List WidgetId) (damage : Damage) :
    (forgotten home window ids damage).root = damage.root := by
  rw [forgotten]
  split
  · induction ids generalizing damage with
    | nil => rfl
    | cons id later inductionHypothesis => exact inductionHypothesis (damage.forget id)
  · rfl

theorem leftBehind_root (before after : Forest) (parent : Option WidgetId) (place : Rect)
    (damage : Damage) :
    (leftBehind before after window id parent place damage).root = damage.root := by
  rw [leftBehind]
  split
  · exact askedIn_root after parent place damage
  · exact (forgotten_root _ _ _).trans (askedIn_root after parent place damage)

/-- An operation that changes neither names nor links of widgets keeps an application sound. -/
theorem Sound.adjusted (sound : app.Sound) {after : Application} {change : Widget → Widget}
    (forest : after.forest = app.forest.adjust id change)
    (kin : ∀ widget, (change widget).kin = widget.kin)
    (children : ∀ widget, (change widget).children = widget.children)
    (settings : after.settings = app.settings)
    (style : after.stylist.settings = app.stylist.settings)
    (coherent : after.stylist.Coherent app.forest.placed) (windows : SameWindows app after) :
    after.Sound where
  linked := by
    rw [forest]
    exact sound.linked.adjust (fun widget => congrArg (fun kin => kin.2.2.2) (kin widget)) children
  settings := by rw [style, settings, sound.settings]
  coherent := by rwa [forest, sound.linked.placed_adjust kin children]
  windows found := by
    obtain ⟨old, isOld, root⟩ := windows found
    obtain ⟨isRoot, live, top⟩ := sound.windows isOld
    refine ⟨root.trans isRoot, ?_, ?_⟩
    · rwa [forest, contains_adjust]
    · rwa [forest, parent?_adjust fun widget => congrArg (fun kin => kin.2.2.2) (kin widget)]

/-- Lookups and requests keep an application sound. -/
theorem Sound.looked (sound : app.Sound) {after : Application}
    (forest : after.forest = app.forest) (settings : after.settings = app.settings)
    (style : after.stylist.settings = app.stylist.settings)
    (coherent : after.stylist.Coherent app.forest.placed) (windows : SameWindows app after) :
    after.Sound where
  linked := by
    rw [forest]
    exact sound.linked
  settings := by rw [style, settings, sound.settings]
  coherent := by rwa [forest]
  windows found := by
    obtain ⟨old, isOld, root⟩ := windows found
    rw [forest, root]
    exact sound.windows isOld

theorem Sound.schedule (sound : app.Sound) (id : WidgetId) (rect : Option Rect) :
    (app.schedule id rect).Sound := by
  obtain ⟨forest, stylist, settings⟩ : (app.schedule id rect).forest = app.forest ∧ _ ∧ _ :=
    schedule_rest rect
  apply sound.looked forest settings
  · rw [stylist]
  · rw [stylist]
    exact sound.coherent
  · apply sameWindows_of_map fun _ => damage_schedule rect
    exact fun _ => asked_root app.forest rect

theorem sameWindows_scheduleIn (parent : Option WidgetId) (rect : Rect) :
    SameWindows app (app.scheduleIn parent rect) := by
  apply sameWindows_of_map fun _ => damage_scheduleIn parent rect
  exact fun _ => askedIn_root app.forest parent rect

/-! ### One operation -/

/-- A widget that is there is in its place. -/
theorem isPlaced {forest : Forest} (live : forest.contains id = true) :
    (forest.lineage id).node.ignoresSheets = false →
      forest.placed (forest.lineage id).key = some (forest.lineage id) := by
  intro _
  rw [lineage_key, placed_of_contains live]

theorem Sound.resolve (sound : app.Sound) (live : app.forest.contains id = true)
    (mask : PseudoMask) :
    { app with stylist := (app.stylist.resolve (app.forest.lineage id) mask).2 }.Sound := by
  have looks := sound.coherent.resolve (isPlaced live) mask
  refine sound.looked rfl rfl ?_ ?_ ?_
  · exact looks.same.settings
  · exact looks.coherent
  · exact fun found => ⟨_, found, rfl⟩

theorem Sound.setAppSheet (sound : app.Sound) (text : String) : (app.setAppSheet text).Sound := by
  refine sound.looked rfl rfl rfl (sound.coherent.setAppSheet text) ?_
  apply sameWindows_of_map fun _ => damage_setAppSheet text
  exact fun _ _ => rfl

theorem Sound.setWidgetSheet (sound : app.Sound) (text : String) :
    ((Application.setWidgetSheet id text).run app).2.Sound := by
  rcases setWidgetSheet_after text with same | ⟨home, -, after⟩
  · rw [same]
    exact sound
  · rw [after]
    apply Sound.schedule
    refine sound.looked rfl rfl ?_ ?_ ?_
    · exact (Stylist.setNodeSheet_others ..).1
    · exact sound.coherent.setNodeSheet text fun _ _ => sound.linked.mem_subtreeKeys_of_placed
    · exact fun found => ⟨_, found, rfl⟩

/-- A forest with a new widget keeps an application sound. -/
theorem Sound.grown (sound : app.Sound) {forest : Forest} (linked : forest.Linked)
    (alike : AlikeAway app.forest forest id) (isNew : app.forest.contains id = false)
    (stays : ∀ other, app.forest.contains other = true → forest.contains other = true)
    (parents : ∀ other, app.forest.contains other = true →
      forest.parent? other = app.forest.parent? other) :
    { app with forest := forest }.Sound where
  linked := linked
  settings := sound.settings
  coherent := by
    refine sound.coherent.takenOut (Stylist.TakenOut.refl _) fun key lineage isPlaced _ =>
      ⟨⟨placed_of_alikeAway alike sound.linked linked ?_ isPlaced.1, isPlaced.2⟩,
        fun _ _ => List.not_mem_nil⟩
    intro other live _
    refine ⟨stays other live, fun below => ?_⟩
    have path : forest.path other = app.forest.path other :=
      sound.linked.path_congr linked fun widget member =>
        parents widget (sound.linked.contains_of_mem_path live member)
    rw [path] at below
    rw [sound.linked.contains_of_mem_path live below] at isNew
    cases isNew
  windows found := by
    obtain ⟨isRoot, live, top⟩ := sound.windows found
    exact ⟨isRoot, stays _ live, (parents _ live).trans top⟩

theorem push_isNew (forest : Forest) (widget : Widget) (parent : Option WidgetId) :
    forest.contains (forest.push widget parent).1 = false := by
  rw [contains, get?_push_fresh]
  rfl

theorem Sound.createWindow (sound : app.Sound) (widget : Widget) :
    (app.createWindow widget).2.Sound := by
  have apart : ∀ other, app.forest.contains other = true →
      other ≠ (app.forest.push widget none).1 := by
    rintro other live rfl
    rw [push_isNew] at live
    cases live
  have grown : { app with forest := (app.forest.insertWindow widget).2 }.Sound := by
    apply sound.grown (sound.linked.insertWindow widget)
      (unchangedAway_push widget none).toAlikeAway
    · exact push_isNew app.forest widget none
    · intro other live
      rwa [insertWindow, contains, get?_push, if_neg (apart other live), ← contains]
    · intro other live
      rw [insertWindow, parent?_push, if_neg (apart other live)]
  refine ⟨grown.linked, grown.settings, grown.coherent, ?_⟩
  intro window damage found
  rw [Application.createWindow, Table.find?_insert] at found
  split at found
  case isTrue same =>
    cases found
    refine ⟨same, ?_, ?_⟩
    · rw [← same, Application.createWindow, contains, insertWindow, get?_push, if_pos rfl]
      rfl
    · rw [← same, Application.createWindow, insertWindow, parent?_push, if_pos rfl]
  case isFalse => exact grown.windows found

theorem Sound.createWidget (sound : app.Sound) (parent : WidgetId) (widget : Widget) :
    ((Application.createWidget parent widget).run app).2.Sound := by
  rcases createWidget_after parent widget with same | ⟨id, forest, inserted, after⟩
  · rw [same]
    exact sound
  · rw [after]
    apply Sound.schedule
    obtain ⟨-, isNew, -⟩ := insert_eq_ok inserted
    have apart : ∀ other, app.forest.contains other = true → other ≠ id := by
      rintro other live rfl
      rw [isNew, push_isNew] at live
      cases live
    apply sound.grown (sound.linked.insert inserted) (unchangedAway_insert inserted).toAlikeAway
    · rw [isNew, push_isNew]
    · intro other live
      obtain ⟨-, -, shape⟩ := insert_eq_ok inserted
      rwa [shape, attach, contains_adjust, contains, get?_push,
        if_neg (isNew ▸ apart other live), ← contains]
    · intro other live
      rw [(insert_links inserted).1, if_neg (apart other live)]

/-- A move leaves the same widgets. -/
theorem contains_reparent {forest after : Forest} {newParent : Option WidgetId}
    (moved : forest.reparent id newParent = .ok after) (other : WidgetId) :
    after.contains other = forest.contains other := by
  obtain ⟨-, -, rfl⟩ := reparent_eq_ok moved
  have sameFront : ((((forest.released id (forest.parent? id)).turned id newParent).held id
      newParent).get? other).map Widget.front =
        (((forest.released id (forest.parent? id)).turned id newParent).get? other).map
          Widget.front := front_held newParent
  rw [contains_congr sameFront, turned, contains_adjust, contains_released]

/-- After a widget has moved, every window is a widget without a parent. -/
theorem Sound.reparent_windows (sound : app.Sound) {newParent : Option WidgetId} {widget : Widget}
    {after : Forest} {window : WidgetId} {kept : Damage}
    (isKept : (if id = window then
        match widget.parent, newParent with
        | some _, none => some (Damage.new id)
        | none, some _ => none
        | _, _ => (app.windows.find? window).map
            (leftBehind app.forest after window id widget.parent widget.geometry)
      else
        (app.windows.find? window).map
          (leftBehind app.forest after window id widget.parent widget.geometry)) = some kept)
    (found : app.forest.get? id = some widget)
    (moved : app.forest.reparent id newParent = .ok after) :
    kept.root = window ∧ after.contains window = true ∧ after.parent? window = none := by
  have up : app.forest.parent? id = widget.parent := parent?_of_get? found
  rw [contains_reparent moved, (sound.linked.reparent_links moved).1]
  have stays : ∀ old, app.windows.find? window = some old →
      leftBehind app.forest after window id widget.parent widget.geometry old = kept →
        kept.root = window ∧ app.forest.contains window = true ∧
          app.forest.parent? window = none := by
    rintro old isOld rfl
    rw [leftBehind_root]
    exact sound.windows isOld
  split at isKept
  case isFalse apart =>
    obtain ⟨old, isOld, left⟩ := Option.map_eq_some_iff.mp isKept
    rw [if_neg (Ne.symm apart)]
    exact stays old isOld left
  case isTrue same =>
    subst same
    rw [if_pos rfl]
    cases old : widget.parent with
    | none =>
        cases newParent with
        | none =>
            obtain ⟨before, isOld, left⟩ :=
              Option.map_eq_some_iff.mp (by simpa only [old] using isKept)
            have facts := stays before isOld (by rwa [old])
            exact ⟨facts.1, facts.2.1, rfl⟩
        | some parent =>
            rw [old] at isKept
            cases isKept
    | some parent =>
        cases newParent with
        | none =>
            rw [old] at isKept
            cases isKept
            exact ⟨rfl, contains_iff.mpr ⟨widget, found⟩, rfl⟩
        | some target =>
            obtain ⟨before, isOld, -⟩ :=
              Option.map_eq_some_iff.mp (by simpa only [old] using isKept)
            have top := (sound.windows isOld).2.2
            rw [up, old] at top
            cases top

theorem Sound.reparent (sound : app.Sound) (newParent : Option WidgetId) :
    ((Application.reparent id newParent).run app).2.Sound := by
  rcases reparent_after newParent with same | ⟨widget, after, found, moved, forest, settings,
    stylist, windows⟩
  · rw [same]
    exact sound
  · have linked := sound.linked.reparent moved
    have out := Stylist.invalidateSubtree_takenOut (after.subtreeKeys id) app.stylist
    refine ⟨?_, ?_, ?_, ?_⟩
    · rwa [forest]
    · rw [stylist, out.settings, settings, sound.settings]
    · rw [stylist, forest]
      refine sound.coherent.takenOut out fun key lineage isPlaced outside =>
        ⟨⟨placed_of_alikeAway (sound.linked.unchangedAway_reparent moved).toAlikeAway sound.linked
          linked ?_ isPlaced.1, isPlaced.2⟩, fun _ _ => List.not_mem_nil⟩
      rintro other live rfl
      refine ⟨(contains_reparent moved other).trans live, fun below => ?_⟩
      exact outside ((mem_subtreeKeys_iff linked).mpr below)
    · intro window damage isDamage
      rw [windows, Option.map_eq_some_iff] at isDamage
      obtain ⟨kept, isKept, rfl⟩ := isDamage
      rw [asked_root, forest]
      exact sound.reparent_windows isKept found moved

/-! ### Removed widgets -/

section Removal

variable {forest after : Forest} {removed : List WidgetId} {other : WidgetId}
  (linked : forest.Linked) (gone : forest.remove id = .ok (removed, after))

include linked gone

/-- What is left after a removal: every widget that is neither the removed one nor below it. -/
theorem contains_remove :
    after.contains other = true ↔ forest.contains other = true ∧ id ∉ forest.path other := by
  rw [contains, linked.get?_remove gone]
  split
  case isTrue below => simp [below]
  case isFalse outside =>
    rw [← contains, contains_released]
    simp [outside]

theorem mem_removed_iff : other ∈ removed ↔ id ∈ forest.path other := by
  rw [(remove_eq_ok gone).2.1]
  exact linked.mem_subtree_iff

theorem not_mem_removed (live : after.contains other = true) : other ∉ removed := fun member =>
  ((contains_remove linked gone).mp live).2 ((mem_removed_iff linked gone).mp member)

theorem contains_removed : after.contains id = false := by
  rw [Bool.eq_false_iff]
  exact fun live => ((contains_remove linked gone).mp live).2 (mem_path_self id)

/-- Nobody that is left is below a removed widget. -/
theorem not_mem_path_removed (live : after.contains other = true) : id ∉ after.path other :=
  fun below => by
    have there := (linked.remove gone).contains_of_mem_path live below
    rw [contains_removed linked gone] at there
    cases there

end Removal

/-- A window other than a removed widget stays one. -/
theorem Sound.window_stays (sound : app.Sound) {removed : List WidgetId} {after : Forest}
    (gone : app.forest.remove id = .ok (removed, after)) {window : WidgetId} {damage : Damage}
    (isWindow : app.windows.find? window = some damage) (apart : id ≠ window) :
    damage.root = window ∧ after.contains window = true ∧ after.parent? window = none := by
  obtain ⟨isRoot, live, top⟩ := sound.windows isWindow
  have outside : id ∉ app.forest.path window := by
    rw [sound.linked.path_of_root top, List.mem_singleton]
    exact apart
  refine ⟨isRoot, (contains_remove sound.linked gone).mpr ⟨live, outside⟩, ?_⟩
  rw [(sound.linked.remove_links gone).1, if_neg outside, top]

theorem Sound.destroyWidget (sound : app.Sound) :
    ((Application.destroyWidget id).run app).2.Sound := by
  rcases destroyWidget_after with same | ⟨widget, removed, after, found, gone, forest, settings,
    stylist, windows⟩
  · rw [same]
    exact sound
  · have linked := sound.linked.remove gone
    have out := Stylist.nodesDestroyed_takenOut (removed.map styleKey) app.stylist
    have isRemoved : ∀ {other}, styleKey other ∈ removed.map styleKey ↔
        id ∈ app.forest.path other := by
      intro other
      rw [List.mem_map_of_injective styleKey_injective, mem_removed_iff sound.linked gone]
    refine ⟨?_, ?_, ?_, ?_⟩
    · rwa [forest]
    · rw [stylist, out.settings, settings, sound.settings]
    · rw [stylist, forest]
      refine sound.coherent.takenOut out fun key lineage isPlaced outside =>
        ⟨⟨placed_of_alikeAway (sound.linked.unchangedAway_remove gone).toAlikeAway sound.linked
          linked ?_ isPlaced.1, isPlaced.2⟩, ?_⟩
      · rintro other live rfl
        have liveAfter := (contains_remove sound.linked gone).mpr
          ⟨live, fun below => outside (isRemoved.mpr below)⟩
        exact ⟨liveAfter, not_mem_path_removed sound.linked gone liveAfter⟩
      · intro node member isGone
        obtain ⟨other, rfl, live, rfl⟩ := placed_eq_some isPlaced.1
        rw [sound.linked.lineage_path] at member
        obtain ⟨above, onPath, rfl⟩ := List.mem_map.mp member
        rw [styleNode_key, isRemoved] at isGone
        exact outside (isRemoved.mpr (sound.linked.mem_path_trans onPath isGone))
    · intro window damage isDamage
      rw [windows] at isDamage
      rw [forest]
      cases up : widget.parent with
      | none =>
          rw [up] at isDamage
          simp only at isDamage
          split at isDamage
          case isTrue => cases isDamage
          case isFalse apart => exact sound.window_stays gone isDamage (Ne.symm apart)
      | some parent =>
          rw [up] at isDamage
          obtain ⟨old, isOld, rfl⟩ := Option.map_eq_some_iff.mp isDamage
          rw [asked_root, forgotten_root]
          apply sound.window_stays gone isOld
          · rintro rfl
            have top := (sound.windows isOld).2.2
            rw [parent?_of_get? found, up] at top
            cases top

theorem Sound.setGeometry (sound : app.Sound) (geometry : Rect) :
    ((Application.setGeometry id geometry).run app).2.Sound := by
  rcases setGeometry_after geometry with same | ⟨widget, -, after⟩
  · rw [same]
    exact sound
  · rw [after]
    apply Sound.schedule
    refine sound.adjusted rfl (fun _ => rfl) (fun _ => rfl) ?_ ?_ ?_ ?_
    · simp
    · simp
    · simpa using sound.coherent
    · exact sameWindows_scheduleIn widget.parent widget.geometry

theorem Sound.setVisible (sound : app.Sound) (visible : Bool) :
    ((Application.setVisible id visible).run app).2.Sound := by
  rcases setVisible_after visible with same | ⟨widget, -, -, after⟩
  · rw [same]
    exact sound
  · rw [after]
    cases visible with
    | true =>
        apply Sound.schedule
        exact sound.adjusted rfl (fun _ => rfl) (fun _ => rfl) rfl rfl sound.coherent
          fun found => ⟨_, found, rfl⟩
    | false =>
        refine sound.adjusted rfl (fun _ => rfl) (fun _ => rfl) ?_ ?_ ?_ ?_
        · simp
        · simp
        · simpa using sound.coherent
        · exact sameWindows_scheduleIn widget.parent widget.geometry

theorem Sound.setOpaque (sound : app.Sound) (isOpaque : Bool) :
    ((Application.setOpaque id isOpaque).run app).2.Sound := by
  rcases setOpaque_after isOpaque with same | ⟨widget, -, after⟩
  · rw [same]
    exact sound
  · rw [after]
    apply Sound.schedule
    exact sound.adjusted rfl (fun _ => rfl) (fun _ => rfl) rfl rfl sound.coherent
      fun found => ⟨_, found, rfl⟩

theorem Sound.setText (sound : app.Sound) (text : String) :
    ((Application.setText id text).run app).2.Sound := by
  rcases setText_after text with same | ⟨widget, -, after⟩
  · rw [same]
    exact sound
  · rw [after]
    apply Sound.schedule
    exact sound.adjusted rfl (fun _ => rfl) (fun _ => rfl) rfl rfl sound.coherent
      fun found => ⟨_, found, rfl⟩

theorem Sound.setPseudoState (sound : app.Sound) (mask : PseudoMask) :
    ((Application.setPseudoState id mask).run app).2.Sound := by
  rcases setPseudoState_after mask with same | ⟨widget, found, outcome⟩
  · rw [same]
    exact sound
  · have turned : { app with
        forest := app.forest.adjust id fun widget => { widget with pseudo := mask } }.Sound :=
      sound.adjusted rfl (fun _ => rfl) (fun _ => rfl) rfl rfl sound.coherent
        fun found => ⟨_, found, rfl⟩
    have live : (app.forest.adjust id fun widget =>
        { widget with pseudo := mask }).contains id = true := by
      rw [contains_adjust]
      exact contains_iff.mpr ⟨widget, found⟩
    have looked := (turned.resolve live widget.pseudo).resolve live mask
    rcases outcome with ⟨-, after⟩ | ⟨-, after⟩ | after
    · rw [after]
      exact turned
    · rw [after]
      exact looked
    · rw [after]
      exact looked.schedule id none

theorem Sound.advanceAnimation (sound : app.Sound) :
    ((Application.advanceAnimation id).run app).2.Sound := by
  rcases advanceAnimation_after with same | ⟨widget, found, outcome⟩
  · rw [same]
    exact sound
  · have looked := sound.resolve (contains_iff.mpr ⟨widget, found⟩) widget.pseudo
    rcases outcome with after | after
    · rw [after]
      exact looked
    · rw [after]
      apply Sound.schedule
      exact looked.adjusted rfl (fun _ => rfl) (fun _ => rfl) rfl rfl looked.coherent
        fun found => ⟨_, found, rfl⟩

theorem Sound.requestUpdate (sound : app.Sound) (rect : Option Rect) :
    ((Application.requestUpdate id rect).run app).2.Sound := by
  rcases requestUpdate_after rect with same | after
  · rw [same]
    exact sound
  · rw [after]
    exact sound.schedule id rect

theorem Sound.change (sound : app.Sound) (change : Change) : (change.apply app).Sound := by
  cases change with
  | setAppSheet text => exact sound.setAppSheet text
  | setWidgetSheet id text => exact sound.setWidgetSheet text
  | createWindow widget => exact sound.createWindow widget
  | createWidget parent widget => exact sound.createWidget parent widget
  | reparent id newParent => exact sound.reparent newParent
  | destroyWidget id => exact sound.destroyWidget
  | setGeometry id geometry => exact sound.setGeometry geometry
  | setVisible id visible => exact sound.setVisible visible
  | setOpaque id isOpaque => exact sound.setOpaque isOpaque
  | setText id text => exact sound.setText text
  | setPseudoState id mask => exact sound.setPseudoState mask
  | advanceAnimation id => exact sound.advanceAnimation
  | requestUpdate id rect => exact sound.requestUpdate rect

/-! ### Lookups and paintings -/

theorem widgetStyle_run :
    (widgetStyle id).run app =
      match app.forest.get? id with
      | none => (.error (.forest (.notFound id)), app)
      | some widget =>
          (.ok (app.stylist.resolve (app.forest.lineage id) widget.pseudo).1,
            { app with
              stylist := (app.stylist.resolve (app.forest.lineage id) widget.pseudo).2 }) := by
  simp only [widgetStyle, run_bind, requireWidget_run]
  cases found : app.forest.get? id with
  | none =>
      rw [require_eq_error found]
      rfl
  | some widget =>
      rw [require_eq_ok found]
      rfl

theorem Sound.widgetStyle (sound : app.Sound) :
    ((Application.widgetStyle id).run app).2.Sound := by
  rw [widgetStyle_run]
  cases found : app.forest.get? id with
  | none => exact sound
  | some widget => exact sound.resolve (contains_iff.mpr ⟨widget, found⟩) widget.pseudo

theorem Sound.probeStyle (sound : app.Sound) (typeName objectName : String) (mask : PseudoMask) :
    (app.probeStyle typeName objectName mask).2.Sound := by
  -- While it is asked about, the node made for the query is in its place too.
  obtain ⟨probe, isProbe⟩ : ∃ probe, probe =
    (app.stylist.createQuery typeName objectName none).1 := ⟨_, rfl⟩
  obtain ⟨number, isQuery⟩ : ∃ number, probe.key = .query number := ⟨_, by rw [isProbe]; rfl⟩
  obtain ⟨asking, isAsking⟩ : ∃ asking, asking =
    (app.stylist.createQuery typeName objectName none).2 := ⟨_, rfl⟩
  have noWidget : ∀ {key lineage}, app.forest.placed key = some lineage → key ≠ probe.key := by
    intro key lineage isPlaced same
    rw [same, isQuery] at isPlaced
    cases isPlaced
  have asked : asking.Coherent (app.forest.placedWith probe) := by
    have same : Stylist.TakenOut app.stylist asking [] [] := by
      rw [isAsking]
      exact
        { settings := rfl
          nextSheet := rfl
          nextSerial := rfl
          appSheet := rfl
          nodeSheets := (Stylist.TakenOut.refl app.stylist).nodeSheets
          matched := (Stylist.TakenOut.refl app.stylist).matched
          sets := (Stylist.TakenOut.refl app.stylist).sets
          ruleSets := (Stylist.TakenOut.refl app.stylist).ruleSets }
    refine sound.coherent.takenOut same fun key lineage isPlaced _ =>
      ⟨⟨?_, isPlaced.2⟩, fun _ _ => List.not_mem_nil⟩
    rw [placedWith, if_neg (noWidget isPlaced.1)]
    exact isPlaced.1
  have looks := asked.resolve (fun _ => if_pos rfl) mask
  have out : Stylist.TakenOut (asking.resolve probe mask).2
      ((asking.resolve probe mask).2.nodeDestroyed probe.key) [probe.key] [probe.key] :=
    Stylist.nodeDestroyed_takenOut probe.key
  have after : (app.probeStyle typeName objectName mask).2 =
      { app with stylist := (asking.resolve probe mask).2.nodeDestroyed probe.key } := by
    rw [isAsking, isProbe]
    rfl
  rw [after]
  refine sound.looked rfl rfl ?_ ?_ fun found => ⟨_, found, rfl⟩
  · rw [out.settings, looks.same.settings, isAsking]
    rfl
  · refine looks.coherent.takenOut out fun key lineage isPlaced stays => ?_
    have placed : app.forest.placed key = some lineage := by
      have found := isPlaced.1
      rwa [placedWith, if_neg fun same => stays (List.mem_singleton.mpr same)] at found
    refine ⟨⟨placed, isPlaced.2⟩, fun node member isGone => ?_⟩
    obtain ⟨other, -, -, rfl⟩ := placed_eq_some placed
    rw [sound.linked.lineage_path] at member
    obtain ⟨above, -, rfl⟩ := List.mem_map.mp member
    rw [styleNode_key, List.mem_singleton, isQuery] at isGone
    cases isGone

/-- What the lookups of a painting keep: the sheets, and the coherence of the caches. -/
def StillCoherent (app : Application) (stylist : Stylist) : Prop :=
  Stylist.SameSheets app.stylist stylist ∧ stylist.Coherent app.forest.placed

/-- The style of a widget is the one that the sheets in use give it. -/
def IsFresh (app : Application) (id : WidgetId) (style : ResolvedStyle) : Prop :=
  style.appearance? = app.stylist.freshAppearance (app.forest.lineage id) (app.forest.pseudo id)

theorem Sound.stillCoherent (sound : app.Sound) : app.StillCoherent app.stylist :=
  ⟨⟨rfl, rfl, rfl, rfl⟩, sound.coherent⟩

/-- The style of a node depends on the settings and on the rules that match it. -/
theorem freshAppearance_of_matchLineage {before after : Stylist} {lineage : Lineage}
    (settings : after.settings = before.settings)
    (same : after.matchLineage lineage = before.matchLineage lineage) :
    after.freshAppearance lineage = before.freshAppearance lineage := by
  funext mask
  rw [Stylist.freshAppearance, Stylist.freshAppearance, same, settings]

/-- While the sheets stay, so do the styles of the widgets. -/
theorem freshAppearance_congr {before after : Stylist}
    (same : Stylist.SameSheets before after) :
    after.freshAppearance = before.freshAppearance := by
  funext lineage
  exact freshAppearance_of_matchLineage same.settings (congrFun same.matchLineage lineage)

theorem resolvesTo_fresh : ResolvesTo app.forest app.IsFresh app.StillCoherent := by
  rintro stylist id live ⟨same, coherent⟩
  have looks := coherent.resolve (isPlaced live) (app.forest.pseudo id)
  refine ⟨?_, same.trans looks.same, looks.coherent⟩
  rw [IsFresh, looks.appearance, freshAppearance_congr same]

section Painting

variable {σ : Type} (backend : Backend σ)

theorem paint_root (damage : Damage) (forest : Forest) (maxAttempts : Nat)
    (state : PaintState σ) :
    (damage.paint forest backend maxAttempts state).2.1.root = damage.root := by
  rw [Damage.paint]
  simp only
  split
  · rfl
  · split
    · rfl
    · rfl

/-- A painting of a window leaves the settings, the widgets, and the windows. -/
theorem paintWindow_after (window : WidgetId) (state : σ) :
    (app.paintWindow backend window state).2.1 = app ∨
      ∃ damage, app.windows.find? window = some damage ∧
        let computed := damage.compute app.forest app.settings.repaint
        let painted := computed.paint app.forest backend app.settings.retry.maxAttempts
          ⟨app.stylist, state⟩
        (app.paintWindow backend window state).2.1 =
          { app with
            stylist := painted.2.2.stylist
            windows := app.windows.insert window painted.2.1 } := by
  rw [paintWindow]
  cases found : app.windows.find? window with
  | none => exact Or.inl rfl
  | some damage => exact Or.inr ⟨damage, rfl, rfl⟩

theorem Sound.paintWindow (sound : app.Sound) (window : WidgetId) (state : σ) :
    (app.paintWindow backend window state).2.1.Sound := by
  rcases paintWindow_after backend window state with same | ⟨damage, isDamage, after⟩
  · rw [same]
    exact sound
  · obtain ⟨same, coherent⟩ := Damage.paint_keeps backend resolvesTo_fresh
      (damage.compute app.forest app.settings.repaint) app.settings.retry.maxAttempts
      (show app.StillCoherent (PaintState.mk app.stylist state).stylist from sound.stillCoherent)
    rw [after]
    refine sound.looked rfl rfl same.settings coherent fun {other painted} found => ?_
    rw [Table.find?_insert] at found
    split at found
    case isTrue isWindow =>
      refine ⟨damage, isWindow ▸ isDamage, ?_⟩
      rw [← Option.some_inj.mp found, paint_root, Damage.compute_eq_scheduleAll,
        Damage.scheduleAll_root]
    case isFalse => exact ⟨painted, found, rfl⟩

theorem paintEach_induction {motive : Application → Prop}
    (step : ∀ app window state, motive app → motive (app.paintWindow backend window state).2.1)
    (windows : List WidgetId) :
    ∀ (app : Application) (state : σ), motive app →
      motive (paintEach backend windows app state).2.1 := by
  induction windows with
  | nil => exact fun _ _ holds => holds
  | cons window later inductionHypothesis =>
      intro app state holds
      have first := step app window state holds
      rw [paintEach]
      generalize app.paintWindow backend window state = outcome at first
      obtain ⟨report, painted, after⟩ := outcome
      cases report with
      | error failure => exact first
      | ok report =>
          have further := inductionHypothesis painted after first
          simp only
          generalize paintEach backend later painted after = rest at further
          obtain ⟨reports, last, final⟩ := rest
          cases reports with
          | error failure => exact further
          | ok reports => exact further

end Painting

/-- The applications that operations can lead to, whether they succeed or fail. -/
inductive Reachable : Application → Prop
  | new (settings : Settings) : Reachable (new settings)
  | change {app : Application} (change : Change) : Reachable app → Reachable (change.apply app)
  | widgetStyle {app : Application} (id : WidgetId) :
      Reachable app → Reachable ((widgetStyle id).run app).2
  | probeStyle {app : Application} (typeName objectName : String) (mask : PseudoMask) :
      Reachable app → Reachable (app.probeStyle typeName objectName mask).2
  | paintWindow {app : Application} {σ : Type} (backend : Backend σ) (window : WidgetId)
      (state : σ) : Reachable app → Reachable (app.paintWindow backend window state).2.1
  | paintAll {app : Application} {σ : Type} (backend : Backend σ) (state : σ) :
      Reachable app → Reachable (app.paintAll backend state).2.1

theorem Reachable.sound (reachable : Reachable app) : app.Sound := by
  induction reachable with
  | new settings => exact sound_new settings
  | change change _ sound => exact sound.change change
  | widgetStyle id _ sound => exact sound.widgetStyle
  | probeStyle typeName objectName mask _ sound => exact sound.probeStyle typeName objectName mask
  | paintWindow backend window state _ sound => exact sound.paintWindow backend window state
  | paintAll backend state _ sound =>
      apply paintEach_induction backend _ _ _ state sound
      exact fun app window state sound => sound.paintWindow backend window state

end Application

end StyledWidgets
