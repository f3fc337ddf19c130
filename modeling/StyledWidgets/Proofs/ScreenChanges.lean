/-
Module: StyledWidgets.Proofs.ScreenChanges
Purpose: Every operation of an application is answered for in the damage of each window that stays
  one: each is a change of one widget, or of nothing that is seen.
Main exports: Application.Sound.answers_adjusted, Application.Sound.answers_scheduled,
  Application.Sound.answers_moved, Application.Sound.change_answers
-/
import StyledWidgets.Proofs.ScreenSteps

namespace StyledWidgets

open StyledWidgets.Sheet StyledWidgets.Style

namespace Application

open Forest

variable {app after : Application} {id window other : WidgetId} {damage damageAfter : Damage}
  {pixel : Point}

/-! ### Requests keep what waits -/

section Requests

variable (forest : Forest) (damage : Damage) (kept : WidgetId → Prop)

theorem asked_keeps (window id : WidgetId) (rect : Option Rect) :
    damage.Keeps (asked forest window id rect damage) kept := by
  rw [asked]
  split
  · exact Damage.Keeps.requestUpdate damage id rect
  · exact Damage.Keeps.refl damage kept

theorem askedIn_keeps (window : WidgetId) (parent : Option WidgetId) (rect : Rect) :
    damage.Keeps (askedIn forest window parent rect damage) kept := by
  cases parent with
  | none => exact Damage.Keeps.refl damage kept
  | some parent => exact asked_keeps forest damage kept window parent (some rect)

theorem forgotten_keeps (home : Option WidgetId) (window : WidgetId) (ids : List WidgetId) :
    damage.Keeps (forgotten home window ids damage) fun other => other ∉ ids := by
  rw [forgotten]
  split
  · exact Damage.Keeps.forget damage ids
  · exact Damage.Keeps.refl damage _

/-- Of a widget that has been moved away, what it leaves in its parent is kept. -/
theorem leftBehind_keeps {after : Forest} (linkedAfter : after.Linked) (window id : WidgetId)
    (parent : Option WidgetId) (place : Rect) :
    (askedIn after window parent place damage).Keeps
      (leftBehind forest after window id parent place damage)
      fun other => id ∉ after.path other := by
  rw [leftBehind]
  split
  · exact Damage.Keeps.refl _ _
  · apply (forgotten_keeps _ _ window (after.subtree id)).mono
    intro other away below
    exact away (linkedAfter.mem_subtree_iff.mp below)

end Requests

theorem pending_asked {forest : Forest} (isHome : forest.windowOf? id = some window)
    (damage : Damage) : (asked forest window id none damage).pending.find? id = some none := by
  rw [asked, if_pos isHome]
  exact damage.pending_requestUpdate_none id

/-! ### Windows -/

/-- Whoever is below a window belongs to it. -/
theorem windowOf?_eq {forest : Forest} (linked : forest.Linked)
    (live : forest.contains window = true) (top : forest.parent? window = none)
    (member : window ∈ forest.path id) : forest.windowOf? id = some window := by
  rw [windowOf?, if_pos (linked.contains_of_below live member)]
  exact linked.getLast?_path_iff.mpr ⟨member, top⟩

theorem Sound.windowOf?_eq (sound : app.Sound) (isWindow : app.windows.find? window = some damage)
    (member : window ∈ app.forest.path id) : app.forest.windowOf? id = some window :=
  Application.windowOf?_eq sound.linked (sound.windows isWindow).2.1 (sound.windows isWindow).2.2
    member

/-! ### Layers -/

/-- A widget whose face and place have stayed contributes the same as before if the sheets give it
the same style. -/
theorem Sound.layer_congr (sound : app.Sound) (soundAfter : after.Sound)
    (alike : AlikeAway app.forest after.forest id) (live : after.forest.contains other = true)
    (away : id ∉ after.forest.path other)
    (style : after.stylist.freshAppearance (after.forest.lineage other) =
      app.stylist.freshAppearance (after.forest.lineage other))
    (pseudo : app.stylist.freshAppearance (app.forest.lineage other) (app.forest.pseudo other) =
      app.stylist.freshAppearance (app.forest.lineage other) (after.forest.pseudo other)) :
    app.layer other = after.layer other := by
  have face := alike.face live away
  have sameLineage := (alike.lineage sound.linked soundAfter.linked live away).2
  rw [layer, layer, sound.freshStylist_resolve (alike.contains live away),
    soundAfter.freshStylist_resolve live, alike.windowRect sound.linked soundAfter.linked live away,
    isOpaque_congr face, text_congr face, frame_congr face, pseudo, sameLineage, style]

/-- The places of widgets do not depend on anything else that they say. -/
theorem shownAt_adjust {forest : Forest} (linked : forest.Linked) {change : Widget → Widget}
    (parent : ∀ widget, (change widget).parent = widget.parent)
    (children : ∀ widget, (change widget).children = widget.children)
    (visible : ∀ widget, (change widget).visible = widget.visible)
    (geometry : ∀ widget, (change widget).geometry = widget.geometry) (pixel : Point) :
    (forest.adjust id change).shownAt pixel = forest.shownAt pixel := by
  have samePath : (forest.adjust id change).path = forest.path := by
    funext other
    exact linked.path_congr (linked.adjust parent children) fun _ _ => parent?_adjust parent _
  have sameGeometry : (forest.adjust id change).geometry = forest.geometry := by
    funext other
    rw [Forest.geometry, get?_adjust, Forest.geometry]
    by_cases same : other = id
    · rw [if_pos same, same]
      cases forest.get? id with
      | none => rfl
      | some widget => exact geometry widget
    · rw [if_neg same]
  have sameVisible : (forest.adjust id change).isVisible = forest.isVisible := by
    funext other
    rw [isVisible, get?_adjust, isVisible]
    split
    case isTrue same =>
      rw [same]
      cases forest.get? id with
      | none => rfl
      | some widget => exact visible widget
    case isFalse => rfl
  have sameOrigin : ∀ path, (forest.adjust id change).originOf path = forest.originOf path := by
    intro path
    induction path with
    | nil => rfl
    | cons child above inductionHypothesis =>
        cases above with
        | nil => rfl
        | cons parent above => simp only [originOf, inductionHypothesis, sameGeometry]
  funext other
  simp only [shownAt, windowRect, samePath, sameVisible, sameOrigin, sameGeometry]

/-! ### Changes of nothing that is seen -/

/-- If nothing that is seen in a window has changed, it is as if a widget had changed that does not
exist. -/
theorem Sound.answers_idle (sound : app.Sound) (soundAfter : after.Sound)
    (settings : after.settings = app.settings)
    (alike : ∀ id, AlikeAway app.forest after.forest id)
    (contains : ∀ other, after.forest.contains other = app.forest.contains other)
    (style : ∀ other, window ∈ after.forest.path other →
      after.stylist.freshAppearance (after.forest.lineage other) =
        app.stylist.freshAppearance (after.forest.lineage other))
    (pseudo : ∀ other, after.forest.contains other = true →
      app.stylist.freshAppearance (app.forest.lineage other) (app.forest.pseudo other) =
        app.stylist.freshAppearance (app.forest.lineage other) (after.forest.pseudo other))
    (keeps : ∀ kept, damage.Keeps damageAfter kept) :
    ∃ id, Answers app after window damage damageAfter id := by
  obtain ⟨id, unknown⟩ : ∃ id, app.forest.contains id = false := by
    have none : app.forest.get? ⟨app.forest.slots.size⟩ = none := get?_eq_none (Nat.le_refl _)
    exact ⟨_, by rw [Forest.contains, none]; rfl⟩
  have unknownAfter : after.forest.contains id = false := by rw [contains, unknown]
  refine ⟨id, settings, alike id, ?_, keeps _, ?_, ?_, ?_⟩
  · intro other live inWindow away
    exact sound.layer_congr soundAfter (alike id) live away (style other inWindow)
      (pseudo other live)
  · intro pixel _ shown
    have live := contains_of_shownAt shown
    rw [unknownAfter] at live
    cases live
  · intro pixel parent up
    rw [contains_of_parent up] at unknown
    cases unknown
  · intro parent up
    rw [contains_of_parent up] at unknownAfter
    cases unknownAfter

/-- Lookups and requests change nothing that is seen. -/
theorem Sound.answers_looked (sound : app.Sound) (soundAfter : after.Sound)
    (settings : after.settings = app.settings) (forest : after.forest = app.forest)
    (style : ∀ other, window ∈ after.forest.path other →
      after.stylist.freshAppearance (after.forest.lineage other) =
        app.stylist.freshAppearance (after.forest.lineage other))
    (keeps : ∀ kept, damage.Keeps damageAfter kept) :
    ∃ id, Answers app after window damage damageAfter id := by
  apply sound.answers_idle soundAfter settings
  · rw [forest]
    exact alikeAway_refl app.forest
  · exact fun _ => by rw [forest]
  · exact style
  · exact fun _ _ => by rw [forest]
  · exact keeps

theorem Sound.answers_unchanged (sound : app.Sound)
    (isWindow : app.windows.find? window = some damage) (unchanged : after = app)
    (isAfter : after.windows.find? window = some damageAfter) :
    ∃ id, Answers app after window damage damageAfter id := by
  subst unchanged
  rw [isWindow, Option.some_inj] at isAfter
  subst isAfter
  exact sound.answers_looked sound rfl rfl (fun _ _ => rfl) (Damage.Keeps.refl damage)

/-! ### Changes of one widget -/

/-- A widget that has said something else of itself is answered for if it is requested wherever it
is shown, and its parent where it has been shown and is no longer. -/
theorem Sound.answers_adjusted (sound : app.Sound) (soundAfter : after.Sound)
    (isWindow : app.windows.find? window = some damage)
    (isAfter : after.windows.find? window = some damageAfter) {change : Widget → Widget}
    (forest : after.forest = app.forest.adjust id change)
    (children : ∀ widget, (change widget).children = widget.children)
    (settings : after.settings = app.settings)
    (same : Stylist.SameSheets app.stylist after.stylist)
    (keeps : ∀ kept, damage.Keeps damageAfter kept)
    (asks : ∀ pixel, after.forest.windowOf? id = some window →
      after.forest.shownAt pixel id = true → damageAfter.pending.find? id = some none)
    (gap : ∀ pixel parent, app.forest.parent? id = some parent →
      app.forest.windowOf? parent = some window →
        app.forest.toLocal parent pixel = after.forest.toLocal parent pixel →
          after.forest.shownAt pixel parent = true → app.forest.shownAt pixel id = true →
            damageAfter.Wants after.forest pixel parent ∨ after.forest.shownAt pixel id = true) :
    Answers app after window damage damageAfter id := by
  have unchanged : UnchangedAway app.forest after.forest id := by
    rw [forest]
    exact unchangedAway_adjust children
  have alike := unchanged.toAlikeAway
  have sameChildren : ∀ other, app.forest.children other = after.forest.children other := by
    intro other
    rw [forest, children_adjust children]
  refine ⟨settings, alike, ?_, keeps _, ?_, ?_, fun _ => Or.inl (sameChildren _)⟩
  · intro other live _ away
    apply sound.layer_congr soundAfter alike live away
    · rw [freshAppearance_congr same]
    · rw [unchanged.pseudo live away]
  · exact fun inWindow => asks _ (soundAfter.windowOf?_eq isAfter inWindow)
  · intro pixel above up inWindow away shown shownBefore
    have live := contains_of_shownAt shown
    rw [← alike.path sound.linked soundAfter.linked live away] at inWindow
    have home := sound.windowOf?_eq isWindow inWindow
    have corner := alike.toLocal sound.linked soundAfter.linked live away pixel
    exact (gap pixel above up home corner shown shownBefore).imp_right fun shownAfter =>
      ⟨shownAfter, sameChildren above⟩

/-- A widget that has said something else of itself and is requested is answered for if it is still
shown wherever it has been, or its parent is requested there. -/
theorem Sound.answers_scheduled (sound : app.Sound) {changed : Application} {between : Damage}
    (soundAfter : (changed.schedule id none).Sound)
    (isWindow : app.windows.find? window = some damage)
    (isBetween : changed.windows.find? window = some between)
    (isAfter : (changed.schedule id none).windows.find? window = some damageAfter)
    {change : Widget → Widget} (forest : changed.forest = app.forest.adjust id change)
    (children : ∀ widget, (change widget).children = widget.children)
    (settings : changed.settings = app.settings)
    (same : Stylist.SameSheets app.stylist changed.stylist)
    (keeps : ∀ kept, damage.Keeps between kept)
    (gap : ∀ pixel parent, app.forest.parent? id = some parent →
      app.forest.windowOf? parent = some window →
        app.forest.toLocal parent pixel = changed.forest.toLocal parent pixel →
          changed.forest.shownAt pixel parent = true → app.forest.shownAt pixel id = true →
            between.Wants changed.forest pixel parent ∨ changed.forest.shownAt pixel id = true) :
    ∃ touched, Answers app (changed.schedule id none) window damage damageAfter touched := by
  obtain ⟨sameForest, sameStylist, sameSettings⟩ :
      (changed.schedule id none).forest = changed.forest ∧ _ ∧ _ := schedule_rest none
  have isDamage : asked changed.forest window id none between = damageAfter := by
    rwa [damage_schedule, isBetween, Option.map_some, Option.some_inj] at isAfter
  have last := fun kept => asked_keeps changed.forest between kept window id none
  rw [isDamage] at last
  refine ⟨id, sound.answers_adjusted soundAfter isWindow isAfter (sameForest.trans forest) children
    (sameSettings.trans settings) (sameStylist ▸ same) (fun kept => (keeps kept).trans (last kept))
    (fun pixel home _ => ?_) ?_⟩
  · rw [← isDamage]
    exact pending_asked (sameForest ▸ home) between
  · rw [sameForest]
    exact fun pixel parent up home corner shown shownBefore =>
      (gap pixel parent up home corner shown shownBefore).imp_left
        ((last fun _ => True).wants trivial)

/-- A widget that keeps its place and is requested is answered for. -/
theorem Sound.answers_requested (sound : app.Sound) {changed : Application}
    (soundAfter : (changed.schedule id none).Sound)
    (isWindow : app.windows.find? window = some damage)
    (isAfter : (changed.schedule id none).windows.find? window = some damageAfter)
    {change : Widget → Widget} (forest : changed.forest = app.forest.adjust id change)
    (parent : ∀ widget, (change widget).parent = widget.parent)
    (children : ∀ widget, (change widget).children = widget.children)
    (visible : ∀ widget, (change widget).visible = widget.visible)
    (geometry : ∀ widget, (change widget).geometry = widget.geometry)
    (settings : changed.settings = app.settings)
    (same : Stylist.SameSheets app.stylist changed.stylist)
    (windows : changed.windows = app.windows) :
    ∃ touched, Answers app (changed.schedule id none) window damage damageAfter touched := by
  apply sound.answers_scheduled soundAfter isWindow (windows ▸ isWindow) isAfter forest children
    settings same (Damage.Keeps.refl damage)
  intro pixel above _ _ _ _ shownBefore
  rw [forest, shownAt_adjust sound.linked parent children visible geometry]
  exact Or.inr shownBefore

/-- The place where a widget has been shown is requested in its parent. -/
theorem wants_place {before after home : Forest} (linked : before.Linked) {parent : WidgetId}
    (up : before.parent? id = some parent) (shownBefore : before.shownAt pixel id = true)
    (corner : before.toLocal parent pixel = after.toLocal parent pixel)
    (shown : after.shownAt pixel parent = true) (isHome : home.windowOf? parent = some window)
    (damage : Damage) :
    (asked home window parent (some (before.geometry id)) damage).Wants after pixel parent := by
  rw [asked, if_pos isHome]
  apply Damage.wants_requestUpdate
  apply Rect.mem_intersect.mpr
  constructor
  · rw [← corner, ← linked.mem_windowRect_child up]
    exact mem_windowRect_of_shownAt shownBefore
  · rw [← mem_windowRect_iff]
    exact mem_windowRect_of_shownAt shown

/-- The parent that is asked to repaint the place of a widget does so. -/
theorem wants_askedIn {before after home : Forest} (linked : before.Linked) {widget : Widget}
    (found : before.get? id = some widget) {parent : WidgetId}
    (up : before.parent? id = some parent) (shownBefore : before.shownAt pixel id = true)
    (corner : before.toLocal parent pixel = after.toLocal parent pixel)
    (shown : after.shownAt pixel parent = true) (isHome : home.windowOf? parent = some window)
    (damage : Damage) :
    (askedIn home window widget.parent widget.geometry damage).Wants after pixel parent := by
  rw [← parent?_of_get? found, up, ← geometry_of_get? found]
  exact wants_place linked up shownBefore corner shown isHome damage

/-! ### Removed widgets -/

/-- The sheets of removed widgets have been nothing to those that are left. -/
theorem freshAppearance_remove {before rest : Forest} (linked : before.Linked)
    {removed : List WidgetId} (gone : before.remove id = .ok (removed, rest))
    {stylist stylistAfter : Stylist} {entries : List NodeKey}
    (out : Stylist.TakenOut stylist stylistAfter entries (removed.map styleKey))
    (live : rest.contains other = true) :
    stylistAfter.freshAppearance (rest.lineage other) =
      stylist.freshAppearance (rest.lineage other) := by
  apply freshAppearance_of_matchLineage out.settings
  apply out.matchLineage
  intro node member
  rw [(linked.remove gone).lineage_path] at member
  obtain ⟨above, onPath, rfl⟩ := List.mem_map.mp member
  rw [styleNode_key, List.mem_map_of_injective styleKey_injective]
  exact not_mem_removed linked gone ((linked.remove gone).contains_of_mem_path live onPath)

/-! ### What widgets say of themselves -/

/-- A widget that comes, goes or moves is answered for if it is requested where it arrives, on top
of its siblings, and its parent where it has been. -/
theorem Sound.answers_moved (sound : app.Sound) (soundAfter : after.Sound)
    (isAfter : after.windows.find? window = some damageAfter)
    (unchanged : UnchangedAway app.forest after.forest id)
    (settings : after.settings = app.settings)
    (style : ∀ other, after.forest.contains other = true → id ∉ after.forest.path other →
      after.stylist.freshAppearance (after.forest.lineage other) =
        app.stylist.freshAppearance (after.forest.lineage other))
    (keeps : damage.Keeps damageAfter fun other =>
      after.forest.contains other = true ∧ id ∉ after.forest.path other)
    (asks : ∀ pixel, after.forest.windowOf? id = some window →
      after.forest.shownAt pixel id = true → damageAfter.pending.find? id = some none)
    (gap : ∀ pixel parent, app.forest.parent? id = some parent →
      after.forest.windowOf? parent = some window → id ∉ after.forest.path parent →
        app.forest.toLocal parent pixel = after.forest.toLocal parent pixel →
          after.forest.shownAt pixel parent = true → app.forest.shownAt pixel id = true →
            damageAfter.Wants after.forest pixel parent)
    (arrival : ∀ parent, after.forest.parent? id = some parent →
      after.forest.siblingsAbove parent id = []) :
    ∃ touched, Answers app after window damage damageAfter touched := by
  refine ⟨id, settings, unchanged.toAlikeAway, ?_, keeps, ?_, ?_,
    fun up => Or.inr (arrival _ up)⟩
  · intro other live _ away
    apply sound.layer_congr soundAfter unchanged.toAlikeAway live away
    · exact style other live away
    · rw [unchanged.pseudo live away]
  · exact fun inWindow => asks _ (soundAfter.windowOf?_eq isAfter inWindow)
  · intro pixel parent up inWindow away shown shownBefore
    have live := contains_of_shownAt shown
    have corner := unchanged.toAlikeAway.toLocal sound.linked soundAfter.linked live away pixel
    exact Or.inl (gap pixel parent up (soundAfter.windowOf?_eq isAfter inWindow) away corner shown
      shownBefore)

/-- A window that is requested as a whole answers for any change of styles. -/
theorem Sound.answers_whole (sound : app.Sound)
    (isWindow : app.windows.find? window = some damage) (settings : after.settings = app.settings)
    (forest : after.forest = app.forest) (whole : damageAfter.pending.find? window = some none)
    (keeps : ∀ kept, damage.Keeps damageAfter kept) :
    ∃ touched, Answers app after window damage damageAfter touched := by
  have top := (sound.windows isWindow).2.2
  refine ⟨window, settings, ?_, fun _ inWindow away => absurd inWindow away, keeps _,
    fun _ _ => whole, ?_, ?_⟩
  · rw [forest]
    exact alikeAway_refl app.forest window
  · intro pixel parent up
    rw [top] at up
    cases up
  · intro parent up
    rw [forest, top] at up
    cases up

/-- Two styles that are found to be the same instance have the same appearance. -/
theorem same_appearance {stylist : Stylist} {placed : NodeKey → Option Lineage} {lineage : Lineage}
    (coherent : stylist.Coherent placed)
    (isPlaced : lineage.node.ignoresSheets = false → placed lineage.key = some lineage)
    {mask maskAfter : PseudoMask}
    (same : ResolvedStyle.same (stylist.resolve lineage mask).1
      ((stylist.resolve lineage mask).2.resolve lineage maskAfter).1 = true) :
    stylist.freshAppearance lineage mask = stylist.freshAppearance lineage maskAfter := by
  have looks := coherent.resolve isPlaced mask
  have looksAfter := looks.coherent.resolve isPlaced maskAfter
  have appearance := looks.appearance
  have appearanceAfter := looksAfter.appearance
  have held := looks.held
  have origin := looksAfter.origin
  rw [freshAppearance_congr looks.same] at appearanceAfter
  rw [ResolvedStyle.same, beq_iff_eq] at same
  rw [← appearance, ← appearanceAfter]
  cases first : (stylist.resolve lineage mask).1 with
  | none =>
      rw [first] at same
      rw [Option.map_none, eq_comm, Option.map_eq_none_iff] at same
      rw [same]
  | some made =>
      cases second : ((stylist.resolve lineage mask).2.resolve lineage maskAfter).1 with
      | none =>
          rw [first, second] at same
          cases same
      | some madeToo =>
          rw [first, second, Option.map_some, Option.map_some, Option.some_inj] at same
          obtain ⟨set, setMask, isHeld⟩ := held made first
          rcases origin madeToo second with ⟨other, otherMask, isHeldToo⟩ | isNew
          · exact congrArg some (looks.coherent.instances isHeld isHeldToo same)
          · have earlier := looks.coherent.serials isHeld
            omega

section Operations

variable (sound : app.Sound) (isWindow : app.windows.find? window = some damage)

include sound isWindow

theorem Sound.setText_answers (text : String)
    (isAfter : ((Application.setText id text).run app).2.windows.find? window =
      some damageAfter) :
    ∃ touched, Answers app ((Application.setText id text).run app).2 window damage damageAfter
      touched := by
  have soundAfter : ((Application.setText id text).run app).2.Sound := sound.setText text
  rcases setText_after text with same | ⟨widget, -, after⟩
  · exact sound.answers_unchanged isWindow same isAfter
  · rw [after] at isAfter soundAfter ⊢
    exact sound.answers_requested soundAfter isWindow isAfter rfl (fun _ => rfl) (fun _ => rfl)
      (fun _ => rfl) (fun _ => rfl) rfl ⟨rfl, rfl, rfl, rfl⟩ rfl

theorem Sound.setOpaque_answers (isOpaque : Bool)
    (isAfter : ((Application.setOpaque id isOpaque).run app).2.windows.find? window =
      some damageAfter) :
    ∃ touched, Answers app ((Application.setOpaque id isOpaque).run app).2 window damage
      damageAfter touched := by
  have soundAfter : ((Application.setOpaque id isOpaque).run app).2.Sound :=
    sound.setOpaque isOpaque
  rcases setOpaque_after isOpaque with same | ⟨widget, -, after⟩
  · exact sound.answers_unchanged isWindow same isAfter
  · rw [after] at isAfter soundAfter ⊢
    exact sound.answers_requested soundAfter isWindow isAfter rfl (fun _ => rfl) (fun _ => rfl)
      (fun _ => rfl) (fun _ => rfl) rfl ⟨rfl, rfl, rfl, rfl⟩ rfl

theorem Sound.requestUpdate_answers (rect : Option Rect)
    (isAfter : ((Application.requestUpdate id rect).run app).2.windows.find? window =
      some damageAfter) :
    ∃ touched, Answers app ((Application.requestUpdate id rect).run app).2 window damage
      damageAfter touched := by
  have soundAfter : ((Application.requestUpdate id rect).run app).2.Sound :=
    sound.requestUpdate rect
  rcases requestUpdate_after rect with same | after
  · exact sound.answers_unchanged isWindow same isAfter
  · rw [after] at isAfter soundAfter ⊢
    obtain ⟨forest, stylist, settings⟩ :
        (app.schedule id rect).forest = app.forest ∧ _ ∧ _ := schedule_rest rect
    rw [damage_schedule, isWindow, Option.map_some, Option.some_inj] at isAfter
    apply sound.answers_looked soundAfter settings forest
    · exact fun _ _ => by rw [stylist]
    · rw [← isAfter]
      exact fun kept => asked_keeps app.forest damage kept window id rect

theorem Sound.advanceAnimation_answers
    (isAfter : ((Application.advanceAnimation id).run app).2.windows.find? window =
      some damageAfter) :
    ∃ touched, Answers app ((Application.advanceAnimation id).run app).2 window damage damageAfter
      touched := by
  have soundAfter : ((Application.advanceAnimation id).run app).2.Sound := sound.advanceAnimation
  rcases advanceAnimation_after with same | ⟨widget, found, outcome⟩
  · exact sound.answers_unchanged isWindow same isAfter
  · have same := (sound.coherent.resolve (isPlaced (contains_iff.mpr ⟨widget, found⟩))
      widget.pseudo).same
    rcases outcome with after | after
    · rw [after] at isAfter soundAfter ⊢
      rw [isWindow, Option.some_inj] at isAfter
      rw [← isAfter]
      apply sound.answers_looked soundAfter rfl rfl
      · exact fun _ _ => by rw [freshAppearance_congr same]
      · exact Damage.Keeps.refl damage
    · rw [after] at isAfter soundAfter ⊢
      exact sound.answers_requested soundAfter isWindow isAfter rfl (fun _ => rfl) (fun _ => rfl)
        (fun _ => rfl) (fun _ => rfl) rfl same rfl

theorem Sound.setGeometry_answers (geometry : Rect)
    (isAfter : ((Application.setGeometry id geometry).run app).2.windows.find? window =
      some damageAfter) :
    ∃ touched, Answers app ((Application.setGeometry id geometry).run app).2 window damage
      damageAfter touched := by
  have soundAfter : ((Application.setGeometry id geometry).run app).2.Sound :=
    sound.setGeometry geometry
  rcases setGeometry_after geometry with same | ⟨widget, found, after⟩
  · exact sound.answers_unchanged isWindow same isAfter
  · rw [after] at isAfter soundAfter ⊢
    generalize isMoved : app.forest.adjust id (fun widget => { widget with geometry := geometry }) =
      moved at isAfter soundAfter ⊢
    obtain ⟨-, stylist, settings⟩ : (app.scheduleIn widget.parent widget.geometry).forest =
      app.forest ∧ _ ∧ _ := scheduleIn_rest widget.parent widget.geometry
    have isBetween :
        ({ app.scheduleIn widget.parent widget.geometry with forest := moved }).windows.find?
          window = some (askedIn app.forest window widget.parent widget.geometry damage) := by
      rw [damage_scheduleIn, isWindow, Option.map_some]
    apply sound.answers_scheduled soundAfter isWindow isBetween isAfter isMoved.symm
      (fun _ => rfl) settings
    · exact stylist ▸ ⟨rfl, rfl, rfl, rfl⟩
    · exact fun kept => askedIn_keeps app.forest damage kept window _ _
    · intro pixel parent up home corner shown shownBefore
      exact Or.inl (wants_askedIn sound.linked found up shownBefore corner shown home damage)

/-- A widget that appears is requested, and one that disappears leaves its place to its parent. -/
theorem Sound.setVisible_answers (visible : Bool)
    (isAfter : ((Application.setVisible id visible).run app).2.windows.find? window =
      some damageAfter) :
    ∃ touched, Answers app ((Application.setVisible id visible).run app).2 window damage
      damageAfter touched := by
  have soundAfter : ((Application.setVisible id visible).run app).2.Sound :=
    sound.setVisible visible
  rcases setVisible_after visible with same | ⟨widget, found, differs, after⟩
  · exact sound.answers_unchanged isWindow same isAfter
  · rw [after] at isAfter soundAfter ⊢
    generalize isTurned : app.forest.adjust id (fun widget => { widget with visible := visible }) =
      turned at isAfter soundAfter ⊢
    have isVisible : turned.isVisible id = visible := by
      rw [← isTurned, Forest.isVisible, get?_adjust, if_pos rfl, found]
      rfl
    have wasVisible : app.forest.isVisible id = !visible := by
      rw [Forest.isVisible, found, Option.any_some, differs]
    cases visible with
    | true =>
        simp only [if_true] at isAfter soundAfter ⊢
        apply sound.answers_scheduled soundAfter isWindow isWindow isAfter isTurned.symm
          (fun _ => rfl) rfl ⟨rfl, rfl, rfl, rfl⟩ (Damage.Keeps.refl damage)
        intro pixel parent _ _ _ _ shownBefore
        have here := isVisible_of_shownAt shownBefore
        rw [wasVisible] at here
        cases here
    | false =>
        simp only [Bool.false_eq_true, if_false] at isAfter soundAfter ⊢
        obtain ⟨-, stylist, settings⟩ : (app.scheduleIn widget.parent widget.geometry).forest =
          app.forest ∧ _ ∧ _ := scheduleIn_rest widget.parent widget.geometry
        have isDamage :
            askedIn app.forest window widget.parent widget.geometry damage = damageAfter := by
          rwa [damage_scheduleIn, isWindow, Option.map_some, Option.some_inj] at isAfter
        refine ⟨id, sound.answers_adjusted soundAfter isWindow isAfter isTurned.symm
          (fun _ => rfl) settings ?_ ?_ ?_ ?_⟩
        · exact stylist ▸ ⟨rfl, rfl, rfl, rfl⟩
        · rw [← isDamage]
          exact fun kept => askedIn_keeps app.forest damage kept window _ _
        · intro pixel _ shown
          have here := isVisible_of_shownAt shown
          rw [isVisible] at here
          cases here
        · intro pixel parent up home corner shown shownBefore
          rw [← isDamage]
          exact Or.inl (wants_askedIn sound.linked found up shownBefore corner shown home damage)

/-- The widget is requested unless it is found to have the same style in both states. -/
theorem Sound.setPseudoState_answers (mask : PseudoMask)
    (isAfter : ((Application.setPseudoState id mask).run app).2.windows.find? window =
      some damageAfter) :
    ∃ touched, Answers app ((Application.setPseudoState id mask).run app).2 window damage
      damageAfter touched := by
  have soundAfter : ((Application.setPseudoState id mask).run app).2.Sound :=
    sound.setPseudoState mask
  rcases setPseudoState_after mask with same | ⟨widget, found, outcome⟩
  · exact sound.answers_unchanged isWindow same isAfter
  · generalize isTurned : app.forest.adjust id (fun widget => { widget with pseudo := mask }) =
      turned at outcome
    have alike : ∀ other, AlikeAway app.forest turned other := by
      rw [← isTurned]
      exact alikeAway_setPseudo mask id
    have contains : ∀ other, turned.contains other = app.forest.contains other := by
      rw [← isTurned]
      exact fun other => contains_adjust id other _
    have live : app.forest.contains id = true := contains_iff.mpr ⟨widget, found⟩
    have sameLineage : turned.lineage id = app.forest.lineage id := by
      rw [← isTurned]
      exact sound.linked.lineage_setPseudo id id mask
    have pseudo : app.stylist.freshAppearance (app.forest.lineage id) widget.pseudo =
        app.stylist.freshAppearance (app.forest.lineage id) mask →
          ∀ other, app.stylist.freshAppearance (app.forest.lineage other)
            (app.forest.pseudo other) =
              app.stylist.freshAppearance (app.forest.lineage other) (turned.pseudo other) := by
      intro same other
      rw [← isTurned, Forest.pseudo, Forest.pseudo, get?_adjust]
      by_cases here : other = id
      · rw [if_pos here, here, found]
        exact same
      · rw [if_neg here]
    have looks := sound.coherent.resolve (isPlaced live) widget.pseudo
    have looksAfter := looks.coherent.resolve (isPlaced live) mask
    simp only [sameLineage] at outcome
    rcases outcome with ⟨same, after⟩ | ⟨same, after⟩ | after
    · rw [after] at isAfter soundAfter ⊢
      rw [isWindow, Option.some_inj] at isAfter
      rw [← isAfter]
      exact sound.answers_idle soundAfter rfl alike contains (fun _ _ => rfl)
        (fun other _ => pseudo (by rw [same]) other) (Damage.Keeps.refl damage)
    · rw [after] at isAfter soundAfter ⊢
      rw [isWindow, Option.some_inj] at isAfter
      rw [← isAfter]
      refine sound.answers_idle soundAfter rfl alike contains (fun _ _ => ?_)
        (fun other _ => pseudo ?_ other) (Damage.Keeps.refl damage)
      · rw [freshAppearance_congr (looks.same.trans looksAfter.same)]
      · exact same_appearance sound.coherent (isPlaced live) same
    · rw [after] at isAfter soundAfter ⊢
      exact sound.answers_requested soundAfter isWindow isAfter isTurned.symm (fun _ => rfl)
        (fun _ => rfl) (fun _ => rfl) (fun _ => rfl) rfl (looks.same.trans looksAfter.same) rfl

theorem Sound.setAppSheet_answers (text : String)
    (isAfter : (app.setAppSheet text).windows.find? window = some damageAfter) :
    ∃ touched, Answers app (app.setAppSheet text) window damage damageAfter touched := by
  rw [damage_setAppSheet, isWindow, Option.map_some, Option.some_inj] at isAfter
  have rest : (app.setAppSheet text).settings = app.settings ∧
      (app.setAppSheet text).forest = app.forest := ⟨rfl, rfl⟩
  apply sound.answers_whole isWindow rest.1 rest.2
  · rw [← isAfter]
    exact damage.pending_requestUpdate_none window
  · rw [← isAfter]
    exact fun _ => Damage.Keeps.requestUpdate damage window none

/-- The sheet of a widget is no sheet for widgets of other windows. -/
theorem Sound.setWidgetSheet_answers (text : String)
    (isAfter : ((Application.setWidgetSheet id text).run app).2.windows.find? window =
      some damageAfter) :
    ∃ touched, Answers app ((Application.setWidgetSheet id text).run app).2 window damage
      damageAfter touched := by
  have soundAfter : ((Application.setWidgetSheet id text).run app).2.Sound :=
    sound.setWidgetSheet text
  rcases setWidgetSheet_after text with same | ⟨home, isHome, after⟩
  · exact sound.answers_unchanged isWindow same isAfter
  · rw [after] at isAfter soundAfter ⊢
    generalize isRestyled :
      app.stylist.setNodeSheet (styleKey id) (app.forest.subtreeKeys id) text = restyled
      at isAfter soundAfter ⊢
    obtain ⟨forest, stylist, settings⟩ :
        ({ app with stylist := restyled }.schedule home none).forest = app.forest ∧ _ ∧ _ :=
      schedule_rest none
    have isDamage : asked app.forest window home none damage = damageAfter := by
      rwa [damage_schedule, isWindow, Option.map_some, Option.some_inj] at isAfter
    have keeps : ∀ kept, damage.Keeps damageAfter kept := by
      rw [← isDamage]
      exact fun kept => asked_keeps app.forest damage kept window home none
    by_cases here : home = window
    · apply sound.answers_whole isWindow settings forest
      · rw [← isDamage, here]
        exact pending_asked (sound.windowOf?_eq isWindow (mem_path_self window)) damage
      · exact keeps
    · apply sound.answers_looked soundAfter settings forest
      · intro other inWindow
        rw [forest] at inWindow
        obtain ⟨sameSettings, appSheet, nodeSheets⟩ := Stylist.setNodeSheet_others (styleKey id)
          (app.forest.subtreeKeys id) text
        rw [isRestyled] at sameSettings appSheet nodeSheets
        rw [stylist, forest]
        apply freshAppearance_of_matchLineage sameSettings
        apply Stylist.matchLineage_congr appSheet
        intro node member
        apply nodeSheets
        rw [sound.linked.lineage_path] at member
        obtain ⟨widget, onPath, rfl⟩ := List.mem_map.mp member
        rw [styleNode_key]
        intro same
        rw [styleKey_injective same] at onPath
        have top := (sound.windows isWindow).2.2
        have below := sound.linked.root_mem_path onPath inWindow top
        rw [sound.windowOf?_eq isWindow below, Option.some_inj] at isHome
        exact here isHome.symm
      · exact keeps

theorem Sound.createWindow_answers (widget : Widget)
    (isAfter : (app.createWindow widget).2.windows.find? window = some damageAfter) :
    ∃ touched, Answers app (app.createWindow widget).2 window damage damageAfter touched := by
  have soundAfter := sound.createWindow widget
  have isNew := push_isNew app.forest widget none
  have apart : (app.forest.push widget none).1 ≠ window := by
    intro same
    rw [same, (sound.windows isWindow).2.1] at isNew
    cases isNew
  have isDamage : damage = damageAfter := by
    rw [Application.createWindow, Table.find?_insert] at isAfter
    rwa [insertWindow, if_neg apart, isWindow, Option.some_inj] at isAfter
  have up : (app.createWindow widget).2.forest.parent? (app.forest.push widget none).1 = none := by
    rw [Application.createWindow, insertWindow, parent?_push, if_pos rfl]
  apply sound.answers_moved soundAfter isAfter (unchangedAway_push widget none) rfl
  · exact fun _ _ _ => rfl
  · rw [isDamage]
    exact Damage.Keeps.refl damageAfter _
  · intro pixel home
    have alone := soundAfter.linked.path_of_root up
    rw [windowOf?, alone] at home
    split at home
    · exact absurd (Option.some_inj.mp home) apart
    · cases home
  · intro pixel parent wasChild
    rw [parent?_push_fresh] at wasChild
    cases wasChild
  · intro parent isChild
    rw [up] at isChild
    cases isChild

theorem Sound.createWidget_answers (parent : WidgetId) (widget : Widget)
    (isAfter : ((Application.createWidget parent widget).run app).2.windows.find? window =
      some damageAfter) :
    ∃ touched, Answers app ((Application.createWidget parent widget).run app).2 window damage
      damageAfter touched := by
  have soundAfter : ((Application.createWidget parent widget).run app).2.Sound :=
    sound.createWidget parent widget
  rcases createWidget_after parent widget with same | ⟨id, grown, inserted, after⟩
  · exact sound.answers_unchanged isWindow same isAfter
  · rw [after] at isAfter soundAfter ⊢
    obtain ⟨forest, stylist, settings⟩ :
        ({ app with forest := grown }.schedule id none).forest = grown ∧ _ ∧ _ := schedule_rest none
    have isDamage : asked grown window id none damage = damageAfter := by
      rwa [damage_schedule, isWindow, Option.map_some, Option.some_inj] at isAfter
    obtain ⟨-, isNew, -⟩ := insert_eq_ok inserted
    obtain ⟨parents, children⟩ := insert_links inserted
    apply sound.answers_moved soundAfter isAfter
    · rw [forest]
      exact unchangedAway_insert inserted
    · exact settings
    · exact fun _ _ _ => by rw [stylist]
    · rw [← isDamage]
      exact asked_keeps grown damage _ window id none
    · intro pixel home _
      rw [← isDamage]
      exact pending_asked (forest ▸ home) damage
    · intro pixel above wasChild
      rw [isNew, parent?_push_fresh] at wasChild
      cases wasChild
    · intro above isChild
      rw [forest, parents, if_pos rfl, Option.some_inj] at isChild
      have last : grown.children above = app.forest.children above ++ [id] := by
        rw [children, if_pos isChild.symm]
      rw [forest]
      exact (sound.linked.insert inserted).siblingsAbove_eq last

theorem Sound.reparent_answers (newParent : Option WidgetId)
    (isAfter : ((Application.reparent id newParent).run app).2.windows.find? window =
      some damageAfter) :
    ∃ touched, Answers app ((Application.reparent id newParent).run app).2 window damage
      damageAfter touched := by
  have soundAfter : ((Application.reparent id newParent).run app).2.Sound :=
    sound.reparent newParent
  rcases reparent_after newParent with same | ⟨widget, after, found, moved, forest, settings,
    stylist, windows⟩
  · exact sound.answers_unchanged isWindow same isAfter
  · have linkedAfter := sound.linked.reparent moved
    obtain ⟨parents, children⟩ := sound.linked.reparent_links moved
    have up : app.forest.parent? id = widget.parent := parent?_of_get? found
    -- A window that stays one has had no parent, and gets none.
    have isDamage : asked after window id none
        (leftBehind app.forest after window id widget.parent widget.geometry damage) =
          damageAfter := by
      rw [windows, isWindow] at isAfter
      split at isAfter
      case isFalse => exact Option.some_inj.mp isAfter
      case isTrue same =>
        rw [← up, same, (sound.windows isWindow).2.2] at isAfter ⊢
        cases newParent with
        | none => exact Option.some_inj.mp isAfter
        | some parent => cases isAfter
    have left := leftBehind_keeps app.forest damage linkedAfter window id widget.parent
      widget.geometry
    have last := fun kept => asked_keeps after
      (leftBehind app.forest after window id widget.parent widget.geometry damage) kept window id
      none
    apply sound.answers_moved soundAfter isAfter
    · rw [forest]
      exact sound.linked.unchangedAway_reparent moved
    · exact settings
    · intro other _ _
      obtain ⟨stats, same⟩ := Stylist.invalidateSubtree_eq (after.subtreeKeys id) app.stylist
      rw [stylist, same]
      exact freshAppearance_of_matchLineage rfl rfl
    · rw [← isDamage, forest]
      apply ((askedIn_keeps after damage _ window widget.parent widget.geometry).trans _).trans
        (last _)
      exact left.mono And.right
    · intro pixel home _
      rw [← isDamage]
      exact pending_asked (forest ▸ home) _
    · intro pixel parent wasChild home away corner shown shownBefore
      rw [forest] at home away corner shown ⊢
      rw [← isDamage]
      apply (last fun _ => True).wants trivial
      apply left.wants away
      exact wants_askedIn sound.linked found wasChild shownBefore corner shown home damage
    · intro parent isChild
      rw [forest, parents, if_pos rfl] at isChild
      have topmost := children parent
      rw [if_pos isChild] at topmost
      rw [forest]
      exact linkedAfter.siblingsAbove_eq topmost

theorem Sound.destroyWidget_answers
    (isAfter : ((Application.destroyWidget id).run app).2.windows.find? window =
      some damageAfter) :
    ∃ touched, Answers app ((Application.destroyWidget id).run app).2 window damage damageAfter
      touched := by
  have soundAfter : ((Application.destroyWidget id).run app).2.Sound := sound.destroyWidget
  rcases destroyWidget_after with same | ⟨widget, removed, after, found, gone, forest, settings,
    stylist, windows⟩
  · exact sound.answers_unchanged isWindow same isAfter
  · have isGone := contains_removed sound.linked gone
    have up : app.forest.parent? id = widget.parent := parent?_of_get? found
    have forgets := forgotten_keeps damage (app.forest.windowOf? id) window removed
    apply sound.answers_moved soundAfter isAfter
    · rw [forest]
      exact sound.linked.unchangedAway_remove gone
    · exact settings
    · intro other live away
      rw [forest] at live ⊢
      rw [stylist]
      exact freshAppearance_remove sound.linked gone
        (Stylist.nodesDestroyed_takenOut (removed.map styleKey) app.stylist) live
    · rw [windows] at isAfter
      cases isParent : widget.parent with
      | none =>
          rw [isParent] at isAfter
          simp only at isAfter
          split at isAfter
          case isTrue => cases isAfter
          case isFalse =>
            rw [isWindow, Option.some_inj] at isAfter
            rw [isAfter]
            exact Damage.Keeps.refl damageAfter _
      | some parent =>
          rw [isParent, isWindow] at isAfter
          simp only [Option.map_some, Option.some_inj] at isAfter
          rw [← isAfter]
          apply (forgets.mono fun away =>
            not_mem_removed sound.linked gone (forest ▸ away.1)).trans
          exact asked_keeps after _ _ window parent _
    · intro pixel _ shown
      have live := contains_of_shownAt shown
      rw [forest, isGone] at live
      cases live
    · intro pixel parent wasChild home away corner shown shownBefore
      rw [forest] at home away corner shown ⊢
      rw [windows, ← up, wasChild, isWindow] at isAfter
      simp only [Option.map_some, Option.some_inj] at isAfter
      rw [← isAfter, ← geometry_of_get? found]
      exact wants_place sound.linked wasChild shownBefore corner shown home _
    · intro parent isChild
      have live := contains_of_parent isChild
      rw [forest, isGone] at live
      cases live

/-! ### All operations -/

/-- Every operation is answered for in every window that is one before and after it. -/
theorem Sound.change_answers (change : Change)
    (isAfter : (change.apply app).windows.find? window = some damageAfter) :
    ∃ touched, Answers app (change.apply app) window damage damageAfter touched := by
  cases change with
  | setAppSheet text => exact sound.setAppSheet_answers isWindow text isAfter
  | setWidgetSheet id text => exact sound.setWidgetSheet_answers isWindow text isAfter
  | createWindow widget => exact sound.createWindow_answers isWindow widget isAfter
  | createWidget parent widget => exact sound.createWidget_answers isWindow parent widget isAfter
  | reparent id newParent => exact sound.reparent_answers isWindow newParent isAfter
  | destroyWidget id => exact sound.destroyWidget_answers isWindow isAfter
  | setGeometry id geometry => exact sound.setGeometry_answers isWindow geometry isAfter
  | setVisible id visible => exact sound.setVisible_answers isWindow visible isAfter
  | setOpaque id isOpaque => exact sound.setOpaque_answers isWindow isOpaque isAfter
  | setText id text => exact sound.setText_answers isWindow text isAfter
  | setPseudoState id mask => exact sound.setPseudoState_answers isWindow mask isAfter
  | advanceAnimation id => exact sound.advanceAnimation_answers isWindow isAfter
  | requestUpdate id rect => exact sound.requestUpdate_answers isWindow rect isAfter

end Operations

end Application

end StyledWidgets
