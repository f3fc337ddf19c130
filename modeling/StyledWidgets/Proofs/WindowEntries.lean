/-
Module: StyledWidgets.Proofs.WindowEntries
Purpose: Which widgets the damage of a window speaks of. Windows are the widgets without a parent,
  and in every state that operations can lead to, each widget that a window has a request, a region
  or a mark for is there and belongs to that window.
Main exports: Damage.Mentions, Damage.mentions_compute, Application.Tidy,
  Application.Sound.change_tidy, Application.Reachable.windows_tidy
-/
import StyledWidgets.Proofs.ScreenMarks

namespace StyledWidgets

/-! ### Widgets and their windows -/

namespace Forest

variable {forest after : Forest} {id other window : WidgetId}

/-- The window of a widget is the widget without a parent on its path. -/
theorem Linked.windowOf?_eq_some_iff (linked : forest.Linked) :
    forest.windowOf? id = some window ↔
      forest.contains id = true ∧ window ∈ forest.path id ∧ forest.parent? window = none := by
  rw [windowOf?]
  split
  case isTrue live => simp only [live, true_and, linked.getLast?_path_iff]
  case isFalse missing => simp only [missing, false_and, reduceCtorEq, Bool.false_eq_true]

theorem contains_of_windowOf? (home : forest.windowOf? id = some window) :
    forest.contains id = true := by
  rw [windowOf?] at home
  split at home
  case isTrue live => exact live
  case isFalse => cases home

/-- Whoever is above a widget belongs to the same window. -/
theorem Linked.windowOf?_above (linked : forest.Linked)
    (home : forest.windowOf? other = some window) (above : id ∈ forest.path other) :
    forest.windowOf? id = some window := by
  obtain ⟨live, inWindow, top⟩ := linked.windowOf?_eq_some_iff.mp home
  exact linked.windowOf?_eq_some_iff.mpr
    ⟨linked.contains_of_mem_path live above, linked.root_mem_path above inWindow top, top⟩

theorem windowOf?_congr (contains : after.contains id = forest.contains id)
    (path : after.path id = forest.path id) : after.windowOf? id = forest.windowOf? id := by
  rw [windowOf?, windowOf?, contains, path]

/-- A forest with more widgets leaves those that were there in their windows. -/
theorem Linked.windowOf?_grown (linked : forest.Linked) (linkedAfter : after.Linked)
    (stays : ∀ {other}, forest.contains other = true → after.contains other = true)
    (parents : ∀ {other}, forest.contains other = true →
      after.parent? other = forest.parent? other)
    (home : forest.windowOf? id = some window) : after.windowOf? id = some window := by
  have live := contains_of_windowOf? home
  rw [← home]
  apply windowOf?_congr
  · rw [live, stays live]
  · exact linked.path_congr linkedAfter fun widget member =>
      parents (linked.contains_of_mem_path live member)

theorem contains_push {widget : Widget} {parent : Option WidgetId} :
    (forest.push widget parent).2.contains other = true ↔
      other = (forest.push widget parent).1 ∨ forest.contains other = true := by
  rw [contains, get?_push]
  split
  case isTrue same => simp only [same, Option.isSome_some, true_or]
  case isFalse apart => simp only [apart, false_or, contains]

theorem ne_push_of_contains {widget : Widget} {parent : Option WidgetId}
    (live : forest.contains other = true) : other ≠ (forest.push widget parent).1 := by
  intro same
  rw [contains, same, get?_push_fresh] at live
  cases live

theorem contains_insert {parent : WidgetId} {widget : Widget}
    (inserted : forest.insert (some parent) widget = .ok (id, after)) :
    after.contains other = true ↔ other = id ∨ forest.contains other = true := by
  obtain ⟨-, isNew, shape⟩ := insert_eq_ok inserted
  rw [shape, attach, contains_adjust, contains_push, ← isNew]

/-- A widget that is neither the changed one nor below it stays in its window. -/
theorem AlikeAway.windowOf? (alike : AlikeAway forest after id) (linked : forest.Linked)
    (linkedAfter : after.Linked) (live : after.contains other = true)
    (away : id ∉ after.path other) : after.windowOf? other = forest.windowOf? other := by
  apply windowOf?_congr
  · rw [live, alike.contains live away]
  · exact (alike.path linked linkedAfter live away).symm

/-- A widget that is left after a removal stays in its window. -/
theorem Linked.windowOf?_remove (linked : forest.Linked) {removed : List WidgetId}
    (gone : forest.remove id = .ok (removed, after))
    (home : forest.windowOf? other = some window) (outside : id ∉ forest.path other) :
    after.windowOf? other = some window := by
  have live := (Application.contains_remove linked gone).mpr
    ⟨contains_of_windowOf? home, outside⟩
  rw [(linked.unchangedAway_remove gone).toAlikeAway.windowOf? linked (linked.remove gone) live
    (Application.not_mem_path_removed linked gone live), home]

/-- A move takes nobody below the widget that moves. -/
theorem Linked.mem_path_of_reparent (linked : forest.Linked) {newParent : Option WidgetId}
    (moved : forest.reparent id newParent = .ok after) (below : id ∈ after.path other) :
    id ∈ forest.path other := by
  by_contra outside
  have same : after.path other = forest.path other := by
    apply linked.path_congr (linked.reparent moved)
    intro widget member
    rw [(linked.reparent_links moved).1, if_neg fun same : widget = id => outside (same ▸ member)]
  exact outside (same ▸ below)

end Forest

/-! ### What damage speaks of -/

namespace Damage

open Forest

variable {damage : Damage} {forest : Forest} {settings : RepaintSettings} {id other : WidgetId}

/-- There is a request for the widget, a scheduled region of it, or a mark above scheduled
widgets. -/
def Mentions (damage : Damage) (id : WidgetId) : Prop :=
  id ∈ damage.pending.keys ∨ id ∈ damage.scheduled.keys ∨ id ∈ damage.above

theorem not_mentions_new (root id : WidgetId) : ¬(new root).Mentions id := by
  intro mentioned
  rcases mentioned with asked | scheduled | marked
  · cases asked
  · cases scheduled
  · cases marked

theorem mentions_requestUpdate {rect : Option Rect} :
    (damage.requestUpdate id rect).Mentions other ↔ other = id ∨ damage.Mentions other := by
  simp only [requestUpdate, Mentions, Table.mem_keys_insert, or_assoc]

theorem mentions_forget :
    (damage.forget id).Mentions other ↔ damage.Mentions other ∧ other ≠ id := by
  simp only [forget, Mentions, Table.mem_keys_erase, List.mem_filter, decide_eq_true_eq,
    or_and_right]

theorem mentions_forgetAll (ids : List WidgetId) :
    ∀ damage : Damage,
      (ids.foldl forget damage).Mentions other ↔ damage.Mentions other ∧ other ∉ ids := by
  induction ids with
  | nil => simp
  | cons id later inductionHypothesis =>
      intro damage
      rw [List.foldl_cons, inductionHypothesis, mentions_forget, List.mem_cons, not_or, and_assoc]

theorem mentions_of_clear (mentioned : damage.clear.Mentions id) : damage.Mentions id := by
  rcases mentioned with asked | scheduled | marked
  · exact Or.inl asked
  · cases scheduled
  · cases marked

/-- Only widgets of the path that is walked are marked. -/
theorem mem_of_mem_markAbove {path : List WidgetId} :
    ∀ {marked : List WidgetId}, id ∈ markAbove path marked → id ∈ marked ∨ id ∈ path := by
  induction path with
  | nil => exact fun member => Or.inl member
  | cons ancestor further inductionHypothesis =>
      intro marked member
      rw [markAbove] at member
      split at member
      case isTrue => exact Or.inl member
      case isFalse =>
        rcases inductionHypothesis member with before | above
        · rcases List.mem_cons.mp before with same | already
          · exact Or.inr (same ▸ List.mem_cons_self ..)
          · exact Or.inl already
        · exact Or.inr (List.mem_cons_of_mem _ above)

theorem mentions_of_schedule {region : Region}
    (mentioned : (damage.schedule forest settings id region).Mentions other) :
    damage.Mentions other ∨ other ∈ forest.path id := by
  rcases mentioned with asked | scheduled | marked
  · exact Or.inl (Or.inl asked)
  · rcases Table.mem_keys_insert.mp scheduled with rfl | already
    · exact Or.inr (mem_path_self other)
    · exact Or.inl (Or.inr (Or.inl already))
  · rcases mem_of_mem_markAbove marked with already | above
    · exact Or.inl (Or.inr (Or.inr already))
    · exact Or.inr (List.mem_of_mem_tail above)

theorem mentions_of_scheduleAll (orders : List (WidgetId × Region)) :
    ∀ {damage : Damage}, (damage.scheduleAll forest settings orders).Mentions other →
      damage.Mentions other ∨ ∃ order ∈ orders, other ∈ forest.path order.1 := by
  induction orders with
  | nil => exact fun mentioned => Or.inl mentioned
  | cons order later inductionHypothesis =>
      intro damage mentioned
      rcases inductionHypothesis mentioned with before | ⟨further, member, above⟩
      · rcases mentions_of_schedule before with already | above
        · exact Or.inl already
        · exact Or.inr ⟨order, List.mem_cons_self .., above⟩
      · exact Or.inr ⟨further, List.mem_cons_of_mem _ member, above⟩

end Damage

/-! ### Orders stay in the window -/

/-- All orders are for widgets of a window. -/
def InWindow (forest : Forest) (root : WidgetId) (orders : List (WidgetId × Region)) : Prop :=
  ∀ order ∈ orders, root ∈ forest.path order.1

section Orders

open Forest

variable {forest : Forest} {settings : RepaintSettings} {root id : WidgetId}

theorem InWindow.append {first later : List (WidgetId × Region)}
    (before : InWindow forest root first) (after : InWindow forest root later) :
    InWindow forest root (first ++ later) := by
  intro order member
  rcases List.mem_append.mp member with isFirst | isLater
  · exact before order isFirst
  · exact after order isLater

theorem inWindow_siblingOrders {origin : Point} {siblings : List WidgetId}
    (inside : ∀ sibling ∈ siblings, root ∈ forest.path sibling) :
    ∀ behind : Region, InWindow forest root (siblingOrders forest origin siblings behind).2 := by
  induction siblings with
  | nil =>
      intro behind order member
      cases member
  | cons sibling lower inductionHypothesis =>
      intro behind
      have further := inductionHypothesis fun other member =>
        inside other (List.mem_cons_of_mem _ member)
      rw [siblingOrders]
      simp only
      split
      case isTrue => exact further behind
      case isFalse =>
        intro order member
        rcases List.mem_cons.mp member with same | isLower
        · rw [same]
          exact inside sibling (List.mem_cons_self ..)
        · exact further _ order isLower

/-- What lies below a step of a path is asked of siblings, which have the same parent. -/
theorem inWindow_belowOrders (linked : forest.Linked) {level : Level}
    (inside : root ∈ forest.path level.parent) (behind : Region) :
    InWindow forest root (belowOrders forest settings level behind).2 := by
  rw [belowOrders]
  split
  case isTrue =>
    intro order member
    cases member
  case isFalse =>
    apply inWindow_siblingOrders
    intro sibling member
    exact linked.mem_path_iff.mpr
      (Or.inr ⟨level.parent, linked.parent_of_siblingBelow member, inside⟩)

theorem inWindow_behindOrders (linked : forest.Linked) (levels : List Level)
    (inside : ∀ level ∈ levels, root ∈ forest.path level.parent) :
    ∀ behind : Region, InWindow forest root (behindOrders forest settings levels behind) := by
  induction levels with
  | nil =>
      intro behind order member
      cases member
  | cons level outer inductionHypothesis =>
      intro behind
      have here := inside level (List.mem_cons_self ..)
      have siblings : InWindow forest root (belowOrders forest settings level behind).2 :=
        inWindow_belowOrders linked here behind
      rw [behindOrders]
      split
      case isTrue => exact siblings
      case isFalse =>
        apply siblings.append
        intro order member
        rcases List.mem_cons.mp member with same | further
        · rw [same]
          exact here
        · split at further
          case isTrue => cases further
          case isFalse =>
            exact inductionHypothesis (fun other isOuter =>
              inside other (List.mem_cons_of_mem _ isOuter)) _ order further

/-- Siblings above a step of a path are noted, which have the same parent. -/
theorem inWindow_climb (linked : forest.Linked) (levels : List Level)
    (inside : ∀ level ∈ levels, root ∈ forest.path level.parent) :
    ∀ {region : Region} {noted : List (WidgetId × Region)}
      {found : Region × List (WidgetId × Region)}, InWindow forest root noted →
        climb forest settings levels region noted = some found →
          InWindow forest root found.2 := by
  induction levels with
  | nil =>
      intro region noted found already arrived
      rw [climb, Option.some_inj] at arrived
      rw [← arrived]
      exact already
  | cons level outer inductionHypothesis =>
      intro region noted found already arrived
      have further := @inductionHypothesis fun other isOuter =>
        inside other (List.mem_cons_of_mem _ isOuter)
      rw [climb] at arrived
      simp only at arrived
      split at arrived
      case isTrue => cases arrived
      case isFalse =>
        split at arrived
        case isTrue => exact further already arrived
        case isFalse =>
          split at arrived
          case isTrue => cases arrived
          case isFalse =>
            apply further _ arrived
            apply already.append
            intro order member
            simp only [seenThrough, List.mem_filterMap, List.mem_filter] at member
            obtain ⟨sibling, ⟨isAbove, -⟩, isNoted⟩ := member
            split at isNoted
            case isTrue => cases isNoted
            case isFalse =>
              rw [← Option.some_inj.mp isNoted]
              exact linked.mem_path_iff.mpr (Or.inr ⟨level.parent,
                linked.parent_of_siblingAbove isAbove, inside level (List.mem_cons_self ..)⟩)

/-- A request is answered with regions of widgets of the window. -/
theorem inWindow_requestOrders (linked : forest.Linked) (rect : Option Rect) :
    InWindow forest root (requestOrders forest settings root id rect) := by
  have nothing : InWindow forest root [] := by
    intro order member
    cases member
  rw [requestOrders]
  split
  case isTrue => exact nothing
  case isFalse last =>
    obtain ⟨inside, top⟩ := linked.getLast?_path_iff.mp (Classical.not_not.mp last)
    have steps : ∀ level ∈ forest.levels (forest.path id), root ∈ forest.path level.parent := by
      intro level member
      obtain ⟨onPath, up, -⟩ := linked.mem_levels_iff.mp member
      exact linked.root_mem_path (linked.parent_mem_path onPath up) inside top
    split
    case isTrue => exact nothing
    case isFalse =>
      split
      case isTrue => exact nothing
      case isFalse =>
        rw [visibleOrders]
        split
        case h_1 => exact nothing
        case h_2 region noted arrived =>
          have seen : InWindow forest root noted := inWindow_climb linked _ steps nothing arrived
          intro order member
          rcases List.mem_append.mp member with first | behind
          · rcases List.mem_cons.mp first with same | through
            · rw [same]
              exact inside
            · obtain ⟨entry, isNoted, rfl⟩ := List.mem_map.mp (List.mem_filter.mp through).1
              exact seen entry isNoted
          · split at behind
            case isTrue => cases behind
            case isFalse => exact inWindow_behindOrders linked _ steps region order behind

/-- Requests that are turned into regions speak of widgets of the window. -/
theorem Damage.mentions_of_compute (linked : forest.Linked) {damage : Damage}
    (mentioned : (damage.compute forest settings).Mentions id)
    (top : forest.parent? damage.root = none) :
    damage.Mentions id ∨ damage.root ∈ forest.path id := by
  rw [compute_eq_scheduleAll] at mentioned
  rcases mentions_of_scheduleAll _ mentioned with before | ⟨order, member, above⟩
  · left
    rcases before with asked | scheduled | marked
    · cases asked
    · exact Or.inr (Or.inl scheduled)
    · exact Or.inr (Or.inr marked)
  · right
    obtain ⟨request, -, isAsked⟩ := List.mem_flatMap.mp member
    exact linked.root_mem_path above (inWindow_requestOrders linked request.2 order isAsked) top

end Orders

/-! ### Tidy windows -/

namespace Application

open Forest

variable {app after : Application} {id other window : WidgetId} {damage : Damage}

/-- Every widget without a parent is a window, and a window speaks of its own widgets only. -/
structure Tidy (app : Application) : Prop where
  roots : ∀ {id : WidgetId}, app.forest.contains id = true → app.forest.parent? id = none →
    ∃ damage, app.windows.find? id = some damage
  entries : ∀ {window id : WidgetId} {damage : Damage},
    app.windows.find? window = some damage → damage.Mentions id →
      app.forest.windowOf? id = some window

theorem tidy_new (settings : Settings) : (new settings).Tidy where
  roots live := by cases live
  entries found := by cases found

/-- Windows stay tidy if they stay windows, no widget becomes one, and what each of them speaks of
in the end belongs to it. -/
theorem Tidy.mapped (tidy : app.Tidy) {change : WidgetId → Damage → Damage}
    (windows : ∀ window,
      after.windows.find? window = (app.windows.find? window).map (change window))
    (roots : ∀ {id}, after.forest.contains id = true → after.forest.parent? id = none →
      app.forest.contains id = true ∧ app.forest.parent? id = none)
    (entries : ∀ {window id damage}, app.windows.find? window = some damage →
      (change window damage).Mentions id → after.forest.windowOf? id = some window) :
    after.Tidy where
  roots live top := by
    obtain ⟨liveBefore, topBefore⟩ := roots live top
    obtain ⟨damage, found⟩ := tidy.roots liveBefore topBefore
    exact ⟨_, by rw [windows, found]; rfl⟩
  entries found mentioned := by
    rw [windows, Option.map_eq_some_iff] at found
    obtain ⟨damage, isDamage, rfl⟩ := found
    exact entries isDamage mentioned

/-- Windows stay tidy if no widget that belongs to one is taken away or becomes one itself. -/
theorem Tidy.carried (tidy : app.Tidy) (windows : after.windows = app.windows)
    (roots : ∀ {id}, after.forest.contains id = true → after.forest.parent? id = none →
      app.forest.contains id = true ∧ app.forest.parent? id = none)
    (homes : ∀ {id window}, app.forest.windowOf? id = some window →
      after.forest.windowOf? id = some window) : after.Tidy := by
  apply tidy.mapped fun _ => by rw [windows]; exact Option.map_id'.symm
  · exact roots
  · exact fun found mentioned => homes (tidy.entries found mentioned)

/-- What styling does leaves windows tidy. -/
theorem Tidy.styled (tidy : app.Tidy) (windows : after.windows = app.windows)
    (forest : after.forest = app.forest) : after.Tidy := by
  apply tidy.carried windows
  · intro id live top
    rw [forest] at live top
    exact ⟨live, top⟩
  · intro id window home
    rw [forest, home]

/-- What a widget says of itself leaves windows tidy. -/
theorem Tidy.adjusted (tidy : app.Tidy) (linked : app.forest.Linked) {change : Widget → Widget}
    (windows : after.windows = app.windows) (forest : after.forest = app.forest.adjust id change)
    (parent : ∀ widget, (change widget).parent = widget.parent)
    (children : ∀ widget, (change widget).children = widget.children) : after.Tidy := by
  apply tidy.carried windows
  · intro other live top
    rw [forest, contains_adjust] at live
    rw [forest, parent?_adjust parent] at top
    exact ⟨live, top⟩
  · intro other window home
    rw [forest, ← home]
    apply windowOf?_congr
    · exact contains_adjust id other change
    · exact linked.path_congr (linked.adjust parent children) fun _ _ => parent?_adjust parent _

/-- A request speaks of its widget in the window of the widget. -/
theorem windowOf?_of_asked {forest : Forest} {rect : Option Rect}
    (mentioned : (asked forest window id rect damage).Mentions other) :
    forest.windowOf? other = some window ∨ damage.Mentions other := by
  rw [asked] at mentioned
  split at mentioned
  case isTrue home =>
    rcases Damage.mentions_requestUpdate.mp mentioned with same | before
    · exact Or.inl (same ▸ home)
    · exact Or.inr before
  case isFalse => exact Or.inr mentioned

theorem windowOf?_of_askedIn {forest : Forest} {parent : Option WidgetId} {rect : Rect}
    (mentioned : (askedIn forest window parent rect damage).Mentions other) :
    forest.windowOf? other = some window ∨ damage.Mentions other := by
  cases parent with
  | none => exact Or.inr mentioned
  | some parent => exact windowOf?_of_asked mentioned

/-- What a window is made to forget it does not speak of. -/
theorem mentions_of_forgotten {home : Option WidgetId} {ids : List WidgetId}
    (mentioned : (forgotten home window ids damage).Mentions other) :
    damage.Mentions other ∧ (home = some window → other ∉ ids) := by
  rw [forgotten] at mentioned
  split at mentioned
  case isTrue =>
    obtain ⟨before, kept⟩ := (Damage.mentions_forgetAll ids damage).mp mentioned
    exact ⟨before, fun _ => kept⟩
  case isFalse apart => exact ⟨mentioned, fun home => absurd home apart⟩

theorem Tidy.schedule (tidy : app.Tidy) (id : WidgetId) (rect : Option Rect) :
    (app.schedule id rect).Tidy := by
  obtain ⟨forest, -, -⟩ : (app.schedule id rect).forest = app.forest ∧ _ ∧ _ := schedule_rest rect
  apply tidy.mapped fun _ => damage_schedule rect
  · intro other live top
    rw [forest] at live top
    exact ⟨live, top⟩
  · intro window other damage found mentioned
    rw [forest]
    rcases windowOf?_of_asked mentioned with home | before
    · exact home
    · exact tidy.entries found before

theorem Tidy.scheduleIn (tidy : app.Tidy) (parent : Option WidgetId) (rect : Rect) :
    (app.scheduleIn parent rect).Tidy := by
  cases parent with
  | none => exact tidy
  | some parent => exact tidy.schedule parent (some rect)

/-- The same after the place of the widget has been asked for. -/
theorem Tidy.leftAdjusted (tidy : app.Tidy) (linked : app.forest.Linked)
    {change : Widget → Widget} (keepsParent : ∀ widget, (change widget).parent = widget.parent)
    (keepsChildren : ∀ widget, (change widget).children = widget.children)
    (parent : Option WidgetId) (place : Rect) :
    { app.scheduleIn parent place with forest := app.forest.adjust id change }.Tidy := by
  obtain ⟨forest, -, -⟩ : (app.scheduleIn parent place).forest = app.forest ∧ _ ∧ _ :=
    scheduleIn_rest parent place
  rw [← forest] at linked ⊢
  exact (tidy.scheduleIn parent place).adjusted linked rfl rfl keepsParent keepsChildren

/-! ### Operations -/

theorem Tidy.setWidgetSheet (tidy : app.Tidy) (text : String) :
    ((Application.setWidgetSheet id text).run app).2.Tidy := by
  rcases setWidgetSheet_after text with same | ⟨home, -, after⟩
  · rw [same]
    exact tidy
  · rw [after]
    apply Tidy.schedule
    exact tidy.styled rfl rfl

section Operations

variable (sound : app.Sound) (tidy : app.Tidy)

include sound tidy

theorem Sound.setAppSheet_tidy (text : String) : (app.setAppSheet text).Tidy := by
  apply tidy.mapped fun _ => damage_setAppSheet text
  · exact fun live top => ⟨live, top⟩
  · intro window id damage found mentioned
    rcases Damage.mentions_requestUpdate.mp mentioned with same | before
    · obtain ⟨-, live, top⟩ := sound.windows found
      rw [same]
      exact Application.windowOf?_eq sound.linked live top (mem_path_self window)
    · exact tidy.entries found before

/-- A new window waits to be painted as a whole, and nothing else does in it. -/
theorem Sound.createWindow_tidy (widget : Widget) : (app.createWindow widget).2.Tidy := by
  have linked := sound.linked.insertWindow widget
  have stays : ∀ {id window}, app.forest.windowOf? id = some window →
      (app.forest.insertWindow widget).2.windowOf? id = some window := by
    intro id window home
    apply sound.linked.windowOf?_grown linked _ _ home
    · exact fun live => contains_push.mpr (Or.inr live)
    · intro other live
      rw [insertWindow, parent?_push, if_neg (ne_push_of_contains live)]
  constructor
  case roots =>
    intro id live top
    rw [Application.createWindow, Table.find?_insert]
    split
    case isTrue => exact ⟨_, rfl⟩
    case isFalse apart =>
      rcases contains_push.mp live with same | before
      · exact absurd same.symm apart
      · apply tidy.roots before
        rwa [Application.createWindow, insertWindow, parent?_push,
          if_neg (ne_push_of_contains before)] at top
  case entries =>
    intro window id damage found mentioned
    rw [Application.createWindow, Table.find?_insert] at found
    split at found
    case isFalse => exact stays (tidy.entries found mentioned)
    case isTrue isNew =>
      rw [← Option.some_inj.mp found] at mentioned
      rcases Damage.mentions_requestUpdate.mp mentioned with same | before
      · rw [same, ← isNew]
        apply Application.windowOf?_eq linked
        · exact contains_push.mpr (Or.inl rfl)
        · rw [insertWindow, parent?_push, if_pos rfl]
        · exact mem_path_self _
      · exact absurd before (Damage.not_mentions_new _ _)

theorem Sound.createWidget_tidy (parent : WidgetId) (widget : Widget) :
    ((Application.createWidget parent widget).run app).2.Tidy := by
  rcases createWidget_after parent widget with same | ⟨id, forest, inserted, after⟩
  · rw [same]
    exact tidy
  · rw [after]
    apply Tidy.schedule
    have parents := (insert_links inserted).1
    obtain ⟨-, isNew, -⟩ := insert_eq_ok inserted
    refine tidy.carried rfl ?_ ?_
    · intro other live top
      rcases (contains_insert inserted).mp live with rfl | before
      · rw [parents, if_pos rfl] at top
        cases top
      · rw [parents, if_neg (isNew ▸ ne_push_of_contains before)] at top
        exact ⟨before, top⟩
    · intro other window home
      apply sound.linked.windowOf?_grown (sound.linked.insert inserted) _ _ home
      · exact fun live => (contains_insert inserted).mpr (Or.inr live)
      · intro above live
        rw [parents, if_neg (isNew ▸ ne_push_of_contains live)]

/-- A widget that is left behind in a window has not moved, or has moved within the window. -/
theorem Sound.windowOf?_of_leftBehind {newParent : Option WidgetId} {forest : Forest}
    {parent : Option WidgetId} {place : Rect}
    (moved : app.forest.reparent id newParent = .ok forest)
    (found : app.windows.find? window = some damage)
    (mentioned : (leftBehind app.forest forest window id parent place damage).Mentions other) :
    forest.windowOf? other = some window := by
  have linked := sound.linked.reparent moved
  have alike := (sound.linked.unchangedAway_reparent moved).toAlikeAway
  -- Whoever is below the moved widget has gone with it, everybody else has kept the window.
  have carried : app.forest.windowOf? other = some window →
      forest.windowOf? other = some window ∨
        id ∈ forest.path other ∧ app.forest.windowOf? id = some window := by
    intro home
    by_cases below : id ∈ forest.path other
    · have above := sound.linked.mem_path_of_reparent moved below
      exact Or.inr ⟨below, sound.linked.windowOf?_above home above⟩
    · left
      rw [alike.windowOf? sound.linked linked _ below, home]
      rw [contains_reparent moved, contains_of_windowOf? home]
  rw [leftBehind] at mentioned
  split at mentioned
  case isTrue sameWindow =>
    rcases windowOf?_of_askedIn mentioned with home | before
    · exact home
    · rcases carried (tidy.entries found before) with home | ⟨below, home⟩
      · exact home
      · rw [sameWindow] at home
        obtain ⟨live, inWindow, top⟩ := linked.windowOf?_eq_some_iff.mp home
        exact Application.windowOf?_eq linked (linked.contains_of_mem_path live inWindow) top
          (linked.mem_path_trans below inWindow)
  case isFalse =>
    obtain ⟨asked, kept⟩ := mentions_of_forgotten mentioned
    rcases windowOf?_of_askedIn asked with home | before
    · exact home
    · rcases carried (tidy.entries found before) with home | ⟨below, home⟩
      · exact home
      · exact absurd (linked.mem_subtree_iff.mpr below) (kept home)

/-- A widget that moves is forgotten where it has been, and becomes a window or stops being one
with its parent. -/
theorem Sound.reparent_tidy (newParent : Option WidgetId) :
    ((Application.reparent id newParent).run app).2.Tidy := by
  rcases reparent_after newParent with same | ⟨widget, forest, isWidget, moved, isForest, -, -,
    windows⟩
  · rw [same]
    exact tidy
  · have up : app.forest.parent? id = widget.parent := parent?_of_get? isWidget
    constructor
    case roots =>
      intro other live top
      rw [isForest, contains_reparent moved] at live
      rw [isForest, (sound.linked.reparent_links moved).1] at top
      rw [windows]
      by_cases same : other = id
      · subst same
        rw [if_pos rfl] at top
        rw [if_pos rfl, top]
        cases isParent : widget.parent with
        | none =>
            obtain ⟨damage, isWindow⟩ := tidy.roots live (up.trans isParent)
            exact ⟨_, by rw [isWindow]; rfl⟩
        | some parent => exact ⟨_, rfl⟩
      · rw [if_neg same] at top
        obtain ⟨damage, isWindow⟩ := tidy.roots live top
        exact ⟨_, by rw [if_neg (Ne.symm same), isWindow]; rfl⟩
    case entries =>
      intro window other damage found mentioned
      rw [isForest]
      rw [windows, Option.map_eq_some_iff] at found
      obtain ⟨kept, isKept, rfl⟩ := found
      rcases windowOf?_of_asked mentioned with home | before
      · exact home
      · have stayed : (app.windows.find? window).map
            (leftBehind app.forest forest window id widget.parent widget.geometry) = some kept →
              forest.windowOf? other = some window := by
          intro left
          obtain ⟨old, isWindow, rfl⟩ := Option.map_eq_some_iff.mp left
          exact sound.windowOf?_of_leftBehind tidy moved isWindow before
        split at isKept
        case isFalse => exact stayed isKept
        case isTrue =>
          split at isKept
          case h_1 =>
            rw [← Option.some_inj.mp isKept] at before
            exact absurd before (Damage.not_mentions_new _ _)
          case h_2 => cases isKept
          case h_3 => exact stayed isKept

/-- What is destroyed is forgotten in its window, or the window goes with it. -/
theorem Sound.destroyWidget_tidy : ((Application.destroyWidget id).run app).2.Tidy := by
  rcases destroyWidget_after with same | ⟨widget, removed, forest, isWidget, gone, isForest, -, -,
    windows⟩
  · rw [same]
    exact tidy
  · have up : app.forest.parent? id = widget.parent := parent?_of_get? isWidget
    constructor
    case roots =>
      intro other live top
      rw [isForest, contains_remove sound.linked gone] at live
      obtain ⟨before, outside⟩ := live
      rw [isForest, (sound.linked.remove_links gone).1, if_neg outside] at top
      obtain ⟨damage, isWindow⟩ := tidy.roots before top
      rw [windows]
      cases widget.parent with
      | some parent => exact ⟨_, by rw [isWindow]; rfl⟩
      | none =>
          have apart : other ≠ id := by
            rintro rfl
            exact outside (mem_path_self other)
          exact ⟨damage, (if_neg apart).trans isWindow⟩
    case entries =>
      intro window other damage found mentioned
      rw [isForest]
      rw [windows] at found
      cases isParent : widget.parent with
      | some parent =>
          rw [isParent] at found
          obtain ⟨old, isWindow, rfl⟩ := Option.map_eq_some_iff.mp found
          rcases windowOf?_of_asked mentioned with home | forgotten
          · exact home
          · obtain ⟨before, kept⟩ := mentions_of_forgotten forgotten
            have home := tidy.entries isWindow before
            apply sound.linked.windowOf?_remove gone home
            intro below
            apply kept (sound.linked.windowOf?_above home below)
            rw [mem_removed_iff sound.linked gone]
            exact below
      | none =>
          rw [isParent] at found
          simp only at found
          split at found
          case isTrue => cases found
          case isFalse apart =>
            have home := tidy.entries found mentioned
            apply sound.linked.windowOf?_remove gone home
            intro below
            have own := Application.windowOf?_eq sound.linked
              (contains_iff.mpr ⟨widget, isWidget⟩) (up.trans isParent) below
            rw [home, Option.some_inj] at own
            exact apart own

theorem Sound.setGeometry_tidy (geometry : Rect) :
    ((Application.setGeometry id geometry).run app).2.Tidy := by
  rcases setGeometry_after geometry with same | ⟨widget, -, after⟩
  · rw [same]
    exact tidy
  · rw [after]
    apply Tidy.schedule
    apply tidy.leftAdjusted sound.linked
    · exact fun _ => rfl
    · exact fun _ => rfl

theorem Sound.setVisible_tidy (visible : Bool) :
    ((Application.setVisible id visible).run app).2.Tidy := by
  rcases setVisible_after visible with same | ⟨widget, -, -, after⟩
  · rw [same]
    exact tidy
  · rw [after]
    cases visible with
    | true =>
        apply Tidy.schedule
        exact tidy.adjusted sound.linked rfl rfl (fun _ => rfl) (fun _ => rfl)
    | false =>
        rw [if_neg Bool.false_ne_true]
        apply tidy.leftAdjusted sound.linked
        · exact fun _ => rfl
        · exact fun _ => rfl

theorem Sound.setOpaque_tidy (isOpaque : Bool) :
    ((Application.setOpaque id isOpaque).run app).2.Tidy := by
  rcases setOpaque_after isOpaque with same | ⟨widget, -, after⟩
  · rw [same]
    exact tidy
  · rw [after]
    apply Tidy.schedule
    exact tidy.adjusted sound.linked rfl rfl (fun _ => rfl) (fun _ => rfl)

theorem Sound.setText_tidy (text : String) :
    ((Application.setText id text).run app).2.Tidy := by
  rcases setText_after text with same | ⟨widget, -, after⟩
  · rw [same]
    exact tidy
  · rw [after]
    apply Tidy.schedule
    exact tidy.adjusted sound.linked rfl rfl (fun _ => rfl) (fun _ => rfl)

theorem Sound.setPseudoState_tidy (mask : Sheet.PseudoMask) :
    ((Application.setPseudoState id mask).run app).2.Tidy := by
  rcases setPseudoState_after mask with same | ⟨widget, -, outcome⟩
  · rw [same]
    exact tidy
  · rcases outcome with ⟨-, after⟩ | ⟨-, after⟩ | after
    · rw [after]
      exact tidy.adjusted sound.linked rfl rfl (fun _ => rfl) (fun _ => rfl)
    · rw [after]
      exact tidy.adjusted sound.linked rfl rfl (fun _ => rfl) (fun _ => rfl)
    · rw [after]
      apply Tidy.schedule
      exact tidy.adjusted sound.linked rfl rfl (fun _ => rfl) (fun _ => rfl)

theorem Sound.advanceAnimation_tidy :
    ((Application.advanceAnimation id).run app).2.Tidy := by
  rcases advanceAnimation_after with same | ⟨widget, -, after | after⟩
  · rw [same]
    exact tidy
  · rw [after]
    exact tidy.styled rfl rfl
  · rw [after]
    apply Tidy.schedule
    exact tidy.adjusted sound.linked rfl rfl (fun _ => rfl) (fun _ => rfl)

theorem Sound.change_tidy (change : Change) : (change.apply app).Tidy := by
  cases change with
  | setAppSheet text => exact sound.setAppSheet_tidy tidy text
  | setWidgetSheet id text => exact tidy.setWidgetSheet text
  | createWindow widget => exact sound.createWindow_tidy tidy widget
  | createWidget parent widget => exact sound.createWidget_tidy tidy parent widget
  | reparent id newParent => exact sound.reparent_tidy tidy newParent
  | destroyWidget id => exact sound.destroyWidget_tidy tidy
  | setGeometry id geometry => exact sound.setGeometry_tidy tidy geometry
  | setVisible id visible => exact sound.setVisible_tidy tidy visible
  | setOpaque id isOpaque => exact sound.setOpaque_tidy tidy isOpaque
  | setText id text => exact sound.setText_tidy tidy text
  | setPseudoState id mask => exact sound.setPseudoState_tidy tidy mask
  | advanceAnimation id => exact sound.advanceAnimation_tidy tidy
  | requestUpdate id rect =>
      rw [Change.apply]
      rcases requestUpdate_after rect with same | after
      · rwa [same]
      · rw [after]
        exact tidy.schedule id rect

/-- A painting, whether it fails or not, adds only widgets of the window that is painted. -/
theorem Sound.paintWindow_tidy {σ : Type} (backend : Backend σ) (window : WidgetId) (state : σ) :
    (app.paintWindow backend window state).2.1.Tidy := by
  rcases paintWindow_after backend window state with same | ⟨damage, isDamage, after⟩
  · rw [same]
    exact tidy
  · rw [after]
    constructor
    case roots =>
      intro id live top
      rw [Table.find?_insert]
      split
      case isTrue => exact ⟨_, rfl⟩
      case isFalse => exact tidy.roots live top
    case entries =>
      intro other id painted found mentioned
      rw [Table.find?_insert] at found
      split at found
      case isFalse => exact tidy.entries found mentioned
      case isTrue same =>
        obtain ⟨root, live, top⟩ := sound.windows isDamage
        rw [← same]
        rw [← Option.some_inj.mp found] at mentioned
        have computed : (damage.compute app.forest app.settings.repaint).Mentions id := by
          rcases Damage.paint_damage backend (damage.compute app.forest app.settings.repaint)
            app.settings.retry.maxAttempts ⟨app.stylist, state⟩ with kept | cleared
          · rwa [kept] at mentioned
          · rw [cleared] at mentioned
            exact Damage.mentions_of_clear mentioned
        rcases Damage.mentions_of_compute sound.linked computed (root ▸ top) with before | below
        · exact tidy.entries isDamage before
        · exact Application.windowOf?_eq sound.linked live top (root ▸ below)

end Operations

/-! ### Runs -/

theorem Reachable.tidy (reachable : Reachable app) : app.Tidy := by
  induction reachable with
  | new settings => exact tidy_new settings
  | change change reachable tidy => exact reachable.sound.change_tidy tidy change
  | @widgetStyle app id _ tidy =>
      rw [widgetStyle_run]
      cases app.forest.get? id with
      | none => exact tidy
      | some widget => exact tidy.styled rfl rfl
  | probeStyle typeName objectName mask _ tidy => exact tidy.styled rfl rfl
  | paintWindow backend window state reachable tidy =>
      exact reachable.sound.paintWindow_tidy tidy backend window state
  | @paintAll app _ backend state reachable tidy =>
      have both : app.Sound ∧ app.Tidy := ⟨reachable.sound, tidy⟩
      refine (@paintEach_induction _ backend (fun app => app.Sound ∧ app.Tidy) ?_ _ app state
        both).2
      exact fun app window state holds => ⟨holds.1.paintWindow backend window state,
        holds.1.paintWindow_tidy holds.2 backend window state⟩

/-- In every state that operations can lead to, the windows are the widgets without a parent, and
whatever a window waits to ask for, to paint or to pass through is a widget that belongs to it. -/
theorem Reachable.windows_tidy (reachable : Reachable app) :
    (∀ id, id ∈ app.windows.keys ↔
      app.forest.contains id = true ∧ app.forest.parent? id = none) ∧
    ∀ window damage, app.windows.find? window = some damage → ∀ id,
      id ∈ damage.pending.keys ∨ id ∈ damage.scheduled.keys ∨ id ∈ damage.above →
        app.forest.contains id = true ∧ app.forest.windowOf? id = some window := by
  have tidy := reachable.tidy
  constructor
  · intro id
    rw [Table.mem_keys_iff]
    constructor
    · intro ⟨damage, isWindow⟩
      exact (reachable.sound.windows isWindow).2
    · intro ⟨live, top⟩
      exact tidy.roots live top
  · intro window damage isWindow id mentioned
    have home := tidy.entries isWindow mentioned
    exact ⟨contains_of_windowOf? home, home⟩

/-- A panel with a label, both waiting to be repainted, that has been made a window. -/
def detachedPanel : Application :=
  let window := Change.apply (new {}) (.createWindow { typeName := "Window" })
  let panel := Change.apply window (.createWidget ⟨0⟩ { typeName := "Panel" })
  let label := Change.apply panel (.createWidget ⟨1⟩ { typeName := "Label" })
  Change.apply label (.reparent ⟨1⟩ none)

theorem windows_tidy_detachedPanel :
    detachedPanel.Reachable ∧ detachedPanel.windows.keys = [⟨0⟩, ⟨1⟩] ∧
      detachedPanel.windows.values.map (fun damage => damage.pending.keys) = [[⟨0⟩], [⟨1⟩]] ∧
      (∀ id, id ∈ detachedPanel.windows.keys ↔
        detachedPanel.forest.contains id = true ∧ detachedPanel.forest.parent? id = none) ∧
      ∀ window damage, detachedPanel.windows.find? window = some damage → ∀ id,
        id ∈ damage.pending.keys ∨ id ∈ damage.scheduled.keys ∨ id ∈ damage.above →
          detachedPanel.forest.contains id = true ∧
            detachedPanel.forest.windowOf? id = some window := by
  have reachable : detachedPanel.Reachable := by
    unfold detachedPanel
    exact .change _ (.change _ (.change _ (.change _ (.new {}))))
  exact ⟨reachable, rfl, rfl, reachable.windows_tidy⟩

end Application

end StyledWidgets
