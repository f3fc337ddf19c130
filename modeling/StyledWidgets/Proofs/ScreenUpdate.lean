/-
Module: StyledWidgets.Proofs.ScreenUpdate
Purpose: No change on the screen is lost: once a window is clean, whatever operations follow, the
  next painting draws all that can be seen at every pixel that shows something else than before.
Main exports: Application.run, Application.Tracks, Application.drawnLayers,
  Application.Reachable.changes_repainted
-/
import StyledWidgets.Proofs.DrawnStack

namespace StyledWidgets

open StyledWidgets.Style

namespace Application

open Forest

variable {first app before after : Application} {id window : WidgetId}
  {damage damageAfter : Damage} {pixel : Point}

/-! ### Runs of operations -/

/-- The application after operations one after the other. -/
def run (app : Application) (changes : List Change) : Application :=
  changes.foldl Change.apply app

/-- What the damage of a window says of all that has happened since a first state: where the window
shows something else than then, the pixel waits. Marks matter only if the window is not requested
as a whole. -/
structure Tracks (first app : Application) (window : WidgetId) (damage : Damage) : Prop where
  unscheduled : damage.scheduled = ∅
  marks : damage.above = [] ∨ ∀ pixel, app.forest.shownAt pixel window = true →
    damage.pending.find? window = some none
  same : ∀ pixel, app.forest.shownAt pixel window = true → app.Waits damage pixel window ∨
    first.visibleStack window pixel = app.visibleStack window pixel

/-- A clean window waits for nothing. -/
theorem not_waits_of_clean (clean : damage.isClean = true) : ¬app.Waits damage pixel window := by
  obtain ⟨pending, scheduled⟩ := Bool.and_eq_true _ _ ▸ clean
  have unwanted : ∀ id, ¬damage.Wants app.forest pixel id := by
    rintro id (⟨rect, found, -⟩ | ⟨region, found, -⟩)
    · have none := List.isEmpty_iff.mp pending
      have member := Table.mem_of_find? found
      rw [none] at member
      cases member
    · have none := List.isEmpty_iff.mp scheduled
      have member := Table.mem_of_find? found
      rw [none] at member
      cases member
  intro asked
  induction asked with
  | here _ wanted => exact unwanted _ wanted
  | through _ _ _ inductionHypothesis => exact inductionHypothesis

theorem Reachable.tracks (reachable : app.Reachable)
    (isWindow : app.windows.find? window = some damage) (clean : damage.isClean = true) :
    Tracks app app window damage where
  unscheduled := by
    obtain ⟨-, scheduled⟩ := Bool.and_eq_true _ _ ▸ clean
    have none := List.isEmpty_iff.mp scheduled
    cases kept : damage.scheduled with
    | mk entries =>
        rw [kept] at none
        subst none
        rfl
  marks := by
    rcases reachable.marksWait window damage isWindow with none | nowhere | ⟨pixel, asked⟩
    · exact Or.inl none
    · right
      intro pixel shown
      rw [← (reachable.sound.windows isWindow).1, nowhere] at shown
      cases shown
    · exact absurd asked (not_waits_of_clean clean)
  same _ _ := Or.inr rfl

theorem Answers.tracks (answers : Answers before after window damage damageAfter id)
    (linked : before.forest.Linked) (linkedAfter : after.forest.Linked)
    (live : after.forest.contains window = true) (top : after.forest.parent? window = none)
    (tracks : Tracks first before window damage) : Tracks first after window damageAfter where
  unscheduled := answers.keeps.scheduled tracks.unscheduled
  marks := by
    rcases tracks.marks with none | whole
    · exact Or.inl (answers.keeps.above none)
    · right
      intro pixel shown
      by_cases same : id = window
      · subst same
        exact answers.asks (mem_path_self id) shown
      · have away : id ∉ after.forest.path window := by
          rw [linkedAfter.path_of_root top, List.mem_singleton]
          exact same
        apply answers.keeps.whole ⟨live, away⟩
        apply whole pixel
        rw [answers.shownAt_window linked linkedAfter live top same, shown]
  same pixel shown := by
    rcases answers.waits_or_same linked linkedAfter top shown with
      waits | ⟨shownBefore, still, sameStack⟩
    · exact Or.inl waits
    · right
      rw [← sameStack]
      exact (tracks.same pixel shownBefore).resolve_left still

/-- As long as a window stays one, its damage says what has happened. -/
theorem Sound.tracks_run (changes : List Change) :
    ∀ {app : Application} {damage : Damage}, app.Sound →
      app.windows.find? window = some damage → Tracks first app window damage →
        (∀ done, done <+: changes → (app.run done).windows.contains window = true) →
          ∃ damageAfter, (app.run changes).windows.find? window = some damageAfter ∧
            (app.run changes).Sound ∧ Tracks first (app.run changes) window damageAfter := by
  induction changes with
  | nil => exact fun sound isWindow tracks _ => ⟨_, isWindow, sound, tracks⟩
  | cons change later inductionHypothesis =>
      intro app damage sound isWindow tracks stays
      have soundAfter := sound.change change
      have stillWindow : (change.apply app).windows.contains window = true :=
        stays [change] ⟨later, rfl⟩
      obtain ⟨damageAfter, isAfter⟩ := Option.isSome_iff_exists.mp stillWindow
      obtain ⟨id, answers⟩ := sound.change_answers isWindow change isAfter
      obtain ⟨-, live, top⟩ := soundAfter.windows isAfter
      apply inductionHypothesis soundAfter isAfter
      · exact answers.tracks sound.linked soundAfter.linked live top tracks
      · intro done isPrefix
        exact stays (change :: done) (List.cons_prefix_cons.mpr ⟨rfl, isPrefix⟩)

/-! ### What a painting draws -/

/-- The layer that a command draws. -/
def commandLayer (app : Application) (command : DrawCommand) : Layer where
  widget := command.widget
  windowRect := command.windowRect
  isOpaque := app.forest.isOpaque command.widget
  text := command.text
  frame := command.frame
  appearance := command.style.appearance?

/-- The layers that commands draw at a pixel, the lowest first. -/
def drawnLayers (app : Application) (log : List DrawCommand) (pixel : Point) : List Layer :=
  (log.filter fun command => pixel ∈ command.clip).map app.commandLayer

theorem Sound.drawnLayers_eq (sound : app.Sound) {items : List DrawItem}
    {log : List DrawCommand} (draws : List.Forall₂ (Draws app.forest app.IsFresh) items log)
    (places : ∀ item ∈ items, app.forest.contains item.widget = true ∧
      item.windowRect = app.forest.windowRect item.widget) :
    app.drawnLayers log pixel = (Damage.drawnStack items pixel).map app.layer := by
  rw [drawnLayers, Damage.drawnStack]
  induction draws with
  | nil => rfl
  | @cons item command items log draw _ inductionHypothesis =>
      have further := inductionHypothesis fun other member =>
        places other (List.mem_cons_of_mem item member)
      obtain ⟨live, place⟩ := places item (List.mem_cons_self ..)
      have sameLayer : app.commandLayer command = app.layer item.widget := by
        rw [commandLayer, layer, draw.widget, draw.windowRect, place, draw.text, draw.frame,
          draw.style, sound.freshStylist_resolve live]
      rw [List.filter_cons, List.filter_cons, draw.clip]
      split
      case isTrue => rw [List.map_cons, List.map_cons, List.map_cons, sameLayer, further]
      case isFalse => exact further

/-- A painting that succeeds draws all that is seen at a pixel that waits, and draws it last. -/
theorem Sound.visibleStack_suffix (sound : app.Sound)
    (isWindow : app.windows.find? window = some damage) (unscheduled : damage.scheduled = ∅)
    (marks : damage.above = [] ∨ damage.pending.find? window = some none)
    (waits : app.Waits damage pixel window)
    (apart : app.forest.NeverOverlapping app.settings.repaint) {σ : Type} (backend : Backend σ)
    (state : σ × List DrawCommand) {report : PaintReport}
    (paints : (app.paintWindow backend.watched window state).1 = .ok report) :
    app.visibleStack window pixel <:+
      app.drawnLayers (app.paintWindow backend.watched window state).2.2.2 pixel := by
  obtain ⟨root, -, top⟩ := sound.windows isWindow
  rw [← root] at marks waits top
  have painted := (Damage.paint_watched backend resolvesTo_fresh
    (damage.compute app.forest app.settings.repaint) app.settings.retry.maxAttempts
    ⟨app.stylist, state⟩ sound.stillCoherent).2
  have seen := Damage.seen_suffix_drawn sound.linked apart top unscheduled marks waits
    (fun id => (rfl : (app.layer id).isOpaque = app.forest.isOpaque id))
  rw [Application.paintWindow, isWindow] at paints ⊢
  simp only at paints ⊢
  generalize (damage.compute app.forest app.settings.repaint).paint app.forest backend.watched
    app.settings.retry.maxAttempts ⟨app.stylist, state⟩ = outcome at painted paints ⊢
  obtain ⟨answer, left, final⟩ := outcome
  cases answer with
  | error cause => cases paints
  | ok answer =>
      rcases painted answer rfl with ⟨idle, -⟩ | ⟨-, -, draws⟩
      · -- Something that waits is scheduled, so there is something to draw.
        obtain ⟨id, ordered⟩ :=
          Damage.exists_orderedAt_of_asked sound.linked top unscheduled waits
        have dirty := Damage.mem_dirtyRegion (Damage.compute_litAt (Or.inr ordered))
        exact absurd dirty (Region.not_mem_of_isEmpty idle pixel)
      · rw [sound.drawnLayers_eq draws, visibleStack, ← root]
        · exact seen
        · intro item member
          refine ⟨Damage.contains_of_mem_plan member,
            Damage.windowRect_of_mem_plan ?_ sound.linked member⟩
          rwa [Damage.compute_root]

/-- Once a window is clean, no change of what is seen in it is lost: after any operations during
which it stays a window, the next painting that succeeds draws, at every pixel where the window
shows something else than before, all that is seen there now, and nothing after it. -/
theorem Reachable.changes_repainted (reachable : app.Reachable)
    (isWindow : app.windows.find? window = some damage) (clean : damage.isClean = true)
    (changes : List Change)
    (stays : ∀ done, done <+: changes → (app.run done).windows.contains window = true)
    (apart : (app.run changes).forest.NeverOverlapping (app.run changes).settings.repaint)
    {σ : Type} (backend : Backend σ) (state : σ × List DrawCommand) {report : PaintReport}
    (paints : ((app.run changes).paintWindow backend.watched window state).1 = .ok report)
    (pixel : Point)
    (changed : app.visibleStack window pixel ≠ (app.run changes).visibleStack window pixel) :
    (app.run changes).visibleStack window pixel <:+
      (app.run changes).drawnLayers
        ((app.run changes).paintWindow backend.watched window state).2.2.2 pixel := by
  obtain ⟨damageAfter, isAfter, sound, tracks⟩ :=
    reachable.sound.tracks_run changes isWindow (reachable.tracks isWindow clean) stays
  cases shown : (app.run changes).forest.shownAt pixel window with
  | false =>
      rw [visibleStack, sound.linked.stackAt_eq_nil shown]
      exact List.nil_suffix
  | true =>
      have waits := (tracks.same pixel shown).resolve_right changed
      have marks := tracks.marks.imp_right fun whole => whole pixel shown
      exact sound.visibleStack_suffix isAfter tracks.unscheduled marks waits apart backend state
        paints

end Application

end StyledWidgets
