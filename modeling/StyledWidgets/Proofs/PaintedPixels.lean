/-
Module: StyledWidgets.Proofs.PaintedPixels
Purpose: Which widgets the painting of a window draws at a pixel: those that are shown there at or
  below a widget with that pixel scheduled. A backend that keeps what it was asked to draw observes
  a painting.
Main exports: Damage.Enters, Damage.mem_planWithin_succ, Damage.drawnAt, Damage.drawnAt_plan,
  Damage.drawnAt_plan_of_litAt, Backend.watched, Draws, Damage.paint_watched, drewAt_iff_drawnAt
-/
import StyledWidgets.Proofs.RepaintOrders
import StyledWidgets.Proofs.RepeatedAttempts
import StyledWidgets.Window.Paint

namespace StyledWidgets

open StyledWidgets.Style

namespace Damage

variable {forest : Forest} {damage : Damage} {pixel : Point}

/-! ### The plan of a painting -/

theorem mem_clipOf {inherited : Region} {id : WidgetId} {rect : Rect} :
    pixel ∈ damage.clipOf inherited id rect ↔
      (pixel ∈ inherited ∨ damage.litAt pixel id) ∧ pixel ∈ rect := by
  rw [clipOf, Region.mem_intersectRect]
  refine and_congr_left fun _ => ?_
  simp only [litAt]
  cases damage.region? id with
  | none => simp
  | some own => simp

/-- A child is entered with the region `passed`: with what is drawn of its parent if it is scheduled
itself or meets that, else with nothing if it is marked. -/
inductive Enters (damage : Damage) (clip : Region) (child : WidgetId) (rect : Rect) :
    Region → Prop
  | met (meets : ((damage.region? child).isSome || clip.intersectsRect rect) = true) :
      Enters damage clip child rect clip
  | marked (misses : ¬((damage.region? child).isSome || clip.intersectsRect rect) = true)
      (above : damage.isAbove child = true) : Enters damage clip child rect Region.empty

/-- Nothing but what is drawn of the parent reaches a child. -/
theorem Enters.mem {clip passed : Region} {child : WidgetId} {rect : Rect}
    (enters : damage.Enters clip child rect passed) (inherits : pixel ∈ passed) : pixel ∈ clip := by
  cases enters with
  | met => exact inherits
  | marked => exact absurd inherits (Region.not_mem_empty pixel)

private theorem mem_entered_iff {clip : Region} {child : WidgetId} {rect : Rect}
    {plan : Region → List DrawItem} {item : DrawItem} :
    item ∈ (if (damage.region? child).isSome || clip.intersectsRect rect then plan clip
        else if damage.isAbove child then plan Region.empty else []) ↔
      ∃ passed, damage.Enters clip child rect passed ∧ item ∈ plan passed := by
  constructor
  · intro planned
    split at planned
    case isTrue meets => exact ⟨clip, .met meets, planned⟩
    case isFalse misses =>
      split at planned
      case isTrue above => exact ⟨Region.empty, .marked misses above, planned⟩
      case isFalse => exact absurd planned List.not_mem_nil
  · rintro ⟨passed, enters, planned⟩
    cases enters with
    | met meets => rwa [if_pos meets]
    | marked misses above => rwa [if_neg misses, if_pos above]

/-- What is planned for a widget is what is drawn of itself, or is planned for a child that is
entered. -/
theorem mem_planWithin_succ {depth : Nat} {id : WidgetId} {rect : Rect} {inherited : Region}
    {item : DrawItem} :
    item ∈ damage.planWithin forest (depth + 1) id rect inherited ↔
      forest.isVisible id = true ∧
        ((damage.clipOf inherited id rect).isEmpty = false ∧
            item = ⟨id, rect, damage.clipOf inherited id rect⟩ ∨
          ∃ child ∈ forest.children id, ∃ passed,
            damage.Enters (damage.clipOf inherited id rect) child
                ((forest.geometry child).movedBy rect.x rect.y) passed ∧
              item ∈ damage.planWithin forest depth child
                ((forest.geometry child).movedBy rect.x rect.y) passed) := by
  rw [planWithin]
  split
  case isFalse hidden => simp only [List.not_mem_nil, hidden, Bool.false_eq_true, false_and]
  case isTrue visible =>
    simp only [visible, true_and, List.mem_append, List.mem_flatMap, mem_entered_iff]
    refine or_congr_left ?_
    split
    case isTrue empty => simp only [List.not_mem_nil, empty, reduceCtorEq, false_and]
    case isFalse filled => simp only [List.mem_singleton, filled, true_and]

private theorem windowRect_of_mem_planWithin (linked : forest.Linked) (depth : Nat) :
    ∀ {id : WidgetId} {inherited : Region},
      ∀ item ∈ damage.planWithin forest depth id (forest.windowRect id) inherited,
        item.windowRect = forest.windowRect item.widget := by
  induction depth with
  | zero => exact fun _ member => absurd member List.not_mem_nil
  | succ depth inductionHypothesis =>
      intro id inherited item member
      obtain ⟨-, ⟨-, rfl⟩ | ⟨child, isChild, passed, -, planned⟩⟩ := mem_planWithin_succ.mp member
      · rfl
      · rw [← linked.windowRect_of_child (linked.mem_children_iff.mp isChild)] at planned
        exact inductionHypothesis item planned

/-- The pixels of a widget that is entered are shown, and scheduled there or above. -/
private theorem shownAt_of_mem_clipOf (linked : forest.Linked)
    (inside : ∀ id, damage.litAt pixel id → forest.shownAt pixel id = true) {id : WidgetId}
    {inherited : Region} (visible : forest.isVisible id = true)
    (inheritance : pixel ∈ inherited → (∃ lit ∈ forest.path id, damage.litAt pixel lit) ∧
      ∀ parent, forest.parent? id = some parent → forest.shownAt pixel parent = true)
    (inClip : pixel ∈ damage.clipOf inherited id (forest.windowRect id)) :
    forest.shownAt pixel id = true ∧ ∃ lit ∈ forest.path id, damage.litAt pixel lit := by
  obtain ⟨cause, inRect⟩ := mem_clipOf.mp inClip
  rcases cause with inherits | lit
  · obtain ⟨above, shownParent⟩ := inheritance inherits
    refine ⟨?_, above⟩
    cases up : forest.parent? id with
    | none => exact (linked.shownAt_of_root up).mpr ⟨visible, inRect⟩
    | some parent =>
        exact (linked.shownAt_of_child up).mpr ⟨⟨visible, inRect⟩, shownParent parent up⟩
  · exact ⟨inside id lit, id, Forest.mem_path_self id, lit⟩

/-- The pixels of a planned item are shown pixels at or below a widget of which they are
scheduled. -/
private theorem mem_planWithin (linked : forest.Linked)
    (inside : ∀ id, damage.litAt pixel id → forest.shownAt pixel id = true) (depth : Nat) :
    ∀ {id : WidgetId} {inherited : Region},
      (pixel ∈ inherited → (∃ lit ∈ forest.path id, damage.litAt pixel lit) ∧
        ∀ parent, forest.parent? id = some parent → forest.shownAt pixel parent = true) →
      ∀ item ∈ damage.planWithin forest depth id (forest.windowRect id) inherited,
        id ∈ forest.path item.widget ∧
          (pixel ∈ item.clip → forest.shownAt pixel item.widget = true ∧
            ∃ lit ∈ forest.path item.widget, damage.litAt pixel lit) := by
  induction depth with
  | zero => exact fun _ _ member => absurd member List.not_mem_nil
  | succ depth inductionHypothesis =>
      intro id inherited inheritance item member
      obtain ⟨visible, origin⟩ := mem_planWithin_succ.mp member
      have here := shownAt_of_mem_clipOf linked inside visible inheritance
      rcases origin with ⟨-, rfl⟩ | ⟨child, isChild, passed, enters, planned⟩
      · exact ⟨Forest.mem_path_self id, here⟩
      · have up := linked.mem_children_iff.mp isChild
        rw [← linked.windowRect_of_child up] at enters planned
        have passedOn : pixel ∈ passed →
            (∃ lit ∈ forest.path child, damage.litAt pixel lit) ∧
              ∀ parent, forest.parent? child = some parent →
                forest.shownAt pixel parent = true := by
          intro inherits
          obtain ⟨shown, lit, above, isLit⟩ := here (enters.mem inherits)
          refine ⟨⟨lit, linked.mem_path_iff.mpr (Or.inr ⟨id, up, above⟩), isLit⟩,
            fun parent upward => ?_⟩
          rw [up, Option.some_inj] at upward
          exact upward ▸ shown
        obtain ⟨onPath, shows⟩ := inductionHypothesis passedOn item planned
        exact ⟨linked.parent_mem_path onPath up, shows⟩

/-- The way down to a widget with a scheduled pixel is marked. -/
private theorem isSome_or_isAbove {lit child : WidgetId} (isLit : damage.litAt pixel lit)
    (marks : ∀ ancestor ∈ forest.path lit, ancestor ≠ lit → damage.isAbove ancestor = true)
    (below : child ∈ forest.path lit) :
    (damage.region? child).isSome = true ∨ damage.isAbove child = true := by
  by_cases same : child = lit
  · obtain ⟨region, held, -⟩ := isLit
    exact Or.inl (by rw [same, held]; rfl)
  · exact Or.inr (marks child below same)

/-- On the way down to a shown widget, the next child is entered if the pixel is drawn of its parent
or is scheduled further down, where the way is marked. -/
private theorem exists_enters {lit child : WidgetId} (isLit : damage.litAt pixel lit)
    (marks : ∀ ancestor ∈ forest.path lit, ancestor ≠ lit → damage.isAbove ancestor = true)
    {clip : Region} (inRect : pixel ∈ forest.windowRect child)
    (cause : pixel ∈ clip ∨ child ∈ forest.path lit) :
    ∃ passed, damage.Enters clip child (forest.windowRect child) passed ∧
      (pixel ∈ passed ∨ child ∈ forest.path lit) := by
  by_cases meets : ((damage.region? child).isSome ||
      clip.intersectsRect (forest.windowRect child)) = true
  · exact ⟨clip, .met meets, cause⟩
  · obtain ⟨unscheduled, apart⟩ := not_or.mp fun either => meets (Bool.or_eq_true_iff.mpr either)
    have below := cause.resolve_left fun inClip =>
      apart (Region.intersectsRect_iff.mpr ⟨pixel, inClip, inRect⟩)
    have isAbove := (isSome_or_isAbove isLit marks below).resolve_left unscheduled
    exact ⟨Region.empty, .marked meets isAbove, Or.inr below⟩

/-- On the way down to a shown widget with a scheduled pixel at or above it nothing is skipped. -/
private theorem exists_planWithin (linked : forest.Linked) {lit widget : WidgetId}
    (isLit : damage.litAt pixel lit)
    (marks : ∀ ancestor ∈ forest.path lit, ancestor ≠ lit → damage.isAbove ancestor = true)
    (above : lit ∈ forest.path widget) (shown : forest.shownAt pixel widget = true)
    (depth : Nat) :
    ∀ {id : WidgetId} {inherited : Region}, id ∈ forest.path widget →
      (pixel ∈ inherited ∨ id ∈ forest.path lit) →
      forest.slots.size + 2 ≤ depth + (forest.path id).length →
      ∃ item ∈ damage.planWithin forest depth id (forest.windowRect id) inherited,
        item.widget = widget ∧ pixel ∈ item.clip := by
  induction depth with
  | zero =>
      intro id inherited onPath _ enough
      have live := Forest.contains_of_isVisible (Forest.shownAt_iff.mp shown id onPath).1
      have length := linked.length_path_le live
      omega
  | succ depth inductionHypothesis =>
      intro id inherited onPath cause enough
      obtain ⟨visible, inRect⟩ := Forest.shownAt_iff.mp shown id onPath
      have inClip : pixel ∈ inherited ∨ damage.litAt pixel id →
          pixel ∈ damage.clipOf inherited id (forest.windowRect id) := fun hit =>
        mem_clipOf.mpr ⟨hit, inRect⟩
      by_cases same : id = widget
      · subst same
        have member := inClip (cause.imp_right fun below =>
          linked.path_antisymm below above ▸ isLit)
        exact ⟨_, mem_planWithin_succ.mpr ⟨visible, Or.inl ⟨Region.not_isEmpty_of_mem member, rfl⟩⟩,
          rfl, member⟩
      · obtain ⟨child, up, childOnPath⟩ := linked.exists_child_on_path onPath same
        have deeper : forest.slots.size + 2 ≤ depth + (forest.path child).length := by
          rw [linked.path_of_child up, List.length_cons]
          omega
        -- The pixel is drawn of the widget, or it is scheduled strictly below.
        have causeBelow : pixel ∈ damage.clipOf inherited id (forest.windowRect id) ∨
            child ∈ forest.path lit := by
          rcases cause with inherits | below
          · exact Or.inl (inClip (Or.inl inherits))
          · by_cases isSelf : id = lit
            · exact Or.inl (inClip (Or.inr (isSelf ▸ isLit)))
            · obtain ⟨next, upNext, nextOnPath⟩ := linked.exists_child_on_path below isSelf
              have sameChild : next = child := linked.child_on_path_unique
                (linked.mem_path_trans above nextOnPath) childOnPath upNext up
              exact Or.inr (sameChild ▸ nextOnPath)
        obtain ⟨passed, enters, causeThere⟩ := exists_enters isLit marks
          (Forest.shownAt_iff.mp shown child childOnPath).2 causeBelow
        obtain ⟨item, planned, facts⟩ := inductionHypothesis childOnPath causeThere deeper
        rw [linked.windowRect_of_child up] at enters planned
        exact ⟨item, mem_planWithin_succ.mpr ⟨visible, Or.inr
          ⟨child, linked.mem_children_iff.mpr up, passed, enters, planned⟩⟩, facts⟩

theorem mem_dirtyRegion_iff :
    pixel ∈ damage.dirtyRegion ↔ ∃ region ∈ damage.scheduled.values, pixel ∈ region := by
  rw [dirtyRegion, Region.mem_foldl_unionRegion, or_iff_right (Region.not_mem_empty pixel)]

theorem mem_dirtyRegion {id : WidgetId} (isLit : damage.litAt pixel id) :
    pixel ∈ damage.dirtyRegion := by
  obtain ⟨region, held, inside⟩ := isLit
  exact mem_dirtyRegion_iff.mpr
    ⟨region, List.mem_map_of_mem (Table.mem_of_find? held), inside⟩

private theorem contains_of_mem_planWithin (depth : Nat) :
    ∀ {id : WidgetId} {rect : Rect} {inherited : Region},
      ∀ item ∈ damage.planWithin forest depth id rect inherited,
        forest.contains item.widget = true := by
  induction depth with
  | zero => exact fun _ member => absurd member List.not_mem_nil
  | succ depth inductionHypothesis =>
      intro id rect inherited item member
      obtain ⟨visible, ⟨-, rfl⟩ | ⟨child, -, passed, -, planned⟩⟩ := mem_planWithin_succ.mp member
      · exact Forest.contains_of_isVisible visible
      · exact inductionHypothesis item planned

/-- Only widgets that are there are planned. -/
theorem contains_of_mem_plan {item : DrawItem} (member : item ∈ damage.plan forest) :
    forest.contains item.widget = true :=
  contains_of_mem_planWithin _ item member

/-- Some item draws a pixel of a widget. -/
def drawnAt (items : List DrawItem) (pixel : Point) (id : WidgetId) : Prop :=
  ∃ item ∈ items, item.widget = id ∧ pixel ∈ item.clip

variable (top : forest.parent? damage.root = none)

include top

private theorem plan_eq (linked : forest.Linked) :
    damage.plan forest =
      damage.planWithin forest (forest.slots.size + 1) damage.root
        (forest.windowRect damage.root) Region.empty := by
  rw [plan, linked.windowRect_of_root top]

/-- Every item is planned at the place of its widget. -/
theorem windowRect_of_mem_plan (linked : forest.Linked) {item : DrawItem}
    (member : item ∈ damage.plan forest) : item.windowRect = forest.windowRect item.widget := by
  rw [plan_eq top linked] at member
  exact windowRect_of_mem_planWithin linked _ item member

/-- If only shown pixels are scheduled, what is drawn of a pixel is shown there, at or below a
widget of which the pixel is scheduled. -/
theorem drawnAt_plan (linked : forest.Linked)
    (inside : ∀ id, damage.litAt pixel id → forest.shownAt pixel id = true) {id : WidgetId}
    (drawn : drawnAt (damage.plan forest) pixel id) :
    damage.root ∈ forest.path id ∧ forest.shownAt pixel id = true ∧
      ∃ lit ∈ forest.path id, damage.litAt pixel lit := by
  obtain ⟨item, member, rfl, inClip⟩ := drawn
  rw [plan_eq top linked] at member
  obtain ⟨onPath, shows⟩ :=
    mem_planWithin linked inside _ (fun inherits => absurd inherits (Region.not_mem_empty pixel))
      item member
  exact ⟨onPath, shows inClip⟩

/-- If the way to a scheduled pixel is marked, it is drawn of all widgets shown there at or below
the scheduled one. -/
theorem drawnAt_plan_of_litAt (linked : forest.Linked) {lit id : WidgetId}
    (isLit : damage.litAt pixel lit)
    (marks : ∀ ancestor ∈ forest.path lit, ancestor ≠ lit → damage.isAbove ancestor = true)
    (inWindow : damage.root ∈ forest.path lit) (above : lit ∈ forest.path id)
    (shown : forest.shownAt pixel id = true) : drawnAt (damage.plan forest) pixel id := by
  rw [plan_eq top linked]
  refine exists_planWithin linked isLit marks above shown _ (linked.mem_path_trans above inWindow)
    (Or.inr inWindow) ?_
  simp [linked.path_of_root top]

end Damage

/-! ### Observing a painting -/

/-- What follows a step starts where the step ends, unless the step fails. -/
theorem run_bind {ε τ α β : Type} (step : ExceptT ε (StateM τ) α)
    (next : α → ExceptT ε (StateM τ) β) (state : τ) :
    (step >>= next).run state =
      match step.run state with
      | (.ok value, after) => (next value).run after
      | (.error failure, after) => (.error failure, after) := by
  rw [ExceptT.run_bind]
  simp only [bind, StateT.bind]
  rcases step.run state with ⟨failure | value, after⟩ <;> rfl

/-- A backend together with the commands of its last pass. -/
def Backend.watched {σ : Type} (backend : Backend σ) : Backend (σ × List DrawCommand) where
  start dirty := fun (state, _) =>
    let (outcome, state) := backend.start dirty state
    (outcome, state, [])
  draw command := fun (state, log) =>
    let (outcome, state) := backend.draw command state
    (outcome, state, log ++ [command])
  finish := fun (state, log) =>
    let (outcome, state) := backend.finish state
    (outcome, state, log)
  recreate := fun (state, log) => ((), (backend.recreate state).2, log)

section Watched

variable {σ : Type} {forest : Forest} (backend : Backend σ)

/-- A command draws an item: its widget in its place within its clip, with what the widget shows
and a style that is right for it. -/
structure Draws (forest : Forest) (isRight : WidgetId → ResolvedStyle → Prop) (item : DrawItem)
    (command : DrawCommand) : Prop where
  widget : command.widget = item.widget
  windowRect : command.windowRect = item.windowRect
  clip : command.clip = item.clip
  text : command.text = forest.text item.widget
  frame : command.frame = forest.frame item.widget
  style : isRight item.widget command.style

/-- Looking up the styles of widgets gives the right ones as long as the stylist keeps an
invariant, and it does keep it. -/
def ResolvesTo (forest : Forest) (isRight : WidgetId → ResolvedStyle → Prop)
    (keeps : Stylist → Prop) : Prop :=
  ∀ (stylist : Stylist) (id : WidgetId), forest.contains id = true → keeps stylist →
    isRight id (stylist.resolve (forest.lineage id) (forest.pseudo id)).1 ∧
      keeps (stylist.resolve (forest.lineage id) (forest.pseudo id)).2

variable {isRight : WidgetId → ResolvedStyle → Prop} {keeps : Stylist → Prop}
  (resolves : ResolvesTo forest isRight keeps)

private theorem drawItem_run (item : DrawItem) (state : PaintState (σ × List DrawCommand)) :
    (drawItem forest backend.watched item).run state =
      let (style, stylist) :=
        state.stylist.resolve (forest.lineage item.widget) (forest.pseudo item.widget)
      let command : DrawCommand :=
        { widget := item.widget
          style := style
          windowRect := item.windowRect
          clip := item.clip
          text := forest.text item.widget
          frame := forest.frame item.widget }
      let (outcome, after) := backend.draw command state.backend.1
      (outcome, ⟨stylist, after, state.backend.2 ++ [command]⟩) := rfl


include resolves

/-- Items that are drawn without a failure are drawn one after the other. -/
private theorem drawItems_watched (items : List DrawItem)
    (live : ∀ item ∈ items, forest.contains item.widget = true) :
    ∀ state : PaintState (σ × List DrawCommand), keeps state.stylist →
      keeps ((drawItems forest backend.watched items).run state).2.stylist ∧
        (((drawItems forest backend.watched items).run state).1 = .ok () →
          ∃ commands,
            ((drawItems forest backend.watched items).run state).2.backend.2 =
                state.backend.2 ++ commands ∧
              List.Forall₂ (Draws forest isRight) items commands) := by
  induction items with
  | nil =>
      intro state kept
      exact ⟨kept, fun _ => ⟨[], (List.append_nil _).symm, .nil⟩⟩
  | cons item later inductionHypothesis =>
      intro state kept
      obtain ⟨right, kept⟩ :=
        resolves state.stylist item.widget (live item (List.mem_cons_self ..)) kept
      have liveLater := fun other member => live other (List.mem_cons_of_mem item member)
      rw [drawItems, run_bind, drawItem_run]
      simp only
      rcases backend.draw _ state.backend.1 with ⟨failure | _, after⟩
      · exact ⟨kept, fun succeeds => by cases succeeds⟩
      · obtain ⟨kept, commands⟩ := inductionHypothesis liveLater ⟨_, after, _⟩ kept
        refine ⟨kept, fun succeeds => ?_⟩
        obtain ⟨rest, log, draws⟩ := commands succeeds
        rw [List.append_assoc, List.singleton_append] at log
        exact ⟨_, log, .cons ⟨rfl, rfl, rfl, rfl, rfl, right⟩ draws⟩

/-- A pass that succeeds has drawn its items and nothing else. -/
private theorem paintPass_watched (dirty : Region) (items : List DrawItem)
    (live : ∀ item ∈ items, forest.contains item.widget = true)
    {state : PaintState (σ × List DrawCommand)} (kept : keeps state.stylist) :
    keeps ((paintPass forest backend.watched dirty items).run state).2.stylist ∧
      (((paintPass forest backend.watched dirty items).run state).1 = .ok () →
        List.Forall₂ (Draws forest isRight) items
          ((paintPass forest backend.watched dirty items).run state).2.backend.2) := by
  have start : ∀ {state : PaintState (σ × List DrawCommand)},
      (PaintM.call (backend.watched.start dirty)).run state =
        ((backend.start dirty state.backend.1).1,
          ⟨state.stylist, (backend.start dirty state.backend.1).2, []⟩) := rfl
  have finish : ∀ {state : PaintState (σ × List DrawCommand)},
      (PaintM.call backend.watched.finish).run state =
        ((backend.finish state.backend.1).1,
          ⟨state.stylist, (backend.finish state.backend.1).2, state.backend.2⟩) := rfl
  rw [paintPass, run_bind, start]
  rcases (backend.start dirty state.backend.1) with ⟨failure | _, begun⟩
  · exact ⟨kept, fun succeeds => by cases succeeds⟩
  · simp only
    rw [run_bind]
    obtain ⟨kept, commands⟩ :=
      drawItems_watched backend resolves items live ⟨state.stylist, begun, []⟩ kept
    generalize (drawItems forest backend.watched items).run ⟨state.stylist, begun, []⟩ = drawn
      at kept commands
    rcases drawn with ⟨failure | _, drawn⟩
    · exact ⟨kept, fun succeeds => by cases succeeds⟩
    · obtain ⟨log, same, draws⟩ := commands rfl
      simp only [List.nil_append] at same
      exact ⟨kept, fun _ => same ▸ draws⟩

private theorem paintPasses_watched (maxAttempts : Nat) (dirty : Region) (items : List DrawItem)
    (live : ∀ item ∈ items, forest.contains item.widget = true)
    {state : PaintState (σ × List DrawCommand)} (kept : keeps state.stylist) :
    keeps (Damage.paintPasses forest backend.watched maxAttempts dirty items state).2.stylist ∧
      ((Damage.paintPasses forest backend.watched maxAttempts dirty items state).1 = .ok () →
        List.Forall₂ (Draws forest isRight) items
          (Damage.paintPasses forest backend.watched maxAttempts dirty items
            state).2.backend.2) := by
  rw [Damage.paintPasses, retryOnDeviceLoss]
  have passes :=
    retryFrom_run
      (attemptPass forest backend.watched dirty items) (recreateBackend backend.watched)
      (fun state => keeps state.stylist)
      (fun (_ : Unit) (state : PaintState (σ × List DrawCommand)) =>
        List.Forall₂ (Draws forest isRight) items state.backend.2)
      (fun state kept => by
        have pass := paintPass_watched backend resolves dirty items live kept
        simp only [attemptPass, bind, StateT.bind]
        generalize (paintPass forest backend.watched dirty items).run state = outcome at pass
        rcases outcome with ⟨failure | value, after⟩
        · exact ⟨pass.1, fun value same => by cases same⟩
        · exact ⟨pass.1, fun _ _ => pass.2 rfl⟩)
      (fun _ kept => kept) (maxAttempts - 1) state kept
  exact ⟨passes.1, passes.2 ()⟩

/-- A painting that succeeds has drawn its plan in its last pass, or nothing was scheduled. -/
theorem Damage.paint_watched (damage : Damage) (maxAttempts : Nat)
    (state : PaintState (σ × List DrawCommand)) (kept : keeps state.stylist) :
    keeps (damage.paint forest backend.watched maxAttempts state).2.2.stylist ∧
      ∀ report, (damage.paint forest backend.watched maxAttempts state).1 = .ok report →
        (damage.dirtyRegion.isEmpty = true ∧
            (damage.paint forest backend.watched maxAttempts state).2 = (damage, state)) ∨
          (damage.dirtyRegion.isEmpty = false ∧
            (damage.paint forest backend.watched maxAttempts state).2.1 = damage.clear ∧
              List.Forall₂ (Draws forest isRight) (damage.plan forest)
                (damage.paint forest backend.watched maxAttempts state).2.2.backend.2) := by
  rw [paint]
  cases empty : damage.dirtyRegion.isEmpty with
  | true => exact ⟨kept, fun _ _ => Or.inl ⟨rfl, rfl⟩⟩
  | false =>
      have passes :=
        paintPasses_watched backend resolves maxAttempts damage.dirtyRegion (damage.plan forest)
          (fun _ => contains_of_mem_plan) kept
      simp only [Bool.false_eq_true, if_false]
      generalize Damage.paintPasses forest backend.watched maxAttempts damage.dirtyRegion
        (damage.plan forest) state = outcome at passes
      rcases outcome with ⟨failure | value, after⟩
      · exact ⟨passes.1, fun report same => by cases same⟩
      · exact ⟨passes.1, fun _ _ => Or.inr ⟨trivial, rfl, passes.2 rfl⟩⟩

private theorem drawItems_keeps (items : List DrawItem)
    (live : ∀ item ∈ items, forest.contains item.widget = true) :
    ∀ state : PaintState σ, keeps state.stylist →
      keeps ((drawItems forest backend items).run state).2.stylist := by
  induction items with
  | nil => exact fun _ kept => kept
  | cons item later inductionHypothesis =>
      intro state kept
      have found : keeps ((drawItem forest backend item).run state).2.stylist :=
        (resolves state.stylist item.widget (live item (List.mem_cons_self ..)) kept).2
      rw [drawItems, run_bind]
      generalize (drawItem forest backend item).run state = outcome at found
      rcases outcome with ⟨failure | _, after⟩
      · exact found
      · exact inductionHypothesis
          (fun other member => live other (List.mem_cons_of_mem item member)) after found

private theorem paintPass_keeps (dirty : Region) (items : List DrawItem)
    (live : ∀ item ∈ items, forest.contains item.widget = true) {state : PaintState σ}
    (kept : keeps state.stylist) :
    keeps ((paintPass forest backend dirty items).run state).2.stylist := by
  have call : ∀ (work : StateM σ (Except DrawError Unit)) (state : PaintState σ),
      ((PaintM.call work).run state).2.stylist = state.stylist := fun _ _ => rfl
  rw [paintPass, run_bind]
  have begun := call (backend.start dirty) state
  generalize (PaintM.call (backend.start dirty)).run state = started at begun
  rcases started with ⟨failure | _, started⟩
  · exact begun ▸ kept
  · simp only
    rw [run_bind]
    have drawn := drawItems_keeps backend resolves items live started (begun ▸ kept)
    generalize (drawItems forest backend items).run started = drawing at drawn
    rcases drawing with ⟨failure | _, drawing⟩
    · exact drawn
    · simp only
      rw [call]
      exact drawn

/-- A painting keeps what the lookups of styles keep. -/
theorem Damage.paint_keeps (damage : Damage) (maxAttempts : Nat) {state : PaintState σ}
    (kept : keeps state.stylist) :
    keeps (damage.paint forest backend maxAttempts state).2.2.stylist := by
  rw [Damage.paint]
  split
  · exact kept
  · have passes := (retryFrom_run
      (attemptPass forest backend damage.dirtyRegion (damage.plan forest))
      (recreateBackend backend) (fun state => keeps state.stylist)
      (fun (_ : Unit) (_ : PaintState σ) => True)
      (fun state kept => by
        have pass := paintPass_keeps backend resolves damage.dirtyRegion (damage.plan forest)
          (fun _ => contains_of_mem_plan) kept
        simp only [attemptPass, bind, StateT.bind]
        generalize (paintPass forest backend damage.dirtyRegion (damage.plan forest)).run state =
          outcome at pass
        rcases outcome with ⟨failure | value, after⟩
        · exact ⟨pass, fun _ _ => trivial⟩
        · exact ⟨pass, fun _ _ => trivial⟩)
      (fun _ kept => kept) (maxAttempts - 1) state kept).1
    simp only
    split
    case h_1 outcome painted =>
      have same := congrArg (fun result => result.2.stylist) painted
      exact same ▸ passes
    case h_2 outcome painted =>
      have same := congrArg (fun result => result.2.stylist) painted
      exact same ▸ passes

end Watched

/-- A pixel of a widget is drawn by some command. -/
def drewAt (log : List DrawCommand) (pixel : Point) (id : WidgetId) : Prop :=
  ∃ command ∈ log, command.widget = id ∧ pixel ∈ command.clip

instance (log : List DrawCommand) (pixel : Point) (id : WidgetId) :
    Decidable (drewAt log pixel id) :=
  inferInstanceAs (Decidable (∃ command ∈ log, _))

theorem drewAt_iff_drawnAt {forest : Forest} {isRight : WidgetId → ResolvedStyle → Prop}
    {items : List DrawItem} {log : List DrawCommand} {pixel : Point} {id : WidgetId}
    (draws : List.Forall₂ (Draws forest isRight) items log) :
    drewAt log pixel id ↔ Damage.drawnAt items pixel id := by
  induction draws with
  | nil => simp [drewAt, Damage.drawnAt]
  | cons draw _ inductionHypothesis =>
      simp only [drewAt, Damage.drawnAt, List.mem_cons, exists_eq_or_imp] at inductionHypothesis ⊢
      rw [inductionHypothesis, draw.widget, draw.clip]

end StyledWidgets
