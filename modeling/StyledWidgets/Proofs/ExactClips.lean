/-
Module: StyledWidgets.Proofs.ExactClips
Purpose: The walk of a painting goes only where something is scheduled, overlapped or marked. What
  it draws is told here without any of these: the exact clip of a widget is made of the scheduled
  pixels of the widget and its ancestors, as far as nothing on the way down cuts them off. The walk
  draws exactly the exact clips that are not empty, whatever calls have led to the damage.
Main exports: Damage.Reached, Damage.ExactClip, Damage.Reached.traced, Damage.Traced.mem_clip_iff,
  Damage.Reached.painting_exact
-/
import StyledWidgets.Proofs.CleanWindows
import StyledWidgets.Proofs.DrawnStack

namespace StyledWidgets

open StyledWidgets.Style

namespace Damage

open Forest

variable {forest : Forest} {root : WidgetId} {damage : Damage} {pixel : Point}

/-! ### Damage of a forest that stays as it is -/

/-- The damage of a window that requests, computations, clearings and paintings of any outcome lead
to while the forest stays as it is. -/
inductive Reached (forest : Forest) (root : WidgetId) : Damage → Prop where
  | new : Reached forest root (.new root)
  | requestUpdate {damage : Damage} (id : WidgetId) (rect : Option Rect)
      (reached : Reached forest root damage) : Reached forest root (damage.requestUpdate id rect)
  | compute {damage : Damage} (settings : RepaintSettings) (reached : Reached forest root damage) :
      Reached forest root (damage.compute forest settings)
  | clear {damage : Damage} (reached : Reached forest root damage) :
      Reached forest root damage.clear
  | paint {damage : Damage} {σ : Type} (backend : Backend σ) (maxAttempts : Nat)
      (state : PaintState σ) (reached : Reached forest root damage) :
      Reached forest root (damage.paint forest backend maxAttempts state).2.1

/-- Only shown pixels of a window are scheduled, and the way down to each of them is marked. -/
structure Traced (forest : Forest) (root : WidgetId) (damage : Damage) : Prop where
  isRoot : damage.root = root
  /-- A widget that is no window has nothing to paint. -/
  idle : forest.parent? root ≠ none → damage.scheduled = ∅
  shown : ∀ pixel id, damage.litAt pixel id → id ∈ forest.stackAt pixel root
  marked : damage.Marked forest

theorem Traced.of_unscheduled (isRoot : damage.root = root) (unscheduled : damage.Unscheduled) :
    damage.Traced forest root where
  isRoot := isRoot
  idle _ := unscheduled.scheduled
  shown pixel id lit := absurd lit (not_litAt_of_unscheduled unscheduled.scheduled pixel id)
  marked := marked_of_empty damage unscheduled.above unscheduled.scheduled

theorem Traced.requestUpdate (traced : damage.Traced forest root) (id : WidgetId)
    (rect : Option Rect) : (damage.requestUpdate id rect).Traced forest root where
  isRoot := traced.isRoot
  idle := traced.idle
  shown := traced.shown
  marked := ⟨traced.marked.upward, traced.marked.scheduled⟩

/-- What is added by a computation is shown, even if a region collapses, and it is marked. -/
theorem Traced.compute (linked : forest.Linked) (traced : damage.Traced forest root)
    (settings : RepaintSettings) : (damage.compute forest settings).Traced forest root where
  isRoot := (compute_root damage).trans traced.isRoot
  idle isChild := by
    rw [compute_eq_scheduleAll, orders_of_child linked (traced.isRoot ▸ isChild), scheduleAll_nil]
    exact traced.idle isChild
  shown pixel id lit := by
    obtain ⟨frame, inFrame⟩ := linked.exists_stackFrame root id
    rw [compute_eq_scheduleAll] at lit
    refine (inFrame pixel).mp (scheduleAll_litAt_subset _ ?_ ?_ pixel lit)
    · exact fun other before => (inFrame other).mpr (traced.shown other id before)
    · intro other ordered
      have inStack := (mem_stackAt_of_orderedAt linked ordered).1
      rw [traced.isRoot] at inStack
      exact (inFrame other).mpr inStack
  marked := by
    rw [compute_eq_scheduleAll]
    exact scheduleAll_marked linked _ ⟨traced.marked.upward, traced.marked.scheduled⟩

theorem Traced.clear (traced : damage.Traced forest root) : damage.clear.Traced forest root :=
  .of_unscheduled traced.isRoot ⟨rfl, rfl⟩

/-- All calls keep the damage traced. -/
theorem Reached.traced (linked : forest.Linked) (reached : Reached forest root damage) :
    damage.Traced forest root := by
  induction reached with
  | new => exact .of_unscheduled rfl ⟨rfl, rfl⟩
  | requestUpdate id rect _ traced => exact traced.requestUpdate id rect
  | compute settings _ traced => exact traced.compute linked settings
  | clear _ traced => exact traced.clear
  | paint backend maxAttempts state _ traced =>
      rcases paint_damage backend _ maxAttempts state with same | cleared
      · exact same ▸ traced
      · exact cleared ▸ traced.clear

/-- Whose damage has a region is a window. -/
theorem Traced.top_of_region (traced : damage.Traced forest root) {id : WidgetId} {region : Region}
    (held : damage.region? id = some region) : forest.parent? damage.root = none := by
  by_contra isChild
  rw [region?, traced.idle (traced.isRoot ▸ isChild)] at held
  cases held

/-- Nothing is drawn of a widget that is no window. -/
theorem Traced.top_of_mem_plan (linked : forest.Linked) (traced : damage.Traced forest root)
    {item : DrawItem} (member : item ∈ damage.plan forest) :
    forest.parent? damage.root = none := by
  by_contra isChild
  have nothing : damage.plan forest = [] :=
    planWithin_of_idle linked _ fun lit _ => Option.eq_none_iff_forall_ne_some.mpr
      fun region held => isChild (traced.top_of_region held)
  rw [nothing] at member
  exact absurd member List.not_mem_nil

/-! ### Exact clips -/

/-- A pixel is in the exact clip of a widget: it is scheduled of the widget or of an ancestor, and
it lies inside the rectangle of every widget from there down. -/
def ExactClip (damage : Damage) (forest : Forest) (id : WidgetId) (pixel : Point) : Prop :=
  ∃ source ∈ forest.path id, damage.litAt pixel source ∧
    ∀ widget ∈ forest.path id, source ∈ forest.path widget → pixel ∈ forest.windowRect widget

/-- A widget under no hidden one has a pixel in its exact clip exactly if it is shown there, at or
below a widget of which the pixel is scheduled. -/
theorem Traced.exactClip_iff (linked : forest.Linked) (traced : damage.Traced forest root)
    {id : WidgetId} :
    ((∀ above ∈ forest.path id, forest.isVisible above = true) ∧
        damage.ExactClip forest id pixel) ↔
      id ∈ forest.stackAt pixel root ∧ ∃ lit ∈ forest.path id, damage.litAt pixel lit := by
  constructor
  · rintro ⟨visible, source, isAbove, lit, inside⟩
    obtain ⟨onPath, shown⟩ := linked.mem_stackAt_iff.mp (traced.shown pixel source lit)
    refine ⟨linked.mem_stackAt_iff.mpr ⟨linked.mem_path_trans isAbove onPath, ?_⟩,
      source, isAbove, lit⟩
    refine shownAt_iff.mpr fun widget member => ⟨visible widget member, ?_⟩
    rcases linked.path_total member isAbove with higher | lower
    · exact (shownAt_iff.mp shown widget higher).2
    · exact inside widget member lower
  · rintro ⟨inStack, source, isAbove, lit⟩
    have shown := shownAt_iff.mp (linked.mem_stackAt_iff.mp inStack).2
    exact ⟨fun above member => (shown above member).1, source, isAbove, lit,
      fun widget member _ => (shown widget member).2⟩

/-- The walk draws a pixel of a widget under no hidden one exactly if it is in the exact clip: no
child that the walk skips has anything to draw below it. -/
theorem Traced.drawnAt_iff (linked : forest.Linked) (traced : damage.Traced forest root)
    {id : WidgetId} :
    drawnAt (damage.plan forest) pixel id ↔
      (∀ above ∈ forest.path id, forest.isVisible above = true) ∧
        damage.ExactClip forest id pixel := by
  rw [traced.exactClip_iff linked]
  constructor
  · rintro ⟨item, member, draws⟩
    obtain ⟨onPath, shown, above⟩ := drawnAt_plan (traced.top_of_mem_plan linked member) linked
      (fun id lit => (linked.mem_stackAt_iff.mp (traced.shown pixel id lit)).2)
      ⟨item, member, draws⟩
    rw [traced.isRoot] at onPath
    exact ⟨linked.mem_stackAt_iff.mpr ⟨onPath, shown⟩, above⟩
  · rintro ⟨inStack, lit, above, isLit⟩
    have inWindow := (linked.mem_stackAt_iff.mp (traced.shown pixel lit isLit)).1
    rw [← traced.isRoot] at inWindow
    obtain ⟨region, held, inside⟩ := isLit
    refine drawnAt_plan_of_litAt (traced.top_of_region held) linked ⟨region, held, inside⟩
      (fun ancestor onPath strict => traced.marked.isAbove linked held onPath strict) inWindow above
      (linked.mem_stackAt_iff.mp inStack).2

/-! ### The items of the walk -/

/-- Every item has something to draw. -/
theorem exists_mem_clip_of_mem_planWithin (depth : Nat) :
    ∀ {id : WidgetId} {rect : Rect} {inherited : Region},
      ∀ item ∈ damage.planWithin forest depth id rect inherited,
        ∃ pixel : Point, pixel ∈ item.clip := by
  induction depth with
  | zero => exact fun _ member => absurd member List.not_mem_nil
  | succ depth inductionHypothesis =>
      intro id rect inherited item member
      obtain ⟨-, ⟨filled, rfl⟩ | ⟨child, -, passed, -, planned⟩⟩ := mem_planWithin_succ.mp member
      · exact (Region.Solid.intersectRect _ _).exists_mem filled
      · exact inductionHypothesis item planned

/-- The walk goes through the window in the order of its subtree and draws no widget twice. -/
theorem plan_sublist (linked : forest.Linked) :
    ((damage.plan forest).map DrawItem.widget).Sublist (forest.subtree damage.root) := by
  rw [linked.subtree_eq]
  exact planWithin_sublist _

theorem plan_nodup (linked : forest.Linked) :
    ((damage.plan forest).map DrawItem.widget).Nodup :=
  (linked.subtree_nodup damage.root).sublist (plan_sublist linked)

/-- No other item draws the widget of an item. -/
theorem drawnAt_of_mem_plan (linked : forest.Linked) {item : DrawItem}
    (member : item ∈ damage.plan forest) :
    drawnAt (damage.plan forest) pixel item.widget ↔ pixel ∈ item.clip := by
  constructor
  · rintro ⟨other, isOther, same, inClip⟩
    rwa [← List.inj_on_of_nodup_map (plan_nodup linked) isOther member same]
  · exact fun inClip => ⟨item, member, rfl, inClip⟩

/-! ### Paintings -/

/-- The commands draw exactly the exact clips that are not empty, in the order of the subtree of the
window: parents before their children, siblings from the bottom to the top, no widget twice. -/
structure DrawsExactly (damage : Damage) (forest : Forest) (root : WidgetId)
    (commands : List DrawCommand) : Prop where
  ordered : (commands.map DrawCommand.widget).Sublist (forest.subtree root)
  once : (commands.map DrawCommand.widget).Nodup
  drawn : ∀ id, id ∈ commands.map DrawCommand.widget ↔
    (∀ above ∈ forest.path id, forest.isVisible above = true) ∧
      ∃ pixel, damage.ExactClip forest id pixel
  clip : ∀ command ∈ commands, ∀ pixel,
    pixel ∈ command.clip ↔ damage.ExactClip forest command.widget pixel
  windowRect : ∀ command ∈ commands, command.windowRect = forest.windowRect command.widget

/-- Commands for items draw their widgets one after the other, and each of them draws an item. -/
theorem widgets_of_draws {isRight : WidgetId → ResolvedStyle → Prop} {items : List DrawItem}
    {commands : List DrawCommand} (draws : List.Forall₂ (Draws forest isRight) items commands) :
    commands.map DrawCommand.widget = items.map DrawItem.widget ∧
      ∀ command ∈ commands, ∃ item ∈ items, Draws forest isRight item command := by
  induction draws with
  | nil => exact ⟨rfl, List.forall_mem_nil _⟩
  | cons draw _ inductionHypothesis =>
      obtain ⟨widgets, later⟩ := inductionHypothesis
      refine ⟨by rw [List.map_cons, List.map_cons, widgets, draw.widget], ?_⟩
      refine List.forall_mem_cons.mpr ⟨⟨_, List.mem_cons_self .., draw⟩, fun command member => ?_⟩
      obtain ⟨item, isItem, drawsToo⟩ := later command member
      exact ⟨item, List.mem_cons_of_mem _ isItem, drawsToo⟩

/-- Commands for the items of the walk draw the exact clips. -/
theorem Traced.drawsExactly (linked : forest.Linked) (traced : damage.Traced forest root)
    {isRight : WidgetId → ResolvedStyle → Prop} {commands : List DrawCommand}
    (draws : List.Forall₂ (Draws forest isRight) (damage.plan forest) commands) :
    damage.DrawsExactly forest root commands := by
  obtain ⟨widgets, each⟩ := widgets_of_draws draws
  have visible : ∀ item ∈ damage.plan forest, ∀ above ∈ forest.path item.widget,
      forest.isVisible above = true := by
    intro item member
    obtain ⟨pixel, inClip⟩ := exists_mem_clip_of_mem_planWithin _ item member
    exact ((traced.drawnAt_iff linked).mp ⟨item, member, rfl, inClip⟩).1
  have exact : ∀ item ∈ damage.plan forest, ∀ pixel,
      pixel ∈ item.clip ↔ damage.ExactClip forest item.widget pixel := by
    intro item member pixel
    rw [← drawnAt_of_mem_plan linked member, traced.drawnAt_iff linked]
    exact and_iff_right (visible item member)
  constructor
  case ordered =>
    rw [widgets, ← traced.isRoot]
    exact plan_sublist linked
  case once =>
    rw [widgets]
    exact plan_nodup linked
  case drawn =>
    intro id
    rw [widgets, List.mem_map]
    constructor
    · rintro ⟨item, member, rfl⟩
      obtain ⟨pixel, inClip⟩ := exists_mem_clip_of_mem_planWithin _ item member
      exact ⟨visible item member, pixel, (exact item member pixel).mp inClip⟩
    · rintro ⟨isVisible, pixel, isExact⟩
      obtain ⟨item, member, same, -⟩ := (traced.drawnAt_iff linked).mpr ⟨isVisible, isExact⟩
      exact ⟨item, member, same⟩
  case clip =>
    intro command member pixel
    obtain ⟨item, isItem, draw⟩ := each command member
    rw [draw.clip, draw.widget]
    exact exact item isItem pixel
  case windowRect =>
    intro command member
    obtain ⟨item, isItem, draw⟩ := each command member
    rw [draw.windowRect, draw.widget]
    exact windowRect_of_mem_plan (traced.top_of_mem_plan linked isItem) linked isItem

/-- Where nothing has to be painted, all exact clips are empty. -/
theorem drawsExactly_nil (clean : damage.dirtyRegion.isEmpty = true) :
    damage.DrawsExactly forest root [] where
  ordered := List.nil_sublist _
  once := List.nodup_nil
  drawn id := by
    refine iff_of_false List.not_mem_nil ?_
    rintro ⟨-, pixel, source, -, lit, -⟩
    exact Region.not_mem_of_isEmpty clean pixel (mem_dirtyRegion lit)
  clip _ member := absurd member List.not_mem_nil
  windowRect _ member := absurd member List.not_mem_nil

variable {σ : Type} {backend : Backend σ} {maxAttempts : Nat} {stylist : Stylist} {state : σ}
  {report : PaintReport} {after : Damage} {painted : PaintState (σ × List DrawCommand)}

/-- A painting that succeeds draws, in the pass that meets no failure, exactly what an exhaustive
walk without flags would draw, whatever calls have led to the damage. -/
theorem Reached.painting_exact (linked : forest.Linked) (reached : Reached forest root damage)
    (paints : damage.paint forest backend.watched maxAttempts ⟨stylist, state, []⟩ =
      (.ok report, after, painted)) :
    damage.DrawsExactly forest root painted.backend.2 := by
  have outcome := (paint_watched backend resolvesTo_any damage maxAttempts
    ⟨stylist, state, []⟩ trivial).2 report (by rw [paints])
  rw [paints] at outcome
  rcases outcome with ⟨clean, unchanged⟩ | ⟨-, -, draws⟩
  · have log : painted.backend.2 = [] := congrArg (fun result => result.2.backend.2) unchanged
    rw [log]
    exact drawsExactly_nil clean
  · exact (reached.traced linked).drawsExactly linked draws

end Damage

end StyledWidgets
