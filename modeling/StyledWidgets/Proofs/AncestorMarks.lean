/-
Module: StyledWidgets.Proofs.AncestorMarks
Purpose: The marking of the ancestors of a scheduled widget ends at the first one that is marked
  already. While the forest stays as it is this loses nothing, whatever calls come in between: the
  marked widgets are at every moment those strictly above a scheduled one, so everything above a
  marked widget is marked.
Main exports: Forest.StrictlyAbove, Forest.Linked.strictlyAbove_iff, Damage.Reached.arises,
  Damage.Reached.grounded, Damage.Marked.isAbove_scheduleAll, Damage.Reached.marks_exact
-/
import Mathlib.Logic.Relation
import StyledWidgets.Proofs.DirtyBounds
import StyledWidgets.Proofs.ExactClips
import StyledWidgets.Proofs.RequestPermutations

namespace StyledWidgets

variable {forest : Forest} {settings : RepaintSettings}

/-! ### Strict ancestors -/

namespace Forest

/-- One or more steps lead up from a widget to its ancestor. -/
def StrictlyAbove (forest : Forest) (ancestor id : WidgetId) : Prop :=
  Relation.TransGen (fun child parent => forest.parent? child = some parent) id ancestor

/-- The strict ancestors of a widget are the other widgets on its path. -/
theorem Linked.strictlyAbove_iff (linked : forest.Linked) {ancestor id : WidgetId} :
    forest.StrictlyAbove ancestor id ↔ ancestor ∈ forest.path id ∧ ancestor ≠ id := by
  constructor
  · intro above
    induction above with
    | single up =>
        refine ⟨linked.parent_mem_path (mem_path_self id) up, ?_⟩
        rintro rfl
        exact linked.not_mem_path_parent up (mem_path_self _)
    | tail _ up inductionHypothesis =>
        refine ⟨linked.parent_mem_path inductionHypothesis.1 up, ?_⟩
        rintro rfl
        exact linked.not_mem_path_parent up inductionHypothesis.1
  · rintro ⟨onPath, strict⟩
    induction id using linked.upward with
    | _ id inductionHypothesis =>
        obtain ⟨parent, up, further⟩ := (linked.mem_path_iff.mp onPath).resolve_left strict
        by_cases same : ancestor = parent
        · exact .single (same ▸ up)
        · exact .head up (inductionHypothesis parent up further same)

end Forest

namespace Damage

variable {root : WidgetId} {damage : Damage}

/-! ### Marking with an early end -/

theorem mem_markAbove_of_mem {id : WidgetId} {path : List WidgetId} :
    ∀ {marked : List WidgetId}, id ∈ marked → id ∈ markAbove path marked := by
  induction path with
  | nil => exact fun member => member
  | cons ancestor further inductionHypothesis =>
      intro marked member
      rw [markAbove]
      split
      · exact member
      · exact inductionHypothesis (List.mem_cons_of_mem _ member)

/-- Where marks are complete upward, marking that ends early marks all strict ancestors. -/
theorem Marked.isAbove_schedule (linked : forest.Linked) (marked : damage.Marked forest)
    {id ancestor : WidgetId} {region : Region} :
    (damage.schedule forest settings id region).isAbove ancestor = true ↔
      damage.isAbove ancestor = true ∨ forest.StrictlyAbove ancestor id := by
  constructor
  · intro isAbove
    rcases mem_of_mem_markAbove (List.contains_iff_mem.mp isAbove) with before | above
    · exact Or.inl (List.contains_iff_mem.mpr before)
    · obtain ⟨rest, shape⟩ := linked.exists_path_cons id
      have once := linked.path_nodup id
      rw [shape, List.nodup_cons] at once
      rw [shape, List.tail_cons] at above
      refine Or.inr (linked.strictlyAbove_iff.mpr ⟨shape ▸ List.mem_cons_of_mem _ above, ?_⟩)
      rintro rfl
      exact once.1 above
  · rintro (before | above)
    · exact List.contains_iff_mem.mpr (mem_markAbove_of_mem (List.contains_iff_mem.mp before))
    · obtain ⟨onPath, strict⟩ := linked.strictlyAbove_iff.mp above
      have held : (damage.schedule forest settings id region).region? id = some _ :=
        (damage.schedule_region? id id region).trans (if_pos rfl)
      exact (schedule_marked linked marked id region).isAbove linked held onPath strict

/-- The same for regions that are scheduled one after the other. -/
theorem Marked.isAbove_scheduleAll (linked : forest.Linked) (orders : List (WidgetId × Region))
    {ancestor : WidgetId} : ∀ {damage : Damage}, damage.Marked forest →
      ((damage.scheduleAll forest settings orders).isAbove ancestor = true ↔
        damage.isAbove ancestor = true ∨
          ∃ order ∈ orders, forest.StrictlyAbove ancestor order.1) := by
  induction orders with
  | nil =>
      intro damage _
      simp only [scheduleAll_nil, List.not_mem_nil, false_and, exists_false, or_false]
  | cons order later inductionHypothesis =>
      intro damage marked
      rw [scheduleAll_cons, inductionHypothesis (schedule_marked linked marked _ _),
        marked.isAbove_schedule linked, or_assoc]
      simp only [List.mem_cons, exists_eq_or_imp]

/-! ### Calls on a forest that stays as it is -/

theorem Reached.arises (reached : Reached forest root damage) : damage.Arises := by
  induction reached with
  | new => exact .new root
  | requestUpdate id rect _ arises => exact arises.requestUpdate id rect
  | compute settings _ arises => exact arises.compute forest settings
  | clear _ arises => exact arises.clear
  | paint backend maxAttempts state _ arises => exact arises.paint forest backend maxAttempts state

/-- All calls leave every marked widget strictly above a scheduled one. -/
theorem Reached.grounded (reached : Reached forest root damage) : damage.Grounded forest := by
  -- A new damage and one that has been cleared, by a call or by a painting, have no marks.
  have unmarked : ∀ {damage : Damage}, damage.above = [] → damage.Grounded forest := by
    intro damage none id member
    rw [none] at member
    cases member
  induction reached with
  | new => exact unmarked rfl
  | requestUpdate _ _ _ grounded => exact grounded
  | @compute damage settings _ grounded =>
      have taken : ({ damage with pending := ∅ } : Damage).Grounded forest := grounded
      rw [compute_eq_scheduleAll]
      exact taken.scheduleAll _
  | clear => exact unmarked rfl
  | paint backend maxAttempts state _ grounded =>
      rcases paint_damage backend _ maxAttempts state with same | cleared
      · exact same ▸ grounded
      · exact cleared ▸ unmarked rfl

/-- While a forest stays as it is, whatever calls lead to a damage: no scheduled region is empty,
the marked widgets are exactly those strictly above a scheduled one, so the parent of a marked
widget is marked, and regions that are scheduled next mark all strict ancestors of their widgets
although the marking of each ends at the first marked one. -/
theorem Reached.marks_exact (linked : forest.Linked) (reached : Reached forest root damage) :
    (∀ id region, damage.region? id = some region → region.isEmpty = false) ∧
      (∀ ancestor, damage.isAbove ancestor = true ↔
        ∃ id, (damage.region? id).isSome = true ∧ forest.StrictlyAbove ancestor id) ∧
      (∀ child parent, damage.isAbove child = true → forest.parent? child = some parent →
        damage.isAbove parent = true) ∧
      ∀ (settings : RepaintSettings) (orders : List (WidgetId × Region)) (ancestor : WidgetId),
        (damage.scheduleAll forest settings orders).isAbove ancestor = true ↔
          damage.isAbove ancestor = true ∨
            ∃ order ∈ orders, forest.StrictlyAbove ancestor order.1 := by
  have marked := (reached.traced linked).marked
  refine ⟨fun id region held => ?_, fun ancestor => ?_, fun child parent isAbove up => ?_,
    fun settings orders ancestor => marked.isAbove_scheduleAll linked orders⟩
  · obtain ⟨pixel, inside⟩ := reached.arises.filled id region held
    exact Bool.eq_false_iff.mpr fun empty => Region.not_mem_of_isEmpty empty pixel inside
  · simp only [reached.grounded.isAbove_iff linked marked, linked.strictlyAbove_iff,
      Option.isSome_iff_exists]
    constructor
    · rintro ⟨id, region, held, above⟩
      exact ⟨id, ⟨region, held⟩, above⟩
    · rintro ⟨id, ⟨region, held⟩, above⟩
      exact ⟨id, region, held, above⟩
  · exact List.contains_iff_mem.mpr (marked.upward (List.contains_iff_mem.mp isAbove) up)

/-- A window with a panel that has two buttons side by side. -/
def panelOfButtons : Application :=
  let window := Application.Change.apply (.new {})
    (.createWindow { typeName := "Window", geometry := ⟨0, 0, 100, 100⟩ })
  let panel := Application.Change.apply window
    (.createWidget ⟨0⟩ { typeName := "Panel", geometry := ⟨10, 10, 60, 20⟩, isOpaque := true })
  let left := Application.Change.apply panel
    (.createWidget ⟨1⟩ { typeName := "Button", geometry := ⟨0, 0, 20, 20⟩, isOpaque := true })
  Application.Change.apply left
    (.createWidget ⟨1⟩ { typeName := "Button", geometry := ⟨30, 0, 20, 20⟩, isOpaque := true })

theorem panelOfButtons_reachable : panelOfButtons.Reachable := by
  unfold panelOfButtons
  exact .change _ (.change _ (.change _ (.change _ (.new {}))))

/-- The left button has been computed and a painting of it has lost the device; then the right one
has been computed, whose marking ends at the panel. -/
def twoButtons : Damage :=
  let forest := panelOfButtons.forest
  let failed := (((new ⟨0⟩).requestUpdate ⟨2⟩ none).compute forest {}).paint forest
    lossyBackend 1 ⟨{}, 1⟩
  (failed.2.1.requestUpdate ⟨3⟩ none).compute forest {}

theorem twoButtons_reached : Reached panelOfButtons.forest ⟨0⟩ twoButtons :=
  .compute {} (.requestUpdate ⟨3⟩ none (.paint lossyBackend 1 ⟨{}, 1⟩
    (.compute {} (.requestUpdate ⟨2⟩ none .new))))

/-- Both buttons are scheduled, and the panel and the window are marked. -/
theorem marks_exact_twoButtons :
    let forest := panelOfButtons.forest
    forest.Linked ∧ Reached forest ⟨0⟩ twoButtons ∧
      twoButtons.scheduled.keys = [⟨2⟩, ⟨3⟩] ∧ twoButtons.above = [⟨0⟩, ⟨1⟩] ∧
      (∀ id region, twoButtons.region? id = some region → region.isEmpty = false) ∧
      (∀ ancestor, twoButtons.isAbove ancestor = true ↔
        ∃ id, (twoButtons.region? id).isSome = true ∧ forest.StrictlyAbove ancestor id) := by
  have linked := panelOfButtons_reachable.sound.linked
  have told := twoButtons_reached.marks_exact linked
  exact ⟨linked, twoButtons_reached, by decide +kernel, by decide +kernel, told.1, told.2.1⟩

end Damage

end StyledWidgets
