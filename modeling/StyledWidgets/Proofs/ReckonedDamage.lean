/-
Module: StyledWidgets.Proofs.ReckonedDamage
Purpose: Requests, places and scheduled regions reckoned with on words are those of exact numbers
  unless a word overflows. Requests for whole widgets cannot overflow.
Main exports: Forest.reckonWindowRect_yields, Damage.reckonRequestUpdate_yields,
  Damage.reckonRequestUpdate_none, Damage.reckonCompute_yields, Damage.reckonCompute_pending,
  Damage.reckonDirtyRegion_yields
-/
import StyledWidgets.Proofs.ReckonedRegions
import StyledWidgets.Proofs.RepaintOrders
import StyledWidgets.Window.ReckonedDamage

namespace StyledWidgets

open Reckoned Region

variable {forest : Forest} {settings : RepaintSettings} {damage : Damage} {id : WidgetId}
  {rect : Option Rect}

/-! ### Places in the window -/

namespace Forest

/-- The corners of a path, exactly. -/
def origins (forest : Forest) (path : List WidgetId) : List Point :=
  (path.tails.filter fun rest => !rest.isEmpty).map forest.originOf

theorem reckonOrigins_yields (path : List WidgetId) :
    (forest.reckonOrigins path).Yields (forest.origins path) := by
  induction path with
  | nil => exact .pure _
  | cons child above inductionHypothesis =>
      cases above with
      | nil => exact .pure _
      | cons parent above =>
          exact inductionHypothesis.bind ((word_yields _).bind ((word_yields _).map _))

theorem headD_origins (path : List WidgetId) :
    (forest.origins path).headD ⟨0, 0⟩ = forest.originOf path := by
  cases path with
  | nil => rfl
  | cons child above => rfl

theorem reckonWindowRect_yields : (forest.reckonWindowRect id).Yields (forest.windowRect id) := by
  rw [windowRect, ← headD_origins]
  exact (reckonOrigins_yields _).map _

theorem levelsFrom_origins (path : List WidgetId) :
    levelsFrom path (forest.origins path) = forest.levels path := by
  induction path with
  | nil => rfl
  | cons child above inductionHypothesis =>
      cases above with
      | nil => rfl
      | cons parent above => exact congrArg (_ :: ·) inductionHypothesis

end Forest

/-! ### Above a changed widget -/

theorem reckonHideBehind_yields (above : List WidgetId) (region : Region) :
    (reckonHideBehind forest above region).Yields (hideBehind forest above region) :=
  .foldlM (fun _ _ => reckonSubtractRect_yields) _ _

theorem reckonNoted_yields (forest : Forest) (level : Level) (sibling : WidgetId)
    (region : Region) :
    (reckonNoted forest level sibling region).Yields
      (let overlap := region.intersectRect (forest.geometry sibling)
      if overlap.isEmpty then none
      else some (sibling, overlap.movedBy level.origin.x level.origin.y)) := by
  refine reckonIntersectRect_yields.bind ?_
  dsimp only
  split
  · exact .pure none
  · exact reckonMovedBy_yields.map _

theorem reckonSeenThrough_yields (level : Level) (above : List WidgetId) (region : Region) :
    (reckonSeenThrough forest level above region).Yields
      (seenThrough forest level above region) := by
  have noted := (Yields.mapM (fun sibling => reckonNoted_yields forest level sibling region)
    (above.filter fun sibling => forest.isVisible sibling && !forest.isOpaque sibling)).map
    (List.filterMap id)
  rw [List.filterMap_map] at noted
  exact noted

theorem reckonClimb_yields (levels : List Level) :
    ∀ (region : Region) (noted : List (WidgetId × Region)),
      (reckonClimb forest settings levels region noted).Yields
        (climb forest settings levels region noted) := by
  induction levels with
  | nil => exact fun _ _ => .pure _
  | cons level outer inductionHypothesis =>
      intro region noted
      rw [reckonClimb, climb]
      refine reckonMovedBy_yields.bind (reckonIntersectRect_yields.bind ?_)
      dsimp only
      split
      · exact .pure none
      · split
        · exact inductionHypothesis _ _
        · refine (reckonHideBehind_yields _ _).bind ?_
          split
          · exact .pure none
          · exact (reckonSeenThrough_yields _ _ _).bind (inductionHypothesis _ _)

/-! ### The damage of a window -/

namespace Damage

theorem reckonJoin_yields (earlier : Option Rect) :
    (reckonJoin earlier rect).Yields (joinRequests earlier rect) := by
  cases earlier with
  | none => exact .pure _
  | some a =>
      cases rect with
      | none => exact .pure _
      | some b => exact Rect.reckonUnited_yields.map _

/-- Strips whose bounding rectangle is too wide for a word, and a part of a window. Each of them has
its edges in words. -/
def wideStrips : List Rect :=
  [⟨-2000000000, 0, 2000000010, 10⟩, ⟨50, 0, 2000000000, 10⟩, ⟨20, 0, 1, 1⟩]

/-- With the first two strips joined, the width wraps around. What is joined seems to be empty, and
with the third it is given up. -/
example : (wideStrips.map some).foldlM reckonJoin (some Rect.zero) =
    ⟨some ⟨20, 0, 1, 1⟩, true⟩ := by decide

theorem reckonRequestUpdate_yields :
    (damage.reckonRequestUpdate id rect).Yields (damage.requestUpdate id rect) := by
  rw [reckonRequestUpdate, requestUpdate]
  cases damage.pending.find? id with
  | none => exact .pure _
  | some earlier => exact (reckonJoin_yields earlier).map _

/-- A request for a whole widget needs no numbers. -/
theorem reckonRequestUpdate_none :
    damage.reckonRequestUpdate id none = pure (damage.requestUpdate id none) := by
  rw [reckonRequestUpdate, requestUpdate]
  cases damage.pending.find? id with
  | none => rfl
  | some earlier => cases earlier <;> rfl

theorem reckonDirtyRegion_yields : damage.reckonDirtyRegion.Yields damage.dirtyRegion :=
  .foldlM (fun _ _ => reckonUnionRegion_yields) _ _

theorem reckonSchedule_yields {region : Region} :
    (damage.reckonSchedule forest settings id region).Yields
      (damage.schedule forest settings id region) :=
  reckonUnionRegion_yields.bind ((reckonSimplify_yields _).map _)

theorem reckonScheduleAll_yields (regions : List (WidgetId × Region)) :
    (damage.reckonScheduleAll forest settings regions).Yields
      (damage.scheduleAll forest settings regions) :=
  .foldlM (fun _ _ => reckonSchedule_yields) _ _

/-- Where nothing is left of a region, no sibling shows through it. -/
theorem showSiblings_of_isEmpty (origin : Point) {behind : Region}
    (covered : behind.isEmpty = true) (lower : List WidgetId) :
    showSiblings forest settings origin lower behind damage = (behind, damage) := by
  obtain ⟨rects⟩ := behind
  obtain rfl := List.isEmpty_iff.mp covered
  induction lower with
  | nil => rfl
  | cons sibling lower inductionHypothesis =>
      rw [showSiblings]
      simpa [intersectRect, Region.isEmpty] using inductionHypothesis

theorem reckonShowSiblings_yields (origin : Point) (lower : List WidgetId) :
    ∀ (behind : Region) (damage : Damage),
      (reckonShowSiblings forest settings origin lower behind damage).Yields
        (showSiblings forest settings origin lower behind damage) := by
  induction lower with
  | nil => exact fun _ _ => .pure _
  | cons sibling lower inductionHypothesis =>
      intro behind damage
      rw [reckonShowSiblings, showSiblings]
      cases visible : forest.isVisible sibling with
      | false => exact inductionHypothesis _ _
      | true =>
          refine Rect.reckonMovedBy_yields.bind (reckonIntersectRect_yields.bind ?_)
          simp only [Bool.not_true, Bool.false_or]
          split
          case isTrue => exact inductionHypothesis _ _
          case isFalse =>
            refine reckonSchedule_yields.bind ?_
            cases forest.isOpaque sibling with
            | false => exact inductionHypothesis _ _
            | true =>
                refine reckonSubtractRect_yields.bind ?_
                simp only [if_true]
                split
                case isTrue covered =>
                  -- The exact walk goes on below and finds nothing more to do.
                  rw [showSiblings_of_isEmpty origin covered]
                  exact .pure _
                case isFalse => exact inductionHypothesis _ _

theorem reckonShowBelow_yields (level : Level) (behind : Region) :
    (reckonShowBelow forest settings level behind damage).Yields
      (if skipsSiblings forest settings level then (behind, damage)
      else showSiblings forest settings level.origin
        (forest.siblingsBelow level.parent level.child) behind damage) := by
  rw [reckonShowBelow]
  split
  · exact .pure _
  · exact reckonShowSiblings_yields _ _ _ _

theorem reckonShowBehind_yields (levels : List Level) :
    ∀ (behind : Region) (damage : Damage),
      (reckonShowBehind forest settings levels behind damage).Yields
        (showBehind forest settings levels behind damage) := by
  induction levels with
  | nil => exact fun _ _ => .pure _
  | cons level outer inductionHypothesis =>
      intro behind damage
      rw [reckonShowBehind, showBehind]
      refine (reckonShowBelow_yields level behind).bind ?_
      generalize (if skipsSiblings forest settings level = true then (behind, damage)
        else showSiblings forest settings level.origin
          (forest.siblingsBelow level.parent level.child) behind damage) = shown
      dsimp only
      split
      · exact .pure _
      · refine reckonSchedule_yields.bind ?_
        split
        · exact .pure _
        · exact inductionHypothesis _ _

theorem reckonScheduleVisible_yields (levels : List Level) (part : Rect) :
    (damage.reckonScheduleVisible forest settings id levels part).Yields
      (damage.scheduleVisible forest settings id levels part) := by
  refine (reckonClimb_yields levels _ _).bind ?_
  rw [scheduleVisible]
  cases climb forest settings levels (Region.ofRect part) [] with
  | none => exact .pure _
  | some seen =>
      obtain ⟨region, noted⟩ := seen
      refine reckonSchedule_yields.bind ?_
      refine (Yields.mapM (fun _ => reckonIntersectRegion_yields.map _) noted).bind ?_
      refine (reckonScheduleAll_yields _).bind ?_
      dsimp only
      split
      · exact .pure _
      · exact reckonShowBehind_yields _ _ _

theorem reckonPart_yields :
    (reckonPart (forest.geometry id).atOrigin rect).Yields (requestedPart forest id rect) := by
  cases rect with
  | none => exact .pure _
  | some rect => exact Rect.reckonIntersect_yields

theorem reckonProcess_yields :
    (damage.reckonProcess forest settings id rect).Yields
      (damage.process forest settings id rect) := by
  rw [reckonProcess, process]
  dsimp only
  split
  · exact .pure _
  · split
    · exact .pure _
    · refine (Forest.reckonOrigins_yields _).bind ?_
      rw [Forest.levelsFrom_origins]
      refine reckonPart_yields.bind ?_
      change Yields _ (if (requestedPart forest id rect).isEmpty then damage
        else damage.scheduleVisible forest settings id (forest.levels (forest.path id))
          (requestedPart forest id rect))
      split
      · exact .pure _
      · exact reckonScheduleVisible_yields _ _

theorem reckonCompute_yields :
    (damage.reckonCompute forest settings).Yields (damage.compute forest settings) :=
  .foldlM (fun _ _ => reckonProcess_yields) _ _

/-! ### What computations keep, whatever overflows -/

section Kept

variable {motive : Damage → Prop}
  (step : ∀ damage id region, motive damage →
    motive (damage.reckonSchedule forest settings id region).value)

include step

theorem reckonScheduleAll_kept (regions : List (WidgetId × Region)) :
    ∀ damage, motive damage →
      motive (damage.reckonScheduleAll forest settings regions).value := by
  refine foldlM_kept ?_ regions
  intro damage entry holds
  exact step damage entry.1 entry.2 holds

theorem reckonShowSiblings_kept (origin : Point) (lower : List WidgetId) :
    ∀ behind damage, motive damage →
      motive (reckonShowSiblings forest settings origin lower behind damage).value.2 := by
  induction lower with
  | nil => exact fun _ _ holds => holds
  | cons sibling lower inductionHypothesis =>
      intro behind damage holds
      rw [reckonShowSiblings]
      split
      · exact inductionHypothesis _ _ holds
      · simp only [value_bind]
        split
        · exact inductionHypothesis _ _ holds
        · have scheduled := fun region => step damage sibling region holds
          rw [value_bind]
          split
          · rw [value_bind]
            split
            · exact scheduled _
            · exact inductionHypothesis _ _ (scheduled _)
          · exact inductionHypothesis _ _ (scheduled _)

theorem reckonShowBehind_kept (levels : List Level) :
    ∀ behind damage, motive damage →
      motive (reckonShowBehind forest settings levels behind damage).value := by
  induction levels with
  | nil => exact fun _ _ holds => holds
  | cons level outer inductionHypothesis =>
      intro behind damage holds
      have shown : motive (reckonShowBelow forest settings level behind damage).value.2 := by
        rw [reckonShowBelow]
        split
        · exact holds
        · exact reckonShowSiblings_kept step _ _ _ _ holds
      rw [reckonShowBehind, value_bind]
      simp only
      split
      · exact shown
      · rw [value_bind]
        split
        · exact step _ _ _ shown
        · exact inductionHypothesis _ _ (step _ _ _ shown)

/-- What scheduling a region keeps, turning a request into regions keeps. -/
theorem reckonProcess_kept (holds : motive damage) :
    motive (damage.reckonProcess forest settings id rect).value := by
  simp only [reckonProcess]
  split
  · exact holds
  · split
    · exact holds
    · simp only [value_bind]
      split
      · exact holds
      · rw [reckonScheduleVisible, value_bind]
        split
        · exact holds
        · have scheduled := fun region regions =>
            reckonScheduleAll_kept step regions _ (step damage id region holds)
          simp only [value_bind]
          split
          · exact scheduled _ _
          · exact reckonShowBehind_kept step _ _ _ (scheduled _ _)

end Kept

/-- A computation leaves no request. -/
theorem reckonCompute_pending : (damage.reckonCompute forest settings).value.pending = ∅ := by
  refine foldlM_kept (motive := fun damage : Damage => damage.pending = ∅) ?_ _ _ rfl
  intro damage request none
  exact reckonProcess_kept (motive := fun damage => damage.pending = ∅) (fun _ _ _ none => none)
    none

end Damage

end StyledWidgets
