/-
Module: StyledWidgets.Proofs.ReckonedPainting
Purpose: A painting reckoned with on words is the painting in exact numbers unless a word overflows.
  The walk that takes turns with the drawing draws the plan of the window, item by item, and ends
  where the backend fails.
Main exports: ReckonedM.Follows, Damage.reckonPaintWithin_follows, Damage.reckonPaint_yields
-/
import StyledWidgets.Proofs.PaintedPixels
import StyledWidgets.Proofs.ReckonedDamage
import StyledWidgets.Window.ReckonedPaint

namespace StyledWidgets

open Reckoned

/-! ### Steps that reckon -/

namespace ReckonedM

variable {ε τ α β : Type} {step : ReckonedM ε τ α} {exact : ExceptT ε (StateM τ) α}

theorem bind_run (step : ReckonedM ε τ α) (next : α → ReckonedM ε τ β) (state : τ) :
    ((step >>= next).run state : Reckoned (Except ε β × τ)) =
      step.run state >>= fun outcome =>
        match outcome with
        | (.ok value, after) => (next value).run after
        | (.error failure, after) => Pure.pure (.error failure, after) := by
  rw [ExceptT.run_bind]
  change StateT.bind _ _ state = _
  rw [StateT.bind]
  refine congrArg ((step.run state : Reckoned (Except ε α × τ)) >>= ·) (funext ?_)
  rintro ⟨failure | value, after⟩
  · rfl
  · rfl

/-- From every state, the step does what the exact one does unless a word overflows. -/
def Follows (step : ReckonedM ε τ α) (exact : ExceptT ε (StateM τ) α) : Prop :=
  ∀ state, (step.run state : Reckoned (Except ε α × τ)).Yields (exact.run state)

namespace Follows

theorem pure (value : α) : (Pure.pure value : ReckonedM ε τ α).Follows (Pure.pure value) :=
  fun _ => .pure _

theorem carry (exact : ExceptT ε (StateM τ) α) : (carry exact).Follows exact := fun _ => .pure _

theorem bind {next : α → ReckonedM ε τ β} {nextToo : α → ExceptT ε (StateM τ) β}
    (first : step.Follows exact) (later : ∀ a, (next a).Follows (nextToo a)) :
    (step >>= next).Follows (exact >>= nextToo) := by
  intro state
  rw [run_bind, bind_run]
  refine (first state).bind ?_
  rcases exact.run state with ⟨failure | value, after⟩
  · exact .pure _
  · exact later value after

/-- A step that only reckons leaves no trace but its number. -/
theorem reckon_bind {number : Reckoned β} {value : β} {next : β → ReckonedM ε τ α}
    (yields : number.Yields value) (later : (next value).Follows exact) :
    (reckon number >>= next).Follows exact := by
  intro state
  rw [bind_run]
  exact (yields.map fun value => (Except.ok value, state)).bind (later state)

end Follows

end ReckonedM

open ReckonedM

/-! ### The walk -/

namespace Damage

variable {σ : Type} {forest : Forest} {damage : Damage} {backend : Backend σ} {id : WidgetId}
  {rect : Rect} {inherited : Region}

theorem reckonClipOf_yields :
    (damage.reckonClipOf inherited id rect).Yields (damage.clipOf inherited id rect) := by
  rw [reckonClipOf, clipOf]
  cases damage.region? id with
  | none => exact Region.reckonIntersectRect_yields
  | some own => exact Region.reckonUnionRegion_yields.bind Region.reckonIntersectRect_yields

/-- What is passed on to a child, exactly. -/
def passedOn (damage : Damage) (clip : Region) (child : WidgetId) (childRect : Rect) :
    Option Region :=
  if (damage.region? child).isSome || clip.intersectsRect childRect then some clip
  else if damage.isAbove child then some Region.empty else none

theorem reckonPassedOn_yields {clip : Region} :
    (damage.reckonPassedOn clip id rect).Yields (damage.passedOn clip id rect) := by
  rw [reckonPassedOn, passedOn]
  cases (damage.region? id).isSome with
  | true => exact .pure _
  | false => exact Region.reckonIntersectsRect_yields.map _

/-- The plan of a visible widget: the widget itself, unless nothing of it is to be drawn, and the
plans of the children to which something is passed on. -/
theorem planWithin_succ (depth : Nat) (visible : forest.isVisible id = true) :
    damage.planWithin forest (depth + 1) id rect inherited =
      (if (damage.clipOf inherited id rect).isEmpty then []
        else [⟨id, rect, damage.clipOf inherited id rect⟩]) ++
      (forest.children id).flatMap fun child =>
        match damage.passedOn (damage.clipOf inherited id rect) child
            ((forest.geometry child).movedBy rect.x rect.y) with
        | some passed =>
            damage.planWithin forest depth child ((forest.geometry child).movedBy rect.x rect.y)
              passed
        | none => [] := by
  rw [planWithin, if_pos visible]
  refine congrArg (_ ++ List.flatMap · _) (funext fun child => ?_)
  dsimp only [passedOn]
  split
  · rfl
  · split <;> rfl

theorem drawItems_append (items later : List DrawItem) :
    drawItems forest backend (items ++ later) =
      drawItems forest backend items >>= fun _ => drawItems forest backend later := by
  induction items with
  | nil => rw [List.nil_append, drawItems, pure_bind]
  | cons item items inductionHypothesis =>
      rw [List.cons_append, drawItems, drawItems, inductionHypothesis, bind_assoc]

/-- Draw items after some that have been drawn; the number of all of them. -/
def drawAfter (forest : Forest) (backend : Backend σ) (drawn : Nat) (items : List DrawItem) :
    PaintM σ Nat := do
  drawItems forest backend items
  return drawn + items.length

theorem drawAfter_append (drawn : Nat) (items later : List DrawItem) :
    drawAfter forest backend drawn (items ++ later) =
      drawAfter forest backend drawn items >>= fun drawn =>
        drawAfter forest backend drawn later := by
  simp only [drawAfter, drawItems_append, bind_assoc, pure_bind, List.length_append, Nat.add_assoc]

theorem drawUnlessEmpty_eq (item : DrawItem) :
    drawUnlessEmpty forest backend item =
      drawAfter forest backend 0 (if item.clip.isEmpty then [] else [item]) := by
  rw [drawUnlessEmpty, drawAfter]
  split
  · rw [drawItems, pure_bind]
    rfl
  · simp only [drawItems, bind_assoc, pure_bind]
    rfl

/-- The walk draws the plan, as far as the backend lets it. -/
theorem reckonPaintWithin_follows (depth : Nat) :
    ∀ (id : WidgetId) (rect : Rect) (inherited : Region),
      (damage.reckonPaintWithin forest backend depth id rect inherited).Follows
        (drawAfter forest backend 0 (damage.planWithin forest depth id rect inherited)) := by
  induction depth with
  | zero => exact fun _ _ _ => .pure 0
  | succ depth inductionHypothesis =>
      intro id rect inherited
      cases visible : forest.isVisible id with
      | false =>
          rw [reckonPaintWithin, planWithin, visible]
          exact .pure 0
      | true =>
          rw [reckonPaintWithin, planWithin_succ depth visible, visible, drawAfter_append,
            if_pos rfl]
          refine .reckon_bind reckonClipOf_yields ?_
          rw [← drawUnlessEmpty_eq ⟨id, rect, damage.clipOf inherited id rect⟩]
          refine Follows.bind (.carry _) ?_
          generalize damage.clipOf inherited id rect = clip
          induction forest.children id with
          | nil => exact fun drawn => .pure drawn
          | cons child others followsOthers =>
              intro drawn
              rw [List.foldlM_cons, List.flatMap_cons, drawAfter_append]
              refine Follows.bind ?_ followsOthers
              refine .reckon_bind Rect.reckonMovedBy_yields ?_
              refine .reckon_bind reckonPassedOn_yields ?_
              cases damage.passedOn clip child ((forest.geometry child).movedBy rect.x rect.y) with
              | none => exact .pure drawn
              | some passed =>
                  have walk := inductionHypothesis child
                    ((forest.geometry child).movedBy rect.x rect.y) passed
                  have counted := walk.bind fun more => Follows.pure (drawn + more)
                  simpa only [drawAfter, bind_assoc, pure_bind, Nat.zero_add] using counted

/-! ### Passes -/

theorem reckonPass_follows (dirty : Region) :
    (damage.reckonPass forest backend dirty).Follows
      (paintPass forest backend dirty (damage.plan forest) >>= fun _ =>
        pure (damage.plan forest).length) := by
  have turns : (paintPass forest backend dirty (damage.plan forest) >>= fun _ =>
        pure (damage.plan forest).length) =
      PaintM.call (backend.start dirty) >>= fun _ =>
        drawAfter forest backend 0 (damage.plan forest) >>= fun drawn =>
          PaintM.call backend.finish >>= fun _ => pure drawn := by
    simp only [paintPass, drawAfter, bind_assoc, pure_bind, Nat.zero_add]
  rw [turns]
  refine Follows.bind (.carry _) fun _ => ?_
  refine Follows.bind (reckonPaintWithin_follows _ _ _ _) fun drawn => ?_
  exact Follows.bind (.carry _) fun _ => .pure drawn

/-- An outcome with another value in the place of the one of a success. -/
def withValue {ε α β τ : Type} (value : α) (result : Except ε β × τ) : Except ε α × τ :=
  (result.1.map fun _ => value, result.2)

theorem run_bind_pure {ε α β τ : Type} (step : ExceptT ε (StateM τ) β) (value : α) (state : τ) :
    (step >>= fun _ => pure value).run state = withValue value (step.run state) := by
  rw [ExceptT.run_bind]
  simp only [bind, StateT.bind]
  rcases step.run state with ⟨failure | _, after⟩
  · rfl
  · rfl

theorem reckonAttempt_yields (dirty : Region) (state : PaintState σ) :
    (damage.reckonAttempt forest backend dirty state).Yields
      (withValue (damage.plan forest).length
        (attemptPass forest backend dirty (damage.plan forest) state)) := by
  have pass : ((damage.reckonPass forest backend dirty).run state : Reckoned _).Yields _ :=
    reckonPass_follows dirty state
  rw [run_bind_pure] at pass
  refine pass.bind ?_
  simp only [attemptPass, bind, StateT.bind]
  rcases (paintPass forest backend dirty (damage.plan forest)).run state with ⟨failure | _, after⟩
  · exact .pure _
  · exact .pure _

/-- Attempts that follow each other one by one do so when they are repeated. -/
theorem retryFrom_yields {α β τ : Type} {value : α}
    {operation : StateT τ Reckoned (Except ToolkitError α)}
    {exact : StateM τ (Except ToolkitError β)} {recreate : StateM τ Unit}
    (each : ∀ state, (operation state).Yields (withValue value (exact state))) (more : Nat) :
    ∀ state, (retryFrom operation (fun state => pure (recreate state)) more state).Yields
      (withValue value (retryFrom exact recreate more state)) := by
  induction more with
  | zero => exact each
  | succ more inductionHypothesis =>
      intro state
      rw [retryFrom_succ]
      rw [retryFrom]
      change (StateT.bind operation _ state).Yields _
      rw [StateT.bind]
      refine (each state).bind ?_
      rcases exact state with ⟨failure | _, after⟩
      · simp only [withValue, Except.map]
        cases retryable : failure.isRetryable with
        | true => exact inductionHypothesis _
        | false => exact .pure _
      · exact .pure _

theorem reckonPaint_yields (maxAttempts : Nat) (state : PaintState σ) :
    (damage.reckonPaint forest backend maxAttempts state).Yields
      (damage.paint forest backend maxAttempts state) := by
  refine reckonDirtyRegion_yields.bind ?_
  rw [paint]
  dsimp only
  split
  · exact .pure _
  · refine (retryFrom_yields (reckonAttempt_yields _) _ state).bind ?_
    rw [paintPasses, retryOnDeviceLoss]
    rcases retryFrom (attemptPass forest backend damage.dirtyRegion (damage.plan forest))
      (recreateBackend backend) (maxAttempts - 1) state with ⟨failure | _, after⟩
    · exact .pure _
    · exact Region.reckonBoundingRect_yields.map _

end Damage

end StyledWidgets
