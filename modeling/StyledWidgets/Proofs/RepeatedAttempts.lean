/-
Module: StyledWidgets.Proofs.RepeatedAttempts
Purpose: An operation that is repeated while the device is lost. How often it is run, what is done
  between two attempts and which of them gives the outcome is told against the attempts that there
  would be without end. What is called is read off a log.
Main exports: retryFrom_succ, retryFrom_run, attemptState, attemptOutcome, attemptOutcome_scripted,
  firstSettled, LastAttempt, LastAttempt.count, RetryEvent, history, retryFrom_exact,
  retryOnDeviceLoss_exact
-/
import Mathlib.Data.ENat.Lattice
import StyledWidgets.Toolkit.Retry

namespace StyledWidgets

section Attempts

variable {τ α : Type} (operation : StateM τ (Except ToolkitError α)) (recreate : StateM τ Unit)

/-! ### One attempt -/

/-- A failure leads to another attempt only if it is worth one. -/
theorem retryFrom_succ (more : Nat) (state : τ) :
    retryFrom operation recreate (more + 1) state =
      match operation state with
      | (.ok value, after) => (.ok value, after)
      | (.error failure, after) =>
          if failure.isRetryable then retryFrom operation recreate more (recreate after).2
          else (.error failure, after) := by
  simp only [retryFrom, bind, StateT.bind]
  rcases operation state with ⟨failure | value, after⟩
  · cases retryable : failure.isRetryable with
    | true => simp only [retryable, if_true]; rfl
    | false => simp only [retryable, Bool.false_eq_true, if_false]; rfl
  · rfl

/-- What every attempt keeps is kept, and the last attempt is the one that counts. -/
theorem retryFrom_run (invariant : τ → Prop) (achieved : α → τ → Prop)
    (works : ∀ state, invariant state → invariant (operation state).2 ∧
      ∀ value, (operation state).1 = .ok value → achieved value (operation state).2)
    (recreates : ∀ state, invariant state → invariant (recreate state).2) (more : Nat) :
    ∀ state, invariant state → invariant (retryFrom operation recreate more state).2 ∧
      ∀ value, (retryFrom operation recreate more state).1 = .ok value →
        achieved value (retryFrom operation recreate more state).2 := by
  induction more with
  | zero => exact works
  | succ more inductionHypothesis =>
      intro state holds
      have attempt := works state holds
      rw [retryFrom_succ]
      generalize operation state = outcome at attempt
      rcases outcome with ⟨failure | value, after⟩
      · simp only
        split
        · exact inductionHypothesis _ (recreates after attempt.1)
        · exact ⟨attempt.1, fun value same => by cases same⟩
      · exact attempt

variable {operation} {more last : Nat} {state : τ} {outcomes : Nat → Except ToolkitError α}

theorem ToolkitError.isRetryable_iff {failure : ToolkitError} :
    failure.isRetryable = true ↔ failure = .deviceLost := by
  cases failure <;> simp [isRetryable]

/-- After a loss of the device the resources are recreated for the next attempt. -/
theorem retryFrom_lost (lost : (operation state).1 = .error .deviceLost) :
    retryFrom operation recreate (more + 1) state =
      retryFrom operation recreate more (recreate (operation state).2).2 := by
  rw [retryFrom_succ]
  generalize operation state = attempt at lost
  obtain ⟨outcome, after⟩ := attempt
  subst lost
  rfl

/-- Any other outcome is the last one. -/
theorem retryFrom_settled (settled : (operation state).1 ≠ .error .deviceLost) :
    retryFrom operation recreate (more + 1) state = operation state := by
  rw [retryFrom_succ]
  generalize operation state = attempt at settled
  obtain ⟨failure | value, after⟩ := attempt
  · refine if_neg fun retryable => settled ?_
    rw [ToolkitError.isRetryable_iff.mp retryable]
  · rfl

/-! ### Attempts without end -/

variable (operation)

/-- The state in which each attempt begins, counted from zero, if another one always follows: the
resources are recreated in between. -/
def attemptState (start : τ) : Nat → τ
  | 0 => start
  | i + 1 => attemptState (recreate (operation start).2).2 i

/-- The outcome of each of these attempts. -/
def attemptOutcome (start : τ) (i : Nat) : Except ToolkitError α :=
  (operation (attemptState operation recreate start i)).1

/-- The operation that gives these outcomes one after the other. -/
def scripted (outcomes : Nat → Except ToolkitError α) : StateM Nat (Except ToolkitError α) :=
  fun i => (outcomes i, i + 1)

/-- Every sequence of outcomes is that of some operation. -/
theorem attemptOutcome_scripted (outcomes : Nat → Except ToolkitError α) :
    attemptOutcome (scripted outcomes) (pure ()) 0 = outcomes := by
  have counted : ∀ i start, attemptState (scripted outcomes) (pure ()) start i = start + i := by
    intro i
    induction i with
    | zero => exact fun start => rfl
    | succ i inductionHypothesis =>
        intro start
        rw [attemptState, inductionHypothesis, Nat.add_comm i, ← Nat.add_assoc]
        rfl
  funext i
  rw [attemptOutcome, counted, Nat.zero_add]
  rfl

/-- The number of the first outcome that is not a loss of the device, counted from one. It is
infinite if there is none. -/
noncomputable def firstSettled (outcomes : Nat → Except ToolkitError α) : ℕ∞ :=
  ⨅ i, ⨅ _ : outcomes i ≠ .error .deviceLost, ((i + 1 : Nat) : ℕ∞)

/-- Of attempts with these outcomes, counted from zero, this is the last if `more` are allowed
beside the first. -/
structure LastAttempt (outcomes : Nat → Except ToolkitError α) (more last : Nat) : Prop where
  lost : ∀ i < last, outcomes i = .error .deviceLost
  within : last ≤ more
  ends : last = more ∨ outcomes last ≠ .error .deviceLost

namespace LastAttempt

/-- As many attempts are made as it takes until the device is not lost, or as are allowed. -/
theorem count (isLast : LastAttempt outcomes more last) :
    ((last + 1 : Nat) : ℕ∞) = min (firstSettled outcomes) ((more + 1 : Nat) : ℕ∞) := by
  apply le_antisymm
  · apply le_min
    · refine le_iInf₂ fun i settled => ?_
      have notBefore : ¬i < last := fun before => settled (isLast.lost i before)
      exact Nat.cast_le.mpr (by omega)
    · exact Nat.cast_le.mpr (Nat.succ_le_succ isLast.within)
  · rcases isLast.ends with allowed | settled
    · rw [allowed]
      exact min_le_right _ _
    · exact (min_le_left _ _).trans (iInf₂_le last settled)

theorem of_settled (settled : outcomes 0 ≠ .error .deviceLost) : LastAttempt outcomes more 0 where
  lost i before := absurd before (Nat.not_lt_zero i)
  within := Nat.zero_le more
  ends := Or.inr settled

theorem of_none_allowed : LastAttempt outcomes 0 0 where
  lost i before := absurd before (Nat.not_lt_zero i)
  within := Nat.le_refl 0
  ends := Or.inl rfl

theorem again (lost : outcomes 0 = .error .deviceLost)
    (rest : LastAttempt (fun i => outcomes (i + 1)) more last) :
    LastAttempt outcomes (more + 1) (last + 1) where
  lost i before := by
    cases i with
    | zero => exact lost
    | succ i => exact rest.lost i (Nat.lt_of_succ_lt_succ before)
  within := Nat.succ_le_succ rest.within
  ends := rest.ends.imp (congrArg Nat.succ) id

end LastAttempt

/-! ### What is called -/

/-- A call of the operation with its outcome, or the recreation of the resources. -/
inductive RetryEvent (α : Type) where
  | attempted (outcome : Except ToolkitError α)
  | recreated

namespace RetryEvent

def isAttempt : RetryEvent α → Bool
  | attempted _ => true
  | recreated => false

def isRecreation : RetryEvent α → Bool
  | attempted _ => false
  | recreated => true

end RetryEvent

/-- The operation, with each call of it written to a log. -/
def recordedOperation (operation : StateM τ (Except ToolkitError α)) :
    StateM (τ × List (RetryEvent α)) (Except ToolkitError α) := fun (state, log) =>
  let (outcome, after) := operation state
  (outcome, after, log ++ [.attempted outcome])

/-- The recreation of the resources, with each call of it written to a log. -/
def recordedRecreation (recreate : StateM τ Unit) : StateM (τ × List (RetryEvent α)) Unit :=
  fun (state, log) => ((), (recreate state).2, log ++ [.recreated])

/-- The first attempts up to one of them, with the resources recreated between any two of them. -/
def history (outcomes : Nat → Except ToolkitError α) (last : Nat) : List (RetryEvent α) :=
  ((List.range (last + 1)).map fun i => .attempted (outcomes i)).intersperse .recreated

theorem history_succ (outcomes : Nat → Except ToolkitError α) (last : Nat) :
    history outcomes (last + 1) =
      .attempted (outcomes 0) :: .recreated :: history (fun i => outcomes (i + 1)) last := by
  rw [history, history, List.range_succ_eq_map, List.range_succ_eq_map]
  simp only [List.map_cons, List.map_map, List.intersperse_cons_cons]
  rfl

theorem count_history (outcomes : Nat → Except ToolkitError α) (last : Nat) :
    (history outcomes last).countP RetryEvent.isAttempt = last + 1 ∧
      (history outcomes last).countP RetryEvent.isRecreation = last := by
  induction last generalizing outcomes with
  | zero => exact ⟨rfl, rfl⟩
  | succ last inductionHypothesis =>
      obtain ⟨attempts, recreations⟩ := inductionHypothesis fun i => outcomes (i + 1)
      rw [history_succ]
      constructor
      · rw [List.countP_cons_of_pos rfl, List.countP_cons_of_neg Bool.false_ne_true, attempts]
      · rw [List.countP_cons_of_neg Bool.false_ne_true, List.countP_cons_of_pos rfl, recreations]

/-- The attempts are made up to the last one, which gives the outcome. -/
theorem retryFrom_exact (more : Nat) :
    ∀ start : τ, ∃ last, LastAttempt (attemptOutcome operation recreate start) more last ∧
      retryFrom operation recreate more start =
        operation (attemptState operation recreate start last) ∧
      ∀ log, retryFrom (recordedOperation operation) (recordedRecreation recreate) more
          (start, log) =
        ((operation (attemptState operation recreate start last)).1,
          (operation (attemptState operation recreate start last)).2,
          log ++ history (attemptOutcome operation recreate start) last) := by
  induction more with
  | zero => exact fun start => ⟨0, .of_none_allowed, rfl, fun log => rfl⟩
  | succ more inductionHypothesis =>
      intro start
      by_cases lost : (operation start).1 = .error .deviceLost
      · obtain ⟨last, isLast, plain, recorded⟩ :=
          inductionHypothesis (recreate (operation start).2).2
        refine ⟨last + 1, isLast.again lost, ?_, fun log => ?_⟩
        · rw [retryFrom_lost recreate lost, plain]
          rfl
        · have lostToo : (recordedOperation operation (start, log)).1 = .error .deviceLost := lost
          rw [retryFrom_lost _ lostToo, history_succ, List.append_cons, List.append_cons]
          exact recorded _
      · refine ⟨0, .of_settled lost, retryFrom_settled recreate lost, fun log => ?_⟩
        have settled : (recordedOperation operation (start, log)).1 ≠ .error .deviceLost := lost
        rw [retryFrom_settled _ settled]
        rfl

/-- An operation is run until the device is not lost, or as often as is allowed, which is at least
once, and the last outcome is the result. Only losses of the device come before it. The resources
are recreated once between any two attempts and at no other time. -/
theorem retryOnDeviceLoss_exact (maxAttempts : Nat) (start : τ) :
    ∃ last, ((last + 1 : Nat) : ℕ∞) =
        min (firstSettled (attemptOutcome operation recreate start)) (max 1 maxAttempts : Nat) ∧
      (∀ i < last, attemptOutcome operation recreate start i = .error .deviceLost) ∧
      retryOnDeviceLoss maxAttempts operation recreate start =
        (attemptOutcome operation recreate start last,
          (operation (attemptState operation recreate start last)).2) ∧
      retryOnDeviceLoss maxAttempts (recordedOperation operation) (recordedRecreation recreate)
          (start, []) =
        (attemptOutcome operation recreate start last,
          (operation (attemptState operation recreate start last)).2,
          history (attemptOutcome operation recreate start) last) ∧
      (history (attemptOutcome operation recreate start) last).countP RetryEvent.isAttempt =
        last + 1 ∧
      (history (attemptOutcome operation recreate start) last).countP RetryEvent.isRecreation =
        last := by
  obtain ⟨last, isLast, plain, recorded⟩ :=
    retryFrom_exact operation recreate (maxAttempts - 1) start
  have allowed : maxAttempts - 1 + 1 = max 1 maxAttempts := by omega
  exact ⟨last, allowed ▸ isLast.count, isLast.lost, plain, recorded [], count_history _ last⟩

end Attempts

/-- The third attempt is allowed and succeeds. -/
example : retryOnDeviceLoss 3
    (scripted fun i => if i < 2 then .error .deviceLost else .ok i) (pure ()) 0 = (.ok 2, 3) := rfl

end StyledWidgets
