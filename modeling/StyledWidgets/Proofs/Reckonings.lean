/-
Module: StyledWidgets.Proofs.Reckonings
Purpose: A computation on words that does not overflow gives what the computation in exact numbers
  gives, as soon as each of its steps does.
Main exports: Reckoned.Yields, word_yields, Reckoned.Yields.bind, Reckoned.Yields.mapM,
  Reckoned.Yields.foldlM, Reckoned.Yields.anyM
-/
import Mathlib.Tactic.Common
import StyledWidgets.Number.Reckoned

namespace StyledWidgets

namespace Reckoned

variable {α β : Type}

@[simp]
theorem value_pure (value : α) : (pure value : Reckoned α).value = value := rfl

@[simp]
theorem overflowed_pure (value : α) : (pure value : Reckoned α).overflowed = false := rfl

@[simp]
theorem value_bind (first : Reckoned α) (next : α → Reckoned β) :
    (first >>= next).value = (next first.value).value := rfl

@[simp]
theorem overflowed_bind (first : Reckoned α) (next : α → Reckoned β) :
    (first >>= next).overflowed = (first.overflowed || (next first.value).overflowed) := rfl

instance : LawfulMonad Reckoned :=
  LawfulMonad.mk' Reckoned
    (fun reckoned => by
      obtain ⟨value, overflowed⟩ := reckoned
      change (⟨value, overflowed || false⟩ : Reckoned _) = ⟨value, overflowed⟩
      rw [Bool.or_false])
    (fun value next => by
      change (⟨(next value).value, false || (next value).overflowed⟩ : Reckoned _) = next value
      rw [Bool.false_or])
    (fun first next last => by
      change (⟨_, (first.overflowed || _) || _⟩ : Reckoned _) = ⟨_, first.overflowed || (_ || _)⟩
      rw [Bool.or_assoc]
      rfl)

/-- The last step of a fold. -/
theorem foldlM_push (f : β → α → Reckoned β) (start : β) (list : List α) (last : α) :
    (list ++ [last]).foldlM f start = list.foldlM f start >>= fun before => f before last := by
  simp only [List.foldlM_append, List.foldlM_cons, List.foldlM_nil, bind_pure]

/-- What each step of a fold keeps, the fold keeps, whatever overflows. -/
theorem foldlM_kept {motive : β → Prop} {f : β → α → Reckoned β}
    (step : ∀ b a, motive b → motive (f b a).value) (list : List α) :
    ∀ start, motive start → motive (list.foldlM f start).value := by
  induction list with
  | nil => exact fun _ holds => holds
  | cons a rest inductionHypothesis =>
      intro start holds
      rw [List.foldlM_cons, value_bind]
      exact inductionHypothesis _ (step start a holds)

/-- If nothing overflows, the computation gives the exact value. -/
def Yields (reckoned : Reckoned α) (exact : α) : Prop :=
  reckoned.overflowed = false → reckoned.value = exact

end Reckoned

open Reckoned

theorem word_yields (n : Int) : (word n).Yields n := by
  intro fits
  simpa [word] using fits

namespace Reckoned.Yields

variable {α β : Type} {reckoned : Reckoned α} {exact : α}

theorem pure (value : α) : (Pure.pure value : Reckoned α).Yields value := fun _ => rfl

/-- What a computation gives without an overflow is the exact value. -/
theorem eq {value : α} (yields : reckoned.Yields exact) (gives : reckoned = ⟨value, false⟩) :
    exact = value := by
  subst gives
  exact (yields rfl).symm

theorem bind {next : α → Reckoned β} {result : β} (first : reckoned.Yields exact)
    (later : (next exact).Yields result) : (reckoned >>= next).Yields result := by
  intro fits
  rw [overflowed_bind, Bool.or_eq_false_iff] at fits
  rw [value_bind]
  rw [first fits.1] at fits ⊢
  exact later fits.2

theorem map (yields : reckoned.Yields exact) (f : α → β) :
    (reckoned >>= fun value => Pure.pure (f value)).Yields (f exact) :=
  yields.bind (pure _)

theorem mapM {f : α → Reckoned β} {g : α → β} (each : ∀ a, (f a).Yields (g a)) (list : List α) :
    (list.mapM f).Yields (list.map g) := by
  induction list with
  | nil => exact pure _
  | cons a rest inductionHypothesis =>
      rw [List.mapM_cons]
      exact (each a).bind (inductionHypothesis.map _)

theorem foldlM {f : β → α → Reckoned β} {g : β → α → β} (each : ∀ b a, (f b a).Yields (g b a))
    (list : List α) : ∀ start, (list.foldlM f start).Yields (list.foldl g start) := by
  induction list with
  | nil => exact pure
  | cons a rest inductionHypothesis =>
      intro start
      rw [List.foldlM_cons]
      exact (each start a).bind (inductionHypothesis _)

theorem anyM {f : α → Reckoned Bool} {g : α → Bool} (each : ∀ a, (f a).Yields (g a))
    (list : List α) : (list.anyM f).Yields (list.any g) := by
  induction list with
  | nil => exact pure _
  | cons a rest inductionHypothesis =>
      rw [List.anyM, List.any_cons]
      refine (each a).bind ?_
      cases g a with
      | true => exact pure _
      | false => exact inductionHypothesis

end Reckoned.Yields

end StyledWidgets
