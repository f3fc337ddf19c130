/-
Module: StyledWidgets.Text.LineDiff
Purpose: The difference of two texts line by line, for people to read. Insertions of a script slide
  as far down as the lines around them allow, and join those that they meet.
Main exports: settle, lineDiff
-/
import StyledWidgets.Text.EditScript

namespace StyledWidgets.Text

/-! ### Moving insertions -/

/-- Move the deletions of every change behind its insertions. `held` has the deletions of the
change so far. -/
def deleteLast (held : List Edit) : List Edit → List Edit
  | [] => held
  | .keep line :: rest => held ++ .keep line :: deleteLast [] rest
  | .delete line :: rest => deleteLast (held ++ [.delete line]) rest
  | .insert lines :: rest => .insert lines :: deleteLast held rest

/-- An insertion with the edits before it, the nearest first, and those behind it. -/
structure Placed where
  before : List Edit
  lines : List Line
  behind : List Edit
  deriving Repr, DecidableEq, Inhabited

/-- Slide an insertion up. It passes a kept line that equals its own last line, which then stands
for the kept one, and it passes deletions. Insertions on the way join it. -/
def slideUp (lines : List Line) (behind : List Edit) : List Edit → Placed
  | [] => ⟨[], lines, behind⟩
  | .keep line :: before =>
      if lines.getLast? = some line then
        slideUp (line :: lines.dropLast) (.keep line :: behind) before
      else ⟨.keep line :: before, lines, behind⟩
  | .delete line :: before => slideUp lines (.delete line :: behind) before
  | .insert more :: before => slideUp (more ++ lines) behind before

/-- Slide an insertion down in the same way; a kept line that it passes equals its first line. -/
def slideDown (before : List Edit) (lines : List Line) : List Edit → Placed
  | [] => ⟨before, lines, []⟩
  | .keep line :: behind =>
      if lines.head? = some line then
        slideDown (.keep line :: before) (lines.tail ++ [line]) behind
      else ⟨before, lines, .keep line :: behind⟩
  | .delete line :: behind => slideDown (.delete line :: before) lines behind
  | .insert more :: behind => slideDown before (lines ++ more) behind

/-- The edit puts lines in. -/
def isInsert : Edit → Bool
  | .insert _ => true
  | _ => false

theorem countP_slideUp (lines : List Line) (behind before : List Edit) :
    (slideUp lines behind before).behind.countP isInsert = behind.countP isInsert := by
  fun_induction slideUp lines behind before with
  | case1 => rfl
  | case2 lines behind line before h ih => simpa [isInsert] using ih
  | case3 => rfl
  | case4 lines behind line before ih => simpa [isInsert] using ih
  | case5 lines behind more before ih => exact ih

theorem countP_slideDown (before : List Edit) (lines : List Line) (behind : List Edit) :
    (slideDown before lines behind).behind.countP isInsert ≤ behind.countP isInsert := by
  fun_induction slideDown before lines behind with
  | case1 => exact Nat.le_refl _
  | case2 before lines line behind h ih => simpa [isInsert] using ih
  | case3 => exact Nat.le_refl _
  | case4 before lines line behind ih => simpa [isInsert] using ih
  | case5 before lines more behind ih =>
      exact Nat.le_trans ih (by rw [List.countP_cons]; omega)

/-- Slide every insertion up and then down, from the first to the last. `before` has the edits that
are done, the latest first. Each insertion leaves those that are still to come. -/
def settleFrom (before : List Edit) : List Edit → List Edit
  | [] => before.reverse
  | .keep line :: rest => settleFrom (.keep line :: before) rest
  | .delete line :: rest => settleFrom (.delete line :: before) rest
  | .insert lines :: rest =>
      let up := slideUp lines rest before
      let down := slideDown up.before up.lines up.behind
      settleFrom (.insert down.lines :: down.before) down.behind
termination_by edits => (edits.countP isInsert, edits.length)
decreasing_by
  · exact Prod.Lex.right _ (by simp)
  · exact Prod.Lex.right _ (by simp)
  · apply Prod.Lex.left
    have hup := countP_slideUp lines rest before
    have hdown := countP_slideDown up.before up.lines up.behind
    rw [List.countP_cons]
    exact Nat.lt_succ_of_le (hup ▸ hdown)

/-- The script with its insertions in their final places. -/
def settle (edits : List Edit) : List Edit := settleFrom [] (deleteLast [] edits)

/-! ### Printing -/

/-- A line behind a sign; a line without a terminator gets one. -/
def signed (sign : Char) (line : Line) : List Char :=
  match line.getLast? with
  | some '\n' | some '\r' => sign :: line
  | _ => sign :: (line ++ ['\n'])

/-- The printed edits. In every change the deletions stand before the insertions, of which `held`
has those so far. -/
def printEdits (held : List Line) : List Edit → List Char
  | [] => held.flatMap (signed '+')
  | .keep line :: rest => held.flatMap (signed '+') ++ signed ' ' line ++ printEdits [] rest
  | .delete line :: rest => signed '-' line ++ printEdits held rest
  | .insert lines :: rest => printEdits (held ++ lines) rest

/-- The difference of two texts: lines of both behind a space, of the old one alone behind a minus
and of the new one alone behind a plus. -/
def lineDiff (old new : String) : String :=
  String.ofList
    (printEdits [] (settle (editScript (splitLines old.toList) (splitLines new.toList))))

end StyledWidgets.Text
