/-
Module: StyledWidgets.Proofs.CommentPlaces
Purpose: What a comment does to the text around it. The scan for comments is a step from character
  to character; a comment that is put where the scan stands outside of comments and strings leaves
  the steps in front of it as they were and is dropped itself. What is behind it is scanned behind a
  slash: a quote that opened a string there no longer does, and the text of that string is searched
  for comments.
Main exports: CommentScan.step, passOver, stripFrom_append, passOver_congr, stripComments_comment,
  ReadsAlike, stripFrom_behind_slash, readsAlike_of_plain, stripComments_commented
-/
import Mathlib.Data.List.Infix
import StyledWidgets.Proofs.ScannedText
import StyledWidgets.Sheet.Reader

namespace StyledWidgets.Text

/-! ### Steps of the scan -/

/-- The scan at the character `c`: whether the character is copied, and where the scan stands behind
it. -/
def CommentScan.step (before : Option Char) (c : Char) (rest : List Char) :
    CommentScan → Bool × CommentScan
  | .copying (left + 1) => (true, .copying left)
  | .copying 0 =>
      if c = '\\' then (true, .copying 1)
      else if c = '/' ∧ rest.head? = some '*' then (false, .dropping 1)
      else (true, .copying ((if opensString before c then stringLength c rest else none).getD 0))
  | .dropping (left + 1) => (false, .dropping left)
  | .dropping 0 =>
      if c = '*' ∧ rest.head? = some '/' then (false, .closing) else (false, .dropping 0)
  | .closing => (false, .copying 0)

/-- What is copied of a text and where the scan stands behind it, if `rest` follows. -/
def passOver (rest : List Char) :
    Option Char → CommentScan → List Char → List Char × CommentScan
  | _, scan, [] => ([], scan)
  | before, scan, c :: later =>
      let step := scan.step before c (later ++ rest)
      let further := passOver rest (some c) step.2 later
      (if step.1 then c :: further.1 else further.1, further.2)

theorem stripFrom_cons (before : Option Char) (scan : CommentScan) (c : Char) (rest : List Char) :
    stripFrom before scan (c :: rest) =
      if (scan.step before c rest).1 then
        c :: stripFrom (some c) (scan.step before c rest).2 rest
      else stripFrom (some c) (scan.step before c rest).2 rest := by
  cases scan with
  | copying shielded =>
      cases shielded with
      | succ left => rfl
      | zero =>
          simp only [stripFrom, CommentScan.step]
          split
          case isTrue => rfl
          case isFalse =>
            split
            case isTrue => rfl
            case isFalse =>
              cases if opensString before c then stringLength c rest else none <;> rfl
  | dropping skipped =>
      cases skipped with
      | succ left => rfl
      | zero =>
          simp only [stripFrom, CommentScan.step]
          split <;> rfl
  | closing => rfl

/-- A text is scanned up to any place, and then from there. -/
theorem stripFrom_append (front rest : List Char) :
    ∀ (before : Option Char) (scan : CommentScan),
      stripFrom before scan (front ++ rest) = (passOver rest before scan front).1 ++
        stripFrom (lastOf before front) (passOver rest before scan front).2 rest := by
  induction front with
  | nil => exact fun _ _ => rfl
  | cons c later inductionHypothesis =>
      intro before scan
      rw [List.cons_append, stripFrom_cons, inductionHypothesis, lastOf_cons, passOver]
      split <;> rfl

/-- What an opened string shields is copied, and no more than that is shielded behind it. -/
theorem passOver_shielded (rest text : List Char) (left : Nat) :
    ∀ before, passOver rest before (.copying (left + text.length)) text =
      (text, .copying left) := by
  induction text with
  | nil => exact fun _ => rfl
  | cons c later inductionHypothesis =>
      intro before
      have step : CommentScan.step before c (later ++ rest)
          (.copying (left + (c :: later).length)) = (true, .copying (left + later.length)) := rfl
      rw [passOver, step, inductionHypothesis]
      rfl

/-! ### Another text behind -/

/-- Behind a text in which the scan ends up outside of everything, the one text can be replaced by
the other: it does not open a comment together with a slash, and it closes no string that reaches
it from outside. -/
structure Replaces (rest other : List Char) : Prop where
  noStar : other.head? ≠ some '*'
  unclosed : ∀ {before : Option Char} {quote : Char}, opensString before quote = true →
    stringLength quote rest = none → stringLength quote other = none

section Replaced

variable {rest other : List Char} (replaces : Replaces rest other)

include replaces

/-- A string that opens in a text is closed in it if it does not shield what is behind. -/
theorem stringLength_congr {before : Option Char} {c : Char} {later : List Char}
    (opens : opensString before c = true) (noEscape : '\\' ∉ later)
    (outside : (passOver rest (some c) (.copying ((stringLength c (later ++ rest)).getD 0))
      later).2 = .copying 0) :
    stringLength c (later ++ other) = stringLength c (later ++ rest) := by
  rcases @stringLength_append c later noEscape with ⟨length, -, closed⟩ | unclosed | passed
  · rw [closed, closed]
  · rw [unclosed, unclosed]
  · cases closed : stringLength c rest with
    | none => rw [passed, passed, closed, replaces.unclosed opens closed]
    | some length =>
        obtain ⟨inner, behind, -, rfl⟩ := exists_of_stringLength rest closed
        rw [passed, closed, Option.map_some, Option.getD_some, passOver_shielded] at outside
        cases outside

/-- A step looks only so far ahead that it does not matter what is behind. -/
theorem step_congr {before : Option Char} {scan : CommentScan} {c : Char} {later : List Char}
    (noEscape : '\\' ∉ c :: later)
    (outside : (passOver rest (some c) (scan.step before c (later ++ rest)).2 later).2 =
      .copying 0) :
    scan.step before c (later ++ other) = scan.step before c (later ++ rest) := by
  rw [List.mem_cons, not_or] at noEscape
  have plain : c ≠ '\\' := Ne.symm noEscape.1
  cases scan with
  | closing => rfl
  | dropping skipped =>
      cases skipped with
      | succ left => rfl
      | zero =>
          cases later with
          | cons d further => rfl
          | nil =>
              -- Inside a comment the last character leads to its end at most.
              simp only [CommentScan.step, passOver] at outside
              split at outside <;> cases outside
  | copying shielded =>
      cases shielded with
      | succ left => rfl
      | zero =>
          have sameOpening : (c = '/' ∧ (later ++ other).head? = some '*') ↔
              (c = '/' ∧ (later ++ rest).head? = some '*') := by
            cases later with
            | cons d further => exact Iff.rfl
            | nil =>
                refine iff_of_false (fun opens => replaces.noStar opens.2) fun opens => ?_
                rw [CommentScan.step, if_neg plain, if_pos opens] at outside
                cases outside
          by_cases opening : c = '/' ∧ (later ++ rest).head? = some '*'
          · rw [CommentScan.step, CommentScan.step, if_neg plain, if_neg plain, if_pos opening,
              if_pos (sameOpening.mpr opening)]
          · have copied : ∀ text, ¬(c = '/' ∧ (later ++ text).head? = some '*') →
                CommentScan.step before c (later ++ text) (.copying 0) =
                  (true, .copying ((if opensString before c then stringLength c (later ++ text)
                    else none).getD 0)) := by
              intro text noOpening
              rw [CommentScan.step, if_neg plain, if_neg noOpening]
            rw [copied rest opening] at outside
            rw [copied rest opening, copied other fun opens => opening (sameOpening.mp opens)]
            by_cases opens : opensString before c = true
            · rw [if_pos opens] at outside
              rw [if_pos opens, if_pos opens,
                stringLength_congr replaces opens noEscape.2 outside]
            · rw [if_neg opens, if_neg opens]

/-- What is behind a text does not matter to the scan of it. -/
theorem passOver_congr {front : List Char} (noEscape : '\\' ∉ front) :
    ∀ {before : Option Char} {scan : CommentScan},
      (passOver rest before scan front).2 = .copying 0 →
        passOver other before scan front = passOver rest before scan front := by
  induction front with
  | nil => exact fun _ => rfl
  | cons c later inductionHypothesis =>
      intro before scan outside
      have further := inductionHypothesis (fun member => noEscape (List.mem_cons_of_mem _ member))
        outside
      have step := step_congr replaces noEscape outside
      rw [passOver, passOver, step, further]

end Replaced

/-! ### Comments -/

/-- A comment. -/
def comment (body : List Char) : List Char := '/' :: '*' :: (body ++ ['*', '/'])

/-- The scan comes to the end of `front` outside of comments and strings, if `rest` follows. -/
def Outside (front rest : List Char) : Prop :=
  (passOver rest none (.copying 0) front).2 = .copying 0

instance (front rest : List Char) : Decidable (Outside front rest) :=
  inferInstanceAs (Decidable (_ = _))

/-- The text can be the inside of a comment: nothing in it closes the comment, and it has no
quotes. -/
structure IsCommentBody (body : List Char) : Prop where
  unclosed : ¬['*', '/'] <:+: body
  noQuote : ∀ c ∈ body, c ≠ '"' ∧ c ≠ '\''

instance : DecidablePred IsCommentBody := fun body =>
  decidable_of_iff (¬['*', '/'] <:+: body ∧ ∀ c ∈ body, c ≠ '"' ∧ c ≠ '\'')
    ⟨fun holds => ⟨holds.1, holds.2⟩, fun isBody => ⟨isBody.1, isBody.2⟩⟩

section Comments

variable {body rest : List Char}

/-- No string is closed in a comment, and a comment does not help to close one. -/
theorem stringLength_body {quote : Char} (isQuote : quote = '"' ∨ quote = '\'')
    (noQuote : quote ∉ body) (unclosed : stringLength quote rest = none) :
    stringLength quote (body ++ '*' :: '/' :: rest) = none := by
  have noStar : '*' ≠ quote := by rcases isQuote with rfl | rfl <;> decide
  have noSlash : '/' ≠ quote := by rcases isQuote with rfl | rfl <;> decide
  have behindSlash : stringLength quote ('/' :: rest) = none := by
    rw [stringLength_of_ne (by decide), if_neg noSlash, if_neg (by decide), unclosed]
    rfl
  induction long : body.length using Nat.strongRecOn generalizing body with
  | ind n inductionHypothesis =>
      cases body with
      | nil =>
          rw [List.nil_append, stringLength_of_ne (by decide), if_neg noStar, if_neg (by decide),
            behindSlash]
          rfl
      | cons c later =>
          rw [List.mem_cons, not_or] at noQuote
          rw [List.length_cons] at long
          by_cases escape : c = '\\'
          · -- The last backslash of a comment takes its star along.
            subst escape
            cases later with
            | nil =>
                rw [List.cons_append, List.nil_append, stringLength, behindSlash]
                rfl
            | cons d further =>
                rw [List.mem_cons, not_or] at noQuote
                rw [List.length_cons] at long
                rw [List.cons_append, List.cons_append, stringLength,
                  inductionHypothesis further.length (by omega) noQuote.2.2 rfl]
                rfl
          · rw [List.cons_append, stringLength_of_ne escape, if_neg (Ne.symm noQuote.1),
              inductionHypothesis later.length (by omega) noQuote.2 rfl]
            split <;> rfl

/-- A comment in front of a text can stand in its place. -/
theorem replaces_comment (noQuote : ∀ c ∈ body, c ≠ '"' ∧ c ≠ '\'') :
    Replaces rest (comment body ++ rest) where
  noStar := by
    rw [comment, List.cons_append, List.head?_cons]
    decide
  unclosed {before quote} opens unclosed := by
    have isQuote := isQuote_of_opensString opens
    have absent : quote ∉ '/' :: '*' :: body := by
      simp only [List.mem_cons, not_or]
      refine ⟨?_, ?_, fun member => ?_⟩
      · rcases isQuote with rfl | rfl <;> decide
      · rcases isQuote with rfl | rfl <;> decide
      · exact isQuote.elim (noQuote quote member).1 (noQuote quote member).2
    have shape : comment body ++ rest = '/' :: '*' :: body ++ '*' :: '/' :: rest := by
      simp only [comment, List.cons_append, List.append_assoc, List.nil_append]
    rw [shape, stringLength_body isQuote absent unclosed]

/-- A comment is dropped through its end. -/
theorem stripFrom_body (unclosed : ¬['*', '/'] <:+: body) :
    ∀ before, stripFrom before (.dropping 0) (body ++ '*' :: '/' :: rest) =
      stripFrom (some '/') (.copying 0) rest := by
  induction body with
  | nil =>
      intro before
      simp only [List.nil_append, stripFrom, List.head?_cons, and_self, if_true]
  | cons c later inductionHypothesis =>
      intro before
      rw [List.infix_cons_iff, not_or] at unclosed
      have noEnd : ¬(c = '*' ∧ (later ++ '*' :: '/' :: rest).head? = some '/') := by
        rintro ⟨rfl, isSlash⟩
        cases later with
        | nil => cases isSlash
        | cons d further =>
            cases isSlash
            exact unclosed.1 ⟨further, rfl⟩
      rw [List.cons_append, stripFrom]
      simp only [noEnd, if_false]
      exact inductionHypothesis unclosed.2 _

theorem stripFrom_comment (unclosed : ¬['*', '/'] <:+: body) (before : Option Char) :
    stripFrom before (.copying 0) (comment body ++ rest) =
      stripFrom (some '/') (.copying 0) rest := by
  have shape : comment body ++ rest = '/' :: '*' :: (body ++ '*' :: '/' :: rest) := by
    simp only [comment, List.cons_append, List.append_assoc, List.nil_append]
  have opens : stripFrom before (.copying 0) (comment body ++ rest) =
      stripFrom (some '*') (.dropping 0) (body ++ '*' :: '/' :: rest) := by
    rw [shape]
    simp [stripFrom]
  rw [opens, stripFrom_body unclosed]

/-- A comment outside of everything is dropped, and what is behind it is scanned behind a slash. -/
theorem stripComments_comment {front : List Char} (noEscape : '\\' ∉ front)
    (outside : Outside front rest) (isBody : IsCommentBody body) :
    stripComments (front ++ (comment body ++ rest)) =
      (passOver rest none (.copying 0) front).1 ++ stripFrom (some '/') (.copying 0) rest := by
  have same := passOver_congr (replaces_comment isBody.noQuote) noEscape outside
  rw [stripComments, stripFrom_append, same, outside, stripFrom_comment isBody.unclosed]

/-! ### Strings behind comments -/

/-- If the text begins with a closed string, nothing more and nothing less is taken out of it if the
quote that opens this string does not open one. -/
def ReadsAlike (before : Option Char) (text : List Char) : Prop :=
  ∀ quote inner behind, text = quote :: (inner ++ quote :: behind) →
    opensString before quote = true →
    stringLength quote (inner ++ quote :: behind) = some (inner.length + 1) →
      stripFrom (some quote) (.copying 0) (inner ++ quote :: behind) =
        inner ++ quote :: stripFrom (some quote) (.copying 0) behind

/-- A text that does not begin with a quote is read alike behind everything. -/
theorem readsAlike_of_head? {before : Option Char} {text : List Char}
    (noQuote : ∀ c ∈ text.head?, opensString before c = false) : ReadsAlike before text := by
  rintro quote inner behind rfl opens -
  rw [noQuote quote rfl] at opens
  cases opens

/-- Behind a slash a text is scanned as behind any other character, except for a string that it
begins with. -/
theorem stripFrom_behind_slash (before : Option Char) (text : List Char) :
    stripFrom (some '/') (.copying 0) text = stripFrom before (.copying 0) text ↔
      ReadsAlike before text := by
  cases text with
  | nil => exact iff_of_true rfl (readsAlike_of_head? fun c first => by cases first)
  | cons c later =>
      have noString : opensString (some '/') c = false := by simp [opensString]
      cases isString : if opensString before c then stringLength c later else none with
      | none =>
          have same : stripFrom (some '/') (.copying 0) (c :: later) =
              stripFrom before (.copying 0) (c :: later) := by
            simp only [stripFrom, isString, noString, Bool.false_eq_true, if_false]
          refine iff_of_true same ?_
          rintro quote inner behind whole opens closed
          cases whole
          rw [if_pos opens, closed] at isString
          cases isString
      | some length =>
          have opens : opensString before c = true := by
            by_contra noOpening
            rw [if_neg noOpening] at isString
            cases isString
          have closed := isString
          rw [if_pos opens] at closed
          obtain ⟨inner, behind, rfl, rfl⟩ := exists_of_stringLength later closed
          have plain : c ≠ '\\' := by
            rintro rfl
            cases opens
          have noComment : ¬(c = '/' ∧ (inner ++ c :: behind).head? = some '*') := by
            rintro ⟨rfl, -⟩
            cases opens
          have isExposed : Exposed (some '/') c (inner ++ c :: behind) :=
            ⟨plain, by rw [noString]; rfl⟩
          have hidden := (Hidden.string plain isString).stripFrom_append
          have shape : c :: inner ++ [c] ++ behind = c :: (inner ++ c :: behind) := by simp
          rw [lastOf_concat, shape] at hidden
          rw [isExposed.stripFrom_cons noComment, hidden]
          constructor
          · intro same quote other behindOther whole _ closedOther
            obtain ⟨rfl, sameRest⟩ := List.cons.inj whole
            rw [← sameRest, closed, Option.some_inj, Nat.succ_inj] at closedOther
            obtain ⟨rfl, sameBehind⟩ := List.append_inj sameRest closedOther
            cases sameBehind
            simpa using same
          · intro alike
            rw [alike c inner behind rfl opens closed]
            simp

/-- A string without quotes, backslashes and openings of comments reads alike behind everything, if
its closing quote does not stand where it could open a string. -/
theorem readsAlike_of_plain {before : Option Char} {quote : Char} {inner : List Char}
    (plain : ∀ c ∈ inner, IsPlain c) (noComment : ¬OpensComment inner)
    (ending : inner.getLast? ≠ some '/')
    (closing : opensString (lastOf (some quote) inner) quote = false) (behind : List Char) :
    ReadsAlike before (quote :: (inner ++ quote :: behind)) := by
  rintro _ other behindOther whole opens closed
  obtain ⟨rfl, sameRest⟩ := List.cons.inj whole
  have isQuote := isQuote_of_opensString opens
  have absent : quote ∉ inner := fun member =>
    isQuote.elim (plain quote member).2.1 (plain quote member).2.2
  have noEscape : '\\' ∉ inner := fun member => (plain _ member).1 rfl
  have first : stringLength quote (quote :: behind) = some 1 := by
    rw [stringLength_of_ne, if_pos rfl]
    rcases isQuote with rfl | rfl <;> decide
  have sameLength : inner.length = other.length := by
    rw [← sameRest] at closed
    rcases stringLength_append noEscape with ⟨length, -, inside⟩ | unclosed | passed
    · obtain ⟨within, later, isInner, -⟩ := exists_of_stringLength _ (inside [])
      rw [List.append_nil] at isInner
      exact absurd (isInner ▸ List.mem_append_right _ (List.mem_cons_self ..)) absent
    · rw [unclosed] at closed
      cases closed
    · rw [passed, first, Option.map_some, Option.some_inj] at closed
      omega
  obtain ⟨rfl, sameBehind⟩ := List.append_inj sameRest sameLength
  cases sameBehind
  have steady : Steady (fun _ => True) inner :=
    steady_plain (fun c member => ⟨plain c member, trivial⟩) noComment ending
  have isExposed : Exposed (lastOf (some quote) inner) quote behind :=
    ⟨by rcases isQuote with rfl | rfl <;> decide, by rw [closing]; rfl⟩
  rw [steady.stripped, isExposed.stripFrom_cons]
  rintro ⟨rfl, -⟩
  cases opens

end Comments

end StyledWidgets.Text

namespace StyledWidgets.Sheet

open StyledWidgets.Text

/-- A text with a comment in it. -/
def commented (front body rest : String) : String := front ++ "/*" ++ body ++ "*/" ++ rest

theorem toList_commented (front body rest : String) :
    (commented front body rest).toList =
      front.toList ++ (comment body.toList ++ rest.toList) := by
  simp only [commented, comment, String.toList_append, List.append_assoc, List.cons_append]
  rfl

/-- A comment that stands outside of comments and strings takes itself out and nothing else exactly
if the text behind it reads alike behind the slash that ends the comment, and then a sheet with the
comment has the rules of the sheet without it. -/
theorem stripComments_commented (front body rest : String) (noEscape : '\\' ∉ front.toList)
    (outside : Outside front.toList rest.toList) (isBody : IsCommentBody body.toList) :
    (stripComments (commented front body rest).toList = stripComments (front ++ rest).toList ↔
      ReadsAlike (lastOf none front.toList) rest.toList) ∧
    (ReadsAlike (lastOf none front.toList) rest.toList →
      parseSheet (commented front body rest) = parseSheet (front ++ rest)) := by
  have commented := stripComments_comment noEscape outside isBody
  have without : stripComments (front.toList ++ rest.toList) =
      (passOver rest.toList none (.copying 0) front.toList).1 ++
        stripFrom (lastOf none front.toList) (.copying 0) rest.toList := by
    rw [stripComments, stripFrom_append, outside]
  have stripped :
      stripComments (Sheet.commented front body rest).toList =
          stripComments (front ++ rest).toList ↔
        ReadsAlike (lastOf none front.toList) rest.toList := by
    rw [toList_commented, String.toList_append, commented, without, List.append_cancel_left_eq,
      stripFrom_behind_slash]
  refine ⟨stripped, fun alike => ?_⟩
  rw [parseSheet, parseSheet, readSheet, readSheet, stripped.mpr alike]

/-- A comment between a parenthesis and a quoted address. -/
theorem stripComments_commented_icon :
    '\\' ∉ "A \x7b background: url(".toList ∧
    Outside "A \x7b background: url(".toList "\"icon.png\"); \x7d".toList ∧
    IsCommentBody " see \\ \x7b ".toList ∧
    parseSheet (commented "A \x7b background: url(" " see \\ \x7b " "\"icon.png\"); \x7d") =
      parseSheet ("A \x7b background: url(" ++ "\"icon.png\"); \x7d") := by
  have noEscape : '\\' ∉ "A \x7b background: url(".toList := by decide
  have outside : Outside "A \x7b background: url(".toList "\"icon.png\"); \x7d".toList := by
    decide +kernel
  have isBody : IsCommentBody " see \\ \x7b ".toList := by decide +kernel
  have shape : "\"icon.png\"); \x7d".toList =
      '"' :: ("icon.png".toList ++ '"' :: "); \x7d".toList) := by decide
  have plain : ∀ c ∈ "icon.png".toList, IsPlain c := by decide
  have noComment : ¬OpensComment "icon.png".toList := by decide +kernel
  have alike : ReadsAlike (lastOf none "A \x7b background: url(".toList)
      "\"icon.png\"); \x7d".toList := by
    rw [shape]
    exact readsAlike_of_plain plain noComment (by decide) (by decide) _
  exact ⟨noEscape, outside, isBody,
    (stripComments_commented _ _ _ noEscape outside isBody).2 alike⟩

/-- Not every comment outside of comments and strings takes out only itself: in front of a quoted
text it bares what looks like a comment in it. -/
theorem stripComments_baredString :
    ¬∀ front body rest : String, '\\' ∉ (front ++ rest).toList →
      Outside front.toList rest.toList →
      ¬(front.toList.getLast? = some '/' ∧ rest.toList.head? = some '*') →
      IsCommentBody body.toList →
      stripComments (commented front body rest).toList = stripComments (front ++ rest).toList := by
  intro transparent
  have same := transparent "A \x7b background: url(" "x" "\"a/*b*/c\"); \x7d" (by decide)
    (by decide +kernel) (by decide) (by decide)
  revert same
  decide +kernel

end StyledWidgets.Sheet
