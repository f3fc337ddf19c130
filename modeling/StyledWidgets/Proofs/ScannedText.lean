/-
Module: StyledWidgets.Proofs.ScannedText
Purpose: How texts that are put together are scanned. A comment can only begin where a slash and a
  star stand side by side, and a part without stray quotes and backslashes is scanned the same way
  wherever it stands.
Main exports: OpensComment, stripComments_eq_self, trim_padded, StringBody,
  exists_body_of_stringLength, Hidden, Exposed, Steady, Steady.append, steady_plain, steady_quoted,
  splitMarked_steady_append, cutMarked_steady_append
-/
import Mathlib.Data.List.Basic
import StyledWidgets.Text.Blank
import StyledWidgets.Text.Comment

namespace StyledWidgets.Text

/-- What holds of all characters of a text is decided by going through the text, never through all
characters that there are. -/
instance (priority := 2000) decidableForallChars (text : List Char) (holds : Char → Prop)
    [DecidablePred holds] : Decidable (∀ c ∈ text, holds c) :=
  List.decidableBAll holds text

/-! ### Texts with separators -/

/-- The parts behind the first are those with a separator before them. -/
theorem intercalate_cons {α : Type} (separator first : List α) (rest : List (List α)) :
    separator.intercalate (first :: rest) = first ++ rest.flatMap (separator ++ ·) := by
  induction rest generalizing first with
  | nil => rw [List.intercalate_singleton, List.flatMap_nil, List.append_nil]
  | cons next later inductionHypothesis =>
      rw [List.intercalate_cons_cons, inductionHypothesis, List.flatMap_cons, List.append_assoc,
        List.append_assoc]

/-! ### Cutting marked texts -/

section Cutting

variable {separator : Char} {front rest : List Mark}

theorem Mark.isExposed_iff {m : Mark} {c : Char} :
    m.isExposed c = true ↔ m.exposed = true ∧ m.char = c := by
  rw [Mark.isExposed, Bool.and_eq_true, beq_iff_eq]

/-- An exposed separator divides the pieces in front of it from those behind it. -/
theorem splitMarked_divided (separator : Char) (front rest : List Mark) :
    splitMarked separator (front ++ ⟨separator, true⟩ :: rest) =
      splitMarked separator front ++ splitMarked separator rest := by
  induction front with
  | nil =>
      simp only [List.nil_append, splitMarked, Mark.isExposed, beq_self_eq_true, Bool.and_self,
        if_true, List.singleton_append]
  | cons m further inductionHypothesis =>
      obtain ⟨piece, later, pieces⟩ :=
        List.exists_cons_of_ne_nil (splitMarked_ne_nil separator further)
      simp only [List.cons_append, splitMarked, inductionHypothesis, pieces]
      split <;> rfl

/-- A marked text without exposed separators is one piece. -/
theorem splitMarked_whole (hidden : ∀ m ∈ front, m.isExposed separator = false) :
    splitMarked separator front = [unmarked front] := by
  induction front with
  | nil => rfl
  | cons m further inductionHypothesis =>
      have here := hidden m (List.mem_cons_self ..)
      have behind := inductionHypothesis fun other member =>
        hidden other (List.mem_cons_of_mem _ member)
      simp only [splitMarked, here, behind, Bool.false_eq_true, if_false, unmarked, List.map_cons]

/-- A marked text is cut where the first exposed separator stands. -/
theorem splitMarked_append (hidden : ∀ m ∈ front, m.isExposed separator = false) :
    splitMarked separator (front ++ ⟨separator, true⟩ :: rest) =
      unmarked front :: splitMarked separator rest := by
  rw [splitMarked_divided, splitMarked_whole hidden, List.singleton_append]

theorem cutMarked_append (hidden : ∀ m ∈ front, m.isExposed separator = false) :
    cutMarked separator (front ++ ⟨separator, true⟩ :: rest) = some (unmarked front, rest) := by
  induction front with
  | nil => simp only [List.nil_append, cutMarked, Mark.isExposed, beq_self_eq_true,
      Bool.and_self, if_true, unmarked, List.map_nil]
  | cons m further inductionHypothesis =>
      have here := hidden m (List.mem_cons_self ..)
      have behind := inductionHypothesis fun other member =>
        hidden other (List.mem_cons_of_mem _ member)
      simp only [List.cons_append, cutMarked, here, behind, Bool.false_eq_true, if_false,
        Option.map_some, unmarked, List.map_cons]

end Cutting

/-! ### Comments -/

/-- A slash and a star stand side by side. -/
def OpensComment (text : List Char) : Prop := ['/', '*'] <:+: text

instance : DecidablePred OpensComment := fun text =>
  inferInstanceAs (Decidable (['/', '*'] <:+: text))

/-- Nothing is taken out of a text in which no comment begins. -/
theorem stripFrom_eq_self {text : List Char} (none : ¬OpensComment text) :
    ∀ (before : Option Char) (shielded : Nat),
      stripFrom before (.copying shielded) text = text := by
  induction text with
  | nil => exact fun _ _ => rfl
  | cons c rest inductionHypothesis =>
      intro before shielded
      have further := inductionHypothesis fun opens => none (List.infix_cons_iff.mpr (Or.inr opens))
      cases shielded with
      | succ left => rw [stripFrom, further]
      | zero =>
          have noOpener : ¬(c = '/' ∧ rest.head? = some '*') := by
            intro ⟨slash, star⟩
            apply none
            obtain ⟨behind, rfl⟩ := List.head?_eq_some_iff.mp star
            exact List.infix_cons_iff.mpr (Or.inl (by rw [slash]; exact ⟨behind, rfl⟩))
          rw [stripFrom, if_neg noOpener]
          split
          · rw [further]
          · split <;> rw [further]

theorem stripComments_eq_self {text : List Char} (none : ¬OpensComment text) :
    stripComments text = text :=
  stripFrom_eq_self none _ _

/-- Between two parts a comment begins only with a slash or a star. -/
theorem not_opensComment_append {front rest : List Char} {c : Char}
    (first : ¬OpensComment front) (noSlash : c ≠ '/') (noStar : c ≠ '*')
    (second : ¬OpensComment rest) : ¬OpensComment (front ++ c :: rest) := by
  unfold OpensComment at first second ⊢
  induction front with
  | nil =>
      intro opens
      rcases List.infix_cons_iff.mp opens with here | later
      · exact noSlash (List.cons_prefix_cons.mp here).1.symm
      · exact second later
  | cons d further inductionHypothesis =>
      rw [List.infix_cons_iff, not_or] at first
      intro opens
      rcases List.infix_cons_iff.mp opens with here | later
      · obtain ⟨slash, star⟩ := List.cons_prefix_cons.mp here
        cases further with
        | nil => exact noStar (List.cons_prefix_cons.mp star).1.symm
        | cons e behind =>
            apply first.1
            have isStar := (List.cons_prefix_cons.mp star).1
            rw [← slash, ← isStar]
            exact ⟨behind, rfl⟩
      · exact inductionHypothesis first.2 later

/-! ### Blanks at the ends -/

/-- No blank stands at either end of the text. -/
def Flush (text : List Char) : Prop :=
  ∀ c, text.head? = some c ∨ text.getLast? = some c → isBlank c = false

instance : DecidablePred Flush := fun text =>
  decidable_of_iff (text.head?.any isBlank = false ∧ text.getLast?.any isBlank = false) (by
    simp only [Flush, Option.any_eq_false]
    exact ⟨fun holds c isEnd => isEnd.elim (holds.1 c) (holds.2 c),
      fun flush => ⟨fun c first => flush c (Or.inl first), fun c last => flush c (Or.inr last)⟩⟩)

/-- Characters around a text are dropped if they are of a kind that does not stand at its ends. -/
theorem dropWhile_padded {isPadding : Char → Bool} {text : List Char} (before after : List Char)
    (filled : text ≠ [])
    (apart : ∀ c, text.head? = some c ∨ text.getLast? = some c → isPadding c = false)
    (paddingBefore : ∀ c ∈ before, isPadding c = true)
    (paddingAfter : ∀ c ∈ after, isPadding c = true) :
    (((before ++ (text ++ after)).dropWhile isPadding).reverse.dropWhile isPadding).reverse =
      text := by
  have start : (before ++ (text ++ after)).dropWhile isPadding = text ++ after := by
    obtain ⟨c, later, rfl⟩ := List.exists_cons_of_ne_nil filled
    have shown : ¬isPadding c = true := Bool.eq_false_iff.mp (apart c (Or.inl rfl))
    rw [List.dropWhile_append_of_pos paddingBefore, List.cons_append,
      List.dropWhile_cons_of_neg shown]
  obtain ⟨front, c, rfl⟩ := (List.eq_nil_or_concat' text).resolve_left filled
  have shown : ¬isPadding c = true :=
    Bool.eq_false_iff.mp (apart c (Or.inr List.getLast?_concat))
  rw [start, List.reverse_append, List.dropWhile_append_of_pos, List.reverse_concat,
    List.dropWhile_cons_of_neg shown, List.reverse_cons, List.reverse_reverse]
  exact fun d member => paddingAfter d (List.mem_reverse.mp member)

/-- Blanks around a text are dropped, and no more than these. -/
theorem trim_padded {text : List Char} (before after : List Char) (filled : text ≠ [])
    (flush : Flush text) (blankBefore : ∀ c ∈ before, isBlank c = true)
    (blankAfter : ∀ c ∈ after, isBlank c = true) :
    trim (before ++ (text ++ after)) = text :=
  dropWhile_padded before after filled flush blankBefore blankAfter

/-- A text without blanks at its ends is its own trimmed text. -/
theorem trim_flush {text : List Char} (flush : Flush text) : trim text = text := by
  by_cases empty : text = []
  · rw [empty]
    rfl
  · have none : ∀ c ∈ ([] : List Char), isBlank c = true := fun c member =>
      absurd member List.not_mem_nil
    have padded := trim_padded [] [] empty flush none none
    rwa [List.append_nil, List.nil_append] at padded

/-! ### Strings -/

section Strings

variable {quote : Char}

theorem stringLength_of_ne {c : Char} {rest : List Char} (plain : c ≠ '\\') :
    stringLength quote (c :: rest) =
      if c = quote then some 1
      else if c = '\n' ∨ c = '\x7b' ∨ c = '\x7d' then none
      else (stringLength quote rest).map (· + 1) := by
  rw [stringLength]
  exact fun d further escape _ => plain escape

theorem isQuote_of_opensString {before : Option Char} (opens : opensString before quote = true) :
    quote = '"' ∨ quote = '\'' := by
  simp only [opensString, Bool.and_eq_true, Bool.or_eq_true, beq_iff_eq] at opens
  exact opens.1

/-- A text without backslashes holds the end of a string that reaches into it, or ends the search
for it, or is passed over. -/
theorem stringLength_append {front : List Char} (noEscape : '\\' ∉ front) :
    (∃ length ≤ front.length, ∀ rest, stringLength quote (front ++ rest) = some length) ∨
      (∀ rest, stringLength quote (front ++ rest) = none) ∨
      ∀ rest, stringLength quote (front ++ rest) =
        (stringLength quote rest).map (· + front.length) := by
  induction front with
  | nil => exact Or.inr (Or.inr fun rest => Option.map_id'.symm)
  | cons c later inductionHypothesis =>
      rw [List.mem_cons, not_or] at noEscape
      have first : ∀ rest, stringLength quote (c :: later ++ rest) =
          if c = quote then some 1
          else if c = '\n' ∨ c = '\x7b' ∨ c = '\x7d' then none
          else (stringLength quote (later ++ rest)).map (· + 1) := fun rest =>
        stringLength_of_ne (Ne.symm noEscape.1)
      by_cases isQuote : c = quote
      · refine Or.inl ⟨1, Nat.succ_le_succ (Nat.zero_le _), fun rest => ?_⟩
        rw [first, if_pos isQuote]
      by_cases ends : c = '\n' ∨ c = '\x7b' ∨ c = '\x7d'
      · refine Or.inr (Or.inl fun rest => ?_)
        rw [first, if_neg isQuote, if_pos ends]
      have passed : ∀ rest, stringLength quote (c :: later ++ rest) =
          (stringLength quote (later ++ rest)).map (· + 1) := by
        intro rest
        rw [first, if_neg isQuote, if_neg ends]
      rcases inductionHypothesis noEscape.2 with ⟨length, within, closed⟩ | unclosed | further
      · refine Or.inl ⟨length + 1, Nat.succ_le_succ within, fun rest => ?_⟩
        rw [passed, closed]
        rfl
      · refine Or.inr (Or.inl fun rest => ?_)
        rw [passed, unclosed]
        rfl
      · refine Or.inr (Or.inr fun rest => ?_)
        rw [passed, further, Option.map_map]
        rfl

/-- What can stand between the quotes of a string: anything behind a backslash, and else no quote of
the same kind, no line break and no brace. -/
inductive StringBody (quote : Char) : List Char → Prop where
  | nil : StringBody quote []
  | escaped (d : Char) {rest : List Char} (body : StringBody quote rest) :
      StringBody quote ('\\' :: d :: rest)
  | plain {c : Char} {rest : List Char} (noEscape : c ≠ '\\') (noQuote : c ≠ quote)
      (inside : ¬(c = '\n' ∨ c = '\x7b' ∨ c = '\x7d')) (body : StringBody quote rest) :
      StringBody quote (c :: rest)

/-- The inside of a string of the right form is followed to the quote that closes it. -/
theorem stringLength_of_body {inner : List Char} (noEscape : quote ≠ '\\')
    (body : StringBody quote inner) (behind : List Char) :
    stringLength quote (inner ++ quote :: behind) = some (inner.length + 1) := by
  induction body with
  | nil => rw [List.nil_append, stringLength_of_ne noEscape, if_pos rfl, List.length_nil]
  | escaped d _ inductionHypothesis =>
      rw [List.cons_append, List.cons_append, stringLength, inductionHypothesis]
      rfl
  | plain plain noQuote inside _ inductionHypothesis =>
      rw [List.cons_append, stringLength_of_ne plain, if_neg noQuote, if_neg inside,
        inductionHypothesis]
      rfl

/-- A string that is closed has an inside of the right form. -/
theorem exists_body_of_stringLength (text : List Char) :
    ∀ {length : Nat}, stringLength quote text = some length →
      ∃ inner behind, StringBody quote inner ∧ text = inner ++ quote :: behind ∧
        length = inner.length + 1 := by
  induction text using stringLength.induct quote with
  | case1 =>
      intro length closed
      cases closed
  | case2 d rest inductionHypothesis =>
      intro length closed
      rw [stringLength, Option.map_eq_some_iff] at closed
      obtain ⟨shorter, isShorter, rfl⟩ := closed
      obtain ⟨inner, behind, body, rfl, rfl⟩ := inductionHypothesis isShorter
      exact ⟨'\\' :: d :: inner, behind, .escaped d body, rfl, rfl⟩
  | case3 rest noPair =>
      intro length closed
      rw [stringLength, if_pos rfl] at closed
      · exact ⟨[], rest, .nil, rfl, (Option.some_inj.mp closed).symm⟩
      · exact noPair
  | case4 c rest noPair noQuote ends =>
      intro length closed
      rw [stringLength, if_neg noQuote, if_pos ends] at closed
      · cases closed
      · exact noPair
  | case5 c rest noPair noQuote inside inductionHypothesis =>
      intro length closed
      rw [stringLength, if_neg noQuote, if_neg inside, Option.map_eq_some_iff] at closed
      · obtain ⟨shorter, isShorter, rfl⟩ := closed
        obtain ⟨inner, behind, body, rfl, rfl⟩ := inductionHypothesis isShorter
        -- A backslash has a character behind it here, since the quote is still to come.
        have noEscape : c ≠ '\\' := by
          rintro rfl
          cases inner with
          | nil => exact noPair _ _ rfl rfl
          | cons d further => exact noPair _ _ rfl rfl
        exact ⟨c :: inner, behind, .plain noEscape noQuote inside body, rfl, rfl⟩
      · exact noPair

/-- A string ends with the quote that closes it. -/
theorem exists_of_stringLength (text : List Char) {length : Nat}
    (closed : stringLength quote text = some length) :
    ∃ inner behind, text = inner ++ quote :: behind ∧ length = inner.length + 1 := by
  obtain ⟨inner, behind, -, whole, isLength⟩ := exists_body_of_stringLength text closed
  exact ⟨inner, behind, whole, isLength⟩

end Strings

/-! ### Hidden and exposed characters -/

/-- The character in front of what follows a text. -/
def lastOf (before : Option Char) (text : List Char) : Option Char := text.getLast?.or before

theorem lastOf_append (before : Option Char) (front rest : List Char) :
    lastOf before (front ++ rest) = lastOf (lastOf before front) rest := by
  rw [lastOf, lastOf, lastOf, List.getLast?_append, Option.or_assoc]

theorem lastOf_cons (before : Option Char) (c : Char) (rest : List Char) :
    lastOf before (c :: rest) = lastOf (some c) rest :=
  lastOf_append before [c] rest

theorem lastOf_concat (before : Option Char) (front : List Char) (c : Char) :
    lastOf before (front ++ [c]) = some c :=
  lastOf_append before front [c]

/-- Of the character in front of a text it only matters which strings it lets open. -/
theorem mark_congr {before other : Option Char}
    (same : ∀ c, opensString before c = opensString other c) (text : List Char) :
    mark before 0 text = mark other 0 text := by
  cases text with
  | nil => rfl
  | cons c rest => rw [mark, mark, same]

theorem mark_shielded (text rest : List Char) :
    ∀ before : Option Char, mark before text.length (text ++ rest) =
      (text.map fun c => ⟨c, false⟩) ++ mark (lastOf before text) 0 rest := by
  induction text with
  | nil => exact fun _ => rfl
  | cons c later inductionHypothesis =>
      intro before
      rw [List.cons_append, List.length_cons, mark, inductionHypothesis, lastOf_cons]
      rfl

theorem stripFrom_shielded (text rest : List Char) :
    ∀ before : Option Char, stripFrom before (.copying text.length) (text ++ rest) =
      text ++ stripFrom (lastOf before text) (.copying 0) rest := by
  induction text with
  | nil => exact fun _ => rfl
  | cons c later inductionHypothesis =>
      intro before
      rw [List.cons_append, List.length_cons, stripFrom, inductionHypothesis, lastOf_cons]
      rfl

/-- A piece that is hidden as a whole at the beginning of a text, and what is behind it: a backslash
with the character that it takes along, or a closed string. -/
inductive Hidden (before : Option Char) : List Char → List Char → Prop where
  | backslash : Hidden before ['\\'] []
  | escaped (d : Char) (behind : List Char) : Hidden before ['\\', d] behind
  | string {c : Char} {inner behind : List Char} (plain : c ≠ '\\')
      (isString : (if opensString before c then stringLength c (inner ++ c :: behind) else none) =
        some (inner.length + 1)) : Hidden before (c :: inner ++ [c]) behind

/-- The character at the beginning of a text neither escapes the one behind it nor opens a closed
string. -/
structure Exposed (before : Option Char) (c : Char) (rest : List Char) : Prop where
  plain : c ≠ '\\'
  noString : (if opensString before c then stringLength c rest else none) = none

section Marks

variable {before : Option Char} {c : Char} {looked behind rest : List Char}

theorem Hidden.filled (hidden : Hidden before looked behind) : looked ≠ [] := by
  cases hidden <;> exact List.cons_ne_nil _ _

theorem Hidden.mark_append (hidden : Hidden before looked behind) :
    mark before 0 (looked ++ behind) =
      (looked.map fun c => ⟨c, false⟩) ++ mark (lastOf before looked) 0 behind := by
  cases hidden with
  | backslash => rfl
  | escaped d behind => rfl
  | @string c inner behind plain isString =>
      have inside := mark_shielded (inner ++ [c]) behind (some c)
      rw [List.length_append, List.append_assoc] at inside
      rw [List.append_assoc, List.cons_append, List.singleton_append, mark, List.cons_append,
        lastOf_cons]
      simp only [plain, isString, if_false]
      exact congrArg _ inside

theorem Hidden.stripFrom_append (hidden : Hidden before looked behind) :
    stripFrom before (.copying 0) (looked ++ behind) =
      looked ++ stripFrom (lastOf before looked) (.copying 0) behind := by
  cases hidden with
  | backslash => rfl
  | escaped d behind => rfl
  | @string c inner behind plain isString =>
      have noComment : ¬(c = '/' ∧ (inner ++ c :: behind).head? = some '*') := by
        rintro ⟨rfl, -⟩
        have noQuote : opensString before '/' = false := rfl
        rw [noQuote] at isString
        cases isString
      have inside := stripFrom_shielded (inner ++ [c]) behind (some c)
      rw [List.length_append, List.append_assoc] at inside
      rw [List.append_assoc, List.cons_append, List.singleton_append, stripFrom,
        List.cons_append, lastOf_cons]
      simp only [plain, noComment, isString, if_false]
      exact congrArg _ inside

theorem Exposed.mark_cons (exposed : Exposed before c rest) :
    mark before 0 (c :: rest) = ⟨c, true⟩ :: mark (some c) 0 rest := by
  rw [mark]
  simp only [exposed.plain, exposed.noString, if_false]

theorem Exposed.stripFrom_cons (exposed : Exposed before c rest)
    (noComment : ¬(c = '/' ∧ rest.head? = some '*')) :
    stripFrom before (.copying 0) (c :: rest) =
      c :: stripFrom (some c) (.copying 0) rest := by
  rw [stripFrom]
  simp only [exposed.plain, noComment, exposed.noString, if_false]

end Marks

/-- A character of a marked text is followed by the rest, marked; if it is exposed, the rest is
marked as if it began there. -/
theorem mark_eq_cons (before : Option Char) (shielded : Nat) (c : Char) (rest : List Char) :
    ∃ exposed left, mark before shielded (c :: rest) = ⟨c, exposed⟩ :: mark (some c) left rest ∧
      (exposed = true → left = 0) := by
  cases shielded with
  | succ left => exact ⟨false, left, rfl, fun isTrue => by cases isTrue⟩
  | zero =>
      by_cases escape : c = '\\'
      · exact ⟨false, 1, by rw [mark, if_pos escape], fun isTrue => by cases isTrue⟩
      · cases string : if opensString before c then stringLength c rest else none with
        | none => exact ⟨true, 0, Exposed.mark_cons ⟨escape, string⟩, fun _ => rfl⟩
        | some length =>
            refine ⟨false, length, ?_, fun isTrue => by cases isTrue⟩
            rw [mark]
            simp only [escape, string, if_false]

/-- What is behind the first exposed occurrence of a character is marked as if it began there. -/
theorem cutMarked_mark {needle : Char} (rest : List Char) :
    ∀ {before : Option Char} {shielded : Nat} {found : List Char} {later : List Mark},
      cutMarked needle (mark before shielded rest) = some (found, later) →
        ∃ behind, rest = found ++ needle :: behind ∧ later = mark (some needle) 0 behind := by
  induction rest with
  | nil =>
      intro before shielded found later isCut
      cases isCut
  | cons c rest inductionHypothesis =>
      intro before shielded found later isCut
      obtain ⟨exposed, left, marked, settled⟩ := mark_eq_cons before shielded c rest
      rw [marked, cutMarked] at isCut
      split at isCut
      case isTrue isNeedle =>
        cases isCut
        obtain ⟨isExposed, isChar⟩ := Mark.isExposed_iff.mp isNeedle
        rw [settled isExposed, ← isChar]
        exact ⟨rest, rfl, rfl⟩
      case isFalse =>
        rw [Option.map_eq_some_iff] at isCut
        obtain ⟨⟨further, behind⟩, isCut, same⟩ := isCut
        cases same
        obtain ⟨last, rfl, marks⟩ := inductionHypothesis isCut
        exact ⟨last, rfl, marks⟩

/-! ### Steady parts -/

/-- The part of a text is scanned the same way wherever it stands, what follows it is scanned as
if it began there, and all its exposed characters are of a kind. -/
structure Steady (kind : Char → Prop) (text : List Char) : Prop where
  marked : ∃ front : List Mark, (∀ m ∈ front, m.exposed = true → kind m.char) ∧
    ∀ before rest, mark before 0 (text ++ rest) = front ++ mark (lastOf before text) 0 rest
  stripped : ∀ before rest, stripFrom before (.copying 0) (text ++ rest) =
    text ++ stripFrom (lastOf before text) (.copying 0) rest

variable {kind : Char → Prop} {text : List Char}

theorem steady_nil : Steady kind [] where
  marked := ⟨[], fun _ member => absurd member List.not_mem_nil, fun _ _ => rfl⟩
  stripped _ _ := rfl

theorem Steady.append {later : List Char} (first : Steady kind text)
    (second : Steady kind later) : Steady kind (text ++ later) where
  marked := by
    obtain ⟨front, isKind, marks⟩ := first.marked
    obtain ⟨further, isKindToo, marksToo⟩ := second.marked
    refine ⟨front ++ further, ?_, ?_⟩
    · intro m member exposed
      rcases List.mem_append.mp member with isFirst | isSecond
      · exact isKind m isFirst exposed
      · exact isKindToo m isSecond exposed
    · intro before rest
      rw [List.append_assoc, marks, marksToo, lastOf_append, List.append_assoc]
  stripped before rest := by
    rw [List.append_assoc, first.stripped, second.stripped, lastOf_append, List.append_assoc]

theorem Steady.flatMap {α : Type} {parts : List α} {print : α → List Char}
    (steady : ∀ part ∈ parts, Steady kind (print part)) : Steady kind (parts.flatMap print) := by
  induction parts with
  | nil => exact steady_nil
  | cons part later inductionHypothesis =>
      rw [List.flatMap_cons]
      apply (steady part (List.mem_cons_self ..)).append
      exact inductionHypothesis fun other member => steady other (List.mem_cons_of_mem _ member)

theorem Steady.intercalate {separator : List Char} {parts : List (List Char)}
    (between : Steady kind separator) (steady : ∀ part ∈ parts, Steady kind part) :
    Steady kind (separator.intercalate parts) := by
  cases parts with
  | nil => exact steady_nil
  | cons first rest =>
      rw [intercalate_cons]
      apply (steady first (List.mem_cons_self ..)).append
      exact Steady.flatMap fun part member =>
        between.append (steady part (List.mem_cons_of_mem _ member))

theorem Steady.mono {wider : Char → Prop} (steady : Steady kind text)
    (within : ∀ c, kind c → wider c) : Steady wider text where
  marked := by
    obtain ⟨front, isKind, marks⟩ := steady.marked
    exact ⟨front, fun m member exposed => within _ (isKind m member exposed), marks⟩
  stripped := steady.stripped

/-- Where a separator that is never exposed stands in a steady text, it is hidden. -/
theorem Steady.exists_marks {separator : Char} (steady : Steady (· ≠ separator) text) :
    ∃ front : List Mark, unmarked front = text ∧
      (∀ m ∈ front, m.isExposed separator = false) ∧
        ∀ before rest,
          mark before 0 (text ++ rest) = front ++ mark (lastOf before text) 0 rest := by
  obtain ⟨front, isKind, marks⟩ := steady.marked
  refine ⟨front, ?_, ?_, marks⟩
  · have whole := marks none []
    rw [List.append_nil, mark, List.append_nil] at whole
    rw [← whole, unmarked_mark]
  · intro m member
    rw [Bool.eq_false_iff, Ne, Mark.isExposed_iff]
    exact fun isOne => isKind m member isOne.1 isOne.2

theorem Steady.stripComments_eq (steady : Steady kind text) : stripComments text = text := by
  have whole := steady.stripped none []
  rwa [List.append_nil, stripFrom, List.append_nil] at whole

/-- The character neither quotes nor escapes anything. -/
def IsPlain (c : Char) : Prop := c ≠ '\\' ∧ c ≠ '"' ∧ c ≠ '\''

instance : DecidablePred IsPlain := fun _ => inferInstanceAs (Decidable (_ ∧ _ ∧ _))

theorem IsPlain.not_opensString {c : Char} (plain : IsPlain c) (before : Option Char) :
    opensString before c = false := by
  simp only [opensString, beq_false_of_ne plain.2.1, beq_false_of_ne plain.2.2, Bool.or_self,
    Bool.false_and]

theorem IsPlain.exposed {c : Char} (plain : IsPlain c) (before : Option Char) (rest : List Char) :
    Exposed before c rest where
  plain := plain.1
  noString := by
    rw [plain.not_opensString]
    rfl

theorem mark_of_isPlain {c : Char} (plain : IsPlain c) (before : Option Char) (rest : List Char) :
    mark before 0 (c :: rest) = ⟨c, true⟩ :: mark (some c) 0 rest :=
  (plain.exposed before rest).mark_cons

theorem stripFrom_of_isPlain {c : Char} (plain : IsPlain c) (before : Option Char)
    {rest : List Char} (noOpener : ¬(c = '/' ∧ rest.head? = some '*')) :
    stripFrom before (.copying 0) (c :: rest) =
      c :: stripFrom (some c) (.copying 0) rest :=
  (plain.exposed before rest).stripFrom_cons noOpener

/-- All characters of a text without quotes and backslashes are exposed, whatever follows it. -/
theorem mark_plain_append (plain : ∀ c ∈ text, IsPlain c) (rest : List Char) :
    ∀ before, mark before 0 (text ++ rest) =
      (text.map fun c => ⟨c, true⟩) ++ mark (lastOf before text) 0 rest := by
  induction text with
  | nil => exact fun _ => rfl
  | cons c later inductionHypothesis =>
      intro before
      rw [List.cons_append, mark_of_isPlain (plain c (List.mem_cons_self ..)),
        inductionHypothesis fun d member => plain d (List.mem_cons_of_mem _ member), lastOf_cons]
      rfl

/-- A text without quotes and backslashes is steady if no comment begins in it and none can begin
at its end. -/
theorem steady_plain (plain : ∀ c ∈ text, IsPlain c ∧ kind c) (none : ¬OpensComment text)
    (ending : text.getLast? ≠ some '/') : Steady kind text where
  marked := by
    refine ⟨text.map fun c => ⟨c, true⟩, ?_, fun before rest =>
      mark_plain_append (fun c member => (plain c member).1) rest before⟩
    intro m member _
    obtain ⟨c, isChar, rfl⟩ := List.mem_map.mp member
    exact (plain c isChar).2
  stripped := by
    induction text with
    | nil => exact fun _ _ => rfl
    | cons c later inductionHypothesis =>
        intro before rest
        -- A last slash could open a comment together with what follows.
        have noOpener : ¬(c = '/' ∧ (later ++ rest).head? = some '*') := by
          intro ⟨slash, star⟩
          cases later with
          | nil => exact ending (by rw [slash]; rfl)
          | cons d further =>
              apply none
              have isStar : d = '*' := Option.some_inj.mp star
              rw [slash, isStar]
              exact ⟨[], further, rfl⟩
        have further := inductionHypothesis
          (fun d member => plain d (List.mem_cons_of_mem _ member))
          (fun opens => none (List.infix_cons_iff.mpr (Or.inr opens)))
        rw [List.cons_append,
          stripFrom_of_isPlain (plain c (List.mem_cons_self ..)).1 before noOpener, lastOf_cons,
          List.cons_append]
        cases later with
        | nil => rfl
        | cons d behind => rw [further (by rwa [List.getLast?_cons_cons] at ending)]

/-- A text without quotes, backslashes and slashes is steady. -/
theorem steady_slashless (plain : ∀ c ∈ text, IsPlain c ∧ c ≠ '/' ∧ kind c) :
    Steady kind text := by
  apply steady_plain
  · exact fun c member => ⟨(plain c member).1, (plain c member).2.2⟩
  · intro opens
    exact (plain '/' (opens.subset (List.mem_cons_self ..))).2.1 rfl
  · intro last
    exact (plain '/' (List.mem_of_getLast? last)).2.1 rfl

section Separators

variable {separator : Char} (isPlain : IsPlain separator) (steady : Steady (· ≠ separator) text)

include steady

/-- A steady text without the separator is one piece. -/
theorem splitMarked_steady (before : Option Char) :
    splitMarked separator (mark before 0 text) = [text] := by
  obtain ⟨front, isText, hidden, marks⟩ := steady.exists_marks
  have whole := marks before []
  rw [List.append_nil, mark, List.append_nil] at whole
  rw [whole, splitMarked_whole hidden, isText]

include isPlain

/-- A text is cut at the separator behind a steady part without it. -/
theorem splitMarked_steady_append (before : Option Char) (rest : List Char) :
    splitMarked separator (mark before 0 (text ++ separator :: rest)) =
      text :: splitMarked separator (mark (some separator) 0 rest) := by
  obtain ⟨front, isText, hidden, marks⟩ := steady.exists_marks
  rw [marks, mark_of_isPlain isPlain, splitMarked_append hidden, isText]

theorem cutMarked_steady_append (before : Option Char) (rest : List Char) :
    cutMarked separator (mark before 0 (text ++ separator :: rest)) =
      some (text, mark (some separator) 0 rest) := by
  obtain ⟨front, isText, hidden, marks⟩ := steady.exists_marks
  rw [marks, mark_of_isPlain isPlain, cutMarked_append hidden, isText]

end Separators

/-! ### Quoted strings -/

/-- The character can stand inside a string between two quotes. -/
def IsQuotable (c : Char) : Prop :=
  c ≠ '"' ∧ c ≠ '\\' ∧ c ≠ '\n' ∧ c ≠ '\x7b' ∧ c ≠ '\x7d'

instance : DecidablePred IsQuotable := fun _ => inferInstanceAs (Decidable (_ ∧ _ ∧ _ ∧ _ ∧ _))

theorem stringBody_of_quotable (quotable : ∀ c ∈ text, IsQuotable c) : StringBody '"' text := by
  induction text with
  | nil => exact .nil
  | cons c later inductionHypothesis =>
      obtain ⟨noQuote, noEscape, noBreak, noOpening, noClosing⟩ :=
        quotable c (List.mem_cons_self ..)
      refine .plain noEscape noQuote ?_ ?_
      · rintro (isBreak | isOpening | isClosing)
        · exact noBreak isBreak
        · exact noOpening isOpening
        · exact noClosing isClosing
      · exact inductionHypothesis fun d member => quotable d (List.mem_cons_of_mem _ member)

/-- A string reaches to its second quote. -/
theorem stringLength_closed (quotable : ∀ c ∈ text, IsQuotable c) (rest : List Char) :
    stringLength '"' (text ++ '"' :: rest) = some (text.length + 1) :=
  stringLength_of_body (by decide) (stringBody_of_quotable quotable) rest

/-- A string behind a character that lets one open is steady, and nothing in it is exposed. -/
theorem steady_quoted {opener : Char} (quotable : ∀ c ∈ text, IsQuotable c)
    (plain : IsPlain opener) (noSlash : opener ≠ '/') (opens : opensString (some opener) '"' = true)
    (isKind : kind opener) : Steady kind (opener :: '"' :: (text ++ ['"'])) := by
  have hidden : ∀ rest, Hidden (some opener) ('"' :: text ++ ['"']) rest := fun rest =>
    .string (by decide) (by rw [if_pos opens, stringLength_closed quotable])
  constructor
  case marked =>
    refine ⟨⟨opener, true⟩ :: ('"' :: text ++ ['"']).map fun c => ⟨c, false⟩, ?_, ?_⟩
    · intro m member exposed
      rcases List.mem_cons.mp member with rfl | within
      · exact isKind
      · obtain ⟨c, -, rfl⟩ := List.mem_map.mp within
        cases exposed
    · intro before rest
      have marks := (hidden rest).mark_append
      rw [List.cons_append, mark_of_isPlain plain, lastOf_cons]
      exact congrArg _ marks
  case stripped =>
    intro before rest
    have noOpener : ¬(opener = '/' ∧ ('"' :: (text ++ ['"']) ++ rest).head? = some '*') :=
      fun comment => noSlash comment.1
    have copied := (hidden rest).stripFrom_append
    rw [List.cons_append, stripFrom_of_isPlain plain before noOpener, lastOf_cons]
    exact congrArg _ copied

end StyledWidgets.Text
