/-
Module: StyledWidgets.Proofs.CutPieces
Purpose: The pieces of a text that is cut at its exposed commas or semicolons. Put together again
  they are the text, each of them is scanned on its own as it is scanned in the text, and so none is
  cut again. What hides a character is told without the scan: an odd number of backslashes in front
  of it, or a string around it.
Main exports: IsString, ReadTo, Escaped, InString, getElem?_marks, mark_front, Divided,
  splitExposed_divided, InsidePiece, splitExposed_stable
-/
import Mathlib.Algebra.Ring.Parity
import StyledWidgets.Proofs.ScannedText

namespace StyledWidgets.Text

/-! ### Closed strings -/

/-- A quote behind the character `before` opens a string with this inside. -/
structure IsString (before : Option Char) (quote : Char) (inner : List Char) : Prop where
  opens : opensString before quote = true
  body : StringBody quote inner

section Strings

variable {before : Option Char} {c : Char} {inner rest : List Char} {length : Nat}

theorem IsString.ne_backslash (isString : IsString before c inner) : c ≠ '\\' := by
  rcases isQuote_of_opensString isString.opens with rfl | rfl <;> decide

theorem stringFound_of_isString (isString : IsString before c inner) (behind : List Char) :
    (if opensString before c then stringLength c (inner ++ c :: behind) else none) =
      some (inner.length + 1) := by
  rw [if_pos isString.opens, stringLength_of_body isString.ne_backslash isString.body]

/-- A closed string is found exactly if there is one. -/
theorem stringFound_eq_some_iff :
    (if opensString before c then stringLength c rest else none) = some length ↔
      ∃ inner behind, IsString before c inner ∧ rest = inner ++ c :: behind ∧
        length = inner.length + 1 := by
  constructor
  · intro found
    split at found
    case isTrue opens =>
      obtain ⟨inner, behind, body, whole⟩ := exists_body_of_stringLength rest found
      exact ⟨inner, behind, ⟨opens, body⟩, whole⟩
    case isFalse => cases found
  · rintro ⟨inner, behind, isString, rfl, rfl⟩
    exact stringFound_of_isString isString behind

theorem stringFound_eq_none_iff :
    (if opensString before c then stringLength c rest else none) = none ↔
      ∀ inner behind, rest = inner ++ c :: behind → ¬IsString before c inner := by
  rw [Option.eq_none_iff_forall_ne_some]
  constructor
  · intro unclosed inner behind whole isString
    exact unclosed _ (stringFound_eq_some_iff.mpr ⟨inner, behind, isString, whole, rfl⟩)
  · intro unclosed length found
    obtain ⟨inner, behind, isString, whole, -⟩ := stringFound_eq_some_iff.mp found
    exact unclosed inner behind whole isString

/-- A string that is not closed in a longer text is not closed in its front. -/
theorem stringFound_front_eq_none {front : List Char}
    (unclosed : (if opensString before c then stringLength c (front ++ rest) else none) = none) :
    (if opensString before c then stringLength c front else none) = none := by
  rw [stringFound_eq_none_iff] at unclosed ⊢
  intro inner behind whole
  apply unclosed inner (behind ++ rest)
  rw [whole, List.append_assoc, List.cons_append]

/-- A string that is closed in the front of a longer text is closed in the front alone. -/
theorem stringFound_front {front : List Char}
    (found : (if opensString before c then stringLength c (front ++ rest) else none) = some length)
    (within : length ≤ front.length) :
    (if opensString before c then stringLength c front else none) = some length := by
  obtain ⟨inner, behind, isString, whole, rfl⟩ := stringFound_eq_some_iff.mp found
  have isInner : front.take (inner.length + 1) = inner ++ [c] := by
    have inFront : (front ++ rest).take (inner.length + 1) = front.take (inner.length + 1) :=
      List.take_append_of_le_length within
    rw [← inFront, whole, List.append_cons]
    exact List.take_left' (by rw [List.length_append, List.length_singleton])
  rw [← List.take_append_drop (inner.length + 1) front, isInner, ← List.append_cons]
  exact stringFound_of_isString isString _

theorem IsString.hidden (isString : IsString before c inner) (behind : List Char) :
    Hidden before (c :: inner ++ [c]) behind :=
  .string isString.ne_backslash (stringFound_of_isString isString behind)

end Strings

/-! ### What hides a character -/

/-- What a reader takes at once from the beginning of a text, and what is behind it: a backslash
with the character that it escapes, a closed string, or a single character. -/
inductive Taken (before : Option Char) : List Char → List Char → Prop where
  | escape (d : Char) (behind : List Char) : Taken before ['\\', d] behind
  | string {quote : Char} {inner : List Char} (isString : IsString before quote inner)
      (behind : List Char) : Taken before (quote :: inner ++ [quote]) behind
  | single {c : Char} {behind : List Char} (noEscape : c ≠ '\\')
      (noString : ∀ inner later, behind = inner ++ c :: later → ¬IsString before c inner) :
      Taken before [c] behind

/-- A reader comes to the end of `front` when `rest` follows. -/
inductive ReadTo : List Char → List Char → Prop where
  | start (text : List Char) : ReadTo [] text
  | step {front looked rest : List Char} (here : ReadTo front (looked ++ rest))
      (taken : Taken (lastOf none front) looked rest) : ReadTo (front ++ looked) rest

/-- What follows a text is escaped if an odd number of backslashes stands at its end. -/
def Escaped (front : List Char) : Prop := Odd (front.reverse.takeWhile (· == '\\')).length

/-- The place between `front` and `rest` lies between the two quotes of a closed string. -/
def InString (front rest : List Char) : Prop :=
  ∃ before quote left right behind,
    ReadTo before (quote :: (left ++ right) ++ [quote] ++ behind) ∧
      IsString (lastOf none before) quote (left ++ right) ∧
        front = before ++ quote :: left ∧ rest = right ++ quote :: behind

instance (front : List Char) : Decidable (Escaped front) := inferInstanceAs (Decidable (Odd _))

/-- A backslash escapes what follows unless it is escaped itself. -/
theorem escaped_concat {front : List Char} {c : Char} :
    Escaped (front ++ [c]) ↔ c = '\\' ∧ ¬Escaped front := by
  rw [Escaped, Escaped, List.reverse_concat]
  by_cases escape : c = '\\'
  · subst escape
    rw [List.takeWhile_cons_of_pos (by rfl), List.length_cons, Nat.odd_add_one]
    exact (and_iff_right rfl).symm
  · rw [List.takeWhile_cons_of_neg (by rwa [beq_iff_eq])]
    exact iff_of_false Nat.not_odd_zero fun both => escape both.1

section Reading

variable {before : Option Char} {front looked behind rest : List Char} {c : Char}

theorem Taken.filled (taken : Taken before looked behind) : looked ≠ [] := by
  cases taken <;> exact List.cons_ne_nil _ _

/-- A text that goes on can be read on, unless it ends with a backslash. -/
theorem exists_taken (before : Option Char) (c : Char) (rest : List Char)
    (goesOn : ¬(c = '\\' ∧ rest = [])) :
    ∃ looked behind, c :: rest = looked ++ behind ∧ Taken before looked behind := by
  by_cases escape : c = '\\'
  · subst escape
    obtain ⟨d, later, rfl⟩ := List.exists_cons_of_ne_nil fun none => goesOn ⟨rfl, none⟩
    exact ⟨['\\', d], later, rfl, .escape d later⟩
  · by_cases string : ∃ inner behind, rest = inner ++ c :: behind ∧ IsString before c inner
    · obtain ⟨inner, behind, rfl, isString⟩ := string
      exact ⟨c :: inner ++ [c], behind, by simp, .string isString behind⟩
    · refine ⟨[c], rest, rfl, .single escape fun inner later whole isString => ?_⟩
      exact string ⟨inner, later, whole, isString⟩

/-- A reader never stops behind a backslash that escapes what follows. -/
theorem ReadTo.not_escaped (read : ReadTo front rest) : ¬Escaped front := by
  induction read with
  | start => exact Nat.not_odd_zero
  | @step front looked rest here taken inductionHypothesis =>
      cases taken with
      | escape d =>
          rw [List.append_cons, escaped_concat, escaped_concat]
          exact fun both => both.2 ⟨rfl, inductionHypothesis⟩
      | string isString =>
          rw [← List.append_assoc, escaped_concat]
          exact fun both => isString.ne_backslash both.1
      | single noEscape =>
          rw [escaped_concat]
          exact fun both => noEscape both.1

/-- Behind the beginning of what a reader takes at once, a character is escaped or in a string. -/
theorem Taken.inside {left right : List Char} (taken : Taken (lastOf none front) looked behind)
    (isLooked : looked = left ++ c :: right) (within : left ≠ [])
    (read : ReadTo front (looked ++ behind)) :
    (left = ['\\'] ∧ right = []) ∨ InString (front ++ left) (c :: right ++ behind) := by
  obtain ⟨d, left, rfl⟩ := List.exists_cons_of_ne_nil within
  obtain ⟨ahead, last, isAhead⟩ :=
    (List.eq_nil_or_concat' (c :: right)).resolve_left (List.cons_ne_nil _ _)
  rw [List.cons_append] at isLooked
  cases taken with
  | escape e =>
      obtain ⟨rfl, isRest⟩ := List.cons.inj isLooked
      cases left with
      | nil => exact Or.inl ⟨rfl, (List.cons.inj isRest).2.symm⟩
      | cons x further => simp at isRest
  | @string quote inner isString =>
      obtain ⟨rfl, isRest⟩ := List.cons.inj isLooked
      rw [isAhead, ← List.append_assoc] at isRest
      obtain ⟨rfl, same⟩ := List.append_inj' isRest rfl
      cases same
      refine Or.inr ⟨front, _, left, ahead, behind, read, isString, rfl, ?_⟩
      rw [isAhead, List.append_assoc, List.singleton_append]
  | single =>
      obtain ⟨-, isRest⟩ := List.cons.inj isLooked
      simp at isRest

/-- Every place of a text is one to which a reader comes, or behind a backslash to which it comes,
or in a string. -/
theorem readTo_cases (front : List Char) (c : Char) (rest : List Char) :
    ReadTo front (c :: rest) ∨
      (∃ before, front = before ++ ['\\'] ∧ ReadTo before ('\\' :: c :: rest)) ∨
        InString front (c :: rest) := by
  -- The reader has come to the end of `passed`, and `ahead` is what is left of `front`.
  suffices further : ∀ ahead passed, ReadTo passed (ahead ++ c :: rest) →
      ReadTo (passed ++ ahead) (c :: rest) ∨
        (∃ before, passed ++ ahead = before ++ ['\\'] ∧ ReadTo before ('\\' :: c :: rest)) ∨
          InString (passed ++ ahead) (c :: rest) from further front [] (.start _)
  intro ahead
  induction long : ahead.length using Nat.strongRecOn generalizing ahead with
  | ind n inductionHypothesis =>
      intro passed read
      cases ahead with
      | nil =>
          rw [List.append_nil]
          exact Or.inl read
      | cons d ahead =>
          have goesOn : ¬(d = '\\' ∧ ahead ++ c :: rest = []) := by simp
          obtain ⟨looked, behind, whole, taken⟩ := exists_taken (lastOf none passed) d _ goesOn
          rw [List.cons_append, whole] at read
          rw [← List.cons_append] at whole
          rcases List.append_eq_append_iff.mp whole with
            ⟨right, isLooked, isRest⟩ | ⟨left, isAhead, isBehind⟩
          · cases right with
            | nil =>
                rw [List.append_nil] at isLooked
                rw [← isLooked, isRest]
                exact Or.inl (read.step taken)
            | cons e right =>
                obtain ⟨rfl, rfl⟩ := List.cons.inj isRest
                rcases taken.inside isLooked (List.cons_ne_nil _ _) read with
                  ⟨isEscape, rfl⟩ | string
                · rw [isEscape]
                  rw [isLooked, isEscape] at read
                  exact Or.inr (Or.inl ⟨passed, rfl, read⟩)
                · exact Or.inr (Or.inr string)
          · have shorter : left.length < n := by
              rw [← long, isAhead, List.length_append]
              exact Nat.lt_add_of_pos_left (List.length_pos_iff.mpr taken.filled)
            rw [isAhead, ← List.append_assoc]
            exact inductionHypothesis _ shorter left rfl _ (isBehind ▸ read.step taken)

/-- The scan takes the same at once, all of it hidden or all of it exposed. -/
theorem Taken.mark_append (taken : Taken before looked behind) :
    ∃ exposed, mark before 0 (looked ++ behind) =
      (looked.map fun c => ⟨c, exposed⟩) ++ mark (lastOf before looked) 0 behind := by
  cases taken with
  | escape d => exact ⟨false, (Hidden.escaped d behind).mark_append⟩
  | string isString => exact ⟨false, (isString.hidden behind).mark_append⟩
  | single noEscape noString =>
      exact ⟨true, Exposed.mark_cons ⟨noEscape, stringFound_eq_none_iff.mpr noString⟩⟩

/-- The scan comes to all places to which a reader comes. -/
theorem ReadTo.marks_append (read : ReadTo front rest) :
    ∃ marked, unmarked marked = front ∧
      marks (front ++ rest) = marked ++ mark (lastOf none front) 0 rest := by
  induction read with
  | start text => exact ⟨[], rfl, rfl⟩
  | @step front looked rest here taken inductionHypothesis =>
      obtain ⟨marked, rfl, isMarked⟩ := inductionHypothesis
      obtain ⟨exposed, further⟩ := taken.mark_append
      refine ⟨marked ++ looked.map fun c => ⟨c, exposed⟩, ?_, ?_⟩
      · simp [unmarked, Function.comp_def]
      · rw [List.append_assoc, isMarked, further, lastOf_append, List.append_assoc]

theorem length_unmarked (marked : List Mark) : (unmarked marked).length = marked.length :=
  List.length_map _

/-- A plain character to which a reader comes is exposed. -/
theorem ReadTo.getElem?_marks (read : ReadTo front (c :: rest)) (plain : IsPlain c) :
    (marks (front ++ c :: rest))[front.length]? = some ⟨c, true⟩ := by
  obtain ⟨marked, rfl, isMarked⟩ := read.marks_append
  rw [isMarked, length_unmarked, mark_of_isPlain plain, List.getElem?_append_right (Nat.le_refl _),
    Nat.sub_self]
  rfl

/-- What a reader takes at once as hidden is hidden character by character. -/
theorem ReadTo.getElem?_marks_of_hidden (left right : List Char)
    (read : ReadTo front (left ++ c :: right ++ behind))
    (hidden : Hidden (lastOf none front) (left ++ c :: right) behind) :
    (marks (front ++ left ++ c :: (right ++ behind)))[(front ++ left).length]? =
      some ⟨c, false⟩ := by
  obtain ⟨marked, rfl, isMarked⟩ := read.marks_append
  have shape : unmarked marked ++ left ++ c :: (right ++ behind) =
      unmarked marked ++ (left ++ c :: right ++ behind) := by simp
  rw [shape, isMarked, hidden.mark_append, List.length_append, length_unmarked,
    List.getElem?_append_right (Nat.le_add_right ..), Nat.add_sub_cancel_left,
    List.getElem?_append_left (by simp)]
  simp

theorem InString.getElem?_marks (string : InString front (c :: rest)) :
    (marks (front ++ c :: rest))[front.length]? = some ⟨c, false⟩ := by
  obtain ⟨before, quote, left, right, behind, read, isString, rfl, isRest⟩ := string
  obtain ⟨d, further, isRight⟩ := List.exists_cons_of_ne_nil
    (List.append_ne_nil_of_right_ne_nil right (List.cons_ne_nil quote []))
  rw [List.append_cons, isRight] at isRest
  obtain ⟨rfl, rfl⟩ := List.cons.inj isRest
  have shape : quote :: (left ++ right) ++ [quote] = quote :: left ++ c :: further := by
    rw [← isRight]
    simp
  have hidden := isString.hidden behind
  rw [shape] at read hidden
  exact read.getElem?_marks_of_hidden (quote :: left) further hidden

/-- A plain character is hidden exactly if it is escaped or in a string. -/
theorem getElem?_marks_eq_hidden_iff (plain : IsPlain c) (front rest : List Char) :
    (marks (front ++ c :: rest))[front.length]? = some ⟨c, false⟩ ↔
      Escaped front ∨ InString front (c :: rest) := by
  constructor
  · intro hidden
    rcases readTo_cases front c rest with read | ⟨before, rfl, read⟩ | string
    · rw [read.getElem?_marks plain] at hidden
      cases hidden
    · exact Or.inl (escaped_concat.mpr ⟨rfl, read.not_escaped⟩)
    · exact Or.inr string
  · rintro (escaped | string)
    · rcases readTo_cases front c rest with read | ⟨before, rfl, read⟩ | string
      · exact absurd escaped read.not_escaped
      · exact read.getElem?_marks_of_hidden ['\\'] [] (.escaped c rest)
      · exact string.getElem?_marks
    · exact string.getElem?_marks

end Reading

/-! ### A piece on its own -/

/-- What is shielded is not exposed. -/
theorem exposed_of_shielded (text : List Char) :
    ∀ {before : Option Char} {shielded i : Nat} {m : Mark}, i < shielded →
      (mark before shielded text)[i]? = some m → m.exposed = false := by
  induction text with
  | nil =>
      intro before shielded i m within found
      rw [mark] at found
      cases found
  | cons c rest inductionHypothesis =>
      intro before shielded i m within found
      cases shielded with
      | zero => exact absurd within (Nat.not_lt_zero i)
      | succ left =>
          rw [mark] at found
          cases i with
          | zero =>
              cases found
              rfl
          | succ i => exact inductionHypothesis (Nat.lt_of_succ_lt_succ within) found

theorem mark_of_stringFound {before : Option Char} {c : Char} {rest : List Char} {length : Nat}
    (noEscape : c ≠ '\\')
    (found : (if opensString before c then stringLength c rest else none) = some length) :
    mark before 0 (c :: rest) = ⟨c, false⟩ :: mark (some c) length rest := by
  rw [mark]
  simp only [noEscape, found, if_false]

/-- A text in front of an exposed character is marked on its own as it is marked there. Strings that
are closed in front of the character are closed without what is behind it; those that are not, be it
for a brace or a line break far behind, are not closed without it either. -/
theorem mark_front {c : Char} {rest : List Char} {later : List Mark} (front : List Char) :
    ∀ {before : Option Char} {shielded : Nat} {marked : List Mark},
      marked.length = front.length →
        mark before shielded (front ++ c :: rest) = marked ++ ⟨c, true⟩ :: later →
          mark before shielded front = marked := by
  induction front with
  | nil =>
      intro before shielded marked sameLength _
      rw [List.eq_nil_of_length_eq_zero sameLength, mark]
  | cons d front inductionHypothesis =>
      intro before shielded marked sameLength isMarked
      obtain ⟨m, marked, rfl⟩ := List.exists_cons_of_length_eq_add_one sameLength
      rw [List.length_cons, List.length_cons, Nat.succ_inj] at sameLength
      rw [List.cons_append, List.cons_append] at isMarked
      cases shielded with
      | succ left =>
          rw [mark] at isMarked
          obtain ⟨rfl, behind⟩ := List.cons.inj isMarked
          rw [mark, inductionHypothesis sameLength behind]
      | zero =>
          by_cases escape : d = '\\'
          · rw [mark, if_pos escape] at isMarked
            obtain ⟨rfl, behind⟩ := List.cons.inj isMarked
            rw [mark, if_pos escape, inductionHypothesis sameLength behind]
          cases found : if opensString before d then stringLength d (front ++ c :: rest)
            else none with
          | none =>
              have alone : Exposed before d front := ⟨escape, stringFound_front_eq_none found⟩
              rw [Exposed.mark_cons ⟨escape, found⟩] at isMarked
              obtain ⟨rfl, behind⟩ := List.cons.inj isMarked
              rw [alone.mark_cons, inductionHypothesis sameLength behind]
          | some length =>
              rw [mark_of_stringFound escape found] at isMarked
              obtain ⟨rfl, behind⟩ := List.cons.inj isMarked
              -- The exposed character is not shielded by the string.
              have within : length ≤ front.length := by
                by_contra reaches
                have isExposed :
                    (mark (some d) length (front ++ c :: rest))[front.length]? =
                      some ⟨c, true⟩ := by
                  rw [behind, ← sameLength, List.getElem?_append_right (Nat.le_refl _),
                    Nat.sub_self]
                  rfl
                cases exposed_of_shielded _ (Nat.lt_of_not_le reaches) isExposed
              have alone := stringFound_front found within
              rw [mark_of_stringFound escape alone, inductionHypothesis sameLength behind]

/-! ### Pieces -/

/-- A text and its pieces: none of them has an exposed separator, and in front of a separator a
piece is marked as it is on its own, and so is what is behind. -/
inductive Divided (separator : Char) : List Char → List (List Char) → Prop where
  | whole {text : List Char} (single : ∀ m ∈ marks text, m.isExposed separator = false) :
      Divided separator text [text]
  | cut {piece rest : List Char} {pieces : List (List Char)}
      (single : ∀ m ∈ marks piece, m.isExposed separator = false)
      (alone : marks (piece ++ separator :: rest) =
        marks piece ++ ⟨separator, true⟩ :: marks rest)
      (further : Divided separator rest pieces) :
      Divided separator (piece ++ separator :: rest) (piece :: pieces)

/-- The separator between `front` and `rest` stands inside of one of the pieces of a text. -/
inductive InsidePiece (separator : Char) : List (List Char) → List Char → List Char → Prop where
  | here {left right : List Char} {later : List (List Char)} :
      InsidePiece separator ((left ++ separator :: right) :: later) left
        (right ++ later.flatMap (separator :: ·))
  | further {piece front rest : List Char} {later : List (List Char)}
      (inside : InsidePiece separator later front rest) :
      InsidePiece separator (piece :: later) (piece ++ separator :: front) rest

section Pieces

variable {separator : Char} {text front rest : List Char} {pieces : List (List Char)}

/-- A text is cut into its pieces if strings open behind a separator as they do at the start. -/
theorem splitExposed_divided (same : ∀ c, opensString (some separator) c = opensString none c)
    (text : List Char) : Divided separator text (splitExposed separator text) := by
  induction long : text.length using Nat.strongRecOn generalizing text with
  | ind n inductionHypothesis =>
      cases found : (marks text).find? (Mark.isExposed · separator) with
      | none =>
          have single : ∀ m ∈ marks text, m.isExposed separator = false := by
            simpa using found
          rw [splitExposed, splitMarked_whole single, marks, unmarked_mark]
          exact .whole single
      | some m =>
          obtain ⟨isSeparator, before, later, isMarked, hidden⟩ :=
            List.find?_eq_some_iff_append.mp found
          have single : ∀ m ∈ before, m.isExposed separator = false := by simpa using hidden
          have exposed : m = ⟨separator, true⟩ := by
            obtain ⟨isExposed, isChar⟩ := Mark.isExposed_iff.mp isSeparator
            cases m
            exact congrArg₂ Mark.mk isChar isExposed
          rw [exposed] at isMarked
          have isCut : cutMarked separator (marks text) = some (unmarked before, later) :=
            isMarked ▸ cutMarked_append single
          obtain ⟨behind, whole, isLater⟩ := cutMarked_mark text isCut
          rw [mark_congr same] at isLater
          have alone : marks (unmarked before) = before := by
            apply mark_front _ (length_unmarked before).symm
            rw [← whole]
            exact isMarked
          have shorter : behind.length < n := by
            rw [← long, whole, List.length_append, List.length_cons]
            omega
          have further := inductionHypothesis _ shorter behind rfl
          have pieces : splitExposed separator text =
              unmarked before :: splitExposed separator behind := by
            rw [splitExposed, isMarked, splitMarked_append single, isLater]
            rfl
          rw [pieces, whole]
          refine .cut (alone.symm ▸ single) ?_ further
          rw [← whole, isMarked, alone, isLater]
          rfl

theorem Divided.ne_nil (divided : Divided separator text pieces) : pieces ≠ [] := by
  cases divided <;> exact List.cons_ne_nil _ _

theorem Divided.intercalate_eq (divided : Divided separator text pieces) :
    [separator].intercalate pieces = text := by
  induction divided with
  | whole => exact List.intercalate_singleton
  | cut single alone further inductionHypothesis =>
      rw [List.intercalate_cons_of_ne_nil further.ne_nil, inductionHypothesis,
        List.append_assoc, List.singleton_append]

/-- Every piece has a separator in front of it, if one is put before the text. -/
theorem Divided.flatMap_eq (divided : Divided separator text pieces) :
    pieces.flatMap (separator :: ·) = separator :: text := by
  induction divided with
  | whole => exact List.flatMap_singleton ..
  | cut single alone further inductionHypothesis =>
      rw [List.flatMap_cons, inductionHypothesis, List.cons_append]

theorem Divided.marks_eq (divided : Divided separator text pieces) :
    marks text = [⟨separator, true⟩].intercalate (pieces.map marks) := by
  induction divided with
  | whole => exact List.intercalate_singleton.symm
  | cut single alone further inductionHypothesis =>
      have filled := mt (@List.map_eq_nil_iff _ _ marks _).mp further.ne_nil
      rw [List.map_cons, List.intercalate_cons_of_ne_nil filled, ← inductionHypothesis, alone,
        List.append_assoc, List.singleton_append]

theorem Divided.single (divided : Divided separator text pieces) :
    ∀ piece ∈ pieces, ∀ m ∈ marks piece, m.isExposed separator = false := by
  induction divided with
  | whole single => simpa using single
  | cut single alone further inductionHypothesis =>
      exact List.forall_mem_cons.mpr ⟨single, inductionHypothesis⟩

theorem exists_getElem?_marks (front : List Char) (c : Char) (rest : List Char) :
    ∃ m, (marks (front ++ c :: rest))[front.length]? = some m ∧ m.char = c := by
  have whole : (marks (front ++ c :: rest)).map Mark.char = front ++ c :: rest :=
    unmarked_mark none 0 _
  have here : ((marks (front ++ c :: rest)).map Mark.char)[front.length]? = some c := by
    rw [whole, List.getElem?_append_right (Nat.le_refl _), Nat.sub_self]
    rfl
  rwa [List.getElem?_map, Option.map_eq_some_iff] at here

/-- A separator is hidden in a text without exposed ones. -/
theorem getElem?_marks_of_single (single : ∀ m ∈ marks (front ++ separator :: rest),
    m.isExposed separator = false) :
    (marks (front ++ separator :: rest))[front.length]? = some ⟨separator, false⟩ := by
  obtain ⟨⟨c, exposed⟩, found, rfl⟩ := exists_getElem?_marks front separator rest
  have hidden := single _ (List.mem_of_getElem? found)
  rw [Mark.isExposed, beq_self_eq_true, Bool.and_true] at hidden
  rw [found]
  exact congrArg _ (congrArg _ hidden)

/-- Two places of a text at which the same element stands are one place, or one is behind the
other. -/
theorem append_cons_cases {α : Type} {a : α} {front rest other later : List α}
    (same : front ++ a :: rest = other ++ a :: later) :
    (front = other ∧ rest = later) ∨
      (∃ between, front = other ++ a :: between ∧ later = between ++ a :: rest) ∨
        ∃ between, other = front ++ a :: between ∧ rest = between ++ a :: later := by
  rcases List.append_eq_append_iff.mp same with ⟨between, rfl, isRest⟩ | ⟨between, rfl, isRest⟩
  · cases between with
    | nil => exact Or.inl ⟨(List.append_nil _).symm, (List.cons.inj isRest).2⟩
    | cons b between =>
        obtain ⟨rfl, isBehind⟩ := List.cons.inj isRest
        exact Or.inr (Or.inr ⟨between, rfl, isBehind⟩)
  · cases between with
    | nil => exact Or.inl ⟨List.append_nil _, (List.cons.inj isRest).2.symm⟩
    | cons b between =>
        obtain ⟨rfl, isBehind⟩ := List.cons.inj isRest
        exact Or.inr (Or.inl ⟨between, rfl, isBehind⟩)

/-- A separator stands inside of the first piece or of a later one. -/
theorem insidePiece_cons {piece : List Char} :
    InsidePiece separator (piece :: pieces) front rest ↔
      (∃ right, piece = front ++ separator :: right ∧
        rest = right ++ pieces.flatMap (separator :: ·)) ∨
        ∃ ahead, front = piece ++ separator :: ahead ∧
          InsidePiece separator pieces ahead rest := by
  constructor
  · intro inside
    cases inside with
    | here => exact Or.inl ⟨_, rfl, rfl⟩
    | further inside => exact Or.inr ⟨_, rfl, inside⟩
  · rintro (⟨right, rfl, rfl⟩ | ⟨ahead, rfl, inside⟩)
    · exact .here
    · exact .further inside

/-- The separators inside of pieces are those that are hidden in the text. -/
theorem Divided.insidePiece_iff (divided : Divided separator text pieces) :
    ∀ {front : List Char}, text = front ++ separator :: rest →
      (InsidePiece separator pieces front rest ↔
        (marks text)[front.length]? = some ⟨separator, false⟩) := by
  induction divided with
  | @whole text single =>
      rintro front rfl
      refine iff_of_true ?_ (getElem?_marks_of_single single)
      have inside := @InsidePiece.here separator front rest []
      rwa [List.flatMap_nil, List.append_nil] at inside
  | @cut piece behind pieces single alone further inductionHypothesis =>
      intro front whole
      have sameLength : (marks piece).length = piece.length := by
        rw [← length_unmarked, marks, unmarked_mark]
      rw [alone, insidePiece_cons]
      rcases append_cons_cases whole with ⟨rfl, rfl⟩ | ⟨right, rfl, rfl⟩ | ⟨ahead, rfl, rfl⟩
      · rw [← sameLength, List.getElem?_append_right (Nat.le_refl _), Nat.sub_self]
        refine iff_of_false ?_ fun same => by cases same
        rintro (⟨right, isPiece, -⟩ | ⟨ahead, isFront, -⟩)
        · simp at isPiece
        · simp at isFront
      · have within : front.length < (marks (front ++ separator :: right)).length := by
          rw [sameLength, List.length_append, List.length_cons]
          omega
        rw [List.getElem?_append_left within]
        refine iff_of_true (Or.inl ⟨right, rfl, ?_⟩) (getElem?_marks_of_single single)
        rw [further.flatMap_eq]
      · rw [List.length_append, ← sameLength, List.getElem?_append_right (Nat.le_add_right ..),
          Nat.add_sub_cancel_left, List.length_cons, List.getElem?_cons_succ,
          ← inductionHypothesis rfl]
        constructor
        · rintro (⟨right, isPiece, -⟩ | ⟨other, isFront, inside⟩)
          · simp at isPiece
          · obtain ⟨-, rfl⟩ := List.cons.inj (List.append_cancel_left isFront)
            exact inside
        · exact fun inside => Or.inr ⟨ahead, rfl, inside⟩

end Pieces

/-- Commas and semicolons divide a text into pieces that are the text again when they are put
together, and none of which is cut again. Each piece is scanned on its own as it is scanned in its
place. The separators that stand inside of pieces are those that are escaped or in a closed
string. -/
theorem splitExposed_stable {separator : Char} (isSeparator : separator = ',' ∨ separator = ';')
    (text : List Char) :
    [separator].intercalate (splitExposed separator text) = text ∧
      (∀ piece ∈ splitExposed separator text, splitExposed separator piece = [piece]) ∧
      marks text = [⟨separator, true⟩].intercalate ((splitExposed separator text).map marks) ∧
      ∀ front rest, text = front ++ separator :: rest →
        (InsidePiece separator (splitExposed separator text) front rest ↔
          Escaped front ∨ InString front (separator :: rest)) := by
  have same : ∀ c, opensString (some separator) c = opensString none c := by
    rcases isSeparator with rfl | rfl <;> exact fun _ => rfl
  have plain : IsPlain separator := by
    rcases isSeparator with rfl | rfl <;> decide
  have divided := splitExposed_divided same text
  refine ⟨divided.intercalate_eq, fun piece isPiece => ?_, divided.marks_eq, ?_⟩
  · rw [splitExposed, splitMarked_whole (divided.single piece isPiece), marks, unmarked_mark]
  · rintro front rest rfl
    rw [divided.insidePiece_iff rfl, getElem?_marks_eq_hidden_iff plain]

/-- A text with an apostrophe in a word, a closed string, an escaped comma, and two quotes that a
brace keeps from closing a string, behind the comma that ends the piece. -/
def quotedParts : List Char := "it's, \"a, b\", 'c\\,d', \"e, f\x7b\"".toList

/-- The pieces of a text with all that can hide a comma, and of the comma in its closed string. -/
theorem splitExposed_stable_quotedParts :
    (',' = ',' ∨ ',' = ';') ∧
    splitExposed ',' quotedParts = ["it's".toList, " \"a, b\"".toList, " 'c\\,d'".toList,
      " \"e".toList, " f\x7b\"".toList] ∧
    [','].intercalate (splitExposed ',' quotedParts) = quotedParts ∧
    (∀ piece ∈ splitExposed ',' quotedParts, splitExposed ',' piece = [piece]) ∧
    ¬Escaped "it's, \"a".toList ∧
    InString "it's, \"a".toList ", b\", 'c\\,d', \"e, f\x7b\"".toList := by
  have isSeparator : ',' = ',' ∨ ',' = ';' := Or.inl rfl
  have pieces : splitExposed ',' quotedParts = ["it's".toList, " \"a, b\"".toList,
      " 'c\\,d'".toList, " \"e".toList, " f\x7b\"".toList] := by decide
  obtain ⟨whole, again, -, hidden⟩ := splitExposed_stable isSeparator quotedParts
  have notEscaped : ¬Escaped "it's, \"a".toList := by decide
  have place := hidden "it's, \"a".toList " b\", 'c\\,d', \"e, f\x7b\"".toList (by decide)
  have inside : InsidePiece ',' (splitExposed ',' quotedParts) "it's, \"a".toList
      " b\", 'c\\,d', \"e, f\x7b\"".toList := by
    rw [pieces, insidePiece_cons]
    refine Or.inr ⟨" \"a".toList, by decide, insidePiece_cons.mpr (Or.inl ⟨" b\"".toList, ?_⟩)⟩
    decide
  exact ⟨isSeparator, pieces, whole, again, notEscaped, (place.mp inside).resolve_left notEscaped⟩

end StyledWidgets.Text
