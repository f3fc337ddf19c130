/-
Module: StyledWidgets.Proofs.ByteScans
Purpose: The scans for quotes, separators and comments as loops over the places of a text, byte by
  byte. A loop gives nothing if it reads or cuts where it must not, or if a jump does not lead on;
  all of them give what is found in the characters of the text. A loop is led into a wide character
  only by a backslash in front of it, and bytes of wide characters are nothing to any loop.
Main exports: stringEnd, scanExposed, findExposed, splitExposed, stripComments, endsAlike, Passes,
  hidden_or_exposed, findExposed_cases, splitExposed_eq, stripComments_eq
-/
import StyledWidgets.Proofs.ByteText
import StyledWidgets.Proofs.ScannedText

namespace StyledWidgets.Bytes

open StyledWidgets.Text

/-! ### Loops over places -/

/-- The place of the quote that closes a string, looked for from a place on. A backslash takes the
byte behind it along, whatever it belongs to. -/
def stringEndFrom (text : List Char) (quote : Char) (i : Nat) : Option (Option Nat) :=
  if i < size text then do
    let b ← byteAt? text i
    if b = '\\' then stringEndFrom text quote (i + 2)
    else if b = quote then some (some i)
    else if b = '\n' ∨ b = '\x7b' ∨ b = '\x7d' then some none
    else stringEndFrom text quote (i + 1)
  else some none
termination_by size text - i

/-- The place of the quote that closes the string opened at a place. -/
def stringEnd (text : List Char) (start : Nat) : Option (Option Nat) := do
  let quote ← byteAt? text start
  stringEndFrom text quote (start + 1)

/-- The byte `b` at place `i` opens a string. -/
def opensStringAt (text : List Char) (i : Nat) (b : Char) : Option Bool :=
  if i = 0 then some (opensString none b)
  else do
    let before ← byteAt? text (i - 1)
    some (opensString (some before) b)

/-- The place of the closing quote, if a closed string opens with the byte `b` at place `i`. -/
def closedString (text : List Char) (i : Nat) (b : Char) : Option (Option Nat) := do
  if ← opensStringAt text i b then stringEnd text i else some none

/-- Visit the bytes from a place on that are neither escaped nor part of a closed string, until a
visit says that it is the last. The loop ends since every step leads on in the text; the end of a
string is checked to lie further on, so that this needs no fact about the search for it. -/
def scanExposed {σ : Type} (text : List Char) (visit : σ → Nat → Char → Option (σ × Bool))
    (state : σ) (i : Nat) : Option σ :=
  if i < size text then do
    let b ← byteAt? text i
    if b = '\\' then scanExposed text visit state (i + 2)
    else
      match ← closedString text i b with
      | some last => if i < last then scanExposed text visit state (last + 1) else none
      | none => do
          let (after, isLast) ← visit state i b
          if isLast then some after else scanExposed text visit after (i + 1)
  else some state
termination_by size text - i

/-- Look at an exposed byte for a character. -/
def findVisit (needle : Char) (found : Option Nat) (i : Nat) (b : Char) :
    Option (Option Nat × Bool) :=
  some (if b = needle then (some i, true) else (found, false))

/-- The first exposed place of a character from a place on. -/
def findExposed (text : List Char) (start : Nat) (needle : Char) : Option (Option Nat) :=
  scanExposed text (findVisit needle) none start

/-- Look at an exposed byte for a separator: the pieces so far and the start of the next one. -/
def splitVisit (text : List Char) (separator : Char) (state : List (List Char) × Nat) (i : Nat)
    (b : Char) : Option ((List (List Char) × Nat) × Bool) :=
  if b = separator then do
    let part ← slice? text state.2 i
    some ((state.1 ++ [part], i + 1), false)
  else some (state, false)

/-- Cut a text at its exposed separators. -/
def splitExposed (separator : Char) (text : List Char) : Option (List (List Char)) := do
  let (parts, start) ← scanExposed text (splitVisit text separator) ([], 0) 0
  let last ← slice? text start (size text)
  some (parts ++ [last])

/-- The place behind the comment that has been opened, looked for from a place on. -/
def commentEnd (text : List Char) (i : Nat) : Option Nat :=
  if i + 1 < size text then do
    let b ← byteAt? text i
    let next ← byteAt? text (i + 1)
    if b = '*' ∧ next = '/' then some (i + 2) else commentEnd text (i + 1)
  else some (size text)
termination_by size text - i

/-- Copy the text from place `copied` on without its comments, looking at it from place `i` on. -/
def stripFrom (text out : List Char) (copied i : Nat) : Option (List Char) :=
  if i < size text then do
    let b ← byteAt? text i
    if b = '\\' then stripFrom text out copied (i + 2)
    else if b = '/' ∧ byteAt? text (i + 1) = some '*' then do
      let piece ← slice? text copied i
      let stop ← commentEnd text (i + 2)
      if i < stop then stripFrom text (out ++ piece) stop stop else none
    else
      match ← closedString text i b with
      | some last => if i < last then stripFrom text out copied (last + 1) else none
      | none => stripFrom text out copied (i + 1)
  else do
    let piece ← slice? text copied (size text)
    some (out ++ piece)
termination_by size text - i

/-- Remove the comments of a text. -/
def stripComments (text : List Char) : Option (List Char) := stripFrom text [] 0 0

/-! ### Strings -/

section Strings

variable {text : List Char} {quote : Char}

theorem stringEndFrom_past {i : Nat} (past : size text ≤ i) :
    stringEndFrom text quote i = some none := by
  rw [stringEndFrom, if_neg (Nat.not_lt.mpr past)]

theorem stringEndFrom_here {i : Nat} {b : Char} (here : byteAt? text i = some b) :
    stringEndFrom text quote i =
      if b = '\\' then stringEndFrom text quote (i + 2)
      else if b = quote then some (some i)
      else if b = '\n' ∨ b = '\x7b' ∨ b = '\x7d' then some none
      else stringEndFrom text quote (i + 1) := by
  rw [stringEndFrom, if_pos (lt_size_of_byteAt? here), here]
  rfl

/-- The search for a closing quote passes over the bytes of wide characters. -/
theorem stringEndFrom_wide (ascii : quote.toNat < 0x80) (i : Nat) (b : Char)
    (here : byteAt? text i = some b) (wide : 0x80 ≤ b.toNat) :
    stringEndFrom text quote i = stringEndFrom text quote (i + 1) := by
  have foreign := fun {d : Char} => ne_of_wide wide (d := d)
  simp only [stringEndFrom_here here, foreign ascii, foreign (d := '\\') (by decide),
    foreign (d := '\n') (by decide), foreign (d := '\x7b') (by decide),
    foreign (d := '\x7d') (by decide), or_self, if_false]

/-- The string that `quote` opened ends alike for characters and for bytes, read on behind `front`:
either it is not closed, or both find the same closing quote. -/
def EndsAlike (text : List Char) (quote : Char) (front rest : List Char) : Prop :=
  (stringLength quote rest = none ∧ stringEndFrom text quote (size front) = some none) ∨
    ∃ inner behind, rest = inner ++ quote :: behind ∧
      stringLength quote rest = some (inner.length + 1) ∧
        stringEndFrom text quote (size front) = some (some (size (front ++ inner)))

/-- Characters that both searches pass over may be read before: the ends stay alike. -/
theorem EndsAlike.passed {front taken rest : List Char}
    (counted : stringLength quote (taken ++ rest) =
      (stringLength quote rest).map (· + taken.length))
    (skipped : stringEndFrom text quote (size front) =
      stringEndFrom text quote (size (front ++ taken)))
    (alike : EndsAlike text quote (front ++ taken) rest) :
    EndsAlike text quote front (taken ++ rest) := by
  rcases alike with ⟨unclosed, absent⟩ | ⟨inner, behind, rfl, closed, found⟩
  · rw [unclosed] at counted
    exact Or.inl ⟨counted, skipped.trans absent⟩
  · refine Or.inr ⟨taken ++ inner, behind, (List.append_assoc ..).symm, ?_, ?_⟩
    · rw [counted, closed, Option.map_some, List.length_append]
      exact congrArg some (by omega)
    · rw [skipped, found, List.append_assoc]

/-- A backslash at the end of the text takes nothing along, and no quote closes the string. -/
theorem endsAlike_lastEscape {front : List Char} (noEscape : quote ≠ '\\')
    (whole : text = front ++ ['\\']) : EndsAlike text quote front ['\\'] := by
  have small : '\\'.toNat < 0x80 := by decide
  have here : byteAt? text (size front) = some '\\' := byteAt?_ascii whole small
  have past : size text ≤ size front + 2 := by
    rw [whole, size_concat small]
    omega
  refine Or.inl ⟨?_, ?_⟩
  · simp [stringLength, noEscape.symm]
  · rw [stringEndFrom_here here, if_pos rfl, stringEndFrom_past past]

/-- A character that cannot stand in a string ends the search on both sides. -/
theorem endsAlike_unclosed {front rest : List Char} {c : Char} (noQuote : c ≠ quote)
    (ends : c = '\n' ∨ c = '\x7b' ∨ c = '\x7d') (whole : text = front ++ c :: rest) :
    EndsAlike text quote front (c :: rest) := by
  have small : c.toNat < 0x80 := by rcases ends with rfl | rfl | rfl <;> decide
  have plain : c ≠ '\\' := by rcases ends with rfl | rfl | rfl <;> decide
  refine Or.inl ⟨?_, ?_⟩
  · rw [stringLength_of_ne plain, if_neg noQuote, if_pos ends]
  · rw [stringEndFrom_here (byteAt?_ascii whole small), if_neg plain, if_neg noQuote, if_pos ends]

/-- A closing quote is found where the characters of the text have it. -/
theorem endsAlike (ascii : quote.toNat < 0x80) (noEscape : quote ≠ '\\') (rest : List Char) :
    ∀ {front : List Char}, text = front ++ rest → EndsAlike text quote front rest := by
  have step := @stringEndFrom_wide text quote ascii
  induction rest using stringLength.induct quote with
  | case1 =>
      intro front whole
      rw [List.append_nil] at whole
      exact Or.inl ⟨rfl, stringEndFrom_past (Nat.le_of_eq (congrArg size whole))⟩
  | case2 d rest inductionHypothesis =>
      intro front whole
      have small : '\\'.toNat < 0x80 := by decide
      have here : byteAt? text (size front) = some '\\' := byteAt?_ascii whole small
      refine @EndsAlike.passed text quote front ['\\', d] rest rfl ?_
        (inductionHypothesis (by simp [whole]))
      rw [stringEndFrom_here here, if_pos rfl, after_escape step whole small]
  | case3 rest noPair =>
      intro front whole
      have here : byteAt? text (size front) = some quote := byteAt?_ascii whole ascii
      refine Or.inr ⟨[], rest, rfl, ?_, ?_⟩
      · rw [stringLength_of_ne noEscape, if_pos rfl]
        rfl
      · rw [stringEndFrom_here here, if_neg noEscape, if_pos rfl, List.append_nil]
  | case4 c rest noPair noQuote ends =>
      intro front whole
      exact endsAlike_unclosed noQuote ends whole
  | case5 c rest noPair noQuote inside inductionHypothesis =>
      intro front whole
      by_cases escape : c = '\\'
      · have atEnd : rest = [] := by
          cases rest with
          | nil => rfl
          | cons d further => exact (noPair d further escape rfl).elim
        subst escape atEnd
        exact endsAlike_lastEscape noEscape whole
      · refine @EndsAlike.passed text quote front [c] rest ?_ ?_
          (inductionHypothesis (by simp [whole]))
        · rw [List.singleton_append, stringLength_of_ne escape, if_neg noQuote, if_neg inside]
          rfl
        · apply through_char step whole
          intro _ here
          rw [stringEndFrom_here here, if_neg escape, if_neg noQuote, if_neg inside]

/-- No wide character opens a string. -/
theorem opensString_wide {b : Char} (wide : 0x80 ≤ b.toNat) (before : Option Char) :
    opensString before b = false := by
  have plain : b ≠ '"' ∧ b ≠ '\'' := ⟨ne_of_wide wide (by decide), ne_of_wide wide (by decide)⟩
  simp [opensString, plain]

/-- No string opens right behind a wide character. -/
theorem opensString_behind_wide {before : Char} (wide : 0x80 ≤ before.toNat) (b : Char) :
    opensString (some before) b = false := by
  have plain : ∀ d ∈ [' ', '\t', '\n', '\r', ':', ',', '(', '\x7b', ';'], before ≠ d := by
    intro d member
    refine ne_of_wide wide ?_
    simp only [List.mem_cons, List.not_mem_nil, or_false] at member
    rcases member with rfl | rfl | rfl | rfl | rfl | rfl | rfl | rfl | rfl <;> decide
  simp only [List.mem_cons, List.not_mem_nil, or_false, forall_eq_or_imp, forall_eq] at plain
  simp [opensString, plain]

/-- Whether a string opens at the start of a character is told by the character before. -/
theorem opensStringAt_eq {front rest : List Char} (whole : text = front ++ rest) (b : Char) :
    opensStringAt text (size front) b = some (opensString (lastOf none front) b) := by
  rcases List.eq_nil_or_concat' front with rfl | ⟨old, d, rfl⟩
  · rfl
  · have filled : size (old ++ [d]) ≠ 0 := by simp [size_eq_zero]
    obtain ⟨before, here, same⟩ := byteAt?_before old d rest
    have split : text = old ++ d :: rest := by simp [whole]
    rw [opensStringAt, if_neg filled, split, here, lastOf_concat]
    simp only [Option.bind_eq_bind, Option.bind_some, Option.some_inj]
    rcases same with rfl | ⟨wide, wideToo⟩
    · rfl
    · rw [opensString_behind_wide wide, opensString_behind_wide wideToo]

/-- No string opens with a byte of a wide character. -/
theorem closedString_wide {i : Nat} {b : Char} (here : byteAt? text i = some b)
    (wide : 0x80 ≤ b.toNat) : closedString text i b = some none := by
  have noString : opensStringAt text i b = some false := by
    rw [opensStringAt]
    split
    · rw [opensString_wide wide]
    · have inside : i - 1 < size text :=
        Nat.lt_of_le_of_lt (Nat.sub_le _ _) (lt_size_of_byteAt? here)
      obtain ⟨before, isBefore⟩ : ∃ before, byteAt? text (i - 1) = some before :=
        ⟨_, List.getElem?_eq_getElem inside⟩
      rw [isBefore]
      exact congrArg some (opensString_wide wide _)
  rw [closedString, noString]
  rfl

theorem isQuote_of_closedString {i last : Nat} {b : Char}
    (closed : closedString text i b = some (some last)) : b = '"' ∨ b = '\'' := by
  rw [closedString, Option.bind_eq_bind, Option.bind_eq_some_iff] at closed
  obtain ⟨opens, isOpen, string⟩ := closed
  cases opens with
  | false => cases string
  | true =>
      rw [opensStringAt] at isOpen
      split at isOpen
      · exact isQuote_of_opensString (Option.some_inj.mp isOpen)
      · rw [Option.bind_eq_bind, Option.bind_eq_some_iff] at isOpen
        obtain ⟨before, -, isOpen⟩ := isOpen
        exact isQuote_of_opensString (Option.some_inj.mp isOpen)

/-- A closed string is found where the characters of the text have one. -/
theorem closedString_eq {front rest : List Char} {c : Char} (ascii : c.toNat < 0x80)
    (plain : c ≠ '\\') (whole : text = front ++ c :: rest) :
    ((if opensString (lastOf none front) c then stringLength c rest else none) = none ∧
        closedString text (size front) c = some none) ∨
      ∃ inner behind, rest = inner ++ c :: behind ∧
        (if opensString (lastOf none front) c then stringLength c rest else none) =
            some (inner.length + 1) ∧
          closedString text (size front) c = some (some (size (front ++ c :: inner))) := by
  have here : byteAt? text (size front) = some c := byteAt?_ascii whole ascii
  have split : text = (front ++ [c]) ++ rest := by simp [whole]
  rw [closedString, opensStringAt_eq whole]
  cases opens : opensString (lastOf none front) c with
  | false => exact Or.inl ⟨rfl, rfl⟩
  | true =>
      have run :
          (some true >>= fun opens => if opens then stringEnd text (size front) else some none) =
            stringEndFrom text c (size (front ++ [c])) := by
        rw [size_concat ascii]
        simp only [Option.bind_eq_bind, Option.bind_some, if_true, stringEnd, here]
      simp only [if_true]
      rw [run]
      rcases endsAlike ascii plain rest split with
        ⟨unclosed, absent⟩ | ⟨inner, behind, rfl, closed, found⟩
      · exact Or.inl ⟨unclosed, absent⟩
      · refine Or.inr ⟨inner, behind, rfl, closed, ?_⟩
        rw [found, List.append_assoc]
        rfl

end Strings

/-! ### Hidden and exposed characters -/

theorem exposed_wide {before : Option Char} {c : Char} {rest : List Char} (wide : 0x80 ≤ c.toNat) :
    Exposed before c rest where
  plain := ne_of_wide wide (by decide)
  noString := by
    rw [opensString_wide wide]
    rfl

/-- What a loop gives from each place on. It passes over bytes beyond ASCII one by one, over a
backslash with the byte behind it, and over closed strings as a whole. -/
structure Passes {α : Type} (text : List Char) (f : Nat → α) : Prop where
  past : ∀ i, size text ≤ i → f i = f (size text)
  wide : ∀ i b, byteAt? text i = some b → 0x80 ≤ b.toNat → f i = f (i + 1)
  escape : ∀ i, byteAt? text i = some '\\' → f i = f (i + 2)
  string : ∀ i b last, byteAt? text i = some b → b ≠ '\\' → i < last →
    closedString text i b = some (some last) → f i = f (last + 1)

/-- A text that goes on begins with a piece that all loops pass over, or with a character that the
bytes do not hide either. -/
theorem hidden_or_exposed {text front rest : List Char} {c : Char}
    (whole : text = front ++ c :: rest) :
    (∃ looked behind, c :: rest = looked ++ behind ∧ Hidden (lastOf none front) looked behind ∧
        ∀ {α : Type} {f : Nat → α}, Passes text f → f (size front) = f (size (front ++ looked))) ∨
      Exposed (lastOf none front) c rest ∧
        (c.toNat < 0x80 → closedString text (size front) c = some none) := by
  by_cases escape : c = '\\'
  · subst escape
    have ascii : '\\'.toNat < 0x80 := by decide
    have here := byteAt?_ascii whole ascii
    cases rest with
    | nil =>
        refine Or.inl ⟨['\\'], [], rfl, .backslash, fun passes => ?_⟩
        have past : size text ≤ size front + 2 := by
          rw [whole, size_concat ascii]
          omega
        rw [passes.escape _ here, passes.past _ past, whole]
    | cons d rest =>
        refine Or.inl ⟨['\\', d], rest, rfl, .escaped d rest, fun passes => ?_⟩
        rw [passes.escape _ here, after_escape passes.wide whole ascii]
  · by_cases small : c.toNat < 0x80
    · have here := byteAt?_ascii whole small
      rcases closedString_eq small escape whole with
        ⟨noString, unclosed⟩ | ⟨inner, behind, rfl, isString, found⟩
      · exact Or.inr ⟨⟨escape, noString⟩, fun _ => unclosed⟩
      · refine Or.inl ⟨c :: inner ++ [c], behind, by simp, .string escape isString,
          fun passes => ?_⟩
        rw [passes.string _ _ _ here escape (size_lt front c inner) found, ← size_concat small,
          List.append_assoc]
    · exact Or.inr ⟨exposed_wide (Nat.le_of_not_lt small), fun ascii => absurd ascii small⟩

/-! ### Exposed places -/

/-- Visit the exposed characters of a marked text that begins at a place. -/
def visitMarks {σ : Type} (visit : σ → Nat → Char → Option (σ × Bool)) :
    σ → Nat → List Mark → Option σ
  | state, _, [] => some state
  | state, place, m :: rest =>
      if m.exposed then do
        let (after, isLast) ← visit state place m.char
        if isLast then some after else visitMarks visit after (place + m.char.utf8Size) rest
      else visitMarks visit state (place + m.char.utf8Size) rest

/-- Nothing is done at characters beyond ASCII, and at none of their bytes. -/
def Inert {σ : Type} (visit : σ → Nat → Char → Option (σ × Bool)) : Prop :=
  ∀ state i b, 0x80 ≤ b.toNat → visit state i b = some (state, false)

section Visits

variable {σ : Type} {text : List Char} {visit : σ → Nat → Char → Option (σ × Bool)}

theorem visitMarks_hidden (hidden : List Char) (marked : List Mark) (state : σ) :
    ∀ place, visitMarks visit state place ((hidden.map fun c => ⟨c, false⟩) ++ marked) =
      visitMarks visit state (place + size hidden) marked := by
  induction hidden with
  | nil => exact fun _ => rfl
  | cons c later inductionHypothesis =>
      intro place
      rw [size_cons, ← Nat.add_assoc, ← inductionHypothesis]
      rfl

/-- A mark at which a visit does nothing is passed over. -/
theorem visitMarks_passed {state : σ} {m : Mark} {place : Nat}
    (idle : m.exposed = true → visit state place m.char = some (state, false))
    (later : List Mark) :
    visitMarks visit state place (m :: later) =
      visitMarks visit state (place + m.char.utf8Size) later := by
  cases exposed : m.exposed with
  | false => simp only [visitMarks, exposed, Bool.false_eq_true, if_false]
  | true =>
      simp only [visitMarks, exposed, idle exposed, if_true, Option.bind_eq_bind,
        Option.bind_some, Bool.false_eq_true, if_false]

theorem scanExposed_past {state : σ} {i : Nat} (past : size text ≤ i) :
    scanExposed text visit state i = some state := by
  rw [scanExposed, if_neg (Nat.not_lt.mpr past)]

theorem scanExposed_escape {state : σ} {i : Nat} (here : byteAt? text i = some '\\') :
    scanExposed text visit state i = scanExposed text visit state (i + 2) := by
  rw [scanExposed, if_pos (lt_size_of_byteAt? here), here]
  rfl

theorem scanExposed_string {state : σ} {i last : Nat} {b : Char}
    (here : byteAt? text i = some b) (plain : b ≠ '\\') (further : i < last)
    (closed : closedString text i b = some (some last)) :
    scanExposed text visit state i = scanExposed text visit state (last + 1) := by
  rw [scanExposed, if_pos (lt_size_of_byteAt? here), here]
  simp only [Option.bind_eq_bind, Option.bind_some, plain, closed, further, if_true, if_false]

theorem scanExposed_visit {state : σ} {i : Nat} {b : Char} (here : byteAt? text i = some b)
    (plain : b ≠ '\\') (noString : closedString text i b = some none) :
    scanExposed text visit state i = (visit state i b).bind fun (after, isLast) =>
      if isLast then some after else scanExposed text visit after (i + 1) := by
  rw [scanExposed, if_pos (lt_size_of_byteAt? here), here]
  simp only [Option.bind_eq_bind, Option.bind_some, plain, noString, if_false]

theorem scanExposed_passes (inert : Inert visit) (state : σ) :
    Passes text (scanExposed text visit state) where
  past i past := by rw [scanExposed_past past, scanExposed_past (Nat.le_refl _)]
  wide i b here wide := by
    rw [scanExposed_visit here (ne_of_wide wide (by decide)) (closedString_wide here wide),
      inert state i b wide]
    rfl
  escape i here := scanExposed_escape here
  string i b last here plain further closed := scanExposed_string here plain further closed

/-- A scan visits the exposed characters of the text. -/
theorem scanExposed_eq (inert : Inert visit) (rest : List Char) :
    ∀ {front : List Char} (state : σ), text = front ++ rest →
      scanExposed text visit state (size front) =
        visitMarks visit state (size front) (mark (lastOf none front) 0 rest) := by
  induction long : rest.length using Nat.strongRecOn generalizing rest with
  | ind n inductionHypothesis =>
      intro front state whole
      cases rest with
      | nil =>
          rw [List.append_nil] at whole
          exact scanExposed_past (Nat.le_of_eq (congrArg size whole))
      | cons c rest =>
          rcases hidden_or_exposed whole with
            ⟨looked, behind, isRest, hidden, passes⟩ | ⟨exposed, unclosed⟩
          · have shorter : behind.length < n := by
              rw [← long, isRest, List.length_append]
              exact Nat.lt_add_of_pos_left (List.length_pos_iff.mpr hidden.filled)
            have split : text = (front ++ looked) ++ behind := by
              rw [whole, isRest, List.append_assoc]
            rw [passes (scanExposed_passes inert state), isRest, hidden.mark_append,
              visitMarks_hidden, ← size_append, ← lastOf_append]
            exact inductionHypothesis _ shorter behind rfl state split
          · have split : text = (front ++ [c]) ++ rest := by simp [whole]
            have further := fun after =>
              inductionHypothesis rest.length (long ▸ Nat.lt_succ_self _) rest rfl after split
            rw [exposed.mark_cons]
            by_cases small : c.toNat < 0x80
            · have here := byteAt?_ascii whole small
              rw [scanExposed_visit here exposed.plain (unclosed small)]
              simp only [visitMarks, if_true, Option.bind_eq_bind]
              congr 1
              funext visited
              obtain ⟨after, isLast⟩ := visited
              cases isLast with
              | true => rfl
              | false =>
                  have later := further after
                  rw [size_concat small, lastOf_concat] at later
                  simp only [Bool.false_eq_true, if_false, utf8Size_ascii small, later]
            · have wide : 0x80 ≤ c.toNat := Nat.le_of_not_lt small
              have passed := through_wide (scanExposed_passes inert state).wide whole wide
                (Nat.zero_le _)
              rw [Nat.add_zero] at passed
              rw [passed, further state, lastOf_concat, size_append, size_singleton]
              have idle := fun _ : true = true => inert state (size front) c wide
              exact (@visitMarks_passed _ visit state ⟨c, true⟩ (size front) idle _).symm

end Visits

/-! ### Separators -/

section Separators

variable {text : List Char} {separator : Char}

/-- The first exposed place of a character is where the marked text is cut. -/
theorem visitMarks_find (needle : Char) (marked : List Mark) :
    ∀ place, visitMarks (findVisit needle) none place marked =
      some ((cutMarked needle marked).map fun cut => place + size cut.1) := by
  induction marked with
  | nil => exact fun _ => rfl
  | cons m later inductionHypothesis =>
      intro place
      by_cases isNeedle : m.isExposed needle = true
      · obtain ⟨exposed, same⟩ := Mark.isExposed_iff.mp isNeedle
        simp only [visitMarks, exposed, if_true, findVisit, same, Option.bind_eq_bind,
          Option.bind_some, cutMarked, isNeedle, Option.map_some, size_nil, Nat.add_zero]
      · have idle : m.exposed = true →
            findVisit needle none place m.char = some (none, false) := fun exposed => by
          rw [findVisit, if_neg fun same => isNeedle (Mark.isExposed_iff.mpr ⟨exposed, same⟩)]
        rw [visitMarks_passed idle, inductionHypothesis, cutMarked, if_neg isNeedle,
          Option.map_map]
        congr 2
        funext cut
        simp only [Function.comp_apply, size_cons, Nat.add_assoc]

/-- The first exposed place of a character is where the characters of the text have it. -/
theorem findExposed_eq {needle : Char} (ascii : needle.toNat < 0x80) {front rest : List Char}
    (whole : text = front ++ rest) :
    findExposed text (size front) needle =
      some ((cutMarked needle (mark (lastOf none front) 0 rest)).map fun cut =>
        size (front ++ cut.1)) := by
  have inert : Inert (findVisit needle) := by
    intro found i b wide
    rw [findVisit, if_neg (ne_of_wide wide ascii)]
  simp only [size_append]
  rw [findExposed, scanExposed_eq inert rest none whole, visitMarks_find]

/-- An exposed character that is found divides what is looked at in two. -/
theorem findExposed_cases {needle : Char} (ascii : needle.toNat < 0x80) {front rest : List Char}
    (whole : text = front ++ rest) :
    (cutMarked needle (mark (lastOf none front) 0 rest) = none ∧
        findExposed text (size front) needle = some none) ∨
      ∃ found behind, rest = found ++ needle :: behind ∧
        cutMarked needle (mark (lastOf none front) 0 rest) =
            some (found, mark (some needle) 0 behind) ∧
          findExposed text (size front) needle = some (some (size (front ++ found))) := by
  rw [findExposed_eq ascii whole]
  cases isCut : cutMarked needle (mark (lastOf none front) 0 rest) with
  | none => exact Or.inl ⟨rfl, rfl⟩
  | some cut =>
      obtain ⟨behind, isRest, marks⟩ := cutMarked_mark rest isCut
      exact Or.inr ⟨cut.1, behind, isRest, by rw [← marks], rfl⟩

/-- The pieces between separators are cut out of the text. -/
theorem visitMarks_split (ascii : separator.toNat < 0x80) (marked : List Mark) :
    ∀ {old current : List Char} (parts : List (List Char)),
      text = old ++ (current ++ unmarked marked) →
        ∃ head tail, splitMarked separator marked = head :: tail ∧
          ∃ done start, visitMarks (splitVisit text separator) (parts, size old)
              (size (old ++ current)) marked = some (done, start) ∧
            ∃ last, slice? text start (size text) = some last ∧
              done ++ [last] = parts ++ (current ++ head) :: tail := by
  induction marked with
  | nil =>
      intro old current parts whole
      rw [unmarked, List.map_nil, List.append_nil] at whole
      exact ⟨[], [], rfl, parts, size old, rfl, current, slice?_rest whole,
        by rw [List.append_nil]⟩
  | cons m later inductionHypothesis =>
      intro old current parts whole
      have unmarkedCons : unmarked (m :: later) = m.char :: unmarked later := rfl
      rw [unmarkedCons] at whole
      by_cases isSeparator : m.isExposed separator = true
      · obtain ⟨exposed, same⟩ := Mark.isExposed_iff.mp isSeparator
        have split : text = (old ++ current ++ [separator]) ++ ([] ++ unmarked later) := by
          simp [whole, same]
        have piece : slice? text (size old) (size (old ++ current)) = some current :=
          whole ▸ slice?_piece old current _
        obtain ⟨head, tail, cut, done, start, visited, last, isLast, all⟩ :=
          inductionHypothesis (parts ++ [current]) split
        refine ⟨[], head :: tail, ?_, done, start, ?_, last, isLast, ?_⟩
        · simp only [splitMarked, isSeparator, cut, if_true]
        · rw [← visited, List.append_nil, size_concat ascii]
          simp only [visitMarks, exposed, if_true, splitVisit, same, piece, Option.bind_eq_bind,
            Option.bind_some, Bool.false_eq_true, if_false, utf8Size_ascii ascii]
        · rw [all]
          simp
      · have split : text = old ++ ((current ++ [m.char]) ++ unmarked later) := by simp [whole]
        obtain ⟨head, tail, cut, done, start, visited, last, isLast, all⟩ :=
          inductionHypothesis parts split
        refine ⟨m.char :: head, tail, ?_, done, start, ?_, last, isLast, ?_⟩
        · simp only [splitMarked, isSeparator, cut, Bool.false_eq_true, if_false]
        · have place : size (old ++ (current ++ [m.char])) =
              size (old ++ current) + m.char.utf8Size := by
            rw [← List.append_assoc, size_append, size_singleton]
          rw [← visited, place]
          refine visitMarks_passed (fun exposed => ?_) later
          rw [splitVisit, if_neg fun same => isSeparator (Mark.isExposed_iff.mpr ⟨exposed, same⟩)]
        · rw [all]
          simp

/-- The pieces between separators are those of the characters of the text. -/
theorem splitExposed_eq (ascii : separator.toNat < 0x80) (text : List Char) :
    splitExposed separator text = some (Text.splitExposed separator text) := by
  have inert : Inert (splitVisit text separator) := by
    intro state i b wide
    rw [splitVisit, if_neg (ne_of_wide wide ascii)]
  have start : text = [] ++ text := rfl
  have whole : text = [] ++ ([] ++ unmarked (marks text)) := (unmarked_mark none 0 text).symm
  have scanned := scanExposed_eq inert text ([], 0) start
  obtain ⟨head, tail, cut, done, place, visited, last, isLast, all⟩ :=
    visitMarks_split ascii (marks text) [] whole
  have run : scanExposed text (splitVisit text separator) ([], 0) 0 = some (done, place) :=
    scanned.trans visited
  rw [splitExposed, run, Text.splitExposed, cut]
  simp only [Option.bind_eq_bind, Option.bind_some, isLast, all]
  rfl

end Separators

/-! ### Comments -/

section Comments

variable {text : List Char}

/-- What does not end a comment is passed over. -/
theorem commentEnd_step {i : Nat}
    (noEnd : ¬(byteAt? text i = some '*' ∧ byteAt? text (i + 1) = some '/')) :
    commentEnd text i = commentEnd text (i + 1) := by
  rw [commentEnd]
  split
  case isTrue inside =>
    obtain ⟨b, here⟩ : ∃ b, byteAt? text i = some b :=
      ⟨_, List.getElem?_eq_getElem (Nat.lt_of_succ_lt inside)⟩
    obtain ⟨next, isNext⟩ : ∃ b, byteAt? text (i + 1) = some b :=
      ⟨_, List.getElem?_eq_getElem inside⟩
    rw [here, isNext, Option.some_inj, Option.some_inj] at noEnd
    simp only [here, isNext, noEnd, Option.bind_eq_bind, Option.bind_some, if_false]
  case isFalse past =>
    rw [commentEnd, if_neg fun inside => past (Nat.lt_of_succ_lt inside)]

/-- The search for the end of a comment passes over a character that does not begin one. -/
theorem commentEnd_passed {front rest : List Char} {c : Char} (whole : text = front ++ c :: rest)
    (noEnd : ¬(c = '*' ∧ rest.head? = some '/')) :
    commentEnd text (size front) = commentEnd text (size (front ++ [c])) := by
  have ascii : '*'.toNat < 0x80 ∧ '/'.toNat < 0x80 := by decide
  have split : text = (front ++ [c]) ++ rest := by simp [whole]
  have step : ∀ i b, byteAt? text i = some b → 0x80 ≤ b.toNat →
      commentEnd text i = commentEnd text (i + 1) := by
    intro i b here wide
    apply commentEnd_step
    rw [here, Option.some_inj]
    exact fun both => ne_of_wide wide ascii.1 both.1
  apply through_char step whole
  intro _ _
  apply commentEnd_step
  rintro ⟨isStar, isSlash⟩
  rw [byteAt?_eq_ascii whole ascii.1, List.head?_cons, Option.some_inj] at isStar
  subst isStar
  rw [← size_concat ascii.1, byteAt?_eq_ascii split ascii.2] at isSlash
  exact noEnd ⟨rfl, isSlash⟩

/-- A comment ends where the characters of the text end it, or with the text. -/
theorem commentEnd_eq (rest : List Char) :
    ∀ {front : List Char}, text = front ++ rest →
      (commentEnd text (size front) = some (size text) ∧
          ∀ before, Text.stripFrom before (.dropping 0) rest = []) ∨
        ∃ comment behind, rest = comment ++ '*' :: '/' :: behind ∧
          commentEnd text (size front) = some (size (front ++ comment ++ ['*', '/'])) ∧
            ∀ before, Text.stripFrom before (.dropping 0) rest =
              Text.stripFrom (some '/') (.copying 0) behind := by
  have ascii : '*'.toNat < 0x80 ∧ '/'.toNat < 0x80 := by decide
  induction rest with
  | nil =>
      intro front whole
      rw [List.append_nil] at whole
      have past : ¬size front + 1 < size text := by
        rw [whole]
        omega
      exact Or.inl ⟨by rw [commentEnd, if_neg past], fun _ => rfl⟩
  | cons c rest inductionHypothesis =>
      intro front whole
      have split : text = (front ++ [c]) ++ rest := by simp [whole]
      by_cases ends : c = '*' ∧ rest.head? = some '/'
      · obtain ⟨rfl, isSlash⟩ := ends
        obtain ⟨behind, rfl⟩ := List.head?_eq_some_iff.mp isSlash
        have here := byteAt?_ascii whole ascii.1
        have next := (byteAt?_eq_ascii split ascii.2).mpr isSlash
        rw [size_concat ascii.1] at next
        have found : commentEnd text (size front) = some (size front + 2) := by
          rw [commentEnd, if_pos (lt_size_of_byteAt? next), here, next]
          rfl
        refine Or.inr ⟨[], behind, rfl, ?_, fun before => ?_⟩
        · rw [found, List.append_nil, size_append]
          rfl
        · simp [Text.stripFrom]
      · have passed := commentEnd_passed whole ends
        have dropped : ∀ before, Text.stripFrom before (.dropping 0) (c :: rest) =
            Text.stripFrom (some c) (.dropping 0) rest := by
          intro before
          rw [Text.stripFrom]
          simp only [ends, if_false]
        rcases inductionHypothesis split with
          ⟨isOpen, nothing⟩ | ⟨comment, behind, rfl, closed, copied⟩
        · exact Or.inl ⟨passed.trans isOpen, fun before => (dropped before).trans (nothing _)⟩
        · refine Or.inr ⟨c :: comment, behind, rfl, ?_, fun before => ?_⟩
          · rw [passed, closed, List.append_assoc front [c] comment]
            rfl
          · exact (dropped before).trans (copied _)

end Comments

section Stripping

variable {text out : List Char} {copied i : Nat}

theorem stripFrom_past (past : size text ≤ i) :
    stripFrom text out copied i = (slice? text copied (size text)).map (out ++ ·) := by
  rw [stripFrom, if_neg (Nat.not_lt.mpr past), Option.map_eq_bind]
  rfl

theorem stripFrom_escape (here : byteAt? text i = some '\\') :
    stripFrom text out copied i = stripFrom text out copied (i + 2) := by
  rw [stripFrom, if_pos (lt_size_of_byteAt? here), here]
  rfl

theorem stripFrom_comment {piece : List Char} {stop : Nat} (here : byteAt? text i = some '/')
    (next : byteAt? text (i + 1) = some '*') (isPiece : slice? text copied i = some piece)
    (ends : commentEnd text (i + 2) = some stop) (further : i < stop) :
    stripFrom text out copied i = stripFrom text (out ++ piece) stop stop := by
  have plain : '/' ≠ '\\' := by decide
  rw [stripFrom, if_pos (lt_size_of_byteAt? here), here]
  simp only [Option.bind_eq_bind, Option.bind_some, plain, next, isPiece, ends, further, and_self,
    if_true, if_false]

theorem stripFrom_copying {b : Char} (here : byteAt? text i = some b) (plain : b ≠ '\\')
    (noComment : ¬(b = '/' ∧ byteAt? text (i + 1) = some '*'))
    (noString : closedString text i b = some none) :
    stripFrom text out copied i = stripFrom text out copied (i + 1) := by
  rw [stripFrom, if_pos (lt_size_of_byteAt? here), here]
  simp only [Option.bind_eq_bind, Option.bind_some, plain, noComment, noString, if_false]

theorem stripFrom_string {b : Char} {last : Nat} (here : byteAt? text i = some b)
    (plain : b ≠ '\\') (further : i < last) (closed : closedString text i b = some (some last)) :
    stripFrom text out copied i = stripFrom text out copied (last + 1) := by
  have noComment : ¬(b = '/' ∧ byteAt? text (i + 1) = some '*') := by
    rintro ⟨rfl, -⟩
    rcases isQuote_of_closedString closed with isQuote | isQuote <;> cases isQuote
  rw [stripFrom, if_pos (lt_size_of_byteAt? here), here]
  simp only [Option.bind_eq_bind, Option.bind_some, plain, noComment, closed, further, if_true,
    if_false]

theorem stripFrom_passes : Passes text (stripFrom text out copied) where
  past i past := by rw [stripFrom_past past, stripFrom_past (Nat.le_refl _)]
  wide i b here wide := by
    have noComment : ¬(b = '/' ∧ byteAt? text (i + 1) = some '*') :=
      fun opens => ne_of_wide wide (by decide) opens.1
    exact stripFrom_copying here (ne_of_wide wide (by decide)) noComment
      (closedString_wide here wide)
  escape i here := stripFrom_escape here
  string i b last here plain further closed := stripFrom_string here plain further closed

/-- Copying stops where a comment opens, and goes on behind it. -/
theorem stripFrom_opened {old kept inside : List Char} (out : List Char)
    (whole : text = (old ++ kept) ++ '/' :: '*' :: inside) :
    (stripFrom text out (size old) (size (old ++ kept)) = some (out ++ kept) ∧
        ∀ before, Text.stripFrom before (.copying 0) ('/' :: '*' :: inside) = []) ∨
      ∃ body behind, inside = body ++ '*' :: '/' :: behind ∧
        stripFrom text out (size old) (size (old ++ kept)) =
            stripFrom text (out ++ kept) (size (old ++ kept ++ ['/', '*'] ++ body ++ ['*', '/']))
              (size (old ++ kept ++ ['/', '*'] ++ body ++ ['*', '/'])) ∧
          ∀ before, Text.stripFrom before (.copying 0) ('/' :: '*' :: inside) =
            Text.stripFrom (some '/') (.copying 0) behind := by
  have ascii : '/'.toNat < 0x80 := by decide
  have opened : text = (old ++ kept ++ ['/', '*']) ++ inside := by simp [whole]
  have place : size (old ++ kept ++ ['/', '*']) = size (old ++ kept) + 2 := size_append
  have here := byteAt?_ascii whole ascii
  have next : byteAt? text (size (old ++ kept) + 1) = some '*' := by
    have split : text = (old ++ kept ++ ['/']) ++ '*' :: inside := by simp [whole]
    rw [← size_concat ascii]
    exact byteAt?_ascii split (by decide)
  have isPiece : slice? text (size old) (size (old ++ kept)) = some kept := by
    rw [whole, List.append_assoc]
    exact slice?_piece old kept _
  have dropped : ∀ before, Text.stripFrom before (.copying 0) ('/' :: '*' :: inside) =
      Text.stripFrom (some '*') (.dropping 0) inside := by
    intro before
    simp [Text.stripFrom]
  have closes := commentEnd_eq inside opened
  rw [place] at closes
  rcases closes with ⟨isOpen, nothing⟩ | ⟨body, behind, isInside, ends, copied⟩
  · have atEnd : slice? text (size text) (size text) = some [] :=
      slice?_rest (List.append_nil _).symm
    refine Or.inl ⟨?_, fun before => (dropped before).trans (nothing _)⟩
    have further : size (old ++ kept) < size text := lt_size_of_byteAt? here
    rw [stripFrom_comment here next isPiece isOpen further, stripFrom_past (Nat.le_refl _), atEnd,
      Option.map_some, List.append_nil]
  · have further :
        size (old ++ kept) < size (old ++ kept ++ ['/', '*'] ++ body ++ ['*', '/']) := by
      simp only [size_append, place]
      omega
    exact Or.inr ⟨body, behind, isInside, stripFrom_comment here next isPiece ends further,
      fun before => (dropped before).trans (copied _)⟩

/-- What has been copied and what is looked at make up the text without its comments. -/
theorem stripFrom_eq (rest : List Char) :
    ∀ {old kept : List Char} (out : List Char), text = old ++ (kept ++ rest) →
      stripFrom text out (size old) (size (old ++ kept)) =
        some (out ++ (kept ++ Text.stripFrom (lastOf none (old ++ kept)) (.copying 0) rest)) := by
  induction long : rest.length using Nat.strongRecOn generalizing rest with
  | ind n inductionHypothesis =>
      intro old kept out cut
      have whole : text = (old ++ kept) ++ rest := by rw [cut, List.append_assoc]
      -- What is looked at next is kept with the rest, unless a comment opens there.
      have further : ∀ looked behind, rest = looked ++ behind → looked ≠ [] →
          stripFrom text out (size old) (size (old ++ kept ++ looked)) =
            some (out ++ (kept ++ (looked ++ Text.stripFrom
              (lastOf (lastOf none (old ++ kept)) looked) (.copying 0) behind))) := by
        intro looked behind isRest some
        have shorter : behind.length < n := by
          rw [← long, isRest, List.length_append]
          exact Nat.lt_add_of_pos_left (List.length_pos_iff.mpr some)
        have split : text = old ++ ((kept ++ looked) ++ behind) := by
          rw [cut, isRest, List.append_assoc]
        rw [List.append_assoc old, inductionHypothesis _ shorter behind rfl out split,
          ← lastOf_append, List.append_assoc old, List.append_assoc kept]
      cases rest with
      | nil =>
          rw [List.append_nil] at whole
          have past : size text ≤ size (old ++ kept) := Nat.le_of_eq (congrArg size whole)
          rw [stripFrom_past past, slice?_rest whole, Text.stripFrom, List.append_nil]
          rfl
      | cons c rest =>
          rcases hidden_or_exposed whole with
            ⟨looked, behind, isRest, hidden, passes⟩ | ⟨exposed, unclosed⟩
          · rw [passes stripFrom_passes, further looked behind isRest hidden.filled, isRest,
              hidden.stripFrom_append]
          · by_cases comment : c = '/' ∧ rest.head? = some '*'
            · obtain ⟨rfl, isStar⟩ := comment
              obtain ⟨inside, rfl⟩ := List.head?_eq_some_iff.mp isStar
              rcases stripFrom_opened out whole with
                ⟨isOpen, nothing⟩ | ⟨body, behind, rfl, closed, copied⟩
              · rw [isOpen, nothing, List.append_nil]
              · have cut : text = (old ++ kept ++ ['/', '*'] ++ body ++ ['*', '/']) ++
                    ([] ++ behind) := by simp [whole]
                have shorter : behind.length < n := by
                  rw [← long]
                  simp only [List.length_cons, List.length_append]
                  omega
                have rest := inductionHypothesis _ shorter behind rfl (out ++ kept) cut
                rw [List.append_nil, lastOf_append] at rest
                rw [closed, rest, copied, List.append_assoc]
                rfl
            · have split : text = (old ++ kept ++ [c]) ++ rest := by simp [whole]
              have passed : stripFrom text out (size old) (size (old ++ kept)) =
                  stripFrom text out (size old) (size (old ++ kept ++ [c])) := by
                apply through_char stripFrom_passes.wide whole
                intro small here
                have noComment : ¬(c = '/' ∧ byteAt? text (size (old ++ kept) + 1) = some '*') := by
                  rw [← size_concat small, byteAt?_eq_ascii split (by decide)]
                  exact comment
                exact stripFrom_copying here exposed.plain noComment (unclosed small)
              rw [passed, further [c] rest rfl (List.cons_ne_nil _ _),
                exposed.stripFrom_cons comment, lastOf_cons]
              rfl

/-- The text without its comments is that of the characters of the text. -/
theorem stripComments_eq (text : List Char) :
    stripComments text = some (Text.stripComments text) := by
  have whole : text = [] ++ ([] ++ text) := rfl
  exact stripFrom_eq text [] whole

end Stripping

end StyledWidgets.Bytes
