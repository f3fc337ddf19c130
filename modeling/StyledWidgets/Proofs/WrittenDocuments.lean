/-
Module: StyledWidgets.Proofs.WrittenDocuments
Purpose: Documents are read back from their texts. A document without arrays may be written with any
  white space between its tokens; each of its texts is read as this document and as no other, and
  the layout over several lines is one of them. Strings may hold any characters, and whole numbers
  may be of any size.
Main exports: Written, readString_quote, readUnsigned_digits, readValue_written, readJson?_written,
  Laid, laid_record
-/
import Mathlib.Data.List.DropRight
import StyledWidgets.Json.Reader
import StyledWidgets.Proofs.PrintedValues

namespace StyledWidgets.JsonReader

open JsonValue

/-! ### Ways of writing a document -/

/-- The text is white space, or empty. -/
def IsGap (text : List Char) : Prop := ∀ c ∈ text, isJsonSpace c = true

/-- The text is a quoted key and a colon, with white space around the key. -/
def WrittenKey (key : String) (text : List Char) : Prop :=
  ∃ before after, IsGap before ∧ IsGap after ∧
    text = before ++ (quote key.toList ++ (after ++ [':']))

mutual

/-- The text writes a document without arrays, with any white space between its tokens. -/
inductive Written : JsonValue → List Char → Prop where
  | null : Written .null "null".toList
  | isTrue : Written (.bool true) "true".toList
  | isFalse : Written (.bool false) "false".toList
  | int (value : Int) : Written (.int value) (Int.repr value).toList
  | text (value : String) : Written (.text value) (quote value.toList)
  | nothing {gap : List Char} (isGap : IsGap gap) :
      Written (.object []) ('\x7b' :: (gap ++ ['\x7d']))
  | members {members : List (JsonString × JsonValue)} {body : List Char}
      (written : WrittenMembers members body) :
      Written (.object members) ('\x7b' :: (body ++ ['\x7d']))
  | spaced {value : JsonValue} {before text after : List Char} (gapBefore : IsGap before)
      (written : Written value text) (gapAfter : IsGap after) :
      Written value (before ++ (text ++ after))

/-- The text writes the members of an object, with commas between them. -/
inductive WrittenMembers : List (JsonString × JsonValue) → List Char → Prop where
  | last {key : String} {value : JsonValue} {front text : List Char}
      (isKey : WrittenKey key front) (written : Written value text) :
      WrittenMembers [(some key, value)] (front ++ text)
  | more {key : String} {value : JsonValue} {front text body : List Char}
      {members : List (JsonString × JsonValue)} (isKey : WrittenKey key front)
      (written : Written value text) (further : WrittenMembers members body) :
      WrittenMembers ((some key, value) :: members) (front ++ (text ++ ',' :: body))

end

/-! ### White space -/

theorem isGap_nil : IsGap [] := fun _ member => absurd member List.not_mem_nil

theorem skipSpace_gap {gap : List Char} (isGap : IsGap gap) (rest : List Char) :
    skipSpace (gap ++ rest) = skipSpace rest := List.dropWhile_append_of_pos isGap

theorem skipSpace_of_head {c : Char} (solid : isJsonSpace c = false) (rest : List Char) :
    skipSpace (c :: rest) = c :: rest := List.dropWhile_cons_of_neg (Bool.eq_false_iff.mp solid)

theorem skipSpace_skipSpace (text : List Char) : skipSpace (skipSpace text) = skipSpace text :=
  List.dropWhile_idempotent _ _

/-- What follows does not continue a number. -/
def EndsNumber (rest : List Char) : Prop :=
  ∀ c ∈ rest.head?, c.isDigit = false ∧ c ≠ '.' ∧ c ≠ 'e' ∧ c ≠ 'E'

theorem EndsNumber.gap {gap rest : List Char} (isGap : IsGap gap) (ends : EndsNumber rest) :
    EndsNumber (gap ++ rest) := by
  cases gap with
  | nil => exact ends
  | cons c later =>
      intro d head
      have space := isGap c (List.mem_cons_self ..)
      rw [List.cons_append, List.head?_cons, Option.mem_some_iff] at head
      rw [← head]
      simp only [isJsonSpace, Bool.or_eq_true, beq_iff_eq] at space
      rcases space with ((rfl | rfl) | rfl) | rfl <;> decide

/-! ### Strings -/

/-- A character is read back from the way it stands inside quotes. -/
theorem readUnits_escapeChar (c : Char) (rest : List Char) :
    readUnits (escapeChar c ++ rest) = consUnit (.char c) (readUnits rest) := by
  rw [escapeChar]
  split_ifs with isQuote isBackslash isBackspace isTab isNewline isFeed isReturn isControl
  · subst isQuote; rfl
  · subst isBackslash; rfl
  · subst isBackspace; rfl
  · subst isTab; rfl
  · subst isNewline; rfl
  · subst isFeed; rfl
  · subst isReturn; rfl
  · have high := (Sheet.hexValue?_digitChar (c.toNat / 16) (by omega)).1
    have low := (Sheet.hexValue?_digitChar (c.toNat % 16) (by omega)).1
    have zero : Sheet.hexValue? '0' = some 0 := rfl
    have code : codeOf? '0' '0' (Nat.digitChar (c.toNat / 16)) (Nat.digitChar (c.toNat % 16)) =
        some c.toNat := by
      simp only [codeOf?, zero, high, low, Option.bind_eq_bind, Option.bind_some, Option.pure_def,
        Option.some_inj]
      omega
    have unit : unitOf c.toNat = .char c := by
      have noHigh : isHighHalf c.toNat = false := decide_eq_false (by omega)
      have noLow : isLowHalf c.toNat = false := decide_eq_false (by omega)
      rw [unitOf, noHigh, noLow, Char.ofNat_toNat]
      rfl
    simp only [List.cons_append, List.nil_append, readUnits, code, unit]
  · have plain : ¬(c.toNat < 0x20 ∨ c = '\\') := not_or.mpr ⟨isControl, isBackslash⟩
    rw [List.singleton_append, readUnits.eq_def]
    split
    case h_1 none => cases none
    case h_2 isEnd => exact absurd (List.cons.inj isEnd).1 isQuote
    case h_3 isEscape => exact absurd (List.cons.inj isEscape).1 isBackslash
    case h_4 isEscape => exact absurd (List.cons.inj isEscape).1 isBackslash
    case h_5 first later _ _ _ same =>
      obtain ⟨rfl, rfl⟩ := List.cons.inj same
      rw [if_neg plain]

theorem readUnits_quoted (text rest : List Char) :
    readUnits (text.flatMap escapeChar ++ '"' :: rest) = some (text.map .char, rest) := by
  induction text with
  | nil => rfl
  | cons c later inductionHypothesis =>
      rw [List.flatMap_cons, List.append_assoc, readUnits_escapeChar, inductionHypothesis]
      rfl

theorem textOf?_char (text : List Char) : textOf? (text.map .char) = some text := by
  induction text with
  | nil => rfl
  | cons c later inductionHypothesis =>
      rw [List.map_cons, textOf?, inductionHypothesis]
      rfl

theorem quote_append (text rest : List Char) :
    quote text ++ rest = '"' :: (text.flatMap escapeChar ++ '"' :: rest) := by
  rw [quote, List.cons_append, List.append_assoc, List.singleton_append]

/-- Any text is read back from between its quotes. -/
theorem readString_quote (text : String) (rest : List Char) :
    readString (text.toList.flatMap escapeChar ++ '"' :: rest) = some (some text, rest) := by
  simp only [readString, readUnits_quoted, Option.map_some, textOf?_char, String.ofList_toList]

/-! ### Numbers -/

theorem digitsValue_eq (digits : List Char) :
    digitsValue digits = Nat.ofDigitChars 10 digits 0 := by
  rw [digitsValue, Nat.ofDigitChars_eq_foldl]
  simp only [Nat.mul_comm]

/-- The digits of a number begin with a zero only if it is zero. -/
theorem head?_toDigits {n : Nat} (pos : 0 < n) : (Nat.toDigits 10 n).head? ≠ some '0' := by
  induction n using Nat.strongRecOn with
  | ind n inductionHypothesis =>
      by_cases small : n < 10
      · have digits : ∀ d < 10, 0 < d → Nat.digitChar d ≠ '0' := by decide
        rw [Nat.toDigits_of_lt_base small, List.head?_cons, ne_eq, Option.some_inj]
        exact digits n small pos
      · rw [Nat.toDigits_of_base_le (by decide) (Nat.le_of_not_lt small),
          List.head?_append_of_ne_nil _ Nat.toDigits_ne_nil]
        exact inductionHypothesis (n / 10) (by omega) (by omega)

/-- The digits of a number are read back, as far as nothing behind them continues the number. -/
theorem readUnsigned_digits (negative : Bool) (n : Nat) {rest : List Char}
    (ends : EndsNumber rest) : readUnsigned negative (Nat.toDigits 10 n ++ rest) =
      some (.number (wholeOf? negative (Nat.toDigits 10 n)), rest) := by
  have isDigit : ∀ c ∈ Nat.toDigits 10 n, c.isDigit = true := fun c member =>
    Nat.isDigit_of_mem_toDigits (by decide) (by decide) member
  have stops : rest.takeWhile Char.isDigit = [] ∧ rest.dropWhile Char.isDigit = rest := by
    cases rest with
    | nil => exact ⟨rfl, rfl⟩
    | cons c later =>
        have noDigit := Bool.eq_false_iff.mp (ends c rfl).1
        exact ⟨List.takeWhile_cons_of_neg noDigit, List.dropWhile_cons_of_neg noDigit⟩
  have digits : (Nat.toDigits 10 n ++ rest).takeWhile Char.isDigit = Nat.toDigits 10 n := by
    rw [List.takeWhile_append_of_pos isDigit, stops.1, List.append_nil]
  have behind : (Nat.toDigits 10 n ++ rest).dropWhile Char.isDigit = rest := by
    rw [List.dropWhile_append_of_pos isDigit, stops.2]
  have noZero : ¬((Nat.toDigits 10 n).head? = some '0' ∧ (Nat.toDigits 10 n).length ≠ 1) := by
    rintro ⟨zero, long⟩
    rcases Nat.eq_zero_or_pos n with rfl | pos
    · exact long rfl
    · exact head?_toDigits pos zero
  have noFraction : readFraction rest = some (false, rest) := by
    rw [readFraction.eq_def]
    split
    case h_1 => exact absurd rfl (ends '.' rfl).2.1
    case h_2 => rfl
  have noExponent : readExponent rest = some (false, rest) := by
    cases rest with
    | nil => rfl
    | cons c later =>
        have plain := (ends c rfl).2.2
        exact if_neg (not_or.mpr plain)
  have filled : (Nat.toDigits 10 n).isEmpty = false := by
    simp [Nat.toDigits_ne_nil]
  simp only [readUnsigned, digits, behind, filled, noZero, noFraction, noExponent, if_false,
    Bool.false_eq_true, Option.bind_eq_bind, Option.bind_some, Option.pure_def, Bool.or_self]

/-- What is not a word and no string is read as a number. -/
theorem readScalar_number {c : Char} (isOne : c.isDigit = true ∨ c = '-') (rest : List Char) :
    readScalar (c :: rest) = readNumber (c :: rest) := by
  have ne : ∀ {d : Char}, d.isDigit = false → d ≠ '-' → c ≠ d := by
    rintro d noDigit noMinus rfl
    rcases isOne with digit | minus
    · exact Bool.false_ne_true (noDigit.symm.trans digit)
    · exact noMinus minus
  rw [readScalar.eq_def]
  split
  case h_1 same => exact absurd (List.cons.inj same).1 (ne (by decide) (by decide))
  case h_2 same => exact absurd (List.cons.inj same).1 (ne (by decide) (by decide))
  case h_3 same => exact absurd (List.cons.inj same).1 (ne (by decide) (by decide))
  case h_4 same => exact absurd (List.cons.inj same).1 (ne (by decide) (by decide))
  case h_5 => rfl

/-- The text of a whole number begins with a digit or a minus sign, and it is read back. -/
theorem readScalar_repr (value : Int) {rest : List Char} (ends : EndsNumber rest) :
    (∃ c later, (Int.repr value).toList = c :: later ∧ (c.isDigit = true ∨ c = '-')) ∧
      readScalar ((Int.repr value).toList ++ rest) = some (.int value, rest) := by
  cases value with
  | ofNat n =>
      have text : (Int.repr (Int.ofNat n)).toList = Nat.toDigits 10 n := Nat.toList_repr
      have whole : wholeOf? false (Nat.toDigits 10 n) = some (Int.ofNat n) := by
        rw [wholeOf?, digitsValue_eq, Nat.ofDigitChars_ten_toDigits]
        rfl
      have read := readUnsigned_digits false n ends
      rw [text]
      cases shape : Nat.toDigits 10 n with
      | nil => exact absurd shape Nat.toDigits_ne_nil
      | cons c later =>
          have digit : c.isDigit = true := Nat.isDigit_of_mem_toDigits (by decide)
            (by decide : 10 ≤ 10) (shape ▸ List.mem_cons_self .. : c ∈ Nat.toDigits 10 n)
          refine ⟨⟨c, later, rfl, Or.inl digit⟩, ?_⟩
          rw [List.cons_append, readScalar_number (Or.inl digit), readNumber.eq_def]
          split
          case h_1 same =>
            rw [(List.cons.inj same).1] at digit
            cases digit
          case h_2 => rw [← List.cons_append, ← shape, read, whole]; rfl
  | negSucc n =>
      have text : (Int.repr (Int.negSucc n)).toList = '-' :: Nat.toDigits 10 (n + 1) := by
        rw [Int.repr, String.toList_append, Nat.toList_repr]
        rfl
      have whole : wholeOf? true (Nat.toDigits 10 (n + 1)) = some (Int.negSucc n) := by
        rw [wholeOf?, digitsValue_eq, Nat.ofDigitChars_ten_toDigits]
        rfl
      refine ⟨⟨'-', _, text, Or.inr rfl⟩, ?_⟩
      rw [text, List.cons_append, readScalar_number (Or.inr rfl), readNumber,
        readUnsigned_digits true (n + 1) ends, whole]
      rfl

/-! ### Documents -/

theorem readValue_skipSpace (steps : Nat) (text : List Char) :
    readValue steps (skipSpace text) = readValue steps text := by
  cases steps with
  | zero => rfl
  | succ steps => rw [readValue, readValue, skipSpace_skipSpace]

theorem readMembers_skipSpace (steps : Nat) (text : List Char) :
    readMembers steps (skipSpace text) = readMembers steps text := by
  cases steps with
  | zero => rfl
  | succ steps => rw [readMembers, readMembers, readKey, readKey, skipSpace_skipSpace]

theorem readValue_gap {gap : List Char} (isGap : IsGap gap) (steps : Nat) (text : List Char) :
    readValue steps (gap ++ text) = readValue steps text := by
  rw [← readValue_skipSpace, skipSpace_gap isGap, readValue_skipSpace]

/-- What does not open an array or an object is read as a scalar. -/
theorem readValue_scalar {c : Char}
    (plain : isJsonSpace c = false ∧ c ≠ '[' ∧ c ≠ '\x7b') {steps : Nat} (some : 0 < steps)
    (rest : List Char) : readValue steps (c :: rest) = readScalar (c :: rest) := by
  obtain ⟨steps, rfl⟩ := Nat.exists_eq_add_one.mpr some
  rw [readValue, skipSpace_of_head plain.1]
  split
  case h_1 same => exact absurd (List.cons.inj same).1 plain.2.1
  case h_2 same => exact absurd (List.cons.inj same).1 plain.2.2
  case h_3 => rfl

/-- A written key begins with a quote behind its white space, and it is read back. -/
theorem WrittenKey.read {key : String} {front : List Char} (isKey : WrittenKey key front)
    (rest : List Char) :
    (∃ later, skipSpace (front ++ rest) = '"' :: later) ∧
      readKey (front ++ rest) = some (some key, rest) := by
  obtain ⟨before, after, gapBefore, gapAfter, rfl⟩ := isKey
  have start : skipSpace (before ++ (quote key.toList ++ (after ++ [':'])) ++ rest) =
      '"' :: (key.toList.flatMap escapeChar ++ '"' :: (after ++ ':' :: rest)) := by
    rw [List.append_assoc, skipSpace_gap gapBefore, List.append_assoc, quote_append,
      skipSpace_of_head (by decide), List.append_assoc, List.singleton_append]
  have colon : skipSpace (after ++ ':' :: rest) = ':' :: rest := by
    rw [skipSpace_gap gapAfter, skipSpace_of_head (by decide)]
  refine ⟨⟨_, start⟩, ?_⟩
  simp only [readKey, start, readString_quote, colon]

theorem WrittenMembers.head {members : List (JsonString × JsonValue)} {body : List Char}
    (written : WrittenMembers members body) (rest : List Char) :
    ∃ later, skipSpace (body ++ rest) = '"' :: later := by
  cases written with
  | last isKey => rw [List.append_assoc]; exact (isKey.read _).1
  | more isKey => rw [List.append_assoc]; exact (isKey.read _).1

-- The induction is on the way in which the text writes the document. Two steps for each character
-- are enough: braces, commas and colons pay for the steps down and along.
mutual

/-- Any text of a document is read as this document; what follows is left, up to white space. -/
theorem readValue_written : ∀ {value : JsonValue} {text : List Char}, Written value text →
    ∀ (steps : Nat) (rest : List Char), 2 * text.length ≤ steps → EndsNumber rest →
      ∃ left, readValue steps (text ++ rest) = some (value, left) ∧
        skipSpace left = skipSpace rest
  | _, _, .null, steps, rest, enough, _ =>
      ⟨rest, readValue_scalar (c := 'n') (by decide) (Nat.lt_of_lt_of_le (by decide) enough) _, rfl⟩
  | _, _, .isTrue, steps, rest, enough, _ =>
      ⟨rest, readValue_scalar (c := 't') (by decide) (Nat.lt_of_lt_of_le (by decide) enough) _, rfl⟩
  | _, _, .isFalse, steps, rest, enough, _ =>
      ⟨rest, readValue_scalar (c := 'f') (by decide) (Nat.lt_of_lt_of_le (by decide) enough) _, rfl⟩
  | _, _, .int value, steps, rest, enough, ends => by
      obtain ⟨⟨c, later, shape, isOne⟩, read⟩ := readScalar_repr value ends
      have plain : isJsonSpace c = false ∧ c ≠ '[' ∧ c ≠ '\x7b' := by
        rcases isOne with digit | rfl
        · refine ⟨?_, Sheet.ne_of_isDigit digit (by decide), Sheet.ne_of_isDigit digit (by decide)⟩
          simp only [isJsonSpace, Bool.or_eq_false_iff, beq_eq_false_iff_ne]
          refine ⟨⟨⟨?_, ?_⟩, ?_⟩, ?_⟩ <;> exact Sheet.ne_of_isDigit digit (by decide)
        · decide
      rw [shape, List.length_cons] at enough
      rw [shape, List.cons_append] at read ⊢
      exact ⟨rest, (readValue_scalar plain (by omega) _).trans read, rfl⟩
  | _, _, .text value, steps, rest, enough, _ => by
      rw [quote, List.length_cons] at enough
      refine ⟨rest, ?_, rfl⟩
      rw [quote_append, readValue_scalar (by decide) (by omega), readScalar, readString_quote]
      rfl
  | _, _, @Written.nothing gap isGap, steps, rest, enough, _ => by
      rw [List.length_cons] at enough
      obtain ⟨steps, rfl⟩ := Nat.exists_eq_add_one.mpr (by omega : 0 < steps)
      have closes : skipSpace (gap ++ ['\x7d'] ++ rest) = '\x7d' :: rest := by
        rw [List.append_assoc, skipSpace_gap isGap, List.singleton_append,
          skipSpace_of_head (by decide)]
      refine ⟨rest, ?_, rfl⟩
      rw [List.cons_append, readValue, skipSpace_of_head (by decide)]
      simp only [closes]
  | _, _, @Written.members _ body written, steps, rest, enough, _ => by
      simp only [List.length_cons, List.length_append, List.length_nil] at enough
      obtain ⟨steps, rfl⟩ := Nat.exists_eq_add_one.mpr (by omega : 0 < steps)
      have read := readMembers_written written steps rest (by omega)
      obtain ⟨later, start⟩ := written.head ('\x7d' :: rest)
      rw [← readMembers_skipSpace, start] at read
      refine ⟨rest, ?_, rfl⟩
      rw [List.cons_append, readValue, skipSpace_of_head (by decide)]
      simp only [List.append_assoc, List.singleton_append, start]
      exact congrArg (Option.map fun (members, rest) => (JsonValue.object members, rest)) read
  | _, _, .spaced gapBefore written gapAfter, steps, rest, enough, ends => by
      simp only [List.length_append] at enough
      obtain ⟨left, read, same⟩ := readValue_written written steps _ (by omega) (ends.gap gapAfter)
      refine ⟨left, ?_, same.trans (skipSpace_gap gapAfter rest)⟩
      rw [List.append_assoc, readValue_gap gapBefore, List.append_assoc, read]

/-- Any text of the members of an object is read as these members. -/
theorem readMembers_written : ∀ {members : List (JsonString × JsonValue)} {body : List Char},
    WrittenMembers members body → ∀ (steps : Nat) (rest : List Char), 2 * body.length < steps →
      readMembers steps (body ++ '\x7d' :: rest) = some (members, rest)
  | _, _, .last isKey written, steps, rest, enough => by
      simp only [List.length_append] at enough
      obtain ⟨steps, rfl⟩ := Nat.exists_eq_add_one.mpr (by omega : 0 < steps)
      obtain ⟨left, read, same⟩ := readValue_written written steps ('\x7d' :: rest) (by omega)
        (by simp [EndsNumber])
      rw [skipSpace_of_head (by decide)] at same
      rw [List.append_assoc, readMembers, (isKey.read _).2]
      simp only [read, same]
  | _, _, @WrittenMembers.more _ _ _ _ body _ isKey written further, steps, rest, enough => by
      simp only [List.length_append, List.length_cons] at enough
      obtain ⟨steps, rfl⟩ := Nat.exists_eq_add_one.mpr (by omega : 0 < steps)
      obtain ⟨left, read, same⟩ := readValue_written written steps
        (',' :: (body ++ '\x7d' :: rest)) (by omega) (by simp [EndsNumber])
      have later := readMembers_written further steps rest (by omega)
      rw [skipSpace_of_head (by decide)] at same
      rw [List.append_assoc, readMembers, (isKey.read _).2]
      simp only [List.append_assoc, List.cons_append, read, same, later]
      rfl

end

/-- A document is read from any of its texts. -/
theorem readJson?_written {value : JsonValue} {text : List Char} (written : Written value text) :
    readJson? text = some value := by
  obtain ⟨left, read, same⟩ := readValue_written written (2 * text.length + 2) []
    (by omega) (by simp [EndsNumber])
  rw [List.append_nil] at read
  have nothing : skipSpace left = [] := same
  simp only [readJson?, read, nothing, List.isEmpty_nil, if_true]

/-! ### The layout over several lines -/

/-- At every level of nesting the layout over several lines writes the document. -/
def Laid (value : JsonValue) : Prop := ∀ level, Written value (layout .indented level value)

theorem laid_null : Laid .null := fun _ => .null

theorem laid_bool : ∀ value : Bool, Laid (.bool value)
  | true => fun _ => .isTrue
  | false => fun _ => .isFalse

theorem laid_int (value : Int) : Laid (.int value) := fun _ => .int value

theorem laid_text (value : String) : Laid (.text value) := fun _ => .text value

theorem isGap_line (level : Nat) : IsGap (Spacing.indented.line level) := by
  intro c member
  simp only [Spacing.indented, List.mem_cons, List.mem_replicate] at member
  rcases member with rfl | ⟨-, rfl⟩ <;> rfl

/-- The members of a laid out object, from the white space in front of the first key to the white
space in front of the closing brace. -/
theorem writtenMembers_layout (level : Nat) {after : List Char} (isGap : IsGap after)
    (later : List (String × JsonValue)) :
    ∀ (key : String) (value : JsonValue), Laid value → (∀ member ∈ later, Laid member.2) →
      WrittenMembers
        ((some key, value) :: later.map fun member => (some member.1, member.2))
        (Spacing.indented.line level ++ quote key.toList ++ Spacing.indented.colon ++
          layout .indented level value ++
          layoutMembers .indented level (later.map fun member => (some member.1, member.2)) ++
          after) := by
  have isKey : ∀ key : String, WrittenKey key
      (Spacing.indented.line level ++ (quote key.toList ++ ([] ++ [':']))) := fun key =>
    ⟨_, [], isGap_line level, isGap_nil, rfl⟩
  have space : IsGap [' '] := fun c member => by rw [List.mem_singleton.mp member]; rfl
  induction later with
  | nil =>
      intro key value laid _
      have written := WrittenMembers.last (isKey key) (.spaced space (laid level) isGap)
      simpa [Spacing.indented, layoutMembers] using written
  | cons next later inductionHypothesis =>
      intro key value laid others
      obtain ⟨laidNext, others⟩ := List.forall_mem_cons.mp others
      have written := WrittenMembers.more (isKey key)
        (.spaced space (laid level) isGap_nil)
        (inductionHypothesis next.1 next.2 laidNext others)
      simpa [Spacing.indented, layoutMembers] using written

theorem laid_record {members : List (String × JsonValue)}
    (each : ∀ member ∈ members, Laid member.2) : Laid (.record members) := by
  intro level
  cases members with
  | nil => exact .nothing isGap_nil
  | cons first later =>
      obtain ⟨laid, others⟩ := List.forall_mem_cons.mp each
      have written := Written.members (writtenMembers_layout (level + 1) (isGap_line level) later
        first.1 first.2 laid others)
      simpa [record, layout] using written

end StyledWidgets.JsonReader
