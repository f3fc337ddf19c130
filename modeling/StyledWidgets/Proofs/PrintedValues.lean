/-
Module: StyledWidgets.Proofs.PrintedValues
Purpose: The values of a declaration are read back from their texts. What is read has numbers of 32
  bits, and free text only where the property keeps it, as the last value; each printed value is one
  token again, and this token gives the value.
Main exports: Value.Proper, Value.Plain, Value.steady_text, Readable, readable_readValues,
  readValues_text
-/
import Mathlib.Data.List.Basic
import Mathlib.Tactic.SplitIfs
import StyledWidgets.Proofs.PrintedSelectors
import StyledWidgets.Sheet.ValueReader

namespace StyledWidgets.Sheet

open StyledWidgets.Text

/-! ### Whole numbers -/

/-- The whole number has 32 bits. -/
def IsInt32 (n : Int) : Prop := -(intCap : Int) ≤ n ∧ n < intCap

theorem isInt32_clampInt (n : Int) : IsInt32 (clampInt n) := by
  have cap : 0 < (intCap : Int) := by decide
  simp only [IsInt32, clampInt]
  omega

theorem isInt32_lenientInt (text : List Char) : IsInt32 (lenientInt text) := by
  rw [lenientInt]
  split <;> exact isInt32_clampInt _

theorem clampInt_eq_self {n : Int} (small : IsInt32 n) : clampInt n = n := by
  simp only [IsInt32, clampInt] at small ⊢
  omega

/-- Digits are worth what they denote, up to the cap. -/
theorem cappedValue_eq (digits : List Char) :
    cappedValue digits = min (Nat.ofDigitChars 10 digits 0) intCap := by
  -- Holding the value at the cap before a digit or only behind it makes no difference.
  have run : ∀ start, digits.foldl (fun value c => min (value * 10 + digitValue c) intCap)
      (min start intCap) = min (Nat.ofDigitChars 10 digits start) intCap := by
    induction digits with
    | nil => exact fun _ => rfl
    | cons c later inductionHypothesis =>
        intro start
        have step : min (min start intCap * 10 + digitValue c) intCap =
            min (10 * start + (c.toNat - '0'.toNat)) intCap := by
          rw [digitValue]
          omega
        rw [List.foldl_cons, step, inductionHypothesis, Nat.ofDigitChars_cons]
  exact run 0

/-- Visible ASCII characters are not blank. -/
theorem isBlank_of_visible {c : Char} (visible : 0x20 < c.toNat ∧ c.toNat < 0x7F) :
    isBlank c = false := by
  simp only [isBlank, blankRanges, List.any_cons, List.any_nil, Bool.or_false,
    Bool.or_eq_false_iff, decide_eq_false_iff_not]
  omega

/-- Only capitals are lowered. -/
theorem toLower_of_small {c : Char} (small : c.toNat < 65 ∨ 90 < c.toNat) : c.toLower = c := by
  refine dif_neg fun capital => ?_
  have range : 65 ≤ c.toNat ∧ c.toNat ≤ 90 := by
    simpa [UInt32.le_iff_toNat_le] using capital
  omega

theorem toNat_of_isDigit {c : Char} (digit : c.isDigit = true) :
    48 ≤ c.toNat ∧ c.toNat ≤ 57 := by
  simpa [Char.isDigit, UInt32.le_iff_toNat_le] using digit

theorem isBlank_of_isDigit {c : Char} (digit : c.isDigit = true) : isBlank c = false := by
  have range := toNat_of_isDigit digit
  exact isBlank_of_visible (by omega)

theorem toLower_of_isDigit {c : Char} (digit : c.isDigit = true) : c.toLower = c := by
  have range := toNat_of_isDigit digit
  exact toLower_of_small (by omega)

theorem ne_of_isDigit {c d : Char} (digit : c.isDigit = true) (none : d.isDigit = false) :
    c ≠ d := by
  intro same
  rw [same, none] at digit
  cases digit

section Digits

variable {digits : List Char} (isDigit : ∀ c ∈ digits, c.isDigit = true)

include isDigit

theorem takeWhile_isDigit : digits.takeWhile Char.isDigit = digits := by
  induction digits with
  | nil => rfl
  | cons c later inductionHypothesis =>
      rw [List.takeWhile_cons_of_pos (isDigit c (List.mem_cons_self ..)),
        inductionHypothesis fun d member => isDigit d (List.mem_cons_of_mem _ member)]

theorem lenientInt_digits : lenientInt digits = clampInt (cappedValue digits) := by
  have whole := takeWhile_isDigit isDigit
  cases digits with
  | nil => rfl
  | cons c later =>
      have digit := isDigit c (List.mem_cons_self ..)
      have shown : ¬isBlank c = true := Bool.eq_false_iff.mp (isBlank_of_isDigit digit)
      rw [lenientInt, trimStart, List.dropWhile_cons_of_neg shown]
      split
      case h_1 isMinus => exact absurd (List.cons.inj isMinus).1 (ne_of_isDigit digit (by decide))
      case h_2 isPlus => exact absurd (List.cons.inj isPlus).1 (ne_of_isDigit digit (by decide))
      case h_3 => rw [whole]

theorem lenientInt_minus :
    lenientInt ('-' :: digits) = clampInt (-(cappedValue digits : Int)) := by
  have shown : trimStart ('-' :: digits) = '-' :: digits :=
    List.dropWhile_cons_of_neg (by decide)
  rw [lenientInt, shown]
  simp only [takeWhile_isDigit isDigit]

end Digits

/-- A whole number is written with its digits, behind a hyphen if it is negative. -/
theorem toList_repr (n : Int) : ∃ digits : List Char,
    digits ≠ [] ∧ (∀ c ∈ digits, c.isDigit = true) ∧
      Nat.ofDigitChars 10 digits 0 = n.natAbs ∧
        (0 ≤ n ∧ (Int.repr n).toList = digits ∨
          n < 0 ∧ (Int.repr n).toList = '-' :: digits) := by
  refine ⟨Nat.toDigits 10 n.natAbs, Nat.toDigits_ne_nil, fun c member =>
    Nat.isDigit_of_mem_toDigits (by decide) (by decide) member, Nat.ofDigitChars_ten_toDigits, ?_⟩
  cases n with
  | ofNat m => exact Or.inl ⟨Int.natCast_nonneg m, Nat.toList_repr⟩
  | negSucc m =>
      refine Or.inr ⟨Int.negSucc_lt_zero m, ?_⟩
      rw [Int.repr, String.toList_append, Nat.toList_repr]
      rfl

/-- A whole number of 32 bits is read back from its text. -/
theorem lenientInt_repr {n : Int} (small : IsInt32 n) : lenientInt (Int.repr n).toList = n := by
  obtain ⟨digits, -, isDigit, value, shape⟩ := toList_repr n
  obtain ⟨low, high⟩ := small
  rcases shape with ⟨sign, text⟩ | ⟨sign, text⟩
  · have same : ((min n.natAbs intCap : Nat) : Int) = n := by omega
    rw [text, lenientInt_digits isDigit, cappedValue_eq, value, same,
      clampInt_eq_self ⟨low, high⟩]
  · have same : -((min n.natAbs intCap : Nat) : Int) = n := by omega
    rw [text, lenientInt_minus isDigit, cappedValue_eq, value, same,
      clampInt_eq_self ⟨low, high⟩]

/-! ### The characters of words -/

/-- The character can stand in the text of a number, a keyword or a color. -/
def IsWordChar (c : Char) : Prop := isNameChar c = true ∨ c = '#'

theorem IsWordChar.ne {c d : Char} (isOne : IsWordChar c)
    (foreign : isNameChar d = false ∧ d ≠ '#') : c ≠ d := by
  rcases isOne with isName | rfl
  · exact ne_of_isNameChar isName foreign.1
  · exact foreign.2.symm

/-- The character stands inside a word. -/
theorem IsWordChar.inside {c : Char} (isOne : IsWordChar c) :
    separatesValues c = false ∧ c ≠ '(' := by
  refine ⟨?_, isOne.ne (by decide)⟩
  simp only [separatesValues, isSpace, Bool.or_eq_false_iff, beq_eq_false_iff_ne]
  refine ⟨⟨⟨⟨⟨?_, ?_⟩, ?_⟩, ?_⟩, ?_⟩, ?_⟩ <;> exact isOne.ne (by decide)

theorem IsWordChar.noQuote {c : Char} (isOne : IsWordChar c) : ¬(c = '"' ∨ c = '\'') := by
  rw [not_or]
  exact ⟨isOne.ne (by decide), isOne.ne (by decide)⟩

theorem isNameChar_of_isDigit {c : Char} (digit : c.isDigit = true) : isNameChar c = true := by
  simp only [isNameChar, Char.isAlphanum, digit, Bool.or_true, Bool.true_or]

/-- The text of a number is not empty, and all its characters are such as stand in words. -/
theorem isWordChar_repr (n : Int) :
    (Int.repr n).toList ≠ [] ∧ ∀ c ∈ (Int.repr n).toList, IsWordChar c := by
  obtain ⟨digits, filled, isDigit, -, shape⟩ := toList_repr n
  have word : ∀ c ∈ digits, IsWordChar c := fun c member =>
    Or.inl (isNameChar_of_isDigit (isDigit c member))
  rcases shape with ⟨-, text⟩ | ⟨-, text⟩
  · rw [text]
    exact ⟨filled, word⟩
  · rw [text]
    refine ⟨List.cons_ne_nil _ _, fun c member => ?_⟩
    rcases List.mem_cons.mp member with rfl | further
    · exact Or.inl (by decide)
    · exact word c further

theorem Keyword.mem_all (word : Keyword) : word ∈ all := by
  cases word <;> decide

theorem Keyword.isNameChar_name (word : Keyword) :
    word.name.toList ≠ [] ∧ ∀ c ∈ word.name.toList, isNameChar c = true := by
  have known : ∀ one ∈ all, one.name.toList ≠ [] ∧ ∀ c ∈ one.name.toList, isNameChar c = true := by
    decide +kernel
  exact known word word.mem_all

/-- The digits of colors. -/
theorem hexValue?_digitChar :
    ∀ value < 16, hexValue? (Nat.digitChar value) = some value ∧
      isNameChar (Nat.digitChar value) = true := by
  decide

theorem Color.isNameChar_hexByte (channel : UInt8) :
    ∀ c ∈ hexByte channel, isNameChar c = true := by
  have small : channel.toNat < 256 := channel.toNat_lt
  intro c member
  simp only [hexByte, List.mem_cons, List.not_mem_nil, or_false] at member
  rcases member with rfl | rfl
  · exact (hexValue?_digitChar _ (by omega)).2
  · exact (hexValue?_digitChar _ (by omega)).2

theorem Color.ofHex?_text (color : Color) :
    ofHex? (hexByte color.red ++ hexByte color.green ++ hexByte color.blue ++
      hexByte color.alpha) = some color := by
  have high : ∀ channel : UInt8,
      hexValue? (Nat.digitChar (channel.toNat / 16)) = some (channel.toNat / 16) := by
    intro channel
    have small : channel.toNat < 256 := channel.toNat_lt
    exact (hexValue?_digitChar _ (by omega)).1
  have low : ∀ channel : UInt8,
      hexValue? (Nat.digitChar (channel.toNat % 16)) = some (channel.toNat % 16) := fun channel =>
    (hexValue?_digitChar _ (Nat.mod_lt _ (by decide))).1
  have whole : ∀ channel : UInt8,
      channelOf (channel.toNat / 16) (channel.toNat % 16) = channel := by
    intro channel
    rw [channelOf, Nat.div_add_mod', UInt8.ofNat_toNat]
  simp only [ofHex?, hexByte, List.cons_append, List.nil_append, List.mapM_cons, List.mapM_nil,
    high, low, Option.bind_eq_bind, Option.bind_some, Option.pure_def, whole]

/-! ### Values that are written down -/

namespace Value

/-- The value is one that a token has on its own: a number of 32 bits, and no free text. -/
def Proper : Value → Prop
  | .number n | .length n => IsInt32 n
  | .string _ => False
  | _ => True

/-- The characters of the location need no quotes: none is blank, ends a location, a declaration or
a block, or starts a string, and no comment begins in it. -/
def IsPlainLocation (location : String) : Prop :=
  (∀ c ∈ location.toList, isBlank c = false ∧ IsPlain c ∧ c ∉ [';', '\x7b', '\x7d', '(', ')']) ∧
    ¬OpensComment location.toList

instance : DecidablePred IsPlainLocation := fun location =>
  inferInstanceAs (Decidable
    ((∀ c ∈ location.toList,
      isBlank c = false ∧ IsPlain c ∧ c ∉ [';', '\x7b', '\x7d', '(', ')']) ∧
        ¬OpensComment location.toList))

/-- The free text can stand between two quotes and has no blanks at its ends. -/
def IsPlainText (text : String) : Prop :=
  text ≠ "" ∧ Flush text.toList ∧
    ∀ c ∈ text.toList, IsPlain c ∧ c ≠ '\n' ∧ c ≠ '\x7b' ∧ c ≠ '\x7d'

instance : DecidablePred IsPlainText := fun text =>
  inferInstanceAs (Decidable
    (text ≠ "" ∧ Flush text.toList ∧
      ∀ c ∈ text.toList, IsPlain c ∧ c ≠ '\n' ∧ c ≠ '\x7b' ∧ c ≠ '\x7d'))

/-- What stands in the text of the value without escapes needs none. -/
def Plain : Value → Prop
  | .uri location => IsPlainLocation location
  | .string text => IsPlainText text
  | _ => True

instance : DecidablePred Plain
  | .uri location => inferInstanceAs (Decidable (IsPlainLocation location))
  | .string text => inferInstanceAs (Decidable (IsPlainText text))
  | .number _ | .length _ | .keyword _ | .color _ => inferInstanceAs (Decidable True)

/-- The token that the text of the value is read as. -/
def token : Value → ValueToken
  | .uri location => .call "url".toList location.toList
  | .string text => .quoted text.toList
  | other => .word other.text.toList

/-- The text of the value is a word. -/
def IsWord : Value → Bool
  | .uri _ | .string _ => false
  | _ => true

variable {value : Value}

/-- A value whose text is no word is a location or free text. -/
theorem isWord_or (value : Value) :
    value.IsWord = true ∨ (∃ location, value = .uri location) ∨ ∃ free, value = .string free := by
  cases value <;> simp [IsWord]

theorem isWordChar_text (isWord : value.IsWord = true) :
    value.text.toList ≠ [] ∧ ∀ c ∈ value.text.toList, IsWordChar c := by
  cases value with
  | number n => exact isWordChar_repr n
  | length n =>
      obtain ⟨filled, word⟩ := isWordChar_repr n
      simp only [text, String.toList_append]
      refine ⟨List.append_ne_nil_of_left_ne_nil filled _, fun c member => ?_⟩
      rcases List.mem_append.mp member with inNumber | inUnit
      · exact word c inNumber
      · have unit : ∀ c ∈ "px".toList, isNameChar c = true := by decide
        exact Or.inl (unit c inUnit)
  | keyword word =>
      obtain ⟨filled, isName⟩ := word.isNameChar_name
      exact ⟨filled, fun c member => Or.inl (isName c member)⟩
  | color shade =>
      simp only [text, Color.text, String.toList_ofList]
      refine ⟨List.cons_ne_nil _ _, fun c member => ?_⟩
      simp only [List.mem_cons, List.mem_append] at member
      rcases member with rfl | ((inRed | inGreen) | inBlue) | inAlpha
      · exact Or.inr rfl
      · exact Or.inl (Color.isNameChar_hexByte _ c inRed)
      · exact Or.inl (Color.isNameChar_hexByte _ c inGreen)
      · exact Or.inl (Color.isNameChar_hexByte _ c inBlue)
      · exact Or.inl (Color.isNameChar_hexByte _ c inAlpha)
  | uri _ => cases isWord
  | string _ => cases isWord

end Value

/-- The character ends neither a declaration nor a block. -/
def IsInner (c : Char) : Prop := c ≠ ';' ∧ c ≠ '\x7d'

instance : DecidablePred IsInner := fun _ => inferInstanceAs (Decidable (_ ∧ _))

/-! ### Tokens -/

/-- What follows does not continue a word. -/
def EndsWord (rest : List Char) : Prop := ∀ c ∈ rest.head?, separatesValues c = true

section Scanning

variable {text rest : List Char}

/-- What is inside a word belongs to it. -/
theorem scanValues_inWord (inside : ∀ c ∈ text, separatesValues c = false ∧ c ≠ '(') :
    ∀ sofar, scanValues (.inWord sofar) (text ++ rest) =
      scanValues (.inWord (sofar ++ text)) rest := by
  induction text with
  | nil =>
      intro sofar
      rw [List.append_nil, List.nil_append]
  | cons c later inductionHypothesis =>
      intro sofar
      obtain ⟨noEnd, noCall⟩ := inside c (List.mem_cons_self ..)
      have further := inductionHypothesis (fun d member => inside d (List.mem_cons_of_mem _ member))
        (sofar ++ [c])
      rw [List.append_assoc, List.singleton_append] at further
      simp only [List.cons_append, scanValues, noEnd, noCall, Bool.false_eq_true, if_false,
        further]

/-- A word reaches to the blank behind it. -/
theorem scanValues_endWord (ends : EndsWord rest) (sofar : List Char) :
    scanValues (.inWord sofar) rest = .word sofar :: scanValues .between rest := by
  cases rest with
  | nil => rfl
  | cons c later =>
      have separates : separatesValues c = true := ends c rfl
      simp only [scanValues, separates, if_true]

/-- The arguments of a call go on until a parenthesis closes them. -/
theorem scanValues_inCall (noEnd : ')' ∉ text) (name : List Char) :
    ∀ sofar, scanValues (.inCall name sofar) (text ++ rest) =
      scanValues (.inCall name (sofar ++ text)) rest := by
  induction text with
  | nil =>
      intro sofar
      rw [List.append_nil, List.nil_append]
  | cons c later inductionHypothesis =>
      intro sofar
      rw [List.mem_cons, not_or] at noEnd
      have further := inductionHypothesis noEnd.2 (sofar ++ [c])
      rw [List.append_assoc, List.singleton_append] at further
      simp only [List.cons_append, scanValues, Ne.symm noEnd.1, if_false, further]

theorem scanValues_endCall (name sofar : List Char) :
    scanValues (.inCall name sofar) (')' :: rest) =
      .call name sofar :: scanValues .between rest := by
  simp only [scanValues, if_true]

/-- A quoted text goes on until the same quote stands again. -/
theorem scanValues_inQuotes {quote : Char} (noEnd : quote ∉ text) :
    ∀ sofar, scanValues (.inQuotes quote sofar) (text ++ rest) =
      scanValues (.inQuotes quote (sofar ++ text)) rest := by
  induction text with
  | nil =>
      intro sofar
      rw [List.append_nil, List.nil_append]
  | cons c later inductionHypothesis =>
      intro sofar
      rw [List.mem_cons, not_or] at noEnd
      have further := inductionHypothesis noEnd.2 (sofar ++ [c])
      rw [List.append_assoc, List.singleton_append] at further
      simp only [List.cons_append, scanValues, Ne.symm noEnd.1, if_false, further]

theorem scanValues_endQuotes (quote : Char) (sofar : List Char) :
    scanValues (.inQuotes quote sofar) (quote :: rest) =
      .quoted sofar :: scanValues .between rest := by
  simp only [scanValues, if_true]

end Scanning

namespace Value

variable {value : Value} {rest : List Char}

theorem token_of_isWord (isWord : value.IsWord = true) : value.token = .word value.text.toList := by
  cases value with
  | uri _ => cases isWord
  | string _ => cases isWord
  | _ => rfl

/-- The text of a value is one token. -/
theorem scanValues_text (plain : value.Plain) (ends : EndsWord rest) :
    scanValues .between (' ' :: (value.text.toList ++ rest)) =
      value.token :: scanValues .between rest := by
  rcases value.isWord_or with isWord | ⟨location, rfl⟩ | ⟨free, rfl⟩
  · obtain ⟨filled, word⟩ := isWordChar_text isWord
    obtain ⟨c, later, shape⟩ := List.exists_cons_of_ne_nil filled
    rw [shape] at word
    obtain ⟨inside, noCall⟩ := (word c (List.mem_cons_self ..)).inside
    have noQuote := (word c (List.mem_cons_self ..)).noQuote
    have inWord : ∀ d ∈ later, separatesValues d = false ∧ d ≠ '(' := fun d member =>
      (word d (List.mem_cons_of_mem _ member)).inside
    have further : scanValues (.inWord [c]) (later ++ rest) =
        .word (c :: later) :: scanValues .between rest := by
      rw [scanValues_inWord inWord, scanValues_endWord ends, List.singleton_append]
    have blank : separatesValues ' ' = true := by decide
    rw [token_of_isWord isWord, shape, List.cons_append]
    simp only [scanValues, blank, inside, noCall, noQuote, Bool.false_eq_true, if_true,
      if_false, further, List.singleton_append]
  · have noEnd : ')' ∉ location.toList := fun member =>
      (plain.1 ')' member).2.2 (by simp)
    have start : scanValues .between (' ' :: ((Value.uri location).text.toList ++ rest)) =
        scanValues (.inCall "url".toList []) (location.toList ++ ')' :: rest) := by
      simp only [text, String.toList_append, List.append_assoc]
      rfl
    rw [start, scanValues_inCall noEnd, scanValues_endCall, token, List.nil_append]
  · have noEnd : '"' ∉ free.toList := fun member => (plain.2.2 '"' member).1.2.1 rfl
    have start : scanValues .between (' ' :: ((Value.string free).text.toList ++ rest)) =
        scanValues (.inQuotes '"' []) (free.toList ++ '"' :: rest) := by
      simp only [text, String.toList_append, List.append_assoc]
      rfl
    rw [start, scanValues_inQuotes noEnd, scanValues_endQuotes, token, List.nil_append]

/-- The texts of values are their tokens. -/
theorem valueTokens_texts {values : List Value} (plain : ∀ value ∈ values, value.Plain) :
    valueTokens (values.flatMap fun value => ' ' :: value.text.toList) = values.map token := by
  rw [valueTokens]
  induction values with
  | nil => rfl
  | cons value later inductionHypothesis =>
      have further := inductionHypothesis fun other member =>
        plain other (List.mem_cons_of_mem _ member)
      have ends : EndsWord (later.flatMap fun value => ' ' :: value.text.toList) := by
        intro c first
        cases later with
        | nil => cases first
        | cons next _ =>
            cases first
            decide
      rw [List.flatMap_cons, List.cons_append,
        scanValues_text (plain _ (List.mem_cons_self ..)) ends, further, List.map_cons]

/-- The text of a value behind a blank is scanned the same way wherever it stands. -/
theorem steady_text (plain : value.Plain) : Steady IsInner (' ' :: value.text.toList) := by
  rcases value.isWord_or with isWord | ⟨location, rfl⟩ | ⟨free, rfl⟩
  · obtain ⟨-, word⟩ := isWordChar_text isWord
    apply steady_slashless
    intro c member
    rcases List.mem_cons.mp member with rfl | inText
    · decide
    · have foreign := fun {d : Char} => (word c inText).ne (d := d)
      exact ⟨⟨foreign (by decide), foreign (by decide), foreign (by decide)⟩,
        foreign (by decide), foreign (by decide), foreign (by decide)⟩
  · have shape : ' ' :: (Value.uri location).text.toList =
        " url".toList ++ '(' :: (location.toList ++ [')']) := by
      simp only [text, String.toList_append]
      rfl
    rw [shape]
    apply steady_plain
    · intro c member
      simp only [List.mem_append, List.mem_cons, List.not_mem_nil, or_false] at member
      rcases member with inName | rfl | inLocation | rfl
      · have name : ∀ c ∈ " url".toList, IsPlain c ∧ IsInner c := by decide
        exact name c inName
      · decide
      · obtain ⟨-, isPlain, noEnd⟩ := plain.1 c inLocation
        refine ⟨isPlain, ?_, ?_⟩
        · exact fun same => noEnd (by simp [same])
        · exact fun same => noEnd (by simp [same])
      · decide
    · apply not_opensComment_append (by decide) (by decide) (by decide)
      exact not_opensComment_append plain.2 (by decide) (by decide) (by decide)
    · rw [List.getLast?_append, ← List.cons_append, List.getLast?_concat]
      decide
  · have shape : ' ' :: (Value.string free).text.toList =
        ' ' :: '"' :: (free.toList ++ ['"']) := by
      simp only [text, String.toList_append]
      rfl
    rw [shape]
    have quotable : ∀ c ∈ free.toList, IsQuotable c := by
      intro c member
      obtain ⟨⟨noEscape, noQuote, -⟩, noBreak, noOpening, noClosing⟩ := plain.2.2 c member
      exact ⟨noQuote, noEscape, noBreak, noOpening, noClosing⟩
    exact steady_quoted quotable (by decide) (by decide) rfl (by decide)

/-! ### Values of tokens -/

/-- The value of a token is proper. -/
theorem proper_of_ofToken? {token : ValueToken} (read : ofToken? token = some value) :
    value.Proper := by
  cases token with
  | quoted _ => cases read
  | word word =>
      simp only [ofToken?, ofWord?] at read
      split at read
      · obtain ⟨_, -, rfl⟩ := Option.map_eq_some_iff.mp read
        trivial
      · split at read
        · split at read
          · cases read
            exact isInt32_lenientInt _
          · cases read
            exact isInt32_lenientInt _
        · split at read
          · cases read
            trivial
          · obtain ⟨_, -, rfl⟩ := Option.map_eq_some_iff.mp read
            trivial
  | call name arguments =>
      simp only [ofToken?, ofCall?] at read
      split at read
      · obtain ⟨_, -, rfl⟩ := Option.map_eq_some_iff.mp read
        trivial
      · split at read
        · cases read
          trivial
        · cases read

theorem beforePx?_digit {d : Char} (digit : d.isDigit = true) (front : List Char) :
    beforePx? (front ++ [d]) = none := by
  rw [beforePx?, List.reverse_concat]
  split
  case h_1 isUnit => exact absurd (List.cons.inj isUnit).1 (ne_of_isDigit digit (by decide))
  case h_2 => rfl

theorem beforePx?_px (front : List Char) : beforePx? (front ++ ['p', 'x']) = some front := by
  simp only [beforePx?, List.reverse_append, List.reverse_cons, List.reverse_nil, List.nil_append,
    List.cons_append, List.reverse_reverse]

/-- The text of a whole number starts like a number, has no capitals and ends without a unit. -/
theorem repr_numeric (n : Int) :
    (∀ rest, startsNumber ((Int.repr n).toList ++ rest) = true) ∧
      lower (Int.repr n).toList = (Int.repr n).toList ∧
        beforePx? (Int.repr n).toList = none := by
  obtain ⟨digits, filled, isDigit, -, shape⟩ := toList_repr n
  have small : digits.map Char.toLower = digits := by
    rw [List.map_congr_left fun c member => toLower_of_isDigit (isDigit c member), List.map_id']
  obtain ⟨d, later, isCons⟩ := List.exists_cons_of_ne_nil filled
  have first : d.isDigit = true := isDigit d (isCons ▸ List.mem_cons_self ..)
  have starts : ∀ rest, startsNumber (digits ++ rest) = true := by
    intro rest
    simp only [isCons, List.cons_append, startsNumber, first, Bool.true_or]
  obtain ⟨front, e, isConcat⟩ := (List.eq_nil_or_concat' digits).resolve_left filled
  have last : e.isDigit = true := isDigit e (isConcat ▸ List.mem_concat_self)
  rcases shape with ⟨-, text⟩ | ⟨-, text⟩
  · rw [text]
    exact ⟨starts, small, isConcat ▸ beforePx?_digit last front⟩
  · rw [text]
    refine ⟨fun rest => ?_, ?_, ?_⟩
    · simp only [isCons, List.cons_append, startsNumber, first, beq_self_eq_true, Bool.true_or,
        Bool.and_self, Bool.or_true]
    · rw [lower, List.map_cons, small]
      rfl
    · rw [isConcat]
      exact beforePx?_digit last ('-' :: front)

theorem ofWord?_of_startsNumber {word : List Char} (starts : startsNumber word = true) :
    ofWord? word = match beforePx? (lower word) with
      | some size => some (.length (lenientInt size))
      | none => some (.number (lenientInt word)) := by
  rw [ofWord?]
  · exact if_pos starts
  · intro digits isHash
    have noNumber : startsNumber ('#' :: digits) = false := rfl
    rw [isHash, noNumber] at starts
    cases starts

theorem ofCall?_url (arguments : List Char) :
    ofCall? "url".toList arguments = some (.uri (String.ofList (unquoted (trim arguments)))) :=
  rfl

theorem unquoted_of_isPlain {text : List Char} (plain : ∀ c ∈ text, IsPlain c) :
    unquoted text = text := by
  cases text with
  | nil => rfl
  | cons c later =>
      obtain ⟨-, noDouble, noSingle⟩ := plain c (List.mem_cons_self ..)
      simp only [unquoted, between?, if_neg noDouble, if_neg noSingle, Option.or_none,
        Option.getD_none]

/-- The token of a proper value gives the value. -/
theorem ofToken?_token (proper : value.Proper) (plain : value.Plain) :
    ofToken? value.token = some value := by
  cases value with
  | number n =>
      obtain ⟨starts, small, noUnit⟩ := repr_numeric n
      have whole := starts []
      rw [List.append_nil] at whole
      simp only [token, text, ofToken?, ofWord?_of_startsNumber whole, small, noUnit,
        lenientInt_repr proper]
  | length n =>
      obtain ⟨starts, small, -⟩ := repr_numeric n
      have unit : lower "px".toList = ['p', 'x'] := by decide
      have lowered : lower ((Int.repr n).toList ++ "px".toList) =
          (Int.repr n).toList ++ ['p', 'x'] :=
        List.map_append.trans (congrArg₂ (· ++ ·) small unit)
      simp only [token, text, ofToken?, String.toList_append, ofWord?_of_startsNumber (starts _),
        lowered, beforePx?_px, lenientInt_repr proper]
  | keyword word =>
      have known : ∀ one ∈ Keyword.all, ofWord? one.name.toList = some (.keyword one) := by
        decide +kernel
      exact known word word.mem_all
  | color shade =>
      simp only [token, text, ofToken?, Color.text, String.toList_ofList, ofWord?,
        Color.ofHex?_text, Option.map_some]
  | uri location =>
      have flush : Flush location.toList := by
        intro c isEnd
        rcases isEnd with isFirst | isLast
        · exact (plain.1 c (List.mem_of_head? isFirst)).1
        · exact (plain.1 c (List.mem_of_getLast? isLast)).1
      have bare : unquoted location.toList = location.toList :=
        unquoted_of_isPlain fun c member => (plain.1 c member).2.1
      rw [token, ofToken?, ofCall?_url, trim_flush flush, bare, String.ofList_toList]
  | string _ => cases proper

theorem freeText?_token (proper : value.Proper) (plain : value.Plain) :
    value.token.freeText? = none := by
  have own := ofToken?_token proper plain
  cases isToken : value.token with
  | word word =>
      rw [isToken, ofToken?] at own
      simp only [ValueToken.freeText?, own, Option.isNone_some, Bool.false_eq_true, if_false]
  | call _ _ => rfl
  | quoted _ =>
      rw [isToken] at own
      cases own

end Value

/-! ### All values of a declaration -/

theorem acceptsText_iff {property : Property} :
    property.acceptsText = true ↔ property = .font ∨ property = .fontFamily := by
  cases property <;> decide

theorem readValues_of_ne {property : Property} (other : property ≠ .fontFamily)
    (text : List Char) :
    readValues property text =
      let values := (valueTokens text).filterMap Value.ofToken?
      let free :=
        if property.acceptsText then (valueTokens text).filterMap ValueToken.freeText? else []
      if free = [] then values
      else values ++ [.string (String.ofList (List.intercalate [' '] free))] := by
  unfold readValues
  split
  · exact absurd rfl other
  · rfl

/-- The values can be read for the property: proper ones, and free text where a font keeps it. -/
inductive Readable : Property → List Value → Prop where
  | family (text : String) : Readable .fontFamily [.string text]
  | font {own : List Value} (proper : ∀ value ∈ own, value.Proper) (free : Option String) :
      Readable .font (own ++ free.toList.map .string)
  | other {property : Property} {own : List Value} (noText : property.acceptsText = false)
      (proper : ∀ value ∈ own, value.Proper) : Readable property own

/-- Whatever values are read can be read for the property. -/
theorem readable_readValues {property : Property} {text : List Char}
    (filled : readValues property text ≠ []) : Readable property (readValues property text) := by
  have proper : ∀ value ∈ (valueTokens text).filterMap Value.ofToken?, value.Proper := by
    intro value member
    obtain ⟨token, -, read⟩ := List.mem_filterMap.mp member
    exact Value.proper_of_ofToken? read
  by_cases isFamily : property = .fontFamily
  · subst isFamily
    simp only [readValues, readFamily] at filled ⊢
    by_cases empty : trim (trimQuotes (trim text)) = []
    · rw [if_pos empty] at filled
      exact absurd rfl filled
    · rw [if_neg empty]
      exact .family _
  · rw [readValues_of_ne isFamily]
    cases accepts : property.acceptsText with
    | false => exact .other accepts proper
    | true =>
        have isFont : property = .font := (acceptsText_iff.mp accepts).resolve_right isFamily
        subst isFont
        simp only [if_true]
        split
        · simpa using Readable.font proper none
        · exact Readable.font proper (some _)

/-- A quoted family is read back. -/
theorem readFamily_quoted {text : String} (plain : Value.IsPlainText text) :
    readFamily (' ' :: '"' :: (text.toList ++ ['"'])) = [.string text] := by
  obtain ⟨isText, flush, chars⟩ := plain
  have filled : text.toList ≠ [] := fun empty => isText (String.toList_eq_nil_iff.mp empty)
  have none : ∀ c ∈ ([] : List Char), isBlank c = true := fun c member =>
    absurd member List.not_mem_nil
  have spaced : trim (' ' :: '"' :: (text.toList ++ ['"'])) = '"' :: (text.toList ++ ['"']) := by
    have quoteShown : Flush ('"' :: (text.toList ++ ['"'])) := by
      intro c isEnd
      rw [List.head?_cons, ← List.cons_append, List.getLast?_concat, or_self,
        Option.some_inj] at isEnd
      rw [← isEnd]
      decide
    have padded := trim_padded [' '] [] (List.cons_ne_nil _ _) quoteShown (by decide) none
    rwa [List.append_nil, List.singleton_append] at padded
  have quoteless : trimQuotes ('"' :: (text.toList ++ ['"'])) = text.toList := by
    apply dropWhile_padded ['"'] ['"'] filled
    · intro c isEnd
      have member : c ∈ text.toList := isEnd.elim List.mem_of_head? List.mem_of_getLast?
      obtain ⟨-, noDouble, noSingle⟩ := (chars c member).1
      simp only [beq_false_of_ne noDouble, beq_false_of_ne noSingle, Bool.or_self]
    · decide
    · decide
  rw [readFamily, spaced, quoteless, trim_flush flush, if_neg filled, String.ofList_toList]

/-- Proper values are the values of their tokens, which have no free text. -/
theorem filterMap_tokens {own : List Value} (proper : ∀ value ∈ own, value.Proper)
    (plain : ∀ value ∈ own, value.Plain) :
    (own.map Value.token).filterMap Value.ofToken? = own ∧
      (own.map Value.token).filterMap ValueToken.freeText? = [] := by
  constructor
  · exact filterMap_map_eq_self fun value member =>
      Value.ofToken?_token (proper value member) (plain value member)
  · rw [List.filterMap_map, List.filterMap_eq_nil_iff]
    exact fun value member => Value.freeText?_token (proper value member) (plain value member)

/-- The values of a declaration are read back from their texts. -/
theorem readValues_text {property : Property} {values : List Value}
    (readable : Readable property values) (plain : ∀ value ∈ values, value.Plain) :
    readValues property (values.flatMap fun value => ' ' :: value.text.toList) = values := by
  cases readable with
  | family text =>
      have isPlain : Value.IsPlainText text := plain _ (List.mem_cons_self ..)
      have quoted : (Value.string text).text.toList = '"' :: (text.toList ++ ['"']) := by
        simp only [Value.text, String.toList_append]
        rfl
      rw [List.flatMap_singleton, quoted, readValues, readFamily_quoted isPlain]
  | other noText proper =>
      have notFamily : property ≠ .fontFamily := by
        intro isFamily
        rw [isFamily] at noText
        cases noText
      rw [readValues_of_ne notFamily, Value.valueTokens_texts plain]
      simp only [noText, (filterMap_tokens proper plain).1, Bool.false_eq_true, if_false, if_true]
  | @font own proper free =>
      have ownPlain : ∀ value ∈ own, value.Plain := fun value member =>
        plain value (List.mem_append_left _ member)
      obtain ⟨values, noText⟩ := filterMap_tokens proper ownPlain
      have accepts : Property.font.acceptsText = true := rfl
      rw [readValues_of_ne (by decide), Value.valueTokens_texts plain]
      simp only [accepts, if_true, List.map_append, List.filterMap_append, values, noText]
      cases free with
      | none => simp
      | some text => simp [Value.token, Value.ofToken?, ValueToken.freeText?]

end StyledWidgets.Sheet
