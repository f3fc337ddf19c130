/-
Module: StyledWidgets.Proofs.ByteValues
Purpose: The reading of the values of a declaration from the bytes of its text: quoted texts, words,
  the arguments of calls and hexadecimal colors are all cut out between places of ASCII characters
  or at the end of the text.
Main exports: findByte, readHex, readValues, readHex_eq, readValues_eq
-/
import StyledWidgets.Proofs.ByteText
import StyledWidgets.Proofs.PrintedValues

namespace StyledWidgets.Bytes

open StyledWidgets.Text StyledWidgets.Sheet

/-! ### Reading byte by byte -/

/-- The first place of a byte from a place on. -/
def findByte (text : List Char) (start : Nat) (needle : Char) : Option Nat :=
  (((bytes text).drop (min start (size text))).findIdx? (· == needle)).map (· + start)

/-- The place where the word ends that goes on at a place. -/
def wordEnd (text : List Char) (i : Nat) : Option Nat :=
  if i < size text then do
    let b ← byteAt? text i
    if separatesValues b = true ∨ b = '(' then some i else wordEnd text (i + 1)
  else some i
termination_by size text - i

/-- A channel written by one hexadecimal digit. -/
def channelOfDigit? (piece : List Char) : Option UInt8 :=
  (piece.head?.bind hexValue?).map fun digit => UInt8.ofNat (digit * 17)

/-- Read the digits of a color: one for each of red, green and blue, or two for each channel. -/
def readHex (digits : List Char) : Option (Option Color) :=
  if (bytes digits).all fun b => (hexValue? b).isSome then
    if size digits = 6 ∨ size digits = 8 then some (Color.ofHex? digits)
    else if size digits = 3 then do
      let red ← slice? digits 0 1
      let green ← slice? digits 1 2
      let blue ← slice? digits 2 3
      some do
        some (Color.ofRgb (← channelOfDigit? red) (← channelOfDigit? green)
          (← channelOfDigit? blue))
    else some none
  else some none

/-- Read the value of a word. -/
def readWord (word : List Char) : Option (Option Value) :=
  match word with
  | '#' :: digits => (readHex digits).map fun color => color.map .color
  | _ => some (Value.ofWord? word)

/-- The token that starts with the byte `b` at place `i`, and the place behind it. -/
def valueTokenAt (text : List Char) (i : Nat) (b : Char) : Option (ValueToken × Nat) :=
  if b = '"' ∨ b = '\'' then do
    let stop := (findByte text (i + 1) b).getD (size text)
    let quoted ← slice? text (i + 1) stop
    some (.quoted quoted, min (stop + 1) (size text))
  else do
    let stop ← wordEnd text i
    let word ← slice? text i stop
    if byteAt? text stop = some '(' then do
      let close := (findByte text (stop + 1) ')').getD (size text)
      let arguments ← slice? text (stop + 1) close
      some (.call word arguments, min (close + 1) (size text))
    else some (.word word, stop)

/-- The values and the free text after a token, for a property that keeps free text or not. -/
def collect (keepsText : Bool) (values : List Value) (free : List (List Char)) :
    ValueToken → Option (List Value × List (List Char))
  | .quoted text => some (values, if keepsText then free ++ [text] else free)
  | .word text => do
      match ← readWord text with
      | some value => some (values ++ [value], free)
      | none => some (values, if keepsText then free ++ [text] else free)
  | .call name arguments => some (values ++ (Value.ofCall? name arguments).toList, free)

/-- Collect values and free text from a place on. -/
def collectFrom (text : List Char) (keepsText : Bool) (values : List Value)
    (free : List (List Char)) (i : Nat) : Option (List Value × List (List Char)) :=
  if i < size text then do
    let b ← byteAt? text i
    if separatesValues b then collectFrom text keepsText values free (i + 1)
    else do
      let (token, next) ← valueTokenAt text i b
      let (values, free) ← collect keepsText values free token
      if i < next then collectFrom text keepsText values free next else none
  else some (values, free)
termination_by size text - i

/-- Read the values of a declaration of a property. -/
def readValues (property : Property) (text : List Char) : Option (List Value) :=
  match property with
  | .fontFamily => some (readFamily text)
  | _ => do
      let (values, free) ← collectFrom text property.acceptsText [] [] 0
      some (if free = [] then values
        else values ++ [.string (String.ofList (List.intercalate [' '] free))])

/-! ### Bytes that are looked for -/

section Searching

variable {text front rest : List Char}

/-- A byte is found where the characters of the text have it first. -/
theorem findByte_eq {needle : Char} (ascii : needle.toNat < 0x80) (whole : text = front ++ rest) :
    (needle ∉ rest ∧ findByte text (size front) needle = none) ∨
      ∃ inner behind, rest = inner ++ needle :: behind ∧ needle ∉ inner ∧
        findByte text (size front) needle = some (size (front ++ inner)) := by
  have inside : min (size front) (size text) = (bytes front).length := by
    rw [whole, size_append]
    exact Nat.min_eq_left (Nat.le_add_right _ _)
  have search : findByte text (size front) needle =
      ((bytes rest).findIdx? (· == needle)).map (· + size front) := by
    rw [findByte, inside, whole, bytes_append, List.drop_left]
  have absent : ∀ {later}, needle ∉ later →
      (bytes later).findIdx? (· == needle) = none := by
    intro later absent
    rw [List.findIdx?_eq_none_iff]
    intro b member
    rw [beq_eq_false_iff_ne]
    rintro rfl
    exact absent ((mem_bytes ascii).mp member)
  by_cases member : needle ∈ rest
  · obtain ⟨inner, behind, rfl, first⟩ := List.eq_append_cons_of_mem member
    refine Or.inr ⟨inner, behind, rfl, first, ?_⟩
    have shape : bytes (inner ++ needle :: behind) =
        bytes inner ++ (needle :: bytes behind) := by
      rw [bytes_append, bytes_cons_ascii ascii]
    rw [search, shape, List.findIdx?_append, absent first, List.findIdx?_cons, beq_self_eq_true,
      if_pos rfl, size_append, size]
    simp only [Option.map_some, Option.none_or, Nat.zero_add, size, Nat.add_comm]
  · exact Or.inl ⟨member, by rw [search, absent member]; rfl⟩

theorem separatesValues_wide {b : Char} (wide : 0x80 ≤ b.toNat) : separatesValues b = false := by
  rw [separatesValues, isSpace_wide wide, Bool.false_or, beq_eq_false_iff_ne]
  exact ne_of_wide wide (by decide)

theorem wordEnd_past {i : Nat} (past : size text ≤ i) : wordEnd text i = some i := by
  rw [wordEnd, if_neg (Nat.not_lt.mpr past)]

theorem wordEnd_here {i : Nat} {b : Char} (here : byteAt? text i = some b) :
    wordEnd text i =
      if separatesValues b = true ∨ b = '(' then some i else wordEnd text (i + 1) := by
  rw [wordEnd, if_pos (lt_size_of_byteAt? here), here]
  rfl

theorem wordEnd_wide (i : Nat) (b : Char) (here : byteAt? text i = some b)
    (wide : 0x80 ≤ b.toNat) : wordEnd text i = wordEnd text (i + 1) := by
  have inside : ¬(separatesValues b = true ∨ b = '(') := by
    rw [separatesValues_wide wide, not_or]
    exact ⟨Bool.false_ne_true, ne_of_wide wide (by decide)⟩
  rw [wordEnd_here here, if_neg inside]

/-- A word ends in front of the text. -/
def EndsAt (rest : List Char) : Prop := ∀ c ∈ rest.head?, separatesValues c = true ∨ c = '('

/-- A word ends where a separator or a parenthesis stands in the characters of the text. -/
theorem wordEnd_eq (rest : List Char) :
    ∀ {front : List Char}, text = front ++ rest →
      ∃ word behind, rest = word ++ behind ∧ EndsAt behind ∧
        (∀ c ∈ word, separatesValues c = false ∧ c ≠ '(') ∧
          wordEnd text (size front) = some (size (front ++ word)) := by
  induction rest with
  | nil =>
      intro front whole
      have past : size text ≤ size front := Nat.le_of_eq (by rw [whole, List.append_nil])
      refine ⟨[], [], rfl, ?_, ?_, ?_⟩
      · intro c first
        cases first
      · intro c member
        cases member
      · rw [wordEnd_past past, List.append_nil]
  | cons c rest inductionHypothesis =>
      intro front whole
      have split : text = (front ++ [c]) ++ rest := by simp [whole]
      by_cases ends : separatesValues c = true ∨ c = '('
      · have small : c.toNat < 0x80 := by
          refine Nat.lt_of_not_le fun wide => ?_
          rw [separatesValues_wide wide] at ends
          exact ne_of_wide wide (by decide) (ends.resolve_left Bool.false_ne_true)
        have here := byteAt?_ascii whole small
        refine ⟨[], c :: rest, rfl, ?_, ?_, ?_⟩
        · intro d first
          cases first
          exact ends
        · intro d member
          cases member
        · rw [wordEnd_here here, if_pos ends, List.append_nil]
      · have further : wordEnd text (size front) = wordEnd text (size (front ++ [c])) := by
          apply through_char wordEnd_wide whole
          intro _ here
          rw [wordEnd_here here, if_neg ends]
        obtain ⟨word, behind, rfl, endsAt, inside, found⟩ := inductionHypothesis split
        refine ⟨c :: word, behind, rfl, endsAt, ?_, ?_⟩
        · rw [not_or, Bool.not_eq_true] at ends
          exact List.forall_mem_cons.mpr ⟨ends, inside⟩
        · rw [further, found, List.append_assoc]
          rfl

end Searching

/-! ### Colors -/

section Colors

variable {digits : List Char}

theorem hexValue?_wide (c : Char) (wide : 0x80 ≤ c.toNat) : (hexValue? c).isSome = false := by
  have above : ∀ d : Char, d.toNat < 0x80 → ¬c ≤ d := by
    intro d ascii below
    exact absurd (Nat.le_trans wide below) (Nat.not_le.mpr ascii)
  simp [hexValue?, above '9' (by decide), above 'f' (by decide), above 'F' (by decide)]

/-- Digits are read one by one. -/
theorem mapM_hexValue? (digits : List Char) :
    digits.mapM hexValue? =
      if digits.all fun c => (hexValue? c).isSome then
        some (digits.map fun c => (hexValue? c).getD 0)
      else none := by
  induction digits with
  | nil => rfl
  | cons c rest inductionHypothesis =>
      rw [List.mapM_cons, inductionHypothesis, List.all_cons, List.map_cons]
      cases hexValue? c with
      | none => rfl
      | some value =>
          cases rest.all fun c => (hexValue? c).isSome <;> rfl

/-- A color has three, six or eight digits. -/
theorem ofHex?_eq_none (short : digits.length ≠ 3) (middle : digits.length ≠ 6)
    (long : digits.length ≠ 8) : Color.ofHex? digits = none := by
  have counted : ∀ {values}, digits.mapM hexValue? = some values →
      values.length = digits.length := by
    intro values read
    rw [mapM_hexValue?] at read
    split at read
    · rw [← Option.some_inj.mp read, List.length_map]
    · cases read
  unfold Color.ofHex?
  split
  case h_1 read => exact absurd (counted read).symm short
  case h_2 read => exact absurd (counted read).symm middle
  case h_3 read => exact absurd (counted read).symm long
  case h_4 => rfl

theorem size_eq_length (ascii : ∀ c ∈ digits, c.toNat < 0x80) : size digits = digits.length := by
  induction digits with
  | nil => rfl
  | cons c rest inductionHypothesis =>
      rw [List.forall_mem_cons] at ascii
      rw [size_cons, utf8Size_ascii ascii.1, inductionHypothesis ascii.2, List.length_cons,
        Nat.add_comm]

theorem channelOfDigit?_eq (c : Char) :
    channelOfDigit? [c] = (hexValue? c).map fun digit => Color.channelOf digit digit := by
  have same : ∀ digit, digit * 17 = digit * 16 + digit := by
    intro digit
    omega
  simp only [channelOfDigit?, List.head?_cons, Option.bind_some, Color.channelOf, same]

/-- A color of hexadecimal digits is read from bytes as from characters. -/
theorem readHex_eq (digits : List Char) : readHex digits = some (Color.ofHex? digits) := by
  rw [readHex, all_bytes hexValue?_wide]
  split
  case isFalse foreign =>
    rw [Color.ofHex?, mapM_hexValue?, if_neg foreign]
  case isTrue isHex =>
    have ascii : ∀ c ∈ digits, c.toNat < 0x80 := by
      intro c member
      refine Nat.lt_of_not_le fun wide => ?_
      have digit := List.all_eq_true.mp isHex c member
      rw [hexValue?_wide c wide] at digit
      cases digit
    have counted := size_eq_length ascii
    rw [counted]
    split
    case isTrue => rfl
    case isFalse other =>
      split
      case isTrue short =>
        obtain ⟨r, g, b, rfl⟩ := List.length_eq_three.mp short
        simp only [List.mem_cons, List.not_mem_nil, or_false, forall_eq_or_imp, forall_eq] at ascii
        have first : size [r] = 1 := size_eq_length (by simpa using ascii.1)
        have second : size [r, g] = 2 := size_eq_length (by simpa using ⟨ascii.1, ascii.2.1⟩)
        have third : size [r, g, b] = 3 := counted
        have red := slice?_piece [] [r] [g, b]
        have green := slice?_piece [r] [g] [b]
        have blue := slice?_piece [r, g] [b] []
        simp only [List.nil_append, List.cons_append, size_nil, first, second, third]
          at red green blue
        have read := mapM_hexValue? [r, g, b]
        rw [if_pos isHex] at read
        simp only [List.all_cons, List.all_nil, Bool.and_true, Bool.and_eq_true,
          Option.isSome_iff_exists] at isHex
        obtain ⟨⟨r', isRed⟩, ⟨g', isGreen⟩, b', isBlue⟩ := isHex
        rw [Color.ofHex?, read, red, green, blue]
        simp only [Option.bind_eq_bind, Option.bind_some, channelOfDigit?_eq, isRed, isGreen,
          isBlue, Option.map_some, List.map_cons, List.map_nil, Option.getD_some]
      case isFalse noShort =>
        rw [not_or] at other
        rw [ofHex?_eq_none noShort other.1 other.2]

theorem readWord_eq (word : List Char) : readWord word = some (Value.ofWord? word) := by
  unfold readWord
  split
  case h_1 digits =>
    rw [readHex_eq]
    rfl
  case h_2 => rfl

end Colors

/-! ### Tokens -/

/-- The token is the first thing that the text `rest` says, and it takes the text `looked` of it. -/
structure StartsValue (rest : List Char) (token : ValueToken) (looked behind : List Char) :
    Prop where
  whole : rest = looked ++ behind
  filled : looked ≠ []
  /-- The tokens of the text are this one and those of what is behind it. -/
  scans : scanValues .between rest = token :: scanValues .between behind

section Tokens

variable {text front : List Char} {c : Char} {rest : List Char}

/-- What is looked for up to the byte `needle` is cut out up to it, or else up to the end. -/
theorem slice?_findByte {needle : Char} (ascii : needle.toNat < 0x80)
    (whole : text = front ++ rest) :
    ∃ piece looked behind, rest = looked ++ behind ∧ needle ∉ piece ∧
      (looked = piece ++ [needle] ∨ looked = piece ∧ behind = []) ∧
        slice? text (size front) ((findByte text (size front) needle).getD (size text)) =
          some piece ∧
        min ((findByte text (size front) needle).getD (size text) + 1) (size text) =
          size (front ++ looked) := by
  rcases findByte_eq ascii whole with ⟨noEnd, absent⟩ | ⟨inner, behind, rfl, first, found⟩
  · refine ⟨rest, rest, [], (List.append_nil _).symm, noEnd, Or.inr ⟨rfl, rfl⟩, ?_, ?_⟩
    · rw [absent]
      exact slice?_rest whole
    · rw [absent, ← whole]
      exact Nat.min_eq_right (Nat.le_succ _)
  · refine ⟨inner, inner ++ [needle], behind, by simp, first, Or.inl rfl, ?_, ?_⟩
    · rw [found, whole]
      exact slice?_piece front inner _
    · have split : text = (front ++ (inner ++ [needle])) ++ behind := by simp [whole]
      have inside : size (front ++ (inner ++ [needle])) ≤ size text := by
        rw [split]
        exact Nat.le_of_add_right_le (Nat.le_of_eq size_append.symm)
      rw [found, Option.getD_some, ← size_concat ascii, List.append_assoc]
      exact Nat.min_eq_left inside

/-- A quoted text. -/
theorem startsValue_quoted {quote : Char} {piece looked behind : List Char}
    (isQuote : quote = '"' ∨ quote = '\'') (noEnd : quote ∉ piece)
    (ends : looked = piece ++ [quote] ∨ looked = piece ∧ behind = []) :
    StartsValue (quote :: (looked ++ behind)) (.quoted piece) (quote :: looked) behind where
  whole := rfl
  filled := List.cons_ne_nil _ _
  scans := by
    have opened : scanValues .between (quote :: (looked ++ behind)) =
        scanValues (.inQuotes quote []) (looked ++ behind) := by
      rcases isQuote with rfl | rfl <;> rfl
    rw [opened]
    rcases ends with rfl | ⟨rfl, rfl⟩
    · rw [List.append_assoc, scanValues_inQuotes noEnd]
      exact scanValues_endQuotes quote piece
    · rw [scanValues_inQuotes noEnd]
      rfl

/-- Between tokens a word begins with everything but separators and quotes. -/
theorem scanValues_start (inside : separatesValues c = false) (noQuote : ¬(c = '"' ∨ c = '\'')) :
    scanValues .between (c :: rest) = scanValues (.inWord []) (c :: rest) := by
  simp only [scanValues, inside, noQuote, Bool.false_eq_true, if_false]
  rfl

/-- A word with a separator or the end of the text behind it. -/
theorem startsValue_word {word behind : List Char}
    (start : scanValues .between (word ++ behind) = scanValues (.inWord []) (word ++ behind))
    (filled : word ≠ []) (inside : ∀ c ∈ word, separatesValues c = false ∧ c ≠ '(')
    (ends : EndsWord behind) : StartsValue (word ++ behind) (.word word) word behind where
  whole := rfl
  filled := filled
  scans := by
    rw [start, scanValues_inWord inside, scanValues_endWord ends]
    rfl

/-- A word with the arguments of a call behind it; the word may be missing. -/
theorem startsValue_call {word piece looked behind : List Char}
    (start : scanValues .between (word ++ '(' :: (looked ++ behind)) =
      scanValues (.inWord []) (word ++ '(' :: (looked ++ behind)))
    (inside : ∀ c ∈ word, separatesValues c = false ∧ c ≠ '(') (noEnd : ')' ∉ piece)
    (ends : looked = piece ++ [')'] ∨ looked = piece ∧ behind = []) :
    StartsValue (word ++ '(' :: (looked ++ behind)) (.call word piece) (word ++ '(' :: looked)
      behind where
  whole := by simp
  filled := by simp
  scans := by
    have opened : scanValues (.inWord word) ('(' :: (looked ++ behind)) =
        scanValues (.inCall word []) (looked ++ behind) := rfl
    rw [start, scanValues_inWord inside, List.nil_append, opened]
    rcases ends with rfl | ⟨rfl, rfl⟩
    · rw [List.append_assoc, scanValues_inCall noEnd]
      exact scanValues_endCall word piece
    · rw [scanValues_inCall noEnd]
      rfl

theorem valueTokenAt_quote {quote : Char} (isQuote : quote = '"' ∨ quote = '\'')
    (whole : text = front ++ quote :: rest) :
    ∃ token looked behind, StartsValue (quote :: rest) token looked behind ∧
      valueTokenAt text (size front) quote = some (token, size (front ++ looked)) := by
  have ascii : quote.toNat < 0x80 := by rcases isQuote with rfl | rfl <;> decide
  have split : text = (front ++ [quote]) ++ rest := by simp [whole]
  obtain ⟨piece, looked, behind, rfl, noEnd, ends, isPiece, next⟩ := slice?_findByte ascii split
  rw [size_concat ascii] at isPiece next
  refine ⟨_, _, _, startsValue_quoted isQuote noEnd ends, ?_⟩
  rw [valueTokenAt, if_pos isQuote]
  simp only [isPiece, next, Option.bind_eq_bind, Option.bind_some, List.append_assoc,
    List.singleton_append]

/-- What begins with neither a separator nor a quote is a word or a call. -/
theorem valueTokenAt_word {b : Char} (inside : separatesValues c = false)
    (noQuote : ¬(c = '"' ∨ c = '\'')) (noQuoteByte : ¬(b = '"' ∨ b = '\''))
    (whole : text = front ++ c :: rest) :
    ∃ token looked behind, StartsValue (c :: rest) token looked behind ∧
      valueTokenAt text (size front) b = some (token, size (front ++ looked)) := by
  have start : scanValues .between (c :: rest) = scanValues (.inWord []) (c :: rest) :=
    scanValues_start inside noQuote
  obtain ⟨word, behind, shape, endsAt, insideAll, found⟩ := wordEnd_eq (c :: rest) whole
  rw [shape] at whole start ⊢
  have isWord : slice? text (size front) (size (front ++ word)) = some word :=
    whole ▸ slice?_piece front word behind
  have split : text = (front ++ word) ++ behind := by rw [whole, List.append_assoc]
  by_cases call : behind.head? = some '('
  · have ascii : '('.toNat < 0x80 := by decide
    have parenthesis := (byteAt?_eq_ascii split ascii).mpr call
    obtain ⟨inner, rfl⟩ := List.head?_eq_some_iff.mp call
    have inCall : text = (front ++ word ++ ['(']) ++ inner := by simp [split]
    have closing : ')'.toNat < 0x80 := by decide
    obtain ⟨piece, looked, later, rfl, noEnd, ends, isPiece, next⟩ :=
      slice?_findByte closing inCall
    rw [size_concat ascii] at isPiece next
    refine ⟨_, _, _, startsValue_call start insideAll noEnd ends, ?_⟩
    rw [valueTokenAt, if_neg noQuoteByte]
    simp only [found, isWord, parenthesis, isPiece, next, if_true, Option.bind_eq_bind,
      Option.bind_some, List.append_assoc, List.singleton_append]
  · have noCall : byteAt? text (size (front ++ word)) ≠ some '(' := by
      rw [Ne, byteAt?_eq_ascii split (by decide)]
      exact call
    have filled : word ≠ [] := by
      rintro rfl
      rw [List.nil_append] at shape
      subst shape
      rcases endsAt c rfl with separates | isCall
      · rw [inside] at separates
        cases separates
      · exact call (congrArg some isCall)
    have ends : EndsWord behind := by
      intro d first
      refine (endsAt d first).resolve_right ?_
      rintro rfl
      exact call first
    refine ⟨_, _, _, startsValue_word start filled insideAll ends, ?_⟩
    rw [valueTokenAt, if_neg noQuoteByte]
    simp only [found, isWord, noCall, if_false, Option.bind_eq_bind, Option.bind_some]

/-- A token is read from the bytes of a text as from its characters. -/
theorem valueTokenAt_eq (inside : separatesValues c = false) (whole : text = front ++ c :: rest) :
    ∃ b, byteAt? text (size front) = some b ∧ separatesValues b = false ∧
      ∃ token looked behind, StartsValue (c :: rest) token looked behind ∧
        valueTokenAt text (size front) b = some (token, size (front ++ looked)) := by
  have noQuote : ∀ {d : Char}, 0x80 ≤ d.toNat → ¬(d = '"' ∨ d = '\'') := by
    intro d wide
    rw [not_or]
    exact ⟨ne_of_wide wide (by decide), ne_of_wide wide (by decide)⟩
  obtain ⟨b, here, ⟨rfl, -⟩ | ⟨isWide, wide⟩⟩ := byteAt?_first whole
  · by_cases isQuote : b = '"' ∨ b = '\''
    · exact ⟨b, here, inside, valueTokenAt_quote isQuote whole⟩
    · exact ⟨b, here, inside, valueTokenAt_word inside isQuote isQuote whole⟩
  · exact ⟨b, here, separatesValues_wide isWide,
      valueTokenAt_word inside (noQuote wide) (noQuote isWide) whole⟩

end Tokens

/-! ### Values -/

section Values

variable {text : List Char} {keepsText : Bool}

/-- What tokens add to the values and to the free text. -/
theorem collect_eq (values : List Value) (free : List (List Char)) (token : ValueToken) :
    collect keepsText values free token =
      some (values ++ (Value.ofToken? token).toList,
        free ++ if keepsText then token.freeText?.toList else []) := by
  cases token with
  | quoted text => cases keepsText <;> simp [collect, Value.ofToken?, ValueToken.freeText?]
  | call name arguments =>
      cases keepsText <;> simp [collect, Value.ofToken?, ValueToken.freeText?]
  | word text =>
      rw [collect, readWord_eq]
      cases read : Value.ofWord? text <;> cases keepsText <;>
        simp [Value.ofToken?, ValueToken.freeText?, read]

theorem collectFrom_past {values : List Value} {free : List (List Char)} {i : Nat}
    (past : size text ≤ i) :
    collectFrom text keepsText values free i = some (values, free) := by
  rw [collectFrom, if_neg (Nat.not_lt.mpr past)]

theorem collectFrom_separator {values : List Value} {free : List (List Char)} {i : Nat} {b : Char}
    (here : byteAt? text i = some b) (separates : separatesValues b = true) :
    collectFrom text keepsText values free i = collectFrom text keepsText values free (i + 1) := by
  rw [collectFrom, if_pos (lt_size_of_byteAt? here), here]
  simp only [Option.bind_eq_bind, Option.bind_some, separates, if_true]

theorem collectFrom_token {values : List Value} {free : List (List Char)} {i next : Nat} {b : Char}
    {token : ValueToken} (here : byteAt? text i = some b) (inside : separatesValues b = false)
    (isToken : valueTokenAt text i b = some (token, next)) (further : i < next) :
    collectFrom text keepsText values free i =
      collectFrom text keepsText (values ++ (Value.ofToken? token).toList)
        (free ++ if keepsText then token.freeText?.toList else []) next := by
  rw [collectFrom, if_pos (lt_size_of_byteAt? here), here]
  simp only [Option.bind_eq_bind, Option.bind_some, inside, isToken, collect_eq, further,
    Bool.false_eq_true, if_true, if_false]

theorem filterMap_cons_toList {α β : Type} (f : α → Option β) (first : α) (rest : List α) :
    (first :: rest).filterMap f = (f first).toList ++ rest.filterMap f := by
  rw [List.filterMap_cons]
  cases f first <;> rfl

/-- All tokens of the characters of a text are collected. -/
theorem collectFrom_eq (rest : List Char) :
    ∀ {front : List Char} (values : List Value) (free : List (List Char)), text = front ++ rest →
      collectFrom text keepsText values free (size front) =
        some (values ++ (scanValues .between rest).filterMap Value.ofToken?,
          free ++ if keepsText then
            (scanValues .between rest).filterMap ValueToken.freeText? else []) := by
  induction long : rest.length using Nat.strongRecOn generalizing rest with
  | ind n inductionHypothesis =>
      intro front values free whole
      cases rest with
      | nil =>
          rw [List.append_nil] at whole
          have noTokens : scanValues .between [] = [] := rfl
          rw [collectFrom_past (Nat.le_of_eq (congrArg size whole)), noTokens]
          simp
      | cons c rest =>
          rw [List.length_cons] at long
          cases separates : separatesValues c with
          | true =>
              have small : c.toNat < 0x80 := by
                refine Nat.lt_of_not_le fun wide => ?_
                rw [separatesValues_wide wide] at separates
                cases separates
              have here := byteAt?_ascii whole small
              have split : text = (front ++ [c]) ++ rest := by simp [whole]
              rw [collectFrom_separator here separates, ← size_concat small,
                inductionHypothesis rest.length (by omega) rest rfl values free split]
              simp only [scanValues, separates, if_true]
          | false =>
              obtain ⟨b, here, inside, token, looked, behind, starts, read⟩ :=
                valueTokenAt_eq separates whole
              have split : text = (front ++ looked) ++ behind := by
                rw [whole, starts.whole, List.append_assoc]
              have shorter : behind.length < n := by
                rw [← long, ← List.length_cons (a := c), starts.whole, List.length_append]
                exact Nat.lt_add_of_pos_left (List.length_pos_iff.mpr starts.filled)
              rw [collectFrom_token here inside read (size_lt_append starts.filled),
                inductionHypothesis _ shorter behind rfl _ _ split, starts.scans]
              rw [filterMap_cons_toList, filterMap_cons_toList]
              cases keepsText <;> simp

/-- The values are those of the characters of the text. -/
theorem readValues_eq (property : Property) (text : List Char) :
    readValues property text = some (Sheet.readValues property text) := by
  unfold readValues
  split
  case h_1 => rfl
  case h_2 other =>
    have whole : text = [] ++ text := rfl
    have collected := @collectFrom_eq text property.acceptsText text [] [] [] whole
    rw [size_nil] at collected
    rw [collected, readValues_of_ne other]
    rfl

end Values

end StyledWidgets.Bytes
