/-
Module: StyledWidgets.Proofs.LenientNumbers
Purpose: The number at the start of a text is exact. It is the value of the longest sign with digits
  behind the blanks, however many digits there are, brought into the range of 32 bits once at its
  end: holding the running value at the cap makes no difference, and with it no running value leaves
  64 bits.
Main exports: IsNumeral, numeralValue, LeadingNumeral, LeadingNumeral.unique, Bytes.lenientInt?,
  Bytes.lenientInt?_eq, lenientInt_exact
-/
import Mathlib.Data.List.TakeWhile
import StyledWidgets.Proofs.ByteText
import StyledWidgets.Proofs.PrintedValues

namespace StyledWidgets.Text

open StyledWidgets.Sheet

/-! ### Numerals at the start of a text -/

/-- A sign or none, and digits behind it, of which there may be none. -/
def IsNumeral (text : List Char) : Prop :=
  ∃ sign digits, text = sign ++ digits ∧ sign ∈ [[], ['+'], ['-']] ∧
    ∀ c ∈ digits, c.isDigit = true

/-- The whole number that a numeral denotes; without digits it is zero. -/
def numeralValue : List Char → Int
  | '-' :: digits => -(Nat.ofDigitChars 10 digits 0 : Int)
  | '+' :: digits => Nat.ofDigitChars 10 digits 0
  | digits => Nat.ofDigitChars 10 digits 0

/-- The numeral is the longest one at the start of the text, behind all of its blanks. -/
def LeadingNumeral (text numeral : List Char) : Prop :=
  ∃ blanks rest, text = blanks ++ (numeral ++ rest) ∧ (∀ c ∈ blanks, isBlank c = true) ∧
    (∀ c ∈ (numeral ++ rest).head?, isBlank c = false) ∧ IsNumeral numeral ∧
      ∀ other, IsNumeral other → other <+: numeral ++ rest → other <+: numeral

theorem trimStart_append {blanks body : List Char} (blank : ∀ c ∈ blanks, isBlank c = true)
    (shown : ∀ c ∈ body.head?, isBlank c = false) : trimStart (blanks ++ body) = body := by
  rw [trimStart, List.dropWhile_append_of_pos blank]
  cases body with
  | nil => rfl
  | cons c rest => exact List.dropWhile_cons_of_neg (Bool.eq_false_iff.mp (shown c rfl))

/-- A text has one leading numeral. -/
theorem LeadingNumeral.unique {text one other : List Char} (leads : LeadingNumeral text one)
    (leadsToo : LeadingNumeral text other) : one = other := by
  obtain ⟨blanks, rest, rfl, blank, shown, isNumeral, longest⟩ := leads
  obtain ⟨blanksToo, restToo, whole, blankToo, shownToo, isNumeralToo, longestToo⟩ := leadsToo
  have body : one ++ rest = other ++ restToo := by
    rw [← trimStart_append blank shown, whole, trimStart_append blankToo shownToo]
  have shorter := longestToo one isNumeral (body ▸ List.prefix_append ..)
  have longer := longest other isNumeralToo (body ▸ List.prefix_append ..)
  exact shorter.eq_of_length_le longer.length_le

section Longest

variable {digits rest : List Char} (ends : ∀ c ∈ rest.head?, c.isDigit = false)

include ends

/-- No longer run of digits begins where one ends. -/
theorem prefix_digits {run : List Char} (isRun : ∀ c ∈ run, c.isDigit = true)
    (within : run <+: digits ++ rest) : run <+: digits := by
  rcases List.prefix_or_prefix_of_prefix within (List.prefix_append digits rest) with
    shorter | ⟨further, rfl⟩
  · exact shorter
  · cases further with
    | nil => simp
    | cons c later =>
        rw [List.prefix_append_right_inj] at within
        obtain ⟨behind, rfl⟩ := within
        have digit := isRun c (by simp)
        rw [ends c rfl] at digit
        cases digit

/-- Digits that follow no sign are the longest numeral. -/
theorem longest_unsigned (unsigned : ∀ c ∈ (digits ++ rest).head?, c ≠ '+' ∧ c ≠ '-')
    {other : List Char} (isNumeral : IsNumeral other) (within : other <+: digits ++ rest) :
    other <+: digits := by
  obtain ⟨sign, run, rfl, isSign, isRun⟩ := isNumeral
  have signed : ∀ {c}, c :: run <+: digits ++ rest → c ≠ '+' ∧ c ≠ '-' := by
    rintro c ⟨behind, whole⟩
    exact unsigned c (by rw [← whole]; rfl)
  simp only [List.mem_cons, List.not_mem_nil, or_false] at isSign
  rcases isSign with rfl | rfl | rfl
  · exact prefix_digits ends isRun within
  · exact absurd rfl (signed within).1
  · exact absurd rfl (signed within).2

/-- A sign and the digits behind it are the longest numeral. -/
theorem longest_signed {mark : Char} (noDigit : mark.isDigit = false) {other : List Char}
    (isNumeral : IsNumeral other) (within : other <+: mark :: digits ++ rest) :
    other <+: mark :: digits := by
  obtain ⟨sign, run, rfl, isSign, isRun⟩ := isNumeral
  have signed : ∀ {c}, c :: run <+: mark :: (digits ++ rest) → c :: run <+: mark :: digits := by
    intro c within
    obtain ⟨same, later⟩ := List.cons_prefix_cons.mp within
    exact List.cons_prefix_cons.mpr ⟨same, prefix_digits ends isRun later⟩
  simp only [List.mem_cons, List.not_mem_nil, or_false] at isSign
  rcases isSign with rfl | rfl | rfl
  · cases run with
    | nil => exact List.nil_prefix
    | cons c later =>
        obtain ⟨rfl, -⟩ := List.cons_prefix_cons.mp within
        rw [isRun c (List.mem_cons_self ..)] at noDigit
        cases noDigit
  · exact signed within
  · exact signed within

end Longest

theorem not_isDigit_head?_dropWhile (text : List Char) :
    ∀ c ∈ (text.dropWhile Char.isDigit).head?, c.isDigit = false := by
  intro c head
  have ends := List.head?_dropWhile_not Char.isDigit text
  rw [head] at ends
  exact ends

/-- The value of digits that are held at the cap, brought into the range of 32 bits. -/
theorem clampInt_cappedValue (digits : List Char) :
    clampInt (cappedValue digits) =
        max (-2147483648) (min 2147483647 (Nat.ofDigitChars 10 digits 0 : Int)) ∧
      clampInt (-(cappedValue digits : Int)) =
        max (-2147483648) (min 2147483647 (-(Nat.ofDigitChars 10 digits 0 : Int))) := by
  have cap : intCap = 2147483648 := by decide
  rw [cappedValue_eq, clampInt, clampInt, cap]
  omega

/-- A numeral that is the longest one behind the blanks leads the text. -/
theorem leadingNumeral_of_trimStart {text numeral rest : List Char}
    (body : trimStart text = numeral ++ rest) (isNumeral : IsNumeral numeral)
    (longest : ∀ other, IsNumeral other → other <+: numeral ++ rest → other <+: numeral) :
    LeadingNumeral text numeral := by
  refine ⟨text.takeWhile isBlank, rest, ?_, fun c member => ?_, fun c head => ?_, isNumeral,
    longest⟩
  · rw [← body]
    exact List.takeWhile_append_dropWhile.symm
  · exact (List.mem_takeWhile_imp member)
  · have shown := List.head?_dropWhile_not isBlank text
    rw [← body] at head
    rw [show text.dropWhile isBlank = trimStart text from rfl, head] at shown
    exact shown

/-- Every text has a leading numeral, and what is read is its value, brought into range. -/
theorem exists_leadingNumeral (text : List Char) :
    ∃ numeral, LeadingNumeral text numeral ∧
      lenientInt text = max (-2147483648) (min 2147483647 (numeralValue numeral)) := by
  have run : ∀ body : List Char, ∀ c ∈ body.takeWhile Char.isDigit, c.isDigit = true :=
    fun _ _ member => List.mem_takeWhile_imp member
  have whole : ∀ body : List Char,
      body.takeWhile Char.isDigit ++ body.dropWhile Char.isDigit = body :=
    fun _ => List.takeWhile_append_dropWhile
  rw [lenientInt]
  split
  case h_1 digits body =>
    refine ⟨'-' :: digits.takeWhile Char.isDigit, ?_, (clampInt_cappedValue _).2⟩
    refine leadingNumeral_of_trimStart (?_ : _ = _ ++ digits.dropWhile Char.isDigit) ?_ ?_
    · rw [body, List.cons_append, whole]
    · exact ⟨['-'], _, rfl, by simp, run digits⟩
    · exact fun other isNumeral within =>
        longest_signed (not_isDigit_head?_dropWhile digits) (by decide) isNumeral within
  case h_2 digits body =>
    refine ⟨'+' :: digits.takeWhile Char.isDigit, ?_, (clampInt_cappedValue _).1⟩
    refine leadingNumeral_of_trimStart (?_ : _ = _ ++ digits.dropWhile Char.isDigit) ?_ ?_
    · rw [body, List.cons_append, whole]
    · exact ⟨['+'], _, rfl, by simp, run digits⟩
    · exact fun other isNumeral within =>
        longest_signed (not_isDigit_head?_dropWhile digits) (by decide) isNumeral within
  case h_3 digits noMinus noPlus =>
    have unsigned : ∀ c ∈ (trimStart text).head?, c ≠ '+' ∧ c ≠ '-' := by
      intro c head
      obtain ⟨later, shape⟩ := List.head?_eq_some_iff.mp head
      refine ⟨?_, ?_⟩ <;> rintro rfl
      · exact noPlus later shape
      · exact noMinus later shape
    refine ⟨(trimStart text).takeWhile Char.isDigit, ?_, ?_⟩
    · refine leadingNumeral_of_trimStart
        (?_ : _ = _ ++ (trimStart text).dropWhile Char.isDigit) ?_ ?_
      · exact (whole _).symm
      · exact ⟨[], _, rfl, by simp, run _⟩
      · exact fun other isNumeral within =>
          longest_unsigned (not_isDigit_head?_dropWhile _) (by rwa [whole]) isNumeral within
    · have value : numeralValue ((trimStart text).takeWhile Char.isDigit) =
          Nat.ofDigitChars 10 ((trimStart text).takeWhile Char.isDigit) 0 := by
        rw [numeralValue.eq_def]
        split
        case h_1 later shape =>
          cases run (trimStart text) '-' (by rw [shape]; exact List.mem_cons_self ..)
        case h_2 later shape =>
          cases run (trimStart text) '+' (by rw [shape]; exact List.mem_cons_self ..)
        case h_3 => rfl
      rw [value]
      exact (clampInt_cappedValue _).1

end StyledWidgets.Text

namespace StyledWidgets.Bytes

open StyledWidgets.Text StyledWidgets.Sheet

/-! ### The number in machine words -/

/-- A signed word of 64 bits; there is none for a value out of its range. -/
def word? (value : Int) : Option Int :=
  if -9223372036854775808 ≤ value ∧ value ≤ 9223372036854775807 then some value else none

/-- The value of the digits at the start of bytes, worked out in words and held at the cap. -/
def digitsValue? : List Char → Int → Option Int
  | [], value => some value
  | byte :: later, value =>
      if byte.isDigit then do
        let shifted ← word? (value * 10)
        let grown ← word? (shifted + digitValue byte)
        digitsValue? later (min grown intCap)
      else some value

/-- The number at the start of the bytes of a text, unless some word overflows. -/
def lenientInt? (text : List Char) : Option Int :=
  match bytes (trimStart text) with
  | '-' :: later => do
      let value ← digitsValue? later 0
      let negated ← word? (-value)
      return clampInt negated
  | '+' :: later => do return clampInt (← digitsValue? later 0)
  | later => do return clampInt (← digitsValue? later 0)

theorem word?_eq_some {value : Int}
    (fits : -(intCap : Int) * 10 ≤ value ∧ value < intCap * 10 + 10) :
    word? value = some value := by
  have cap : (intCap : Int) = 2147483648 := by decide
  rw [cap] at fits
  exact if_pos (by omega)

/-- No word overflows on the way through any number of digits. -/
theorem digitsValue?_eq (digits : List Char) :
    ∀ value ≤ intCap, digitsValue? digits value =
      some (((digits.takeWhile Char.isDigit).foldl
        (fun value c => min (value * 10 + digitValue c) intCap) value : Nat) : Int) := by
  induction digits with
  | nil => exact fun _ _ => rfl
  | cons c later inductionHypothesis =>
      intro value small
      rw [digitsValue?]
      cases digit : c.isDigit with
      | false => simp [digit]
      | true =>
          have range := toNat_of_isDigit digit
          have less : digitValue c < 10 := by
            have zero : '0'.toNat = 48 := rfl
            rw [digitValue, zero]
            omega
          -- Below the cap, ten times the value and one more digit stay far inside a word.
          have held : min ((value : Int) * 10 + digitValue c) intCap =
              (min (value * 10 + digitValue c) intCap : Nat) := by omega
          rw [if_pos rfl, word?_eq_some (by omega), Option.bind_eq_bind, Option.bind_some,
            word?_eq_some (by omega), Option.bind_some, held,
            inductionHypothesis _ (Nat.min_le_right ..), List.takeWhile_cons_of_pos digit,
            List.foldl_cons]

/-- The bytes of a text begin with the byte of an ASCII character, or with one beyond ASCII. -/
theorem bytes_cons (c : Char) (rest : List Char) :
    bytes (c :: rest) = c :: bytes rest ∨
      ∃ byte later, bytes (c :: rest) = byte :: later ∧ 0x80 ≤ byte.toNat ∧ 0x80 ≤ c.toNat := by
  by_cases small : c.toNat < 0x80
  · exact Or.inl (bytes_cons_ascii small)
  · have wide : 0x80 ≤ c.toNat := Nat.le_of_not_lt small
    obtain ⟨byte, later, shape⟩ := List.exists_cons_of_ne_nil (bytes_singleton_ne_nil (c := c))
    refine Or.inr ⟨byte, later ++ bytes rest, ?_,
      bytes_wide wide byte (shape ▸ List.mem_cons_self ..), wide⟩
    rw [← List.singleton_append, bytes_append, shape, List.cons_append]

theorem not_isDigit_of_wide {c : Char} (wide : 0x80 ≤ c.toNat) : c.isDigit = false := by
  refine Bool.eq_false_iff.mpr fun digit => ?_
  have range := toNat_of_isDigit digit
  omega

/-- The digits at the start of a text are the digits at the start of its bytes. -/
theorem takeWhile_isDigit_bytes (text : List Char) :
    (bytes text).takeWhile Char.isDigit = text.takeWhile Char.isDigit := by
  induction text with
  | nil => rfl
  | cons c rest inductionHypothesis =>
      rcases bytes_cons c rest with same | ⟨byte, later, shape, wide, wideToo⟩
      · rw [same, List.takeWhile_cons, List.takeWhile_cons, inductionHypothesis]
      · simp only [shape, List.takeWhile_cons, not_isDigit_of_wide wide,
          not_isDigit_of_wide wideToo, Bool.false_eq_true, if_false]

theorem digitsValue?_bytes (text : List Char) :
    digitsValue? (bytes text) 0 = some (cappedValue (text.takeWhile Char.isDigit) : Int) := by
  rw [← takeWhile_isDigit_bytes]
  exact digitsValue?_eq (bytes text) 0 (Nat.zero_le _)

/-- In machine words the same number is read, and none of them overflows. -/
theorem lenientInt?_eq (text : List Char) : lenientInt? text = some (lenientInt text) := by
  have minusByte : ∀ rest, bytes ('-' :: rest) = '-' :: bytes rest := fun _ =>
    bytes_cons_ascii (by decide)
  have plusByte : ∀ rest, bytes ('+' :: rest) = '+' :: bytes rest := fun _ =>
    bytes_cons_ascii (by decide)
  rw [lenientInt?, lenientInt]
  cases trimStart text with
  | nil => rfl
  | cons c rest =>
      by_cases minus : c = '-'
      · subst minus
        have negated : word? (-(cappedValue (rest.takeWhile Char.isDigit) : Int)) =
            some (-(cappedValue (rest.takeWhile Char.isDigit) : Int)) := by
          rw [cappedValue_eq]
          exact word?_eq_some (by omega)
        simp only [minusByte, digitsValue?_bytes, Option.bind_eq_bind,
          Option.bind_some, negated, Option.pure_def]
      · by_cases plus : c = '+'
        · subst plus
          simp only [plusByte, digitsValue?_bytes, Option.bind_eq_bind,
            Option.bind_some, Option.pure_def]
        · have unsigned : ∀ {byte later}, bytes (c :: rest) = byte :: later →
              byte ≠ '-' ∧ byte ≠ '+' := by
            intro byte later shape
            rcases bytes_cons c rest with same | ⟨first, _, shapeToo, wide, -⟩
            · rw [same, List.cons.injEq] at shape
              exact ⟨shape.1 ▸ minus, shape.1 ▸ plus⟩
            · rw [shapeToo, List.cons.injEq] at shape
              rw [shape.1] at wide
              refine ⟨?_, ?_⟩ <;> rintro rfl <;> exact absurd wide (by decide)
          split
          case h_1 isMinus => exact absurd rfl (unsigned isMinus).1
          case h_2 isPlus => exact absurd rfl (unsigned isPlus).2
          case h_3 =>
            rw [digitsValue?_bytes, Option.bind_eq_bind, Option.bind_some, Option.pure_def]
            split
            case h_1 isMinus => exact absurd (List.cons.inj isMinus).1 minus
            case h_2 isPlus => exact absurd (List.cons.inj isPlus).1 plus
            case h_3 => rfl

end StyledWidgets.Bytes

namespace StyledWidgets.Text

/-- A text has one longest numeral behind its blanks, and the number that is read is the value of
it, brought into the range of 32 bits. Read in words of 64 bits, with the running value held at the
cap, it is the same number, and no word overflows. -/
theorem lenientInt_exact (text : List Char) :
    ∃ numeral, LeadingNumeral text numeral ∧
      (∀ other, LeadingNumeral text other → other = numeral) ∧
      lenientInt text = max (-2147483648) (min 2147483647 (numeralValue numeral)) ∧
      Bytes.lenientInt? text = some (lenientInt text) := by
  obtain ⟨numeral, leads, value⟩ := exists_leadingNumeral text
  exact ⟨numeral, leads, fun other leadsToo => leadsToo.unique leads, value,
    Bytes.lenientInt?_eq text⟩

/-- A number just below the range, between a wide blank and a unit. -/
example : lenientInt "\u3000-2147483649px".toList = -2147483648 := by decide

end StyledWidgets.Text
