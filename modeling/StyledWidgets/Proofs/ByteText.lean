/-
Module: StyledWidgets.Proofs.ByteText
Purpose: Texts as they are stored: one to four bytes for each character. A place in a text counts
  bytes, and a piece can be cut out only between places where a character starts or the text ends.
  A scan that passes over the bytes of wide characters one by one, and that may have been led
  between them, comes out where the next character starts.
Main exports: bytes, size, byteAt?, slice?, IsBoundary, slice?_isSome_iff, slice?_piece,
  through_char, after_escape
-/
import Mathlib.Data.List.Basic
import Mathlib.Tactic.SplitIfs
import StyledWidgets.Text.Blank

namespace StyledWidgets.Bytes

open StyledWidgets.Text

/-! ### Bytes and places -/

/-- The bytes of a text, each as the character with its number. The bytes of ASCII characters are
these characters; all bytes of wider characters have numbers beyond ASCII, so one test for an ASCII
character serves for bytes and for characters. -/
def bytes (text : List Char) : List Char :=
  (text.flatMap String.utf8EncodeChar).map Char.ofUInt8

/-- The number of bytes of a text. -/
def size (text : List Char) : Nat := (bytes text).length

/-- The byte at a place. -/
def byteAt? (text : List Char) (i : Nat) : Option Char := (bytes text)[i]?

/-- Cut a text in two behind its first `i` bytes, unless this cuts a character. -/
def cutAt? : Nat → List Char → Option (List Char × List Char)
  | 0, text => some ([], text)
  | _ + 1, [] => none
  | i + 1, c :: rest =>
      if c.utf8Size ≤ i + 1 then
        (cutAt? (i + 1 - c.utf8Size) rest).map fun (front, back) => (c :: front, back)
      else none

/-- The piece of a text between two places, unless they are out of order, out of range or inside
a character. -/
def slice? (text : List Char) (start stop : Nat) : Option (List Char) :=
  if start ≤ stop then do
    let (_, behind) ← cutAt? start text
    let (piece, _) ← cutAt? (stop - start) behind
    some piece
  else none

/-- A character starts at the place, or the text ends there. -/
def IsBoundary (text : List Char) (i : Nat) : Prop :=
  (String.Pos.Raw.mk i).IsValid (String.ofList text)

section Sizes

variable {c : Char} {text later : List Char}

@[simp] theorem bytes_append : bytes (text ++ later) = bytes text ++ bytes later := by
  simp only [bytes, List.flatMap_append, List.map_append]

@[simp] theorem size_nil : size [] = 0 := rfl

@[simp] theorem size_append : size (text ++ later) = size text + size later := by
  simp only [size, bytes_append, List.length_append]

theorem bytes_singleton : bytes [c] = (String.utf8EncodeChar c).map Char.ofUInt8 := by
  rw [bytes, List.flatMap_singleton]

theorem size_singleton : size [c] = c.utf8Size := by
  rw [size, bytes_singleton, List.length_map, String.length_utf8EncodeChar]

/-- Every character has some byte. -/
theorem bytes_singleton_ne_nil : bytes [c] ≠ [] := by
  intro none
  have size : size [c] = 0 := congrArg List.length none
  exact absurd size (by rw [size_singleton]; exact Nat.ne_of_gt c.utf8Size_pos)

theorem size_cons : size (c :: text) = c.utf8Size + size text := by
  rw [← List.singleton_append, size_append, size_singleton]

theorem size_eq_zero : size text = 0 ↔ text = [] := by
  cases text with
  | nil => simp
  | cons c rest =>
      have filled := c.utf8Size_pos
      simp only [size_cons, reduceCtorEq, iff_false]
      omega

/-- An ASCII character is one byte. -/
theorem bytes_ascii (ascii : c.toNat < 0x80) : bytes [c] = [c] := by
  have small : c.val.toNat ≤ 127 := Nat.le_of_lt_succ ascii
  have same : Char.ofUInt8 (UInt8.ofNat c.val.toNat) = c := by
    apply Char.ext
    apply UInt32.toNat_inj.mp
    change (UInt8.ofNat c.val.toNat).toUInt32.toNat = c.val.toNat
    rw [UInt8.toNat_toUInt32, UInt8.toNat_ofNat']
    omega
  rw [bytes_singleton, String.utf8EncodeChar]
  simp only [small, if_true, List.map_cons, List.map_nil, same]

theorem bytes_cons_ascii (ascii : c.toNat < 0x80) : bytes (c :: text) = c :: bytes text := by
  rw [← List.singleton_append, bytes_append, bytes_ascii ascii, List.singleton_append]

theorem utf8Size_ascii (ascii : c.toNat < 0x80) : c.utf8Size = 1 := by
  rw [← size_singleton, size, bytes_ascii ascii, List.length_singleton]

/-- All bytes of a wide character have numbers beyond ASCII. -/
theorem bytes_wide (wide : 0x80 ≤ c.toNat) : ∀ b ∈ bytes [c], 0x80 ≤ b.toNat := by
  have large : ¬c.val.toNat ≤ 127 := Nat.not_le.mpr wide
  have number : ∀ n, n < 256 → 0x80 ≤ n → 0x80 ≤ (Char.ofUInt8 (UInt8.ofNat n)).toNat := by
    intro n small isLarge
    change 0x80 ≤ (UInt8.ofNat n).toUInt32.toNat
    rw [UInt8.toNat_toUInt32, UInt8.toNat_ofNat']
    omega
  intro b member
  rw [bytes_singleton, String.utf8EncodeChar] at member
  simp only [large, if_false] at member
  split_ifs at member <;>
    simp only [List.map_cons, List.map_nil, List.mem_cons, List.not_mem_nil, or_false] at member
  · rcases member with rfl | rfl <;> exact number _ (by omega) (by omega)
  · rcases member with rfl | rfl | rfl <;> exact number _ (by omega) (by omega)
  · rcases member with rfl | rfl | rfl | rfl <;> exact number _ (by omega) (by omega)

/-- What is false of everything beyond ASCII holds of all bytes if it holds of all characters. -/
theorem all_bytes {holds : Char → Bool} (noWide : ∀ b, 0x80 ≤ b.toNat → holds b = false)
    (text : List Char) : (bytes text).all holds = text.all holds := by
  induction text with
  | nil => rfl
  | cons c rest inductionHypothesis =>
      have first : (bytes [c]).all holds = holds c := by
        by_cases small : c.toNat < 0x80
        · rw [bytes_ascii small, List.all_cons, List.all_nil, Bool.and_true]
        · have wide : 0x80 ≤ c.toNat := Nat.le_of_not_lt small
          obtain ⟨b, member⟩ := List.exists_mem_of_ne_nil _ (bytes_singleton_ne_nil (c := c))
          rw [noWide c wide, List.all_eq_false]
          exact ⟨b, member, by rw [noWide b (bytes_wide wide b member)]; exact Bool.false_ne_true⟩
      rw [← List.singleton_append, bytes_append, List.all_append, first, inductionHypothesis,
        List.all_append, List.all_cons, List.all_nil, Bool.and_true]

/-- An ASCII character is among the bytes of a text if it is among its characters. -/
theorem mem_bytes (ascii : c.toNat < 0x80) : c ∈ bytes text ↔ c ∈ text := by
  induction text with
  | nil => exact Iff.rfl
  | cons d rest inductionHypothesis =>
      rw [← List.singleton_append, bytes_append, List.mem_append, List.mem_append,
        inductionHypothesis]
      apply or_congr_left
      by_cases small : d.toNat < 0x80
      · rw [bytes_ascii small]
      · have wide : 0x80 ≤ d.toNat := Nat.le_of_not_lt small
        rw [List.mem_singleton]
        exact ⟨fun member => absurd (bytes_wide wide c member) (Nat.not_le.mpr ascii),
          fun same => absurd (same ▸ wide) (Nat.not_le.mpr ascii)⟩

end Sizes

/-! ### Pieces -/

theorem cutAt?_zero (text : List Char) : cutAt? 0 text = some ([], text) := by
  cases text <;> rfl

/-- A text is cut behind a piece at its front. -/
theorem cutAt?_append (front back : List Char) :
    cutAt? (size front) (front ++ back) = some (front, back) := by
  induction front with
  | nil => exact cutAt?_zero back
  | cons c further inductionHypothesis =>
      obtain ⟨i, width⟩ := Nat.exists_eq_succ_of_ne_zero (Nat.ne_of_gt c.utf8Size_pos)
      have fits : c.utf8Size ≤ i + size further + 1 := by omega
      have left : i + size further + 1 - c.utf8Size = size further := by omega
      have whole : size (c :: further) = i + size further + 1 := by
        rw [size_cons, width]
        omega
      rw [whole, List.cons_append, cutAt?, if_pos fits, left, inductionHypothesis]
      rfl

/-- What a cut gives makes up the text, and the piece at its front has the size asked for. -/
theorem of_cutAt? {text front back : List Char} :
    ∀ {i : Nat}, cutAt? i text = some (front, back) → text = front ++ back ∧ size front = i := by
  induction text generalizing front with
  | nil =>
      intro i isCut
      cases i with
      | zero =>
          cases isCut
          exact ⟨rfl, rfl⟩
      | succ i => cases isCut
  | cons c rest inductionHypothesis =>
      intro i isCut
      cases i with
      | zero =>
          cases isCut
          exact ⟨rfl, rfl⟩
      | succ i =>
          rw [cutAt?] at isCut
          split at isCut
          case isFalse => cases isCut
          case isTrue fits =>
            obtain ⟨⟨further, behind⟩, isCut, same⟩ := Option.map_eq_some_iff.mp isCut
            cases same
            obtain ⟨rfl, long⟩ := inductionHypothesis isCut
            rw [size_cons]
            exact ⟨rfl, by omega⟩

/-- A text is cut where a piece of it in front has the given number of bytes. -/
theorem cutAt?_eq_some {text front back : List Char} {i : Nat} :
    cutAt? i text = some (front, back) ↔ text = front ++ back ∧ size front = i := by
  constructor
  · exact of_cutAt?
  · rintro ⟨rfl, rfl⟩
    exact cutAt?_append front back

/-- A piece is cut out of a text between what is before it and what is behind it. -/
theorem slice?_eq_some {text piece : List Char} {start stop : Nat} :
    slice? text start stop = some piece ↔
      ∃ front back, text = front ++ (piece ++ back) ∧ size front = start ∧
        size (front ++ piece) = stop := by
  rw [slice?]
  split
  case isTrue ordered =>
    simp only [Option.bind_eq_bind, Option.bind_eq_some_iff, Prod.exists, Option.some.injEq,
      cutAt?_eq_some]
    constructor
    · rintro ⟨front, behind, ⟨rfl, isStart⟩, other, back, ⟨rfl, long⟩, rfl⟩
      refine ⟨front, back, rfl, isStart, ?_⟩
      rw [size_append]
      omega
    · rintro ⟨front, back, rfl, isStart, isStop⟩
      rw [size_append] at isStop
      exact ⟨front, piece ++ back, ⟨rfl, isStart⟩, piece, back, ⟨rfl, by omega⟩, rfl⟩
  case isFalse unordered =>
    simp only [reduceCtorEq, false_iff, not_exists, not_and]
    intro front back _ isStart isStop
    rw [size_append] at isStop
    omega

theorem slice?_piece (front piece back : List Char) :
    slice? (front ++ (piece ++ back)) (size front) (size (front ++ piece)) = some piece :=
  slice?_eq_some.mpr ⟨front, back, rfl, rfl, rfl⟩

/-- The end of a text is cut out from where it begins. -/
theorem slice?_rest {text front rest : List Char} (whole : text = front ++ rest) :
    slice? text (size front) (size text) = some rest := by
  have piece := slice?_piece front rest []
  rwa [List.append_nil, ← whole] at piece

/-- The size of a text is what strings count. -/
theorem utf8ByteSize_ofList (text : List Char) : (String.ofList text).utf8ByteSize = size text := by
  induction text with
  | nil => rfl
  | cons c rest inductionHypothesis =>
      rw [String.ofList_cons, String.utf8ByteSize_append, String.utf8ByteSize_singleton,
        inductionHypothesis, size_cons]

/-- A place is a boundary if some first part of the text has that many bytes. -/
theorem isBoundary_iff {text : List Char} {i : Nat} :
    IsBoundary text i ↔ ∃ front back, text = front ++ back ∧ size front = i := by
  rw [IsBoundary, String.Pos.Raw.isValid_iff_exists_append]
  constructor
  · rintro ⟨front, back, whole, place⟩
    refine ⟨front.toList, back.toList, ?_, ?_⟩
    · rw [← String.toList_append, ← whole, String.toList_ofList]
    · rw [← utf8ByteSize_ofList, String.ofList_toList]
      exact (congrArg String.Pos.Raw.byteIdx place).symm
  · rintro ⟨front, back, rfl, rfl⟩
    refine ⟨String.ofList front, String.ofList back, String.ofList_append, ?_⟩
    rw [← utf8ByteSize_ofList]
    rfl

/-- There is a piece between two places exactly if they are in order, in range and boundaries. -/
theorem slice?_isSome_iff {text : List Char} {start stop : Nat} :
    (slice? text start stop).isSome = true ↔
      start ≤ stop ∧ stop ≤ size text ∧ IsBoundary text start ∧ IsBoundary text stop := by
  simp only [Option.isSome_iff_exists, slice?_eq_some, isBoundary_iff]
  constructor
  · rintro ⟨piece, front, back, rfl, rfl, rfl⟩
    simp only [size_append]
    exact ⟨by omega, by omega, ⟨front, piece ++ back, rfl, rfl⟩,
      ⟨front ++ piece, back, (List.append_assoc ..).symm, size_append⟩⟩
  · rintro ⟨ordered, -, ⟨front, back, rfl, rfl⟩, ⟨other, behind, same, rfl⟩⟩
    -- Of two first parts of one text the one with fewer bytes is part of the other.
    rcases List.append_eq_append_iff.mp same with ⟨piece, rfl, rfl⟩ | ⟨piece, rfl, rfl⟩
    · exact ⟨piece, front, behind, rfl, rfl, rfl⟩
    · have none : piece = [] := by
        rw [size_append] at ordered
        exact size_eq_zero.mp (by omega)
      subst none
      refine ⟨[], other, back, ?_, ?_, ?_⟩ <;> simp only [List.append_nil, List.nil_append]

/-! ### Bytes at places -/

section Places

variable {front rest : List Char} {c : Char}

theorem size_concat (ascii : c.toNat < 0x80) : size (front ++ [c]) = size front + 1 := by
  rw [size_append, size_singleton, utf8Size_ascii ascii]

theorem size_lt (front : List Char) (c : Char) (rest : List Char) :
    size front < size (front ++ c :: rest) := by
  have filled := c.utf8Size_pos
  rw [size_append, size_cons]
  omega

/-- A text gets longer by a piece that is not empty. -/
theorem size_lt_append {looked : List Char} (filled : looked ≠ []) :
    size front < size (front ++ looked) := by
  obtain ⟨c, rest, rfl⟩ := List.exists_cons_of_ne_nil filled
  exact size_lt front c rest

theorem byteAt?_append (front rest : List Char) (j : Nat) :
    byteAt? (front ++ rest) (size front + j) = byteAt? rest j := by
  rw [byteAt?, byteAt?, bytes_append, size, List.getElem?_append_right (Nat.le_add_right _ _),
    Nat.add_sub_cancel_left]

theorem lt_size_of_byteAt? {text : List Char} {i : Nat} {b : Char}
    (here : byteAt? text i = some b) : i < size text :=
  (List.getElem?_eq_some_iff.mp here).1

theorem ne_of_wide {b d : Char} (wide : 0x80 ≤ b.toNat) (ascii : d.toNat < 0x80) : b ≠ d := by
  intro same
  rw [same] at wide
  exact absurd ascii (Nat.not_lt.mpr wide)

theorem isSpace_wide (wide : 0x80 ≤ c.toNat) : isSpace c = false := by
  have foreign := fun {d : Char} => ne_of_wide wide (d := d)
  simp [isSpace, foreign (d := ' ') (by decide), foreign (d := '\t') (by decide),
    foreign (d := '\n') (by decide), foreign (d := '\x0c') (by decide),
    foreign (d := '\r') (by decide)]

/-- At the start of an ASCII character stands this character. -/
theorem byteAt?_ascii {text : List Char} (whole : text = front ++ c :: rest)
    (ascii : c.toNat < 0x80) : byteAt? text (size front) = some c := by
  have here := byteAt?_append front (c :: rest) 0
  rw [Nat.add_zero] at here
  rw [whole, here, byteAt?, bytes_cons_ascii ascii]
  rfl

/-- At the start of a wide character and inside it stand bytes beyond ASCII. -/
theorem byteAt?_wide (wide : 0x80 ≤ c.toNat) (front rest : List Char) {j : Nat}
    (inside : j < c.utf8Size) :
    ∃ b, byteAt? (front ++ c :: rest) (size front + j) = some b ∧ 0x80 ≤ b.toNat := by
  have short : j < (bytes [c]).length := by
    rw [← size_singleton] at inside
    exact inside
  refine ⟨(bytes [c])[j], ?_, bytes_wide wide _ (List.getElem_mem short)⟩
  rw [byteAt?_append, byteAt?, ← List.singleton_append, bytes_append,
    List.getElem?_append_left short, List.getElem?_eq_getElem short]

/-- At the start of a character an ASCII character is seen exactly if it stands there. -/
theorem byteAt?_eq_ascii {text : List Char} (whole : text = front ++ rest)
    (ascii : c.toNat < 0x80) : byteAt? text (size front) = some c ↔ rest.head? = some c := by
  rw [whole]
  cases rest with
  | nil =>
      have past : byteAt? (front ++ []) (size front) = none := by
        rw [List.append_nil]
        exact List.getElem?_eq_none (Nat.le_refl _)
      rw [past]
      simp
  | cons d later =>
      rw [List.head?_cons]
      by_cases small : d.toNat < 0x80
      · rw [byteAt?_ascii rfl small]
      · have wide : 0x80 ≤ d.toNat := Nat.le_of_not_lt small
        obtain ⟨b, here, isWide⟩ := byteAt?_wide wide front later d.utf8Size_pos
        rw [Nat.add_zero] at here
        rw [here, Option.some_inj, Option.some_inj]
        exact ⟨fun same => absurd same (ne_of_wide isWide ascii),
          fun same => absurd same (ne_of_wide wide ascii)⟩

/-- At the start of an ASCII character stands this character, and at the start of a wide character
a byte beyond ASCII. -/
theorem byteAt?_first {text : List Char} (whole : text = front ++ c :: rest) :
    ∃ b, byteAt? text (size front) = some b ∧
      (b = c ∧ c.toNat < 0x80 ∨ 0x80 ≤ b.toNat ∧ 0x80 ≤ c.toNat) := by
  by_cases small : c.toNat < 0x80
  · exact ⟨c, byteAt?_ascii whole small, Or.inl ⟨rfl, small⟩⟩
  · have wide : 0x80 ≤ c.toNat := Nat.le_of_not_lt small
    obtain ⟨b, here, isWide⟩ := byteAt?_wide wide front rest c.utf8Size_pos
    exact ⟨b, whole ▸ here, Or.inr ⟨isWide, wide⟩⟩

/-- Right before a place behind an ASCII character stands this character, and behind a wide
character a byte beyond ASCII. -/
theorem byteAt?_before (front : List Char) (c : Char) (rest : List Char) :
    ∃ b, byteAt? (front ++ c :: rest) (size (front ++ [c]) - 1) = some b ∧
      (b = c ∨ 0x80 ≤ b.toNat ∧ 0x80 ≤ c.toNat) := by
  have filled := c.utf8Size_pos
  by_cases ascii : c.toNat < 0x80
  · refine ⟨c, ?_, Or.inl rfl⟩
    rw [size_append, size_singleton, utf8Size_ascii ascii, Nat.add_sub_cancel,
      byteAt?_ascii rfl ascii]
  · have wide : 0x80 ≤ c.toNat := Nat.le_of_not_lt ascii
    obtain ⟨b, here, isWide⟩ := byteAt?_wide wide front rest (Nat.sub_lt filled Nat.one_pos)
    refine ⟨b, ?_, Or.inr ⟨isWide, wide⟩⟩
    rw [← here, size_append, size_singleton, Nat.add_sub_assoc filled]

/-- What passes over each byte beyond ASCII passes over a wide character, from anywhere in it. -/
theorem through_wide {α : Type} {text : List Char} {f : Nat → α}
    (step : ∀ i b, byteAt? text i = some b → 0x80 ≤ b.toNat → f i = f (i + 1))
    (whole : text = front ++ c :: rest) (wide : 0x80 ≤ c.toNat) {j : Nat}
    (inside : j ≤ c.utf8Size) : f (size front + j) = f (size (front ++ [c])) := by
  rw [size_append, size_singleton]
  obtain ⟨left, isLeft⟩ := Nat.exists_eq_add_of_le inside
  induction left generalizing j with
  | zero => rw [isLeft, Nat.add_zero]
  | succ left inductionHypothesis =>
      obtain ⟨b, here, isWide⟩ := byteAt?_wide wide front rest (j := j) (by omega)
      rw [step _ b (whole ▸ here) isWide, Nat.add_assoc]
      exact inductionHypothesis (by omega) (by omega)

/-- What passes over each byte beyond ASCII passes over any character, if it passes over it as a
byte of ASCII. -/
theorem through_char {α : Type} {text : List Char} {f : Nat → α}
    (step : ∀ i b, byteAt? text i = some b → 0x80 ≤ b.toNat → f i = f (i + 1))
    (whole : text = front ++ c :: rest)
    (single : c.toNat < 0x80 → byteAt? text (size front) = some c →
      f (size front) = f (size front + 1)) :
    f (size front) = f (size (front ++ [c])) := by
  by_cases small : c.toNat < 0x80
  · rw [single small (byteAt?_ascii whole small), size_concat small]
  · exact through_wide step whole (Nat.le_of_not_lt small) (Nat.zero_le _)

/-- What passes over each byte beyond ASCII and skips two bytes at an ASCII character passes over
the character and the one behind it, even if the second is wide. -/
theorem after_escape {α : Type} {text : List Char} {f : Nat → α} {d : Char}
    (step : ∀ i b, byteAt? text i = some b → 0x80 ≤ b.toNat → f i = f (i + 1))
    (whole : text = front ++ c :: d :: rest) (ascii : c.toNat < 0x80) :
    f (size front + 2) = f (size (front ++ [c, d])) := by
  have first : size (front ++ [c]) = size front + 1 := size_concat ascii
  have shape : front ++ [c, d] = front ++ [c] ++ [d] := by simp
  by_cases second : d.toNat < 0x80
  · rw [shape, size_append, first, size_singleton, utf8Size_ascii second]
  · have split : text = (front ++ [c]) ++ d :: rest := by simp [whole]
    have passed := through_wide step split (Nat.le_of_not_lt second) d.utf8Size_pos
    rw [shape, ← passed, first]

end Places

end StyledWidgets.Bytes
