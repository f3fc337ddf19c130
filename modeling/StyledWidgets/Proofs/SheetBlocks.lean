/-
Module: StyledWidgets.Proofs.SheetBlocks
Purpose: The blocks of a sheet are read one by one. Without backslashes no brace is ever hidden,
  since no string reaches over one, so a block that cannot be read costs its neighbours nothing:
  blocks written one after the other give the rules that each of them gives alone.
Main exports: blocksMarked_cut, blocksMarked_append, readSheet_of_blocks, renumbered,
  parseSheet_of_plain, parseSheet_join
-/
import StyledWidgets.Proofs.ScannedText
import StyledWidgets.Proofs.SheetReading

namespace StyledWidgets.Sheet

open StyledWidgets.Text

/-! ### Marked blocks -/

section Marked

variable {front inside rest : List Mark}

theorem blockAhead?_cut (marked : List Mark) :
    blockAhead? marked = (cutMarked '\x7b' marked).map fun (selectors, behind) =>
      (⟨selectors, (blockInside behind).1⟩, (blockInside behind).2) := by
  induction marked with
  | nil => rfl
  | cons m later inductionHypothesis =>
      cases opens : m.isExposed '\x7b' with
      | true => simp only [blockAhead?, cutMarked, opens, if_true, Option.map_some]
      | false =>
          simp only [blockAhead?, cutMarked, opens, Bool.false_eq_true, if_false,
            inductionHypothesis, Option.map_map]
          rfl

theorem blockInside_cut (marked : List Mark) :
    blockInside marked =
      match cutMarked '\x7d' marked with
      | none => (unmarked marked, [])
      | some (body, later) => (body, blocksMarked later) := by
  induction marked with
  | nil => rfl
  | cons m later inductionHypothesis =>
      cases closes : m.isExposed '\x7d' with
      | true =>
          simp only [blockInside, cutMarked, closes, if_true, blocksMarked]
          cases blockAhead? later <;> rfl
      | false =>
          simp only [blockInside, cutMarked, closes, Bool.false_eq_true, if_false,
            inductionHypothesis]
          cases cutMarked '\x7d' later <;> rfl

/-- A block reaches from an exposed opening brace to an exposed closing brace or to the end. -/
theorem blocksMarked_cut (marked : List Mark) :
    blocksMarked marked =
      match cutMarked '\x7b' marked with
      | none => []
      | some (selectors, behind) =>
          match cutMarked '\x7d' behind with
          | none => [⟨selectors, unmarked behind⟩]
          | some (body, later) => ⟨selectors, body⟩ :: blocksMarked later := by
  rw [blocksMarked, blockAhead?_cut]
  cases cutMarked '\x7b' marked with
  | none => rfl
  | some found =>
      simp only [Option.map_some, blockInside_cut]
      cases cutMarked '\x7d' found.2 <;> rfl

/-- A text up to an exposed opening brace and one up to an exposed closing brace are a block. -/
theorem blocksMarked_append (opening : ∀ m ∈ front, m.isExposed '\x7b' = false)
    (closing : ∀ m ∈ inside, m.isExposed '\x7d' = false) :
    blocksMarked (front ++ ⟨'\x7b', true⟩ :: (inside ++ ⟨'\x7d', true⟩ :: rest)) =
      ⟨unmarked front, unmarked inside⟩ :: blocksMarked rest := by
  rw [blocksMarked_cut, cutMarked_append opening]
  simp only [cutMarked_append closing]

end Marked

/-! ### Braces -/

/-- The character opens or closes a block. -/
def IsBrace (c : Char) : Prop := c = '\x7b' ∨ c = '\x7d'

theorem isBrace_opening : IsBrace '\x7b' := Or.inl rfl

theorem isBrace_closing : IsBrace '\x7d' := Or.inr rfl

theorem IsBrace.isPlain {c : Char} (brace : IsBrace c) : IsPlain c := by
  rcases brace with rfl | rfl <;> decide

/-- No string reaches over a brace that no backslash stands before. -/
theorem stringLength_le {text rest : List Char} {quote brace : Char} (isBrace : IsBrace brace)
    (apart : brace ≠ quote) (noEscape : '\\' ∉ text) :
    ∀ {length : Nat}, stringLength quote (text ++ brace :: rest) = some length →
      length ≤ text.length := by
  intro length closed
  have ends : brace = '\n' ∨ brace = '\x7b' ∨ brace = '\x7d' := Or.inr isBrace
  have stops : stringLength quote (brace :: rest) = none := by
    rw [stringLength_of_ne isBrace.isPlain.1, if_neg apart, if_pos ends]
  rcases stringLength_append noEscape with ⟨shorter, within, found⟩ | unclosed | passed
  · rw [found] at closed
    cases closed
    exact within
  · rw [unclosed] at closed
    cases closed
  · rw [passed, stops] at closed
    cases closed

/-- A brace that no backslash stands before is exposed, and what follows it is marked as if the
text began behind it. -/
theorem exists_marks_of_brace {text : List Char} {brace : Char} (isBrace : IsBrace brace)
    (noEscape : '\\' ∉ text) (rest : List Char) :
    ∀ (before : Option Char) (shielded : Nat), shielded ≤ text.length →
      ∃ front, unmarked front = text ∧ mark before shielded (text ++ brace :: rest) =
        front ++ ⟨brace, true⟩ :: mark (some brace) 0 rest := by
  induction text with
  | nil =>
      intro before shielded within
      rw [Nat.le_zero.mp within, List.nil_append, mark_of_isPlain isBrace.isPlain]
      exact ⟨[], rfl, rfl⟩
  | cons c later inductionHypothesis =>
      intro before shielded within
      rw [List.mem_cons, not_or] at noEscape
      have further : ∀ exposed left, left ≤ later.length →
          ∃ front, unmarked front = c :: later ∧
            ⟨c, exposed⟩ :: mark (some c) left (later ++ brace :: rest) =
              front ++ ⟨brace, true⟩ :: mark (some brace) 0 rest := by
        intro exposed left fits
        obtain ⟨front, isText, marks⟩ := inductionHypothesis noEscape.2 (some c) left fits
        refine ⟨⟨c, exposed⟩ :: front, ?_, ?_⟩
        · rw [← isText]
          rfl
        · rw [marks]
          rfl
      rw [List.cons_append]
      cases shielded with
      | succ left => exact further false left (Nat.le_of_succ_le_succ within)
      | zero =>
          rw [mark]
          simp only [if_neg (Ne.symm noEscape.1)]
          split
          case h_1 length opened =>
            split at opened
            case isFalse => cases opened
            case isTrue quoting =>
              -- The string ends before the brace, so it shields no more than what is left.
              have apart : brace ≠ c := by
                intro same
                rw [← same, isBrace.isPlain.not_opensString] at quoting
                cases quoting
              exact further false length (stringLength_le isBrace apart noEscape.2 opened)
          case h_2 => exact further true 0 (Nat.zero_le _)

/-- Steady parts before braces are a block. -/
theorem blocksMarked_steady_append {front inside : List Char} (opening : Steady (· ≠ '\x7b') front)
    (closing : Steady (· ≠ '\x7d') inside) (before : Option Char) (rest : List Char) :
    blocksMarked (mark before 0 (front ++ '\x7b' :: (inside ++ '\x7d' :: rest))) =
      ⟨front, inside⟩ :: blocksMarked (mark (some '\x7d') 0 rest) := by
  obtain ⟨first, isFirst, hiddenFirst, marksFirst⟩ := opening.exists_marks
  obtain ⟨second, isSecond, hiddenSecond, marksSecond⟩ := closing.exists_marks
  rw [marksFirst, mark_of_isPlain isBrace_opening.isPlain, marksSecond,
    mark_of_isPlain isBrace_closing.isPlain, blocksMarked_append hiddenFirst hiddenSecond, isFirst,
    isSecond]

theorem isExposed_of_not_mem {front : List Mark} {c : Char} (absent : c ∉ unmarked front) :
    ∀ m ∈ front, m.isExposed c = false := by
  intro m member
  rw [Bool.eq_false_iff, Ne, Mark.isExposed_iff]
  exact fun isOne => absent (List.mem_map.mpr ⟨m, member, isOne.2⟩)

/-! ### Numbered rules -/

/-- Rules with the places 0, 1, 2 and so on. -/
def renumbered (rules : List StyleRule) : List StyleRule :=
  rules.zipIdx.map fun (rule, place) => { rule with order := place }

/-- A text that ends with a closing brace is read block by block, if no comment is taken out. -/
theorem readSheet_of_blocks {text : List Char} (kept : stripComments text = text)
    (closed : text.getLast? = some '\x7d') :
    readSheet text = renumbered ((blocksOf text).filterMap (readRule? 0)) := by
  have ending : (trimEnd text).getLast? = some '\x7d' := by
    obtain ⟨front, rfl⟩ := List.getLast?_eq_some_iff.mp closed
    rw [trimEnd, List.reverse_append, List.reverse_singleton, List.singleton_append,
      List.dropWhile_cons_of_neg (by decide), List.reverse_cons, List.reverse_reverse,
      List.getLast?_concat]
  rw [readSheet, kept, withUniversalBlock, if_pos ending, readRules_eq]
  rfl

/-! ### Sheets of blocks -/

/-- The text can stand in front of a block or inside one: it holds no brace, and no backslash that
could hide one. -/
structure Braceless (text : String) : Prop where
  noOpening : '\x7b' ∉ text.toList
  noClosing : '\x7d' ∉ text.toList
  noEscape : '\\' ∉ text.toList

instance : DecidablePred Braceless := fun text =>
  decidable_of_iff
    ('\x7b' ∉ text.toList ∧ '\x7d' ∉ text.toList ∧ '\\' ∉ text.toList)
    ⟨fun holds => ⟨holds.1, holds.2.1, holds.2.2⟩,
      fun braceless => ⟨braceless.1, braceless.2, braceless.3⟩⟩

/-- The text can stand in front of a block or inside one, and nothing of it reaches out: it holds
no brace, no backslash and no beginning of a comment. -/
structure Contained (text : String) : Prop where
  noOpening : '\x7b' ∉ text.toList
  noClosing : '\x7d' ∉ text.toList
  noEscape : '\\' ∉ text.toList
  noComment : ¬OpensComment text.toList

instance : DecidablePred Contained := fun text =>
  decidable_of_iff
    ('\x7b' ∉ text.toList ∧ '\x7d' ∉ text.toList ∧ '\\' ∉ text.toList ∧
      ¬OpensComment text.toList)
    ⟨fun holds => ⟨holds.1, holds.2.1, holds.2.2.1, holds.2.2.2⟩,
      fun contained => ⟨contained.1, contained.2, contained.3, contained.4⟩⟩

theorem Contained.braceless {text : String} (contained : Contained text) : Braceless text :=
  ⟨contained.noOpening, contained.noClosing, contained.noEscape⟩

/-- A text in front of a block and the block behind it. -/
def blockText (piece : String × String) : String := piece.1 ++ "\x7b" ++ piece.2 ++ "\x7d"

/-- The pieces of a sheet can be told apart by their braces: no part of them holds a brace or a
backslash, and nothing in the whole text is a comment. -/
structure Plain (pieces : List (String × String)) : Prop where
  braceless : ∀ piece ∈ pieces, Braceless piece.1 ∧ Braceless piece.2
  uncommented : stripComments (String.join (pieces.map blockText)).toList =
    (String.join (pieces.map blockText)).toList

instance : DecidablePred Plain := fun pieces =>
  decidable_of_iff
    ((∀ piece ∈ pieces, Braceless piece.1 ∧ Braceless piece.2) ∧
      stripComments (String.join (pieces.map blockText)).toList =
        (String.join (pieces.map blockText)).toList)
    ⟨fun holds => ⟨holds.1, holds.2⟩, fun plain => ⟨plain.1, plain.2⟩⟩

section Pieces

variable {pieces : List (String × String)}

theorem toList_blockText (piece : String × String) :
    (blockText piece).toList =
      piece.1.toList ++ '\x7b' :: (piece.2.toList ++ ['\x7d']) := by
  simp only [blockText, String.toList_append, List.append_assoc]
  rfl

theorem toList_join_blockText (pieces : List (String × String)) :
    (String.join (pieces.map blockText)).toList =
      pieces.flatMap fun piece => (blockText piece).toList := by
  rw [String.toList_join, List.flatMap_map]

/-- Each piece is a block, whatever stands in front of the pieces. -/
theorem blocksMarked_pieces
    (braceless : ∀ piece ∈ pieces, Braceless piece.1 ∧ Braceless piece.2) :
    ∀ before : Option Char,
      blocksMarked (mark before 0 (pieces.flatMap fun piece => (blockText piece).toList)) =
        pieces.map fun piece => ⟨piece.1.toList, piece.2.toList⟩ := by
  induction pieces with
  | nil => exact fun _ => rfl
  | cons piece later inductionHypothesis =>
      intro before
      obtain ⟨front, inside⟩ := braceless piece (List.mem_cons_self ..)
      have further := inductionHypothesis fun other member =>
        braceless other (List.mem_cons_of_mem _ member)
      obtain ⟨first, isFirst, marksFirst⟩ :=
        exists_marks_of_brace isBrace_opening front.noEscape (piece.2.toList ++
          '\x7d' :: later.flatMap fun piece => (blockText piece).toList) before 0 (Nat.zero_le _)
      obtain ⟨second, isSecond, marksSecond⟩ :=
        exists_marks_of_brace isBrace_closing inside.noEscape
          (later.flatMap fun piece => (blockText piece).toList) (some '\x7b') 0 (Nat.zero_le _)
      rw [List.flatMap_cons, toList_blockText, List.append_assoc, List.cons_append,
        List.append_assoc, List.singleton_append, marksFirst, marksSecond, blocksMarked_append,
        further, isFirst, isSecond, List.map_cons]
      · exact isExposed_of_not_mem (isFirst ▸ front.noOpening)
      · exact isExposed_of_not_mem (isSecond ▸ inside.noClosing)

/-- The rules of some blocks are those that can be read, with new places, if the blocks can be told
apart. -/
theorem parseSheet_of_plain (plain : Plain pieces) :
    parseSheet (String.join (pieces.map blockText)) =
      renumbered (pieces.filterMap fun piece =>
        readRule? 0 ⟨piece.1.toList, piece.2.toList⟩) := by
  rcases List.eq_nil_or_concat' pieces with rfl | ⟨front, last, rfl⟩
  · rfl
  · rw [parseSheet, readSheet_of_blocks plain.uncommented, toList_join_blockText, blocksOf, marks,
      blocksMarked_pieces plain.braceless, List.filterMap_map]
    · rfl
    · rw [toList_join_blockText, List.flatMap_append, List.flatMap_singleton, toList_blockText,
        List.getLast?_append]
      simp only [List.getLast?_append, List.getLast?_cons, List.getLast?_nil, Option.getD_none,
        Option.getD_some, Option.some_or]

variable (contained : ∀ piece ∈ pieces, Contained piece.1 ∧ Contained piece.2)

include contained

theorem not_opensComment_blocks :
    ¬OpensComment (pieces.flatMap fun piece => (blockText piece).toList) := by
  induction pieces with
  | nil => exact fun opens => by cases List.infix_nil.mp opens
  | cons piece later inductionHypothesis =>
      obtain ⟨front, inside⟩ := contained piece (List.mem_cons_self ..)
      have further := inductionHypothesis fun other member =>
        contained other (List.mem_cons_of_mem _ member)
      rw [List.flatMap_cons, toList_blockText, List.append_assoc, List.cons_append,
        List.append_assoc, List.singleton_append]
      apply not_opensComment_append front.noComment (by decide) (by decide)
      exact not_opensComment_append inside.noComment (by decide) (by decide) further

/-- Parts in which nothing looks like the beginning of a comment are plain. -/
theorem plain_of_contained : Plain pieces where
  braceless piece member := (contained piece member).imp Contained.braceless Contained.braceless
  uncommented := by
    rw [toList_join_blockText]
    exact stripComments_eq_self (not_opensComment_blocks contained)

/-- The rules of some blocks are those that can be read, with new places. -/
theorem parseSheet_pieces :
    parseSheet (String.join (pieces.map blockText)) =
      renumbered (pieces.filterMap fun piece =>
        readRule? 0 ⟨piece.1.toList, piece.2.toList⟩) :=
  parseSheet_of_plain (plain_of_contained contained)

end Pieces

/-- Blocks that are written one after the other give the rules that each of them gives alone, in
their order. What stands in front of a block or inside it can be anything else: parts that cannot
be read, and quotes that nothing closes. -/
theorem parseSheet_join (pieces : List (String × String))
    (contained : ∀ piece ∈ pieces, Contained piece.1 ∧ Contained piece.2) :
    parseSheet (String.join (pieces.map blockText)) =
      renumbered (pieces.flatMap fun piece => parseSheet (blockText piece)) := by
  have single : ∀ piece ∈ pieces, parseSheet (blockText piece) =
      (readRule? 0 ⟨piece.1.toList, piece.2.toList⟩).toList := by
    intro piece member
    have alone : ∀ other ∈ [piece], Contained other.1 ∧ Contained other.2 := fun other isOne =>
      contained other (List.mem_singleton.mp isOne ▸ member)
    have isRead := parseSheet_pieces alone
    rw [List.map_singleton, String.join_cons, String.join_nil, String.append_empty] at isRead
    rw [isRead, List.filterMap_cons]
    cases read : readRule? 0 ⟨piece.1.toList, piece.2.toList⟩ with
    | none => rfl
    | some rule =>
        obtain ⟨selectors, declarations, order⟩ := rule
        have isFirst : order = 0 := (readRule?_eq_some read).2.2.2
        subst isFirst
        rfl
  rw [parseSheet_pieces contained, List.filterMap_eq_flatMap_toList,
    List.flatMap_congr fun piece member => single piece member]

/-- Blocks of which the first three cannot be read: a pseudo-class that does not exist, a quote
that nothing closes, and a property that does not exist. -/
def brokenBlocks : List (String × String) :=
  [("Button:wobbly", "width: 5px;"), ("Label \"", "width 6px; it's \"; height"),
    ("Dialog", "weight: 7px"), ("\nLabel", "height: 8px; width: \"9px"), ("*", "height: 1px")]

theorem parseSheet_join_brokenBlocks :
    (∀ piece ∈ brokenBlocks, Contained piece.1 ∧ Contained piece.2) ∧
      (brokenBlocks.map fun piece => (parseSheet (blockText piece)).length) = [0, 0, 0, 1, 1] ∧
      parseSheet (String.join (brokenBlocks.map blockText)) =
        renumbered (brokenBlocks.flatMap fun piece => parseSheet (blockText piece)) := by
  have contained : ∀ piece ∈ brokenBlocks, Contained piece.1 ∧ Contained piece.2 := by
    decide +kernel
  have read : (brokenBlocks.map fun piece => (parseSheet (blockText piece)).length) =
      [0, 0, 0, 1, 1] := by decide +kernel
  exact ⟨contained, read, parseSheet_join brokenBlocks contained⟩

end StyledWidgets.Sheet
