/-
Module: StyledWidgets.Proofs.BareDeclarations
Purpose: Declarations without a selector. A text without closing braces is put into a block for
  every widget, and that block comes back as it is: a string that nothing closes stays plain text
  before the brace that ends the block, as it does at the end of a text that stands alone.
Main exports: blocksOf_universal, readSheet_bare, parseSheet_bare
-/
import StyledWidgets.Proofs.SheetBlocks

namespace StyledWidgets.Sheet

open StyledWidgets.Text

variable {text : List Char}

/-! ### The block for every widget -/

/-- The text around a block is the sign for every widget, and the inside is the whole text. -/
theorem blocksOf_universal (noClosing : '\x7d' ∉ text) (noEscape : '\\' ∉ text) :
    blocksOf ('*' :: '\x7b' :: (text ++ ['\x7d'])) = [⟨['*'], text⟩] := by
  have plainSign : '\\' ∉ ['*'] := by decide
  obtain ⟨front, isFront, marksFront⟩ :=
    exists_marks_of_brace isBrace_opening plainSign (text ++ ['\x7d']) none 0 (Nat.zero_le _)
  obtain ⟨inside, isInside, marksInside⟩ :=
    exists_marks_of_brace isBrace_closing noEscape [] (some '\x7b') 0 (Nat.zero_le _)
  have opening : ∀ m ∈ front, m.isExposed '\x7b' = false := by
    apply isExposed_of_not_mem
    rw [isFront]
    decide
  have closing : ∀ m ∈ inside, m.isExposed '\x7d' = false := by
    apply isExposed_of_not_mem
    rwa [isInside]
  rw [List.singleton_append] at marksFront
  rw [blocksOf, marks, marksFront, marksInside, blocksMarked_append opening closing, isFront,
    isInside]
  rfl

/-- A text without closing braces does not end with one, so it is put into a block. -/
theorem withUniversalBlock_eq (noClosing : '\x7d' ∉ text) :
    withUniversalBlock text = '*' :: '\x7b' :: (text ++ ['\x7d']) := by
  rw [withUniversalBlock, if_neg]
  intro closed
  apply noClosing
  have member := List.mem_of_getLast? closed
  rw [trimEnd, List.mem_reverse] at member
  exact List.mem_reverse.mp ((List.dropWhile_sublist _).subset member)

theorem readSelectors_universal : readSelectors ['*'] = [Selector.universal] := by decide

theorem readSheet_bare (noClosing : '\x7d' ∉ stripComments text)
    (noEscape : '\\' ∉ stripComments text) :
    readSheet text =
      match readDeclarations (stripComments text) with
      | [] => []
      | declarations => [⟨[Selector.universal], declarations, 0⟩] := by
  rw [readSheet, withUniversalBlock_eq noClosing, blocksOf_universal noClosing noEscape, readRules,
    readRule?, readSelectors_universal]
  cases readDeclarations (stripComments text) <;> rfl

/-- A text that has no closing brace and no backslash outside of its comments styles every widget.
Whatever quotes it has, it comes back as one block, character by character, and the rule of that
block has the declarations of the text as it stands alone. Without any there is no rule. -/
theorem parseSheet_bare (text : String) (noClosing : '\x7d' ∉ stripComments text.toList)
    (noEscape : '\\' ∉ stripComments text.toList) :
    blocksOf (withUniversalBlock (stripComments text.toList)) =
        [⟨['*'], stripComments text.toList⟩] ∧
      parseSheet text =
        match parseDeclarations (String.ofList (stripComments text.toList)) with
        | [] => []
        | declarations => [⟨[Selector.universal], declarations, 0⟩] := by
  constructor
  · rw [withUniversalBlock_eq noClosing, blocksOf_universal noClosing noEscape]
  · rw [parseDeclarations, String.toList_ofList]
    exact readSheet_bare noClosing noEscape

/-- A quote at the start and one in front of a word, neither of them closed, behind a comment with
a brace and a backslash. -/
theorem parseSheet_bare_openQuotes :
    '\x7d' ∉ stripComments "/* \\\x7d */\"width: 1px; font-family: 'a; margin: 2px".toList ∧
    '\\' ∉ stripComments "/* \\\x7d */\"width: 1px; font-family: 'a; margin: 2px".toList ∧
    parseSheet "/* \\\x7d */\"width: 1px; font-family: 'a; margin: 2px" =
      [⟨[Selector.universal],
        [⟨.fontFamily, [.string "a"]⟩, ⟨.margin, [.length 2]⟩], 0⟩] := by
  have noClosing :
      '\x7d' ∉ stripComments "/* \\\x7d */\"width: 1px; font-family: 'a; margin: 2px".toList := by
    decide
  have noEscape :
      '\\' ∉ stripComments "/* \\\x7d */\"width: 1px; font-family: 'a; margin: 2px".toList := by
    decide
  refine ⟨noClosing, noEscape, ?_⟩
  rw [(parseSheet_bare _ noClosing noEscape).2]
  decide

end StyledWidgets.Sheet
