/-
Module: StyledWidgets.Proofs.SeparateDeclarations
Purpose: A semicolon behind text without quotes and backslashes separates declarations: what is in
  front of it and what is behind it are read as if each stood alone. So a declaration that cannot
  be read, such as one with an open parenthesis or without a colon, costs only itself.
Main exports: readDeclarations_append, readDeclarations_single, readDeclarations_terminated,
  parseDeclarations_separated
-/
import StyledWidgets.Proofs.ScannedText
import StyledWidgets.Sheet.Reader

namespace StyledWidgets.Sheet

open StyledWidgets.Text

section Plain

variable {text : List Char} (plain : ∀ c ∈ text, IsPlain c)

include plain

theorem marks_plain : marks text = text.map fun c => ⟨c, true⟩ := by
  have whole := mark_plain_append plain [] none
  rwa [List.append_nil, mark, List.append_nil] at whole

/-- What is behind the semicolon is cut as if it stood alone, since a quote opens a string behind a
semicolon as it does at the start. -/
theorem splitExposed_plain_append (later : List Char) :
    splitExposed ';' (text ++ ';' :: later) = splitExposed ';' text ++ splitExposed ';' later := by
  have separator : IsPlain ';' := by decide
  have same : ∀ c, opensString (some ';') c = opensString none c := fun _ => rfl
  have behind : mark (some ';') 0 later = marks later := mark_congr same later
  rw [splitExposed, splitExposed, splitExposed, marks_plain plain, marks, mark_plain_append plain,
    mark_of_isPlain separator, splitMarked_divided, behind]

/-- A semicolon behind a plain text separates its declarations from all that follow. -/
theorem readDeclarations_append (later : List Char) :
    readDeclarations (text ++ ';' :: later) = readDeclarations text ++ readDeclarations later := by
  rw [readDeclarations, splitExposed_plain_append plain, List.filterMap_append]
  rfl

/-- A plain text without semicolons is one declaration, if it can be read. -/
theorem readDeclarations_single (whole : ';' ∉ text) :
    readDeclarations text = (readDeclaration? text).toList := by
  have hidden : ∀ m ∈ marks text, m.isExposed ';' = false := by
    intro m member
    rw [marks_plain plain, List.mem_map] at member
    obtain ⟨c, isChar, rfl⟩ := member
    exact beq_false_of_ne fun isSeparator => whole (isSeparator ▸ isChar)
  rw [readDeclarations, splitExposed, splitMarked_whole hidden, marks, unmarked_mark,
    List.filterMap_cons, List.filterMap_nil]
  cases readDeclaration? text <;> rfl

end Plain

/-- Declarations without quotes and backslashes, each with a semicolon behind it, are read one by
one, whatever follows; those that cannot be read are left out. -/
theorem readDeclarations_terminated {parts : List (List Char)}
    (plain : ∀ part ∈ parts, ∀ c ∈ part, IsPlain c) (single : ∀ part ∈ parts, ';' ∉ part)
    (later : List Char) :
    readDeclarations (parts.flatMap (· ++ [';']) ++ later) =
      parts.filterMap readDeclaration? ++ readDeclarations later := by
  induction parts with
  | nil => rfl
  | cons part rest inductionHypothesis =>
      rw [List.forall_mem_cons] at plain single
      have further := inductionHypothesis plain.2 single.2
      rw [List.flatMap_cons, List.append_assoc, List.append_assoc, List.singleton_append,
        readDeclarations_append plain.1, readDeclarations_single plain.1 single.1, further,
        ← List.append_assoc, List.filterMap_cons]
      cases readDeclaration? part <;> rfl

/-- A semicolon behind a text without quotes and backslashes separates what is read: the
declarations are those of the text in front of it and then those of the text behind it, whatever
either says. -/
theorem parseDeclarations_separated (text later : String) (plain : ∀ c ∈ text.toList, IsPlain c) :
    parseDeclarations (text ++ ";" ++ later) =
      parseDeclarations text ++ parseDeclarations later := by
  have shape : (text ++ ";" ++ later).toList = text.toList ++ ';' :: later.toList := by
    rw [String.toList_append, String.toList_append, List.append_assoc]
    rfl
  rw [parseDeclarations, shape, readDeclarations_append plain]
  rfl

/-- An address that is not closed ends with its declaration, and an escaped quote closes no string,
so that the semicolon behind it separates as well. -/
theorem parseDeclarations_separated_unclosed :
    (∀ c ∈ "background: url(a, b".toList, IsPlain c) ∧
    parseDeclarations ("background: url(a, b" ++ ";" ++ "font: 'a\\'; width: 1px") =
      parseDeclarations "background: url(a, b" ++ parseDeclarations "font: 'a\\'; width: 1px" ∧
    parseDeclarations "background: url(a, b" = [⟨.background, [.uri "a, b"]⟩] ∧
    parseDeclarations "font: 'a\\'; width: 1px" =
      [⟨.font, [.string "a\\"]⟩, ⟨.width, [.length 1]⟩] := by
  have plain : ∀ c ∈ "background: url(a, b".toList, IsPlain c := by decide
  exact ⟨plain, parseDeclarations_separated _ _ plain, by decide, by decide⟩

end StyledWidgets.Sheet
