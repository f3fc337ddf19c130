/-
Module: StyledWidgets.Proofs.PrintedSelectors
Purpose: Lists of selectors are read back from their texts. The text of a selector is one of the
  ways of writing it; if no name needs an escape and none has a blank, the text is scanned the same
  way wherever it stands, so the list is cut at the commas that were printed.
Main exports: Selector.PlainNames, Selector.readSelector?_text, Selector.steady_text,
  readSelectors_text
-/
import StyledWidgets.Proofs.SpelledSelectors

namespace StyledWidgets.Sheet

open StyledWidgets.Text

/-! ### The characters of names and selectors -/

/-- The name has only characters that belong to names, and none of them is blank. -/
def IsPlainName (name : String) : Prop :=
  ∀ c ∈ name.toList, isNameChar c = true ∧ isBlank c = false

instance : DecidablePred IsPlainName := fun name =>
  inferInstanceAs (Decidable (∀ c ∈ name.toList, isNameChar c = true ∧ isBlank c = false))

/-- The type name and the object name that a compound requires are plain. -/
def Compound.PlainNames (compound : Compound) : Prop :=
  (∀ name ∈ compound.element, IsPlainName name) ∧ ∀ name ∈ compound.id, IsPlainName name

instance : DecidablePred Compound.PlainNames := fun compound =>
  inferInstanceAs (Decidable
    ((∀ name ∈ compound.element, IsPlainName name) ∧ ∀ name ∈ compound.id, IsPlainName name))

/-- All names that a selector requires are plain. -/
def Selector.PlainNames (selector : Selector) : Prop :=
  selector.subject.PlainNames ∧ ∀ step ∈ selector.context, step.2.PlainNames

instance : DecidablePred Selector.PlainNames := fun selector =>
  inferInstanceAs (Decidable
    (selector.subject.PlainNames ∧ ∀ step ∈ selector.context, step.2.PlainNames))

/-- The character can stand in the text of a compound with plain names. -/
def IsCompoundChar (c : Char) : Prop :=
  isBlank c = false ∧ (isNameChar c = true ∨ c = '#' ∨ c = ':' ∨ c = '*')

/-- The character can stand in the text of a selector with plain names. -/
def IsSelectorChar (c : Char) : Prop := IsCompoundChar c ∨ c = ' ' ∨ c = '>'

/-- Characters that end names and mean nothing else in selectors stand in no selector. -/
theorem IsSelectorChar.ne {c d : Char} (isOne : IsSelectorChar c)
    (foreign : isNameChar d = false ∧ d ∉ ['#', ':', '*', ' ', '>']) : c ≠ d := by
  intro same
  subst same
  obtain ⟨noName, noSign⟩ := foreign
  simp only [List.mem_cons, List.not_mem_nil, or_false, not_or] at noSign
  rcases isOne with ⟨-, isName | isSign⟩ | isSign
  · rw [noName] at isName
    cases isName
  · grind
  · grind

theorem PseudoClass.isPlainName (pseudo : PseudoClass) : IsPlainName pseudo.name := by
  unfold IsPlainName
  cases pseudo <;> decide

/-- A required name that is plain needs no escape. -/
theorem IsPlainName.isWord {name : String} (isPlain : IsPlainName name) (named : name ≠ "") :
    IsWord name :=
  ⟨fun empty => named (String.toList_eq_nil_iff.mp empty), fun c member => (isPlain c member).1⟩

section Compounds

variable {compound : Compound} (written : compound.Written) (plain : compound.PlainNames)

include written plain

theorem Compound.Written.spellable : compound.Spellable :=
  ⟨fun name isElement => (plain.1 name isElement).isWord fun empty =>
      written.named.1 (empty ▸ isElement),
    fun name isId => (plain.2 name isId).isWord fun empty => written.named.2 (empty ▸ isId),
    written.known⟩

/-- The text of a compound is not empty, and all its characters are such as stand in compounds. -/
theorem Compound.isCompoundChar_text :
    compound.text.toList ≠ [] ∧ ∀ c ∈ compound.text.toList, IsCompoundChar c := by
  have ofName : ∀ name, IsPlainName name → ∀ c ∈ name.toList, IsCompoundChar c :=
    fun name isPlain c member => ⟨(isPlain c member).2, Or.inl (isPlain c member).1⟩
  have sign : IsCompoundChar '#' ∧ IsCompoundChar ':' ∧ IsCompoundChar '*' := by
    refine ⟨⟨?_, ?_⟩, ⟨?_, ?_⟩, ⟨?_, ?_⟩⟩ <;> decide
  constructor
  · exact (Compound.spelled_text written).filled
  · intro c member
    rw [toList_text] at member
    split at member
    · rw [List.mem_singleton.mp member]
      exact sign.2.2
    · rcases List.mem_append.mp member with inElement | inRequirements
      · cases isElement : compound.element with
        | none => simp [isElement] at inElement
        | some name =>
            rw [isElement] at inElement
            exact ofName name (plain.1 name isElement) c inElement
      · obtain ⟨requirement, isRequired, inText⟩ := List.mem_flatMap.mp inRequirements
        cases requirement with
        | id name =>
            have isId := (compound.lists_requirements.id name).mp isRequired
            rcases List.mem_cons.mp inText with rfl | inName
            · exact sign.1
            · exact ofName name (plain.2 name isId) c inName
        | pseudo one =>
            rcases List.mem_cons.mp inText with rfl | inName
            · exact sign.2.1
            · exact ofName one.name one.isPlainName c inName

end Compounds

/-! ### Selectors from their text -/

namespace Selector

/-- A selector that can be written down is read back from its text. -/
theorem readSelector?_text {selector : Selector} (written : selector.Written)
    (plain : selector.PlainNames) : readSelector? selector.text.toList = some selector := by
  have spellable : ∀ component ∈ selector.components, component.2.Spellable := by
    rw [Selector.forall_components]
    exact ⟨written.subject.spellable plain.1, fun step member =>
      (written.context step member).2.spellable (plain.2 step member)⟩
  rw [readSelector?_spelled written.spelled_text spellable, ofComponents_components]

/-- The text of a selector has only characters of selectors, and begins and ends with one of a
compound. -/
theorem isSelectorChar_textOf {context : List (Relation × Compound)}
    (written : ∀ step ∈ context, step.2.Written) (plain : ∀ step ∈ context, step.2.PlainNames) :
    ∀ {subject : Compound}, subject.Written → subject.PlainNames →
      (∀ c ∈ (textOf subject context).toList, IsSelectorChar c) ∧
        (∃ c, (textOf subject context).toList.head? = some c ∧ IsCompoundChar c) ∧
          ∃ c, (textOf subject context).toList.getLast? = some c ∧ IsCompoundChar c := by
  induction context with
  | nil =>
      intro subject subjectWritten subjectPlain
      obtain ⟨filled, chars⟩ := Compound.isCompoundChar_text subjectWritten subjectPlain
      refine ⟨fun c member => Or.inl (chars c member), ?_, ?_⟩
      · exact ⟨_, List.head?_eq_some_head filled, chars _ (List.head_mem filled)⟩
      · exact ⟨_, List.getLast?_eq_some_getLast filled, chars _ (List.getLast_mem filled)⟩
  | cons step above inductionHypothesis =>
      intro subject subjectWritten subjectPlain
      obtain ⟨relation, next⟩ := step
      obtain ⟨filled, chars⟩ := Compound.isCompoundChar_text subjectWritten subjectPlain
      obtain ⟨further, ⟨first, isFirst, starts⟩, -⟩ := inductionHypothesis
        (fun other member => written other (List.mem_cons_of_mem _ member))
        (fun other member => plain other (List.mem_cons_of_mem _ member))
        (written _ (List.mem_cons_self ..)) (plain _ (List.mem_cons_self ..))
      have sign : ∀ c ∈ (separator relation).toList, IsSelectorChar c := by
        intro c member
        have isSign : c = ' ' ∨ c = '>' := by
          cases relation <;> simp [separator] at member <;> grind
        exact Or.inr isSign
      simp only [textOf, String.toList_append]
      refine ⟨?_, ⟨first, by simp [isFirst], starts⟩, ?_⟩
      · intro c member
        simp only [List.mem_append] at member
        rcases member with (inNext | inSign) | inSubject
        · exact further c inNext
        · exact sign c inSign
        · exact Or.inl (chars c inSubject)
      · refine ⟨_, ?_, chars _ (List.getLast_mem filled)⟩
        rw [List.getLast?_append, List.getLast?_eq_some_getLast filled, Option.some_or]

/-- The text of a selector is scanned the same way wherever it stands, and trimming leaves it. -/
theorem steady_text {selector : Selector} (written : selector.Written)
    (plain : selector.PlainNames) {kind : Char → Prop}
    (isKind : ∀ c, IsSelectorChar c → kind c) :
    selector.text.toList ≠ [] ∧ Flush selector.text.toList ∧ Steady kind selector.text.toList := by
  obtain ⟨chars, ⟨first, isFirst, starts⟩, last, isLast, ends⟩ :=
    isSelectorChar_textOf (fun step member => (written.context step member).2) plain.2
      written.subject plain.1
  refine ⟨?_, ?_, steady_slashless fun c member => ⟨⟨?_, ?_, ?_⟩, ?_, isKind c (chars c member)⟩⟩
  · intro empty
    rw [text] at empty
    rw [empty] at isFirst
    cases isFirst
  · intro c isEnd
    rw [text, isFirst, isLast, Option.some_inj, Option.some_inj] at isEnd
    rcases isEnd with rfl | rfl
    · exact starts.1
    · exact ends.1
  · exact (chars c member).ne (by decide)
  · exact (chars c member).ne (by decide)
  · exact (chars c member).ne (by decide)
  · exact (chars c member).ne (by decide)

end Selector

/-! ### Lists of selectors -/

/-- Blanks in front of what is printed. -/
def IsMargin (margin : List Char) : Prop := ∀ c ∈ margin, c = ' ' ∨ c = '\n'

theorem IsMargin.isBlank {margin : List Char} (isMargin : IsMargin margin) :
    ∀ c ∈ margin, Text.isBlank c = true := by
  intro c member
  rcases isMargin c member with rfl | rfl <;> decide

theorem IsMargin.steady {margin : List Char} (isMargin : IsMargin margin) {kind : Char → Prop}
    (space : kind ' ') (lineBreak : kind '\n') : Steady kind margin := by
  apply steady_slashless
  intro c member
  rcases isMargin c member with rfl | rfl
  · exact ⟨by decide, by decide, space⟩
  · exact ⟨by decide, by decide, lineBreak⟩

/-- Items that are each read back from their text are read back from all texts. -/
theorem filterMap_map_eq_self {α β : Type} {print : α → β} {read? : β → Option α} {items : List α}
    (isRead : ∀ item ∈ items, read? (print item) = some item) :
    (items.map print).filterMap read? = items := by
  induction items with
  | nil => rfl
  | cons item later inductionHypothesis =>
      have further := inductionHypothesis fun other member =>
        isRead other (List.mem_cons_of_mem _ member)
      rw [List.map_cons, List.filterMap_cons_some (isRead item (List.mem_cons_self ..)), further]

/-- Parts that are printed with commas between them are cut at these commas. -/
theorem trim_splitMarked {parts : List (List Char)}
    (steady : ∀ part ∈ parts, part ≠ [] ∧ Flush part ∧ Steady (· ≠ ',') part) :
    ∀ {part margin : List Char} (before : Option Char), part ≠ [] → Flush part →
      Steady (· ≠ ',') part → IsMargin margin →
        (splitMarked ',' (mark before 0
          (margin ++ ([',', ' '].intercalate (part :: parts) ++ [' '])))).map trim =
            part :: parts := by
  have ending : IsMargin [' '] := by simp [IsMargin]
  have isComma : IsPlain ',' := by decide
  -- Behind each comma the blank of the separator is the margin of the next part.
  induction parts with
  | nil =>
      intro part margin before filled flush isSteady isMargin
      have padded : Steady (· ≠ ',') (margin ++ (part ++ [' '])) :=
        (isMargin.steady (by decide) (by decide)).append
          (isSteady.append (ending.steady (by decide) (by decide)))
      rw [List.intercalate_singleton, splitMarked_steady padded, List.map_singleton,
        trim_padded margin [' '] filled flush isMargin.isBlank ending.isBlank]
  | cons next later inductionHypothesis =>
      intro part margin before filled flush isSteady isMargin
      obtain ⟨nextFilled, nextFlush, nextSteady⟩ := steady next (List.mem_cons_self ..)
      have further := inductionHypothesis
        (fun other member => steady other (List.mem_cons_of_mem _ member)) (some ',') nextFilled
        nextFlush nextSteady ending
      have padded : Steady (· ≠ ',') (margin ++ part) :=
        (isMargin.steady (by decide) (by decide)).append isSteady
      have own : trim (margin ++ part) = part := by
        have trimmed := trim_padded margin [] filled flush isMargin.isBlank fun c member =>
          absurd member List.not_mem_nil
        rwa [List.append_nil] at trimmed
      have shape : margin ++ ([',', ' '].intercalate (part :: next :: later) ++ [' ']) =
          (margin ++ part) ++
            ',' :: ([' '] ++ ([',', ' '].intercalate (next :: later) ++ [' '])) := by
        simp only [List.intercalate_cons_cons, List.append_assoc, List.cons_append,
          List.nil_append]
      rw [shape, splitMarked_steady_append isComma padded, List.map_cons, own, further]

/-- Selectors are read back from a list of their texts. -/
theorem readSelectors_text {selectors : List Selector} (filled : selectors ≠ [])
    (written : ∀ selector ∈ selectors, selector.Written)
    (plain : ∀ selector ∈ selectors, selector.PlainNames) {margin : List Char}
    (isMargin : IsMargin margin) :
    readSelectors (margin ++
      ((String.intercalate ", " (selectors.map Selector.text)).toList ++ [' '])) = selectors := by
  have steady : ∀ selector ∈ selectors, selector.text.toList ≠ [] ∧
      Flush selector.text.toList ∧ Steady (· ≠ ',') selector.text.toList := fun selector member =>
    (Selector.steady_text (written selector member) (plain selector member) fun c isOne =>
      isOne.ne (by decide))
  obtain ⟨first, rest, rfl⟩ := List.exists_cons_of_ne_nil filled
  obtain ⟨firstFilled, firstFlush, firstSteady⟩ := steady first (List.mem_cons_self ..)
  have restSteady : ∀ part ∈ rest.map fun selector => selector.text.toList,
      part ≠ [] ∧ Flush part ∧ Steady (· ≠ ',') part := by
    intro part member
    obtain ⟨selector, isOne, rfl⟩ := List.mem_map.mp member
    exact steady selector (List.mem_cons_of_mem _ isOne)
  have parts := trim_splitMarked restSteady none firstFilled firstFlush firstSteady isMargin
  have text : (String.intercalate ", " ((first :: rest).map Selector.text)).toList =
      [',', ' '].intercalate
        (first.text.toList :: rest.map fun selector => selector.text.toList) := by
    rw [String.toList_intercalate, List.map_map]
    rfl
  calc readSelectors _
      = ((splitExposed ',' (margin ++
          ((String.intercalate ", " ((first :: rest).map Selector.text)).toList ++ [' ']))).map
            trim).filterMap readSelector? := by rw [readSelectors, List.filterMap_map]; rfl
    _ = ((first :: rest).map fun selector => selector.text.toList).filterMap readSelector? := by
        rw [splitExposed, marks, text, parts, List.map_cons]
    _ = first :: rest := filterMap_map_eq_self fun selector member =>
        Selector.readSelector?_text (written selector member) (plain selector member)

end StyledWidgets.Sheet
