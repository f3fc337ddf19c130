/-
Module: StyledWidgets.Proofs.SheetContents
Purpose: What the rules of a sheet look like, whatever text they were read from. Every reader leaves
  out what it cannot finish, so nothing that is given is empty, out of place or without a meaning:
  the stages behind the readers look at no rule, declaration or selector twice.
Main exports: Selector.WellFormed, Declaration.WellFormed, StyleRule.WellFormed, WellFormed,
  parseSheet_wellFormed
-/
import StyledWidgets.Proofs.PrintedSheets

namespace StyledWidgets.Sheet

open StyledWidgets.Text

/-! ### Selectors -/

/-- The components of the selector follow on one another, and each of them can be written down. -/
structure Selector.WellFormed (selector : Selector) : Prop where
  chain : IsChain selector.components
  written : ∀ component ∈ selector.components, component.2.Written

/-! ### Declarations -/

/-- The declaration has values. A font family has one name for its value, and free text stands
nowhere but at the end of the values of a font or a font family. -/
structure Declaration.WellFormed (declaration : Declaration) : Prop where
  filled : declaration.values ≠ []
  family : declaration.property = .fontFamily →
    ∃ name, name ≠ "" ∧ declaration.values = [.string name]
  freeText : ∀ front free later, declaration.values = front ++ .string free :: later →
    (declaration.property = .font ∨ declaration.property = .fontFamily) ∧
      later = [] ∧ ∀ other, .string other ∉ front

/-- Proper values are no free text, so free text among them and at most one further value is that
further value. -/
theorem Value.front_of_proper {own last later : List Value} {free : String}
    (proper : ∀ value ∈ own, value.Proper) (short : last.length ≤ 1) :
    ∀ {front : List Value}, own ++ last = front ++ .string free :: later →
      front = own ∧ later = [] := by
  induction own with
  | nil =>
      intro front split
      have lengths := congrArg List.length split
      simp only [List.nil_append, List.length_append, List.length_cons] at lengths
      exact ⟨List.eq_nil_of_length_eq_zero (by omega), List.eq_nil_of_length_eq_zero (by omega)⟩
  | cons value others inductionHypothesis =>
      intro front split
      cases front with
      | nil =>
          rw [List.cons_append, List.nil_append, List.cons.injEq] at split
          have noText : Value.Proper (.string free) :=
            split.1 ▸ proper value (List.mem_cons_self ..)
          exact noText.elim
      | cons first front =>
          rw [List.cons_append, List.cons_append, List.cons.injEq] at split
          obtain ⟨rfl, further⟩ := split
          obtain ⟨rfl, ends⟩ := inductionHypothesis
            (fun other member => proper other (List.mem_cons_of_mem _ member)) further
          exact ⟨rfl, ends⟩

/-- Among the values that can be read for a property, free text is the last, and the property is one
that keeps it. -/
theorem Readable.freeText {property : Property} {values front later : List Value} {free : String}
    (readable : Readable property values) (split : values = front ++ .string free :: later) :
    (property = .font ∨ property = .fontFamily) ∧ later = [] ∧ ∀ other, .string other ∉ front := by
  have noText : ∀ {own : List Value}, (∀ value ∈ own, value.Proper) →
      ∀ other, .string other ∉ own := fun proper other member => proper _ member
  cases readable with
  | family text =>
      have none : ∀ value ∈ ([] : List Value), value.Proper := fun _ member =>
        absurd member List.not_mem_nil
      have short : [Value.string text].length ≤ 1 := Nat.le_refl 1
      obtain ⟨rfl, rfl⟩ := Value.front_of_proper none short split
      exact ⟨Or.inr rfl, rfl, fun _ => List.not_mem_nil⟩
  | font proper text =>
      have short : (text.toList.map Value.string).length ≤ 1 := by cases text <;> simp
      obtain ⟨rfl, rfl⟩ := Value.front_of_proper proper short split
      exact ⟨Or.inl rfl, rfl, noText proper⟩
  | other _ proper =>
      have member : Value.string free ∈ values := by simp [split]
      exact absurd member (noText proper free)

/-- A family that can be read has a name. -/
theorem readFamily_named {text : List Char} (filled : readFamily text ≠ []) :
    ∃ name, name ≠ "" ∧ readFamily text = [.string name] := by
  simp only [readFamily] at filled ⊢
  split at filled
  case isTrue => exact absurd rfl filled
  case isFalse isName =>
    refine ⟨_, fun empty => isName ?_, if_neg isName⟩
    rw [← String.toList_ofList (l := trim (trimQuotes (trim text))), empty, String.toList_empty]

/-- Whatever declaration is read is well formed. -/
theorem Declaration.wellFormed_of_read {text : List Char} {declaration : Declaration}
    (read : readDeclaration? text = some declaration) : declaration.WellFormed := by
  have written := Declaration.written_of_read read
  constructor
  case filled => exact written.filled
  case freeText => exact fun _ _ _ split => written.readable.freeText split
  case family =>
    intro isFamily
    simp only [readDeclaration?] at read
    split at read
    · cases read
    · split at read
      · cases read
      · split at read
        · cases read
        case h_2 filled =>
          cases read
          simp only at isFamily
          subst isFamily
          exact readFamily_named filled

/-! ### Rules -/

/-- The rule has selectors and declarations, and all of them are well formed. -/
structure StyleRule.WellFormed (rule : StyleRule) : Prop where
  selective : rule.selectors ≠ []
  selectors : ∀ selector ∈ rule.selectors, selector.WellFormed
  filled : rule.declarations ≠ []
  declarations : ∀ declaration ∈ rule.declarations, declaration.WellFormed

/-- Whatever rule is read is well formed. -/
theorem StyleRule.wellFormed_of_read {order : Nat} {block : Block} {rule : StyleRule}
    (read : readRule? order block = some rule) : rule.WellFormed := by
  have written := StyleRule.written_of_read read
  constructor
  case selective => exact written.selective
  case selectors => exact fun selector member =>
      let ⟨chain, each⟩ := Selector.written_iff.mp (written.selectors selector member)
      ⟨chain, each⟩
  case filled => exact written.filled
  case declarations =>
    intro declaration member
    rw [(readRule?_eq_some read).2.1, readDeclarations] at member
    obtain ⟨part, -, isRead⟩ := List.mem_filterMap.mp member
    exact Declaration.wellFormed_of_read isRead

/-- A rule among renumbered rules has its place for its order and is otherwise one of them. -/
theorem renumbered_getElem? {rules : List StyleRule} {place : Nat} {rule : StyleRule}
    (isThere : (renumbered rules)[place]? = some rule) :
    ∃ old ∈ rules, rule = { old with order := place } := by
  have places : renumbered rules =
      rules.zipIdx.map fun placed => { placed.1 with order := placed.2 } := rfl
  rw [places, List.getElem?_map, List.getElem?_zipIdx, Option.map_map,
    Option.map_eq_some_iff] at isThere
  obtain ⟨old, isOld, rfl⟩ := isThere
  exact ⟨old, List.mem_of_getElem? isOld, by simp⟩

/-! ### Sheets -/

/-- The rules of a sheet: each says at which place it stands, and each is well formed. -/
structure WellFormed (sheet : List StyleRule) : Prop where
  placed : ∀ (place : Nat) (rule : StyleRule), sheet[place]? = some rule → rule.order = place
  rules : ∀ rule ∈ sheet, rule.WellFormed

/-- Whatever text a sheet is read from, the rules of the sheet are well formed. -/
theorem parseSheet_wellFormed (text : String) : WellFormed (parseSheet text) := by
  obtain ⟨blocks, isRead⟩ : ∃ blocks : List Block,
      parseSheet text = renumbered (blocks.filterMap (readRule? 0)) := ⟨_, readRules_eq _ 0⟩
  rw [isRead]
  constructor
  case placed =>
    intro place rule isThere
    obtain ⟨old, -, rfl⟩ := renumbered_getElem? isThere
    rfl
  case rules =>
    intro rule member
    obtain ⟨place, isThere⟩ := List.mem_iff_getElem?.mp member
    obtain ⟨old, isOld, rfl⟩ := renumbered_getElem? isThere
    obtain ⟨block, -, oldRead⟩ := List.mem_filterMap.mp isOld
    -- Neither the selectors nor the declarations of a rule depend on its place.
    have oldWellFormed := StyleRule.wellFormed_of_read oldRead
    exact ⟨oldWellFormed.selective, oldWellFormed.selectors, oldWellFormed.filled,
      oldWellFormed.declarations⟩

end StyledWidgets.Sheet
