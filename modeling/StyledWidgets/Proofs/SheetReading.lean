/-
Module: StyledWidgets.Proofs.SheetReading
Purpose: What the reading of a style sheet vouches for: no selector requires an empty name, and no
  rule is without a declaration. Matching and the choice of styles rely on both.
Main exports: Compound.Gains, SelectorDraft.add?_cases, Selector.exists_components,
  readSelector?_each, Compound.Named, Selector.Named, readSelector?_named, named_of_mem_parseSheet,
  declarations_of_mem_parseSheet, readRules_eq, parseSheet_sorted, parseSheet_order
-/
import StyledWidgets.Sheet.Reader

namespace StyledWidgets.Sheet

open StyledWidgets.Text

/-! ### Names that selectors require -/

/-- The names that the compound requires are not empty. -/
def Compound.Named (compound : Compound) : Prop :=
  compound.element ≠ some "" ∧ compound.id ≠ some ""

/-- The names that the subject and the path of a selector require are not empty. -/
def Selector.Named (selector : Selector) : Prop :=
  selector.subject.Named ∧ ∀ step ∈ selector.context, step.2.Named

theorem Compound.anything_named : anything.Named := by
  simp [Named, anything]

private theorem ofList_ne_empty {text : List Char} (filled : text ≠ []) :
    String.ofList text ≠ "" := by
  intro same
  apply filled
  simpa using congrArg String.toList same

/-! ### What a token does -/

/-- A token adds one requirement to a compound. -/
inductive Compound.Gains : SelectorToken → Compound → Compound → Prop where
  | element {compound : Compound} {text : List Char} (filled : text ≠ []) :
      Gains (.name .element text) compound { compound with element := String.ofList text }
  | id {compound : Compound} {text : List Char} (filled : text ≠ []) :
      Gains (.name .id text) compound { compound with id := String.ofList text }
  | pseudo {compound : Compound} {text : List Char} (pseudo : PseudoClass) :
      Gains (.name .pseudo text) compound
        { compound with pseudo := compound.pseudo.insert pseudo }

/-- A requirement that is gained leaves no required name empty. -/
theorem Compound.Gains.named {token : SelectorToken} {before after : Compound}
    (gains : Gains token before after) (named : before.Named) : after.Named := by
  cases gains with
  | element filled => exact ⟨fun same => ofList_ne_empty filled (Option.some.inj same), named.2⟩
  | id filled => exact ⟨named.1, fun same => ofList_ne_empty filled (Option.some.inj same)⟩
  | pseudo _ => exact named

namespace SelectorDraft

variable {draft after : SelectorDraft}

/-- A token that is not refused leaves the draft, ends its compound and says how the next one is
tied to it, or continues its compound. -/
theorem add?_cases {token : SelectorToken} (added : draft.add? token = some after) :
    after = draft ∨
      (∃ relation, relation ≠ .unstated ∧ after = { draft.finish with pending := relation }) ∨
        ∃ compound, (compound = draft.compound ∨ Compound.Gains token draft.compound compound) ∧
          after = { draft with current := some compound } := by
  cases token with
  | space =>
      rw [SelectorDraft.add?, Option.some_inj] at added
      split at added
      · exact Or.inr (Or.inl ⟨.ancestor, by decide, added.symm⟩)
      · exact Or.inl added.symm
  | child =>
      rw [SelectorDraft.add?, Option.some_inj] at added
      exact Or.inr (Or.inl ⟨.parent, by decide, added.symm⟩)
  | star =>
      rw [SelectorDraft.add?, Option.some_inj] at added
      exact Or.inr (Or.inr ⟨_, Or.inl rfl, added.symm⟩)
  | foreign => cases added
  | name role text =>
      cases role with
      | element =>
          simp only [SelectorDraft.add?, addElement?] at added
          split at added
          · cases added
          case isFalse filled =>
            split at added
            · cases added
              exact Or.inr (Or.inr ⟨_, Or.inr (.element filled), rfl⟩)
            · split at added
              · cases added
                exact Or.inl rfl
              · cases added
      | id =>
          simp only [SelectorDraft.add?] at added
          split at added
          · cases added
          case isFalse filled =>
            cases added
            exact Or.inr (Or.inr ⟨_, Or.inr (.id filled), rfl⟩)
      | pseudo =>
          simp only [SelectorDraft.add?, Option.map_eq_some_iff] at added
          obtain ⟨pseudo, -, rfl⟩ := added
          exact Or.inr (Or.inr ⟨_, Or.inr (.pseudo pseudo), rfl⟩)

/-- What every token that is added keeps holds of all that is read. -/
theorem addAll_induction {motive : SelectorDraft → Prop} {tokens : List SelectorToken}
    (step : ∀ token ∈ tokens, ∀ {draft after : SelectorDraft}, motive draft →
      draft.add? token = some after → motive after) :
    ∀ {draft : SelectorDraft}, motive draft →
      tokens.foldlM SelectorDraft.add? draft = some after → motive after := by
  induction tokens with
  | nil =>
      intro draft holds read
      cases read
      exact holds
  | cons token later inductionHypothesis =>
      intro draft holds read
      simp only [List.foldlM_cons, Option.bind_eq_bind, Option.bind_eq_some_iff] at read
      obtain ⟨next, added, further⟩ := read
      exact inductionHypothesis (fun other member => step other (List.mem_cons_of_mem _ member))
        (step token (List.mem_cons_self ..) holds added) further

/-- Something holds of every compound that has been read so far. -/
structure Each (P : Compound → Prop) (draft : SelectorDraft) : Prop where
  finished : ∀ component ∈ draft.finished, P component.2
  compound : P draft.compound

theorem Each.finish {P : Compound → Prop} (each : draft.Each P) (anything : P .anything) :
    draft.finish.Each P := by
  rw [SelectorDraft.finish]
  split
  case h_1 => exact each
  case h_2 compound started =>
    have current : draft.compound = compound := by simp [SelectorDraft.compound, started]
    refine ⟨?_, anything⟩
    intro component member
    rcases List.mem_append.mp member with before | last
    · exact each.finished component before
    · rw [List.mem_singleton.mp last]
      exact current ▸ each.compound

/-- What the compound without requirements has, and every compound that gains a requirement keeps,
is kept by a token. -/
theorem Each.add? {P : Compound → Prop} (each : draft.Each P) (anything : P .anything)
    {token : SelectorToken} (gains : ∀ {a b : Compound}, Compound.Gains token a b → P a → P b)
    (added : draft.add? token = some after) : after.Each P := by
  rcases add?_cases added with rfl | ⟨relation, -, rfl⟩ | ⟨compound, same | gained, rfl⟩
  · exact each
  · exact ⟨(each.finish anything).finished, (each.finish anything).compound⟩
  · exact ⟨each.finished, same ▸ each.compound⟩
  · exact ⟨each.finished, gains gained each.compound⟩

end SelectorDraft

/-! ### Components -/

namespace Selector

theorem components_foldl_descend (steps : List (Relation × Compound)) :
    ∀ selector : Selector,
      (steps.foldl (fun sofar step => sofar.descend step.1 step.2) selector).components =
        selector.components ++ steps := by
  induction steps with
  | nil => exact fun selector => (List.append_nil _).symm
  | cons step later inductionHypothesis =>
      intro selector
      have descended : (selector.descend step.1 step.2).components =
          selector.components ++ [step] := rfl
      rw [List.foldl_cons, inductionHypothesis, descended, List.append_assoc,
        List.singleton_append]

/-- A selector has the components it is made of; only the relation of the first is ignored. -/
theorem components_ofComponents (first : Relation × Compound)
    (later : List (Relation × Compound)) :
    (ofComponents (first :: later)).components = (.unstated, first.2) :: later :=
  components_foldl_descend later ⟨first.2, []⟩

/-- The first component states no relation. Of compounds and of the other relations, the components
say the same as the subject and its path. -/
theorem exists_components (selector : Selector) :
    ∃ first later, selector.components = (.unstated, first) :: later ∧
      ∀ (P : Compound → Prop) (Q : Relation → Prop),
        (P first ∧ ∀ component ∈ later, Q component.1 ∧ P component.2) ↔
          P selector.subject ∧ ∀ step ∈ selector.context, Q step.1 ∧ P step.2 := by
  obtain ⟨subject, context⟩ := selector
  induction context generalizing subject with
  | nil => exact ⟨subject, [], rfl, fun _ _ => Iff.rfl⟩
  | cons step above inductionHypothesis =>
      obtain ⟨relation, next⟩ := step
      obtain ⟨first, later, components, same⟩ := inductionHypothesis next
      refine ⟨first, later ++ [(relation, subject)], ?_, fun P Q => ?_⟩
      · have descended : (Selector.mk subject ((relation, next) :: above)).components =
            (Selector.mk next above).components ++ [(relation, subject)] := rfl
        rw [descended, components, List.cons_append]
      · rw [List.forall_mem_append, List.forall_mem_singleton, ← and_assoc, same P Q,
          List.forall_mem_cons]
        constructor
        · rintro ⟨⟨isNext, further⟩, isTied, isSubject⟩
          exact ⟨isSubject, ⟨isTied, isNext⟩, further⟩
        · rintro ⟨isSubject, ⟨isTied, isNext⟩, further⟩
          exact ⟨⟨isNext, further⟩, isTied, isSubject⟩

/-- All compounds of a selector are that of the subject and those of its path. -/
theorem forall_components {selector : Selector} {P : Compound → Prop} :
    (∀ component ∈ selector.components, P component.2) ↔
      P selector.subject ∧ ∀ step ∈ selector.context, P step.2 := by
  obtain ⟨first, later, components, same⟩ := selector.exists_components
  have whole := same P fun _ => True
  simp only [true_and] at whole
  rw [components, List.forall_mem_cons, whole]

end Selector

/-- The components of a selector that is read are those of the draft that its tokens lead to; a
draft without components stands for a compound without requirements. -/
theorem readSelector?_components {text : List Char} {selector : Selector}
    (read : readSelector? text = some selector) :
    ∃ draft first later, (selectorTokens text).foldlM SelectorDraft.add? {} = some draft ∧
      selector.components = (.unstated, first) :: later ∧
        (first = .anything ∧ later = [] ∨
          ∃ relation, draft.finish.finished = (relation, first) :: later) := by
  simp only [readSelector?, Option.map_eq_some_iff] at read
  obtain ⟨draft, isRead, rfl⟩ := read
  cases isFinished : draft.finish.finished with
  | nil => exact ⟨draft, .anything, [], isRead, rfl, Or.inl ⟨rfl, rfl⟩⟩
  | cons first later =>
      exact ⟨draft, first.2, later, isRead, Selector.components_ofComponents first later,
        Or.inr ⟨first.1, isFinished⟩⟩

/-- What the compound without requirements has, and every compound keeps that gains one of the
requirements of a text, holds of all compounds of the selector that the text is read as. -/
theorem readSelector?_each {text : List Char} {selector : Selector} {P : Compound → Prop}
    (anything : P .anything)
    (gains : ∀ token ∈ selectorTokens text, ∀ {a b : Compound}, Compound.Gains token a b →
      P a → P b)
    (read : readSelector? text = some selector) :
    ∀ component ∈ selector.components, P component.2 := by
  obtain ⟨draft, first, later, isRead, components, origin⟩ := readSelector?_components read
  have start : SelectorDraft.Each P {} :=
    ⟨fun _ member => absurd member List.not_mem_nil, anything⟩
  have each := ((SelectorDraft.addAll_induction (fun token member _ _ holds added =>
    holds.add? anything (gains token member) added) start isRead).finish anything).finished
  intro component member
  rw [components] at member
  rcases origin with ⟨rfl, rfl⟩ | ⟨relation, finished⟩
  · rw [List.mem_singleton.mp member]
    exact anything
  · rw [finished] at each
    rcases List.mem_cons.mp member with rfl | further
    · exact each (relation, first) (List.mem_cons_self ..)
    · exact each component (List.mem_cons_of_mem _ further)

/-- No selector that is read requires an empty name. -/
theorem readSelector?_named {text : List Char} {selector : Selector}
    (read : readSelector? text = some selector) : selector.Named := by
  have named := readSelector?_each Compound.anything_named
    (fun _ _ _ _ gains named => gains.named named) read
  exact Selector.forall_components.mp named

/-! ### Rules that are read -/

theorem readRule?_eq (order : Nat) (block : Block) :
    readRule? order block = (readRule? 0 block).map fun rule => { rule with order := order } := by
  simp only [readRule?]
  split <;> rfl

/-- The order of a rule is its place among the rules that can be read. -/
theorem readRules_eq (blocks : List Block) :
    ∀ start : Nat, readRules start blocks =
      ((blocks.filterMap (readRule? 0)).zipIdx start).map fun (rule, place) =>
        { rule with order := place } := by
  induction blocks with
  | nil => exact fun _ => rfl
  | cons block later inductionHypothesis =>
      intro start
      rw [readRules, readRule?_eq]
      cases read : readRule? 0 block with
      | none => rw [List.filterMap_cons_none read, inductionHypothesis]; rfl
      | some rule =>
          rw [List.filterMap_cons_some read, List.zipIdx_cons, List.map_cons,
            ← inductionHypothesis]
          rfl

private theorem mem_readRules {rule : StyleRule} {blocks : List Block} {start : Nat}
    (member : rule ∈ readRules start blocks) :
    ∃ order, ∃ block ∈ blocks, readRule? order block = some rule := by
  rw [readRules_eq, List.mem_map] at member
  obtain ⟨⟨first, place⟩, isNumbered, rfl⟩ := member
  obtain ⟨block, isBlock, read⟩ :=
    List.mem_filterMap.mp (List.fst_mem_of_mem_zipIdx isNumbered)
  refine ⟨place, block, isBlock, ?_⟩
  rw [readRule?_eq, read]
  rfl

theorem order_of_getElem?_readRules {rule : StyleRule} {blocks : List Block} {start i : Nat}
    (found : (readRules start blocks)[i]? = some rule) : rule.order = start + i := by
  rw [readRules_eq, List.getElem?_map, List.getElem?_zipIdx] at found
  simp only [Option.map_map, Option.map_eq_some_iff] at found
  obtain ⟨first, -, rfl⟩ := found
  rfl

/-- A rule is made of what can be read of its block, with at least one declaration. -/
theorem readRule?_eq_some {order : Nat} {block : Block} {rule : StyleRule}
    (read : readRule? order block = some rule) :
    rule.selectors = readSelectors block.selectors ∧
      rule.declarations = readDeclarations block.body ∧ rule.declarations ≠ [] ∧
        rule.order = order := by
  simp only [readRule?] at read
  split at read
  · cases read
  · cases read
  case h_3 filled =>
    cases read
    exact ⟨rfl, rfl, filled, rfl⟩

/-- The rules of a sheet are numbered in their order. -/
theorem parseSheet_sorted (text : String) :
    (parseSheet text).Pairwise fun a b => a.order < b.order := by
  rw [List.pairwise_iff_getElem]
  intro i j inside insideToo less
  have first := order_of_getElem?_readRules (List.getElem?_eq_getElem inside)
  have second := order_of_getElem?_readRules (List.getElem?_eq_getElem insideToo)
  omega

/-- A rule stands in its sheet at the place that it says. -/
theorem parseSheet_order {text : String} {rule : StyleRule} (member : rule ∈ parseSheet text) :
    (parseSheet text)[rule.order]? = some rule := by
  obtain ⟨i, found⟩ := List.mem_iff_getElem?.mp member
  have order := order_of_getElem?_readRules found
  rw [order, Nat.zero_add]
  exact found

theorem named_of_mem_parseSheet {text : String} {rule : StyleRule}
    (member : rule ∈ parseSheet text) {selector : Selector} (isOne : selector ∈ rule.selectors) :
    selector.Named := by
  obtain ⟨order, block, -, read⟩ := mem_readRules member
  simp only [(readRule?_eq_some read).1, readSelectors, List.mem_filterMap] at isOne
  obtain ⟨part, -, isRead⟩ := isOne
  exact readSelector?_named isRead

theorem declarations_of_mem_parseSheet {text : String} {rule : StyleRule}
    (member : rule ∈ parseSheet text) : rule.declarations ≠ [] := by
  obtain ⟨order, block, -, read⟩ := mem_readRules member
  exact (readRule?_eq_some read).2.2.1

end StyledWidgets.Sheet
