/-
Module: StyledWidgets.Proofs.SpelledSelectors
Purpose: The ways of writing a selector, and that each of them is read as the selector. A chain of
  components is written with signs between them, a component with its requirements in any order;
  the text of a selector is one of these ways. What is read from a text without escapes is such a
  chain again, so its text leads back to it.
Main exports: IsWord, Compound.Spellable, SpelledChain, SpelledSelector, readSelector?_spelled,
  Selector.Written.spelled_text, spelling_exact
-/
import Mathlib.Data.List.Forall2
import StyledWidgets.Proofs.ScannedText
import StyledWidgets.Proofs.SelectorChains

namespace StyledWidgets.Sheet

open StyledWidgets.Text

/-! ### Names -/

theorem ne_of_isNameChar {c d : Char} (isName : isNameChar c = true)
    (noName : isNameChar d = false) : c ≠ d := by
  intro same
  rw [same, noName] at isName
  cases isName

/-- The name can be written without escapes: it is not empty, and all its characters belong to
names. -/
def IsWord (name : String) : Prop := name.toList ≠ [] ∧ ∀ c ∈ name.toList, isNameChar c = true

instance : DecidablePred IsWord := fun name =>
  inferInstanceAs (Decidable (name.toList ≠ [] ∧ ∀ c ∈ name.toList, isNameChar c = true))

theorem PseudoClass.isWord_name (pseudo : PseudoClass) : IsWord pseudo.name := by
  cases pseudo <;> decide +kernel

/-- Lowering keeps characters in names and out of them. -/
theorem isNameChar_of_toLower {c : Char} (isName : isNameChar c.toLower = true) :
    isNameChar c = true := by
  by_cases capital : c.isUpper = true
  · have letter : c.isAlpha = true := Bool.or_eq_true_iff.mpr (.inl capital)
    simp only [isNameChar, Char.isAlphanum, letter, Bool.true_or]
  · have same : c.toLower = c := dif_neg fun range => capital (decide_eq_true range)
    rwa [same] at isName

/-- What follows does not continue a name. -/
def EndsName (rest : List Char) : Prop := ∀ c ∈ rest.head?, c ≠ '\\' ∧ isNameChar c = false

theorem endsName_cons {c : Char} {rest : List Char} (noEscape : c ≠ '\\')
    (noName : isNameChar c = false) : EndsName (c :: rest) := by
  intro other first
  rw [← Option.some_inj.mp first]
  exact ⟨noEscape, noName⟩

section Scanning

variable {name rest : List Char} (isName : ∀ c ∈ name, isNameChar c = true)
  (ends : EndsName rest)

include isName ends

/-- A name reaches to the first character that does not belong to it. -/
theorem scanSelector_inName (role : NameRole) :
    ∀ sofar, scanSelector (.inName role sofar) (name ++ rest) =
      .name role (sofar ++ name) :: scanSelector .between rest := by
  induction name with
  | nil =>
      intro sofar
      rw [List.nil_append, List.append_nil]
      cases rest with
      | nil => rfl
      | cons c later =>
          obtain ⟨noEscape, noName⟩ := ends c rfl
          simp only [scanSelector, noEscape, noName, Bool.false_eq_true, if_false]
  | cons c further inductionHypothesis =>
      intro sofar
      have here := isName c (List.mem_cons_self ..)
      have noEscape : c ≠ '\\' := ne_of_isNameChar here (by decide)
      have behind := inductionHypothesis fun d member => isName d (List.mem_cons_of_mem _ member)
      simp only [List.cons_append, scanSelector, noEscape, here, if_false, if_true, behind,
        List.append_assoc, List.cons_append, List.nil_append]

theorem scanSelector_element (filled : name ≠ []) :
    scanSelector .between (name ++ rest) = .name .element name :: scanSelector .between rest := by
  cases name with
  | nil => exact absurd rfl filled
  | cons c further =>
      have here := isName c (List.mem_cons_self ..)
      have noSpace : isSpace c = false := by
        rw [Bool.eq_false_iff]
        intro space
        simp only [isSpace, Bool.or_eq_true, beq_iff_eq] at space
        rcases space with (((rfl | rfl) | rfl) | rfl) | rfl <;> exact absurd here (by decide)
      have started : startToken c = ([], .inName .element [c]) := by
        simp only [startToken, noSpace, here, ne_of_isNameChar here (d := '>') (by decide),
          ne_of_isNameChar here (d := '*') (by decide),
          ne_of_isNameChar here (d := '#') (by decide),
          ne_of_isNameChar here (d := ':') (by decide),
          ne_of_isNameChar here (d := '.') (by decide), Bool.false_eq_true, if_false, if_true]
      rw [List.cons_append, scanSelector, started]
      exact scanSelector_inName (fun d member => isName d (List.mem_cons_of_mem _ member)) ends
        .element [c]

end Scanning

/-! ### Ways of writing a selector -/

/-- What the compound requires can be written without escapes. -/
structure Compound.Spellable (compound : Compound) : Prop where
  element : ∀ name ∈ compound.element, IsWord name
  id : ∀ name ∈ compound.id, IsWord name
  known : compound.pseudo.IsKnown

/-- Ways of writing a required type name: bare or behind a point. -/
inductive SpelledElement : Option String → List Char → Prop where
  | unnamed : SpelledElement none []
  | bare (name : String) : SpelledElement (some name) name.toList
  | dotted (name : String) : SpelledElement (some name) ('.' :: name.toList)

/-- What can be required behind a type name. -/
inductive Requirement where
  | id (name : String)
  | pseudo (pseudo : PseudoClass)
  deriving DecidableEq

/-- Ways of writing a requirement: the name of a pseudo-class has letters of either case. -/
inductive Requirement.Spelled : Requirement → List Char → Prop where
  | id (name : String) : Spelled (.id name) ('#' :: name.toList)
  | pseudo {pseudo : PseudoClass} {name : List Char} (same : lower name = pseudo.name.toList) :
      Spelled (.pseudo pseudo) (':' :: name)

/-- What the compound requires besides its type name is what is listed, in whatever order and
however often. -/
structure Compound.Lists (compound : Compound) (requirements : List Requirement) : Prop where
  id : ∀ name, .id name ∈ requirements ↔ compound.id = some name
  pseudo : ∀ pseudo, .pseudo pseudo ∈ requirements ↔ compound.pseudo.has pseudo = true

/-- Ways of writing a compound: a star where nothing is required, or whatever is required, the type
name first. -/
inductive Compound.Spelled : Compound → List Char → Prop where
  | star : Spelled .anything ['*']
  | listed {compound : Compound} {front : List Char} {requirements : List Requirement}
      {texts : List (List Char)} (element : SpelledElement compound.element front)
      (lists : compound.Lists requirements)
      (spelled : List.Forall₂ Requirement.Spelled requirements texts)
      (filled : front ++ texts.flatten ≠ []) : Spelled compound (front ++ texts.flatten)

theorem Compound.Spelled.filled {compound : Compound} {text : List Char}
    (spelled : compound.Spelled text) : text ≠ [] := by
  cases spelled with
  | star => exact List.cons_ne_nil _ _
  | listed _ _ _ filled => exact filled

/-- The text is made of white space, or empty. -/
def IsGap (text : List Char) : Prop := ∀ c ∈ text, isSpace c = true

/-- Ways of writing how a component is tied to the one before it. -/
inductive Relation.Spelled : Relation → List Char → Prop where
  | ancestor {gap : List Char} (filled : gap ≠ []) (isGap : IsGap gap) : Spelled .ancestor gap
  | parent {before behind : List Char} (isGap : IsGap before) (isGapToo : IsGap behind) :
      Spelled .parent (before ++ '>' :: behind)

/-- Ways of writing components one behind the other. -/
inductive SpelledChain : List (Relation × Compound) → List Char → Prop where
  | first {compound : Compound} {text : List Char} (spelled : compound.Spelled text) :
      SpelledChain [(.unstated, compound)] text
  | next {components : List (Relation × Compound)} {relation : Relation} {compound : Compound}
      {text sign last : List Char} (before : SpelledChain components text)
      (tied : relation.Spelled sign) (spelled : compound.Spelled last) :
      SpelledChain (components ++ [(relation, compound)]) (text ++ (sign ++ last))

/-- Ways of writing a selector with the components: white space can stand around them. -/
inductive SpelledSelector : List (Relation × Compound) → List Char → Prop where
  | padded {components : List (Relation × Compound)} {before text behind : List Char}
      (isGap : IsGap before) (chain : SpelledChain components text) (isGapToo : IsGap behind) :
      SpelledSelector components (before ++ (text ++ behind))

/-! ### Reading what is written -/

namespace SelectorDraft

variable {draft middle after : SelectorDraft} {text later : List Char}

/-- The text leads from one draft to another, if nothing behind it continues a name. -/
def Reads (draft : SelectorDraft) (text : List Char) (after : SelectorDraft) : Prop :=
  ∀ rest, EndsName rest →
    (scanSelector .between (text ++ rest)).foldlM SelectorDraft.add? draft =
      (scanSelector .between rest).foldlM SelectorDraft.add? after

theorem Reads.append (first : draft.Reads text middle) (second : middle.Reads later after)
    (ends : ∀ rest, EndsName rest → EndsName (later ++ rest)) :
    draft.Reads (text ++ later) after := by
  intro rest isEnd
  rw [List.append_assoc, first _ (ends rest isEnd), second rest isEnd]

/-- A text that is one token leads to where the token leads. -/
theorem reads_of_token {token : SelectorToken} (added : draft.add? token = some after)
    (scanned : ∀ rest, EndsName rest →
      scanSelector .between (text ++ rest) = token :: scanSelector .between rest) :
    draft.Reads text after := by
  intro rest isEnd
  rw [scanned rest isEnd, List.foldlM_cons, added, Option.bind_eq_bind, Option.bind_some]

theorem reads_nil (draft : SelectorDraft) : draft.Reads [] draft := fun _ _ => rfl

end SelectorDraft

/-- The compound with one more requirement. -/
def Compound.require (compound : Compound) : Requirement → Compound
  | .id name => { compound with id := some name }
  | .pseudo pseudo => { compound with pseudo := compound.pseudo.insert pseudo }

/-- The draft with one more requirement. -/
def SelectorDraft.require (draft : SelectorDraft) (requirement : Requirement) : SelectorDraft :=
  { draft with current := some (draft.compound.require requirement) }

theorem PseudoClass.ofName?_of_lower {pseudo : PseudoClass} {name : List Char}
    (same : lower name = pseudo.name.toList) : ofName? name = some pseudo := by
  have known : ∀ one : PseudoClass, all.find? (fun other => other.name == one.name) = some one := by
    intro one
    cases one <;> decide +kernel
  rw [ofName?, same, String.ofList_toList]
  exact known pseudo

/-- A requirement is read in whatever way it is written. -/
theorem Requirement.Spelled.reads {requirement : Requirement} {text : List Char}
    (spelled : requirement.Spelled text) (words : ∀ name, requirement = .id name → IsWord name)
    (draft : SelectorDraft) :
    (∀ rest, EndsName (text ++ rest)) ∧ draft.Reads text (draft.require requirement) := by
  cases spelled with
  | id name =>
      have isWord := words name rfl
      have added : draft.add? (.name .id name.toList) = some (draft.require (.id name)) := by
        rw [SelectorDraft.add?, if_neg isWord.1, String.ofList_toList]
        rfl
      exact ⟨fun _ => endsName_cons (by decide) (by decide),
        SelectorDraft.reads_of_token added fun _ isEnd =>
          scanSelector_inName isWord.2 isEnd .id []⟩
  | @pseudo pseudo name same =>
      have added : draft.add? (.name .pseudo name) = some (draft.require (.pseudo pseudo)) := by
        rw [SelectorDraft.add?, PseudoClass.ofName?_of_lower same]
        rfl
      have isName : ∀ c ∈ name, isNameChar c = true := by
        intro c member
        have lowered : c.toLower ∈ pseudo.name.toList := same ▸ List.mem_map_of_mem member
        exact isNameChar_of_toLower (pseudo.isWord_name.2 _ lowered)
      exact ⟨fun _ => endsName_cons (by decide) (by decide),
        SelectorDraft.reads_of_token added fun _ isEnd =>
          scanSelector_inName isName isEnd .pseudo []⟩

/-- Requirements are read one after the other. -/
theorem SelectorDraft.reads_requirements {requirements : List Requirement}
    {texts : List (List Char)} (spelled : List.Forall₂ Requirement.Spelled requirements texts)
    (words : ∀ name, .id name ∈ requirements → IsWord name) :
    (∀ rest, EndsName rest → EndsName (texts.flatten ++ rest)) ∧
      ∀ draft : SelectorDraft,
        draft.Reads texts.flatten (requirements.foldl SelectorDraft.require draft) := by
  induction spelled with
  | nil => exact ⟨fun _ isEnd => isEnd, fun draft => draft.reads_nil⟩
  | cons one _ inductionHypothesis =>
      obtain ⟨ends, further⟩ := inductionHypothesis fun name member =>
        words name (List.mem_cons_of_mem _ member)
      have own := one.reads fun name same => words name (same ▸ List.mem_cons_self ..)
      constructor
      · intro rest _
        rw [List.flatten_cons, List.append_assoc]
        exact (own {}).1 _
      · intro draft
        exact (own draft).2.append (further _) ends

/-- Requirements that are added to a draft are added to its compound. -/
theorem SelectorDraft.foldl_require (requirements : List Requirement) :
    ∀ draft : SelectorDraft, draft.current ≠ none ∨ requirements ≠ [] →
      requirements.foldl SelectorDraft.require draft =
        { draft with
          current := some (requirements.foldl Compound.require draft.compound) } := by
  induction requirements with
  | nil =>
      intro draft started
      obtain ⟨finished, current, pending⟩ := draft
      cases current with
      | none => simp at started
      | some compound => rfl
  | cons requirement later inductionHypothesis =>
      intro draft _
      exact inductionHypothesis (draft.require requirement) (Or.inl (Option.some_ne_none _))

/-! ### Reading compounds -/

section Requirements

variable {requirements : List Requirement}

theorem element_foldl_require (requirements : List Requirement) (compound : Compound) :
    (requirements.foldl Compound.require compound).element = compound.element := by
  induction requirements generalizing compound with
  | nil => rfl
  | cons requirement later inductionHypothesis =>
      rw [List.foldl_cons, inductionHypothesis]
      cases requirement <;> rfl

/-- If all object names that are listed are the same, it is the one that is required in the end. -/
theorem id_foldl_require {id : Option String}
    (only : ∀ name, .id name ∈ requirements → id = some name) :
    ∀ compound : Compound, compound.id = id ∨ (∃ name, .id name ∈ requirements) →
      (requirements.foldl Compound.require compound).id = id := by
  induction requirements with
  | nil =>
      rintro compound (same | ⟨name, member⟩)
      · exact same
      · exact absurd member List.not_mem_nil
  | cons requirement later inductionHypothesis =>
      intro compound settled
      refine inductionHypothesis (fun name member => only name (List.mem_cons_of_mem _ member))
        (compound.require requirement) ?_
      cases requirement with
      | id name => exact Or.inl (only name (List.mem_cons_self ..)).symm
      | pseudo _ => simpa [Compound.require] using settled

theorem pseudo_foldl_require (compound : Compound) :
    (requirements.foldl Compound.require compound).pseudo =
      (requirements.filterMap fun requirement =>
        match requirement with
        | .id _ => none
        | .pseudo pseudo => some pseudo).foldl PseudoMask.insert compound.pseudo := by
  induction requirements generalizing compound with
  | nil => rfl
  | cons requirement later inductionHypothesis =>
      rw [List.foldl_cons, inductionHypothesis]
      cases requirement <;> rfl

/-- Whatever a compound requires besides its type name leads to the compound, however it is
listed. -/
theorem Compound.Lists.foldl_require {compound : Compound} (lists : compound.Lists requirements)
    (known : compound.pseudo.IsKnown) :
    requirements.foldl Compound.require ⟨compound.element, none, PseudoMask.empty⟩ = compound := by
  have element := element_foldl_require requirements ⟨compound.element, none, PseudoMask.empty⟩
  have id : (requirements.foldl Compound.require
      ⟨compound.element, none, PseudoMask.empty⟩).id = compound.id := by
    apply id_foldl_require fun name member => (lists.id name).mp member
    cases isId : compound.id with
    | none => exact Or.inl rfl
    | some name => exact Or.inr ⟨name, (lists.id name).mpr isId⟩
  have pseudo : (requirements.foldl Compound.require
      ⟨compound.element, none, PseudoMask.empty⟩).pseudo = compound.pseudo := by
    rw [pseudo_foldl_require]
    apply known.ofList_eq
    intro pseudo
    rw [← lists.pseudo, List.mem_filterMap]
    constructor
    · rintro ⟨requirement, member, isPseudo⟩
      cases requirement with
      | id _ => cases isPseudo
      | pseudo _ => cases isPseudo; exact member
    · exact fun member => ⟨_, member, rfl⟩
  generalize requirements.foldl Compound.require ⟨compound.element, none, PseudoMask.empty⟩ = read
    at element id pseudo ⊢
  cases read
  cases compound
  cases element
  cases id
  cases pseudo
  rfl

end Requirements

/-- A type name is read in whatever way it is written. -/
theorem SpelledElement.reads {element : Option String} {text : List Char}
    (spelled : SpelledElement element text) (words : ∀ name ∈ element, IsWord name)
    {draft : SelectorDraft} (isNext : draft.current = none) :
    draft.Reads text
      { draft with current := element.map fun name => ⟨some name, none, PseudoMask.empty⟩ } := by
  have named : ∀ name, IsWord name → draft.add? (.name .element name.toList) =
      some { draft with current := some ⟨some name, none, PseudoMask.empty⟩ } := by
    intro name isWord
    simp [SelectorDraft.add?, SelectorDraft.addElement?, isWord.1, SelectorDraft.compound, isNext,
      Compound.anything]
  cases spelled with
  | unnamed =>
      obtain ⟨finished, current, pending⟩ := draft
      cases isNext
      exact SelectorDraft.reads_nil _
  | bare name =>
      have isWord := words name rfl
      exact SelectorDraft.reads_of_token (named name isWord) fun _ isEnd =>
        scanSelector_element isWord.2 isEnd isWord.1
  | dotted name =>
      have isWord := words name rfl
      exact SelectorDraft.reads_of_token (named name isWord) fun _ isEnd =>
        scanSelector_inName isWord.2 isEnd .element []

/-- A compound is read in whatever way it is written. -/
theorem Compound.Spelled.reads {compound : Compound} {text : List Char}
    (spelled : compound.Spelled text) (spellable : compound.Spellable) (draft : SelectorDraft)
    (isNext : draft.current = none) :
    draft.Reads text { draft with current := some compound } := by
  cases spelled with
  | star =>
      have added : draft.add? .star = some { draft with current := some Compound.anything } := by
        rw [SelectorDraft.add?, SelectorDraft.compound, isNext, Option.getD_none]
      exact SelectorDraft.reads_of_token added fun _ _ => rfl
  | @listed _ front requirements texts element lists each filled =>
      obtain ⟨ends, further⟩ := SelectorDraft.reads_requirements each fun name member =>
        spellable.id name ((lists.id name).mp member)
      have own := element.reads spellable.element isNext
      have isNamed : (compound.element.map fun name =>
          Compound.mk (some name) none PseudoMask.empty).getD Compound.anything =
            ⟨compound.element, none, PseudoMask.empty⟩ := by
        cases compound.element <;> rfl
      have started : (compound.element.map fun name =>
          Compound.mk (some name) none PseudoMask.empty) ≠ none ∨ requirements ≠ [] := by
        by_cases unlisted : requirements = []
        · subst unlisted
          cases each
          cases isElement : compound.element with
          | some name => exact Or.inl (Option.some_ne_none _)
          | none =>
              rw [isElement] at element
              cases element
              exact absurd rfl filled
        · exact Or.inr unlisted
      have whole := SelectorDraft.foldl_require requirements
        { draft with
          current := compound.element.map fun name => ⟨some name, none, PseudoMask.empty⟩ } started
      rw [SelectorDraft.compound, isNamed, lists.foldl_require spellable.known] at whole
      exact whole ▸ own.append (further _) ends

/-! ### Reading chains -/

/-- White space ends a name. -/
theorem endsName_of_isSpace {c : Char} {rest : List Char} (space : isSpace c = true) :
    EndsName (c :: rest) := by
  simp only [isSpace, Bool.or_eq_true, beq_iff_eq] at space
  rcases space with (((rfl | rfl) | rfl) | rfl) | rfl <;>
    exact endsName_cons (by decide) (by decide)

theorem scanSelector_space {c : Char} (space : isSpace c = true) (rest : List Char) :
    scanSelector .between (c :: rest) = .space :: scanSelector .between rest := by
  simp only [scanSelector, startToken, space, if_true, List.singleton_append]

theorem IsGap.endsName {gap rest : List Char} (isGap : IsGap gap) (ends : EndsName rest) :
    EndsName (gap ++ rest) := by
  cases gap with
  | nil => exact ends
  | cons c later => exact endsName_of_isSpace (isGap c (List.mem_cons_self ..))

namespace SelectorDraft

/-- Between compounds white space says nothing. -/
theorem addAll_gap (draft : SelectorDraft) (isNext : draft.current = none) {gap : List Char}
    (isGap : IsGap gap) (rest : List Char) :
    (scanSelector .between (gap ++ rest)).foldlM SelectorDraft.add? draft =
      (scanSelector .between rest).foldlM SelectorDraft.add? draft := by
  have ignored : draft.add? .space = some draft := by
    simp [SelectorDraft.add?, isNext]
  induction gap with
  | nil => rfl
  | cons c later inductionHypothesis =>
      have further := inductionHypothesis fun d member => isGap d (List.mem_cons_of_mem _ member)
      rw [List.cons_append, scanSelector_space (isGap c (List.mem_cons_self ..)),
        List.foldlM_cons, ignored, Option.bind_eq_bind, Option.bind_some, further]

variable (finished : List (Relation × Compound)) (relation : Relation) (last : Compound)

/-- White space behind a compound asks for an ancestor. -/
theorem addAll_gap_started {gap : List Char} (isGap : IsGap gap) (filled : gap ≠ [])
    (rest : List Char) :
    (scanSelector .between (gap ++ rest)).foldlM SelectorDraft.add?
        ⟨finished, some last, relation⟩ =
      (scanSelector .between rest).foldlM SelectorDraft.add?
        ⟨finished ++ [(relation, last)], none, .ancestor⟩ := by
  obtain ⟨c, later, rfl⟩ := List.exists_cons_of_ne_nil filled
  have ended : SelectorDraft.add? ⟨finished, some last, relation⟩ .space =
      some ⟨finished ++ [(relation, last)], none, .ancestor⟩ := rfl
  rw [List.cons_append, scanSelector_space (isGap c (List.mem_cons_self ..)), List.foldlM_cons,
    ended, Option.bind_eq_bind, Option.bind_some]
  exact addAll_gap _ rfl (fun d member => isGap d (List.mem_cons_of_mem _ member)) rest

/-- Behind a compound a sign ties the next component to it, in whatever way it is written. -/
theorem addAll_sign {next : Relation} {sign : List Char} (tied : next.Spelled sign)
    (rest : List Char) :
    EndsName (sign ++ rest) ∧
      (scanSelector .between (sign ++ rest)).foldlM SelectorDraft.add?
          ⟨finished, some last, relation⟩ =
        (scanSelector .between rest).foldlM SelectorDraft.add?
          ⟨finished ++ [(relation, last)], none, next⟩ := by
  cases tied with
  | ancestor filled isGap =>
      refine ⟨?_, addAll_gap_started finished relation last isGap filled rest⟩
      obtain ⟨c, later, rfl⟩ := List.exists_cons_of_ne_nil filled
      exact endsName_of_isSpace (isGap c (List.mem_cons_self ..))
  | @parent before behind isGap isGapToo =>
      have sign : EndsName ('>' :: (behind ++ rest)) := endsName_cons (by decide) (by decide)
      have scanned : scanSelector .between ('>' :: (behind ++ rest)) =
          .child :: scanSelector .between (behind ++ rest) := rfl
      rw [List.append_assoc, List.cons_append]
      refine ⟨isGap.endsName sign, ?_⟩
      -- Whether or not white space has ended the compound already, the sign ends it.
      by_cases filled : before = []
      · rw [filled, List.nil_append, scanned]
        exact addAll_gap ⟨finished ++ [(relation, last)], none, .parent⟩ rfl isGapToo rest
      · rw [addAll_gap_started finished relation last isGap filled, scanned]
        exact addAll_gap ⟨finished ++ [(relation, last)], none, .parent⟩ rfl isGapToo rest

end SelectorDraft

/-- A chain is read in whatever way it is written. -/
theorem SpelledChain.reads {components : List (Relation × Compound)} {text : List Char}
    (spelled : SpelledChain components text)
    (spellable : ∀ component ∈ components, component.2.Spellable) :
    ∃ finished relation last, components = finished ++ [(relation, last)] ∧
      SelectorDraft.Reads {} text ⟨finished, some last, relation⟩ := by
  induction spelled with
  | @first compound text one =>
      exact ⟨[], .unstated, compound, rfl,
        one.reads (spellable _ (List.mem_cons_self ..)) {} rfl⟩
  | @next components relation compound text sign last _ tied one inductionHypothesis =>
      obtain ⟨finished, before, previous, rfl, isRead⟩ :=
        inductionHypothesis fun component member =>
          spellable component (List.mem_append_left _ member)
      refine ⟨finished ++ [(before, previous)], relation, compound, rfl, ?_⟩
      have own := one.reads (spellable (relation, compound) List.mem_concat_self)
        ⟨finished ++ [(before, previous)], none, relation⟩ rfl
      have behind : SelectorDraft.Reads ⟨finished, some previous, before⟩ (sign ++ last)
          ⟨finished ++ [(before, previous)], some compound, relation⟩ := by
        intro rest isEnd
        rw [List.append_assoc, (SelectorDraft.addAll_sign finished before previous tied _).2,
          own rest isEnd]
      refine isRead.append behind fun rest _ => ?_
      rw [List.append_assoc]
      exact (SelectorDraft.addAll_sign finished before previous tied _).1

/-- A selector is read in whatever way it is written. -/
theorem readSelector?_spelled {components : List (Relation × Compound)} {text : List Char}
    (spelled : SpelledSelector components text)
    (spellable : ∀ component ∈ components, component.2.Spellable) :
    readSelector? text = some (Selector.ofComponents components) := by
  obtain ⟨isGap, chain, isGapToo⟩ := spelled
  rename_i before inner behind
  obtain ⟨finished, relation, last, rfl, isRead⟩ := chain.reads spellable
  have noEnd : EndsName [] := fun _ first => absurd first (by simp)
  have ends : EndsName behind := by
    have padded := isGapToo.endsName noEnd
    rwa [List.append_nil] at padded
  have start := SelectorDraft.addAll_gap {} rfl isGap (inner ++ behind)
  rw [isRead behind ends] at start
  rw [readSelector?, selectorTokens, start]
  by_cases filled : behind = []
  · rw [filled]
    rfl
  · have ended := SelectorDraft.addAll_gap_started finished relation last isGapToo filled []
    rw [List.append_nil] at ended
    rw [ended]
    rfl

/-! ### Printed texts -/

/-- The text of a requirement. -/
def Requirement.text : Requirement → List Char
  | .id name => '#' :: name.toList
  | .pseudo one => ':' :: one.name.toList

/-- Whatever a compound requires besides its type name, in the order in which it is printed. -/
def Compound.requirements (compound : Compound) : List Requirement :=
  compound.id.toList.map .id ++ compound.pseudo.toList.map .pseudo

/-- The text of the pseudo-classes of a set. -/
theorem PseudoMask.toList_text (mask : PseudoMask) :
    mask.text.toList = mask.toList.flatMap fun pseudo => ':' :: pseudo.name.toList := by
  rw [text, String.toList_join, List.flatMap_map]
  simp only [String.toList_append]
  rfl

/-- A compound is printed as a star, or by its type name and its requirements. -/
theorem Compound.toList_text (compound : Compound) :
    compound.text.toList =
      if compound.isUniversal && compound.pseudo.isEmpty then ['*']
      else (compound.element.elim [] String.toList) ++
        compound.requirements.flatMap Requirement.text := by
  obtain ⟨element, id, pseudo⟩ := compound
  have pseudoText : (pseudo.toList.map Requirement.pseudo).flatMap Requirement.text =
      pseudo.text.toList := by
    rw [PseudoMask.toList_text, List.flatMap_map]
    rfl
  simp only [text, requirements, isUniversal, String.toList_append, List.flatMap_append,
    pseudoText]
  cases element with
  | some element => cases id <;> simp [Requirement.text]
  | none =>
      cases id with
      | some id => simp [Requirement.text]
      | none =>
          by_cases none : pseudo.isEmpty = true
          · have noBits : pseudo = PseudoMask.empty :=
              congrArg PseudoMask.mk (beq_iff_eq.mp none)
            subst noBits
            rfl
          · simp [none]

theorem Compound.lists_requirements (compound : Compound) :
    compound.Lists compound.requirements := by
  constructor
  case id => intro name; simp [requirements]
  case pseudo => intro pseudo; simp [requirements, PseudoMask.mem_toList]

theorem Requirement.spelled_text (requirement : Requirement) :
    requirement.Spelled requirement.text := by
  cases requirement with
  | id name => exact .id name
  | pseudo one =>
      have small : ∀ c ∈ one.name.toList, c.toLower = c := by cases one <;> decide
      refine .pseudo ?_
      rw [lower, List.map_congr_left small, List.map_id']

/-- The text of a compound is one of the ways of writing it. -/
theorem Compound.spelled_text {compound : Compound} (written : compound.Written) :
    compound.Spelled compound.text.toList := by
  have each : List.Forall₂ Requirement.Spelled compound.requirements
      (compound.requirements.map Requirement.text) := by
    rw [List.forall₂_map_right_iff, List.forall₂_same]
    exact fun requirement _ => requirement.spelled_text
  have front : SpelledElement compound.element (compound.element.elim [] String.toList) := by
    cases compound.element with
    | none => exact .unnamed
    | some name => exact .bare name
  rw [toList_text]
  split
  case isTrue universal =>
    obtain ⟨element, id, pseudo⟩ := compound
    simp only [isUniversal, Bool.and_eq_true, Option.isNone_iff_eq_none] at universal
    obtain ⟨⟨rfl, rfl⟩, none⟩ := universal
    have noBits : pseudo = PseudoMask.empty := congrArg PseudoMask.mk (beq_iff_eq.mp none)
    exact noBits ▸ .star
  case isFalse required =>
    refine .listed front compound.lists_requirements each fun empty => required ?_
    obtain ⟨noFront, noTexts⟩ := List.append_eq_nil_iff.mp empty
    have unlisted : compound.requirements = [] := by
      apply List.eq_nil_iff_forall_not_mem.mpr
      intro requirement member
      have text := List.flatten_eq_nil_iff.mp noTexts _ (List.mem_map_of_mem member)
      cases requirement <;> cases text
    obtain ⟨element, id, pseudo⟩ := compound
    have unnamed : element = none := by
      cases element with
      | none => rfl
      | some name =>
          exact absurd (congrArg some (String.toList_eq_nil_iff.mp noFront)) written.named.1
    obtain ⟨noId, noPseudo⟩ := List.append_eq_nil_iff.mp unlisted
    have none : pseudo.isEmpty = true := by
      by_contra filled
      exact written.known.toList_ne_nil filled (List.map_eq_nil_iff.mp noPseudo)
    have unidentified : id = Option.none := by
      cases id with
      | none => rfl
      | some _ => cases noId
    rw [isUniversal, unnamed, unidentified, none]
    rfl

/-- The sign that is printed between two components is one of the ways of writing it. -/
theorem Relation.spelled_separator {relation : Relation} (stated : relation ≠ .unstated) :
    relation.Spelled (Selector.separator relation).toList := by
  have gap : IsGap [' '] := by simp [IsGap, isSpace]
  cases relation with
  | unstated => exact absurd rfl stated
  | ancestor => exact .ancestor (List.cons_ne_nil _ _) gap
  | parent => exact .parent gap gap

/-- The text of a selector is one of the ways of writing its components. -/
theorem Selector.spelled_textOf {context : List (Relation × Compound)}
    (stated : ∀ step ∈ context, step.1 ≠ .unstated ∧ step.2.Written) :
    ∀ {subject : Compound}, subject.Written →
      SpelledChain (componentsOf subject context) (textOf subject context).toList := by
  induction context with
  | nil => exact fun written => .first (Compound.spelled_text written)
  | cons step above inductionHypothesis =>
      intro subject written
      obtain ⟨relation, next⟩ := step
      obtain ⟨isStated, nextWritten⟩ := stated _ (List.mem_cons_self ..)
      have before := inductionHypothesis
        (fun other member => stated other (List.mem_cons_of_mem _ member)) nextWritten
      simp only [componentsOf, textOf, String.toList_append, List.append_assoc]
      exact .next before (Relation.spelled_separator isStated) (Compound.spelled_text written)

theorem Selector.Written.spelled_text {selector : Selector} (written : selector.Written) :
    SpelledSelector selector.components selector.text.toList := by
  have noGap : IsGap [] := fun _ member => absurd member List.not_mem_nil
  have padded := SpelledSelector.padded noGap
    (Selector.spelled_textOf written.context written.subject) noGap
  rwa [List.nil_append, List.append_nil] at padded

/-! ### Texts without escapes -/

/-- Unless a character is a backslash, it ends the name before it or starts a name of its own. -/
theorem startToken_cases {c : Char} (noEscape : c ≠ '\\') :
    (∃ tokens, startToken c = (tokens, .between) ∧ ∀ role name, .name role name ∉ tokens) ∨
      ∃ role sofar, startToken c = ([], .inName role sofar) ∧
        ∀ d ∈ sofar, isNameChar d = true := by
  simp only [startToken, noEscape, if_false]
  split_ifs with space child star id pseudo point isName
  · exact Or.inl ⟨_, rfl, by simp⟩
  · exact Or.inl ⟨_, rfl, by simp⟩
  · exact Or.inl ⟨_, rfl, by simp⟩
  · exact Or.inr ⟨_, _, rfl, by simp⟩
  · exact Or.inr ⟨_, _, rfl, by simp⟩
  · exact Or.inr ⟨_, _, rfl, by simp⟩
  · exact Or.inr ⟨_, _, rfl, by simpa using isName⟩
  · exact Or.inl ⟨_, rfl, by simp⟩

/-- All names among the tokens of a text without backslashes are made of characters of names. -/
theorem isNameChar_of_mem_scanSelector {text : List Char} (noEscape : '\\' ∉ text)
    {role : NameRole} {name : List Char} :
    (.name role name ∈ scanSelector .between text → ∀ c ∈ name, isNameChar c = true) ∧
      ∀ other sofar, (∀ c ∈ sofar, isNameChar c = true) →
        .name role name ∈ scanSelector (.inName other sofar) text →
          ∀ c ∈ name, isNameChar c = true := by
  induction text with
  | nil =>
      refine ⟨fun member => absurd member List.not_mem_nil, fun other sofar chars member => ?_⟩
      rw [scanSelector, List.mem_singleton] at member
      cases member
      exact chars
  | cons c rest inductionHypothesis =>
      rw [List.mem_cons, not_or] at noEscape
      obtain ⟨between, inName⟩ := inductionHypothesis noEscape.2
      have here : .name role name ∈ (startToken c).1 ++ scanSelector (startToken c).2 rest →
          ∀ c ∈ name, isNameChar c = true := by
        rcases startToken_cases (Ne.symm noEscape.1) with
          ⟨tokens, started, noName⟩ | ⟨own, sofar, started, chars⟩
        · rw [started]
          exact fun member => between ((List.mem_append.mp member).resolve_left (noName _ _))
        · rw [started]
          exact inName own sofar chars
      refine ⟨here, fun other sofar chars member => ?_⟩
      simp only [scanSelector, Ne.symm noEscape.1, if_false] at member
      split at member
      case isTrue isName =>
        refine inName other (sofar ++ [c]) ?_ member
        simpa [or_imp, forall_and] using ⟨chars, isName⟩
      case isFalse =>
        rcases List.mem_cons.mp member with same | further
        · cases same
          exact chars
        · exact here further

/-- A requirement that is gained from a text without backslashes can be written without them. -/
theorem Compound.Gains.spellable {text : List Char} (noEscape : '\\' ∉ text)
    {token : SelectorToken} (member : token ∈ selectorTokens text) {before after : Compound}
    (gains : Gains token before after) (spellable : before.Spellable) : after.Spellable := by
  have isWord : ∀ {role name}, name ≠ [] → .name role name ∈ selectorTokens text →
      IsWord (String.ofList name) := by
    intro role name filled isOne
    rw [IsWord, String.toList_ofList]
    exact ⟨filled, (isNameChar_of_mem_scanSelector noEscape).1 isOne⟩
  cases gains with
  | element filled =>
      exact ⟨fun name same => Option.some_inj.mp same ▸ isWord filled member, spellable.id,
        spellable.known⟩
  | id filled =>
      exact ⟨spellable.element, fun name same => Option.some_inj.mp same ▸ isWord filled member,
        spellable.known⟩
  | pseudo pseudo => exact ⟨spellable.element, spellable.id, spellable.known.insert pseudo⟩

theorem Compound.spellable_anything : anything.Spellable :=
  ⟨fun _ none => absurd none (by simp [anything]), fun _ none => absurd none (by simp [anything]),
    PseudoMask.isKnown_empty⟩

theorem Compound.Spellable.written {compound : Compound} (spellable : compound.Spellable) :
    compound.Written :=
  ⟨⟨fun empty => (spellable.element "" empty).1 rfl, fun empty => (spellable.id "" empty).1 rfl⟩,
    spellable.known⟩

/-! ### The text of a selector and its other spellings -/

/-- A chain whose names are words belongs to one selector. The text of the selector is one of the
ways of writing the chain, and all of them are read as the selector. What is read from any text
without backslashes is such a selector, so it is read back from its own text. -/
theorem spelling_exact :
    (∀ components, IsChain components → (∀ component ∈ components, component.2.Spellable) →
      ∃ selector : Selector, selector.components = components ∧
        SpelledSelector components selector.text.toList ∧
          ∀ text, SpelledSelector components text → readSelector? text = some selector) ∧
    ∀ text selector, '\\' ∉ text → readSelector? text = some selector →
      SpelledSelector selector.components selector.text.toList ∧
        readSelector? selector.text.toList = some selector := by
  constructor
  · intro components chain spellable
    have same := Selector.components_of_isChain chain
    have written : (Selector.ofComponents components).Written := by
      rw [Selector.written_iff, same]
      exact ⟨chain, fun component member => (spellable component member).written⟩
    refine ⟨Selector.ofComponents components, same, ?_, fun text spelled =>
      readSelector?_spelled spelled spellable⟩
    have printed := written.spelled_text
    rwa [same] at printed
  · intro text selector noEscape read
    have printed := (readSelector?_written read).spelled_text
    have spellable := readSelector?_each Compound.spellable_anything
      (fun _ member _ _ gains => gains.spellable noEscape member) read
    have again := readSelector?_spelled printed spellable
    rw [Selector.ofComponents_components] at again
    exact ⟨printed, again⟩

/-- The button with the name `ok` under the pointer, right inside a dialog. -/
def okButton : List (Relation × Compound) :=
  [(.unstated, { element := "Dialog" }),
    (.parent, { element := "Button", id := "ok", pseudo := PseudoMask.single .hover })]

/-- One of the ways of writing `okButton`. -/
def okButtonText : List Char := " .Dialog>\tButton:HOVER#ok:hover\n".toList

/-- `okButtonText` writes `okButton`: the type name of the dialog behind a point, the pseudo-class
twice, and white space on one side of the sign only. -/
theorem spelled_okButtonText : SpelledSelector okButton okButtonText := by
  have hover : lower "HOVER".toList = PseudoClass.hover.name.toList := by decide
  have hoverToo : lower "hover".toList = PseudoClass.hover.name.toList := by decide
  have nothing : Compound.Lists { element := "Dialog" } [] :=
    ⟨fun name => by simp, fun one => by cases one <;> decide⟩
  have named : Compound.Lists { element := "Button", id := "ok", pseudo := .single .hover }
      [.pseudo .hover, .id "ok", .pseudo .hover] :=
    ⟨fun name => by simp [eq_comm], fun one => by cases one <;> decide⟩
  have dialog := Compound.Spelled.listed (.dotted "Dialog") nothing .nil (List.cons_ne_nil _ _)
  have button := Compound.Spelled.listed (.bare "Button") named
    (.cons (.pseudo hover) (.cons (.id "ok") (.cons (.pseudo hoverToo) .nil))) (by decide)
  have noGap : IsGap [] := by simp [IsGap]
  have gap : IsGap [' '] ∧ IsGap ['\t'] ∧ IsGap ['\n'] := by simp [IsGap, isSpace]
  have chain := SpelledChain.next (.first dialog) (Relation.Spelled.parent noGap gap.2.1) button
  exact SpelledSelector.padded gap.1 chain gap.2.2

theorem spelling_exact_okButton :
    IsChain okButton ∧ (∀ component ∈ okButton, component.2.Spellable) ∧
      SpelledSelector okButton okButtonText ∧ '\\' ∉ okButtonText ∧
        ∃ selector : Selector, selector.components = okButton ∧
          selector.text = "Dialog > Button#ok:hover" ∧
            readSelector? okButtonText = some selector ∧
              readSelector? selector.text.toList = some selector := by
  have chain : IsChain okButton := by
    rw [okButton, isChain_cons]
    exact ⟨rfl, by simp⟩
  have known : (PseudoMask.single .hover).IsKnown :=
    PseudoMask.isKnown_empty.insert .hover
  have spellable : ∀ component ∈ okButton, component.2.Spellable := by
    have dialog : Compound.Spellable { element := "Dialog" } :=
      ⟨by simp; decide, by simp, PseudoMask.isKnown_empty⟩
    have button : Compound.Spellable
        { element := "Button", id := "ok", pseudo := PseudoMask.single .hover } :=
      ⟨by simp; decide, by simp; decide, known⟩
    simp [okButton, dialog, button]
  have noEscape : '\\' ∉ okButtonText := by decide
  obtain ⟨selector, components, -, each⟩ := spelling_exact.1 okButton chain spellable
  have read := each okButtonText spelled_okButtonText
  have printed : selector.text = "Dialog > Button#ok:hover" := by
    have own := Selector.ofComponents_components selector
    rw [components] at own
    rw [← own]
    decide
  exact ⟨chain, spellable, spelled_okButtonText, noEscape, selector, components, printed, read,
    (spelling_exact.2 okButtonText selector noEscape read).2⟩

end StyledWidgets.Sheet
