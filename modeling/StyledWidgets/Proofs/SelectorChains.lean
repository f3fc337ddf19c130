/-
Module: StyledWidgets.Proofs.SelectorChains
Purpose: Selectors that have been read can be written down: no required name is empty, all
  pseudo-classes are known, and the components are a chain in which each but the first says how it
  is tied to the one before it.
Main exports: PseudoMask.IsKnown, Compound.Written, Selector.Written, IsChain,
  Selector.written_iff, readSelector?_written
-/
import StyledWidgets.Proofs.SheetReading
import StyledWidgets.Proofs.StyleMatching

namespace StyledWidgets.Sheet

/-! ### Sets of pseudo-classes -/

namespace PseudoMask

variable {mask : PseudoMask}

/-- Only the bits of pseudo-classes are set. -/
def IsKnown (mask : PseudoMask) : Prop :=
  ∀ i, mask.bits.getLsbD i = true → i < PseudoClass.all.length

theorem getLsbD_single (pseudo : PseudoClass) (i : Nat) :
    (single pseudo).bits.getLsbD i = (pseudo.index == i) := by
  have small : pseudo.index < 32 := by cases pseudo <;> decide
  simp only [single, BitVec.getLsbD_twoPow, small, decide_true, Bool.true_and, beq_eq_decide]

theorem getLsbD_insert (pseudo : PseudoClass) (i : Nat) :
    (mask.insert pseudo).bits.getLsbD i = (mask.bits.getLsbD i || pseudo.index == i) := by
  simp only [insert, union, BitVec.getLsbD_or, getLsbD_single]

theorem isKnown_empty : empty.IsKnown := by
  intro i set
  simp [empty] at set

theorem IsKnown.insert (known : mask.IsKnown) (pseudo : PseudoClass) :
    (mask.insert pseudo).IsKnown := by
  intro i set
  simp only [getLsbD_insert, Bool.or_eq_true, beq_iff_eq] at set
  rcases set with already | rfl
  · exact known i already
  · cases pseudo <;> decide

theorem has_iff {pseudo : PseudoClass} :
    mask.has pseudo = true ↔ mask.bits.getLsbD pseudo.index = true := by
  simp [has, contains_iff, getLsbD_single]

theorem getLsbD_foldl_insert (pseudos : List PseudoClass) (i : Nat) :
    ∀ mask : PseudoMask, (pseudos.foldl insert mask).bits.getLsbD i =
      (mask.bits.getLsbD i || pseudos.any fun pseudo => pseudo.index == i) := by
  induction pseudos with
  | nil => simp
  | cons pseudo later inductionHypothesis =>
      intro mask
      simp only [List.foldl_cons, inductionHypothesis, getLsbD_insert, List.any_cons,
        Bool.or_assoc]

/-- Every place among the pseudo-classes is that of one. -/
theorem exists_index :
    ∀ i < PseudoClass.all.length, ∃ pseudo ∈ PseudoClass.all, pseudo.index = i := by
  decide

/-- A known set is that of its elements, in whatever order and however often they are listed. -/
theorem IsKnown.ofList_eq (known : mask.IsKnown) {pseudos : List PseudoClass}
    (listed : ∀ pseudo, pseudo ∈ pseudos ↔ mask.has pseudo = true) : ofList pseudos = mask := by
  have bits : (ofList pseudos).bits = mask.bits := by
    apply BitVec.eq_of_getLsbD_eq
    intro i _
    rw [ofList, getLsbD_foldl_insert, Bool.eq_iff_iff]
    simp only [empty, BitVec.ofNat_eq_ofNat, BitVec.getLsbD_zero, Bool.false_or,
      List.any_eq_true, listed, has_iff, beq_iff_eq]
    constructor
    · intro ⟨pseudo, isSet, place⟩
      exact place ▸ isSet
    · intro isSet
      obtain ⟨pseudo, -, place⟩ := exists_index i (known i isSet)
      exact ⟨pseudo, place ▸ isSet, place⟩
  exact congrArg PseudoMask.mk bits

theorem mem_toList {pseudo : PseudoClass} : pseudo ∈ mask.toList ↔ mask.has pseudo = true := by
  have isOne : pseudo ∈ PseudoClass.all := by cases pseudo <;> decide
  rw [toList, List.mem_filter, and_iff_right isOne]

theorem IsKnown.toList_ne_nil (known : mask.IsKnown) (filled : ¬mask.isEmpty = true) :
    mask.toList ≠ [] := by
  intro none
  have same := known.ofList_eq fun _ => mem_toList
  rw [none] at same
  exact filled (same ▸ rfl)

end PseudoMask

/-! ### Selectors that have been read -/

/-- The compound can be written down: no required name is empty, and the pseudo-classes are
known. -/
structure Compound.Written (compound : Compound) : Prop where
  named : compound.Named
  known : compound.pseudo.IsKnown

/-- The selector can be written down, its relations included. -/
structure Selector.Written (selector : Selector) : Prop where
  subject : selector.subject.Written
  context : ∀ step ∈ selector.context, step.1 ≠ .unstated ∧ step.2.Written

theorem Compound.written_anything : anything.Written :=
  ⟨anything_named, PseudoMask.isKnown_empty⟩

theorem Compound.Gains.known {token : SelectorToken} {before after : Compound}
    (gains : Gains token before after) (known : before.pseudo.IsKnown) :
    after.pseudo.IsKnown := by
  cases gains with
  | element _ => exact known
  | id _ => exact known
  | pseudo pseudo => exact known.insert pseudo

namespace SelectorDraft

variable {draft after : SelectorDraft}

/-- Whatever follows a finished component says how. -/
structure Stated (draft : SelectorDraft) : Prop where
  finished : ∀ component ∈ draft.finished.tail, component.1 ≠ .unstated
  pending : draft.finished ≠ [] → draft.pending ≠ .unstated

theorem Stated.finish (stated : draft.Stated) :
    ∀ component ∈ draft.finish.finished.tail, component.1 ≠ .unstated := by
  rw [SelectorDraft.finish]
  split
  case h_1 => exact stated.finished
  case h_2 compound started =>
    cases isFinished : draft.finished with
    | nil => exact fun _ member => absurd member List.not_mem_nil
    | cons first later =>
        intro component member
        rw [List.cons_append, List.tail_cons] at member
        rcases List.mem_append.mp member with before | last
        · exact stated.finished component (by rw [isFinished]; exact before)
        · rw [List.mem_singleton.mp last]
          exact stated.pending (by simp [isFinished])

theorem Stated.add? (stated : draft.Stated) {token : SelectorToken}
    (added : draft.add? token = some after) : after.Stated := by
  rcases add?_cases added with rfl | ⟨relation, isStated, rfl⟩ | ⟨compound, -, rfl⟩
  · exact stated
  · exact ⟨stated.finish, fun _ => isStated⟩
  · exact ⟨stated.finished, stated.pending⟩

end SelectorDraft

/-! ### Chains -/

/-- The components follow on one another: there is a first one, which states no relation, and every
other one says how it is tied to the one before it. -/
structure IsChain (components : List (Relation × Compound)) : Prop where
  filled : components ≠ []
  first : ∀ component ∈ components.head?, component.1 = .unstated
  later : ∀ component ∈ components.tail, component.1 = .ancestor ∨ component.1 = .parent

theorem Relation.stated_iff {relation : Relation} :
    relation ≠ .unstated ↔ relation = .ancestor ∨ relation = .parent := by
  cases relation <;> decide

theorem isChain_cons {relation : Relation} {first : Compound}
    {later : List (Relation × Compound)} :
    IsChain ((relation, first) :: later) ↔
      relation = .unstated ∧ ∀ component ∈ later, component.1 ≠ .unstated := by
  constructor
  · intro chain
    exact ⟨chain.first (relation, first) rfl, fun component member =>
      Relation.stated_iff.mpr (chain.later component member)⟩
  · rintro ⟨rfl, stated⟩
    refine ⟨List.cons_ne_nil _ _, fun component isHead => ?_, fun component member =>
      Relation.stated_iff.mp (stated component member)⟩
    rw [List.head?_cons, Option.mem_some] at isHead
    rw [← isHead]

namespace Selector

variable {selector : Selector}

/-- The components of a selector that can be written down are a chain of compounds that can. -/
theorem written_iff :
    selector.Written ↔
      IsChain selector.components ∧ ∀ component ∈ selector.components, component.2.Written := by
  obtain ⟨first, later, components, same⟩ := selector.exists_components
  rw [components, isChain_cons, List.forall_mem_cons, and_iff_right rfl]
  constructor
  · intro written
    obtain ⟨isFirst, isLater⟩ :=
      (same Compound.Written (· ≠ .unstated)).mpr ⟨written.subject, written.context⟩
    exact ⟨fun component member => (isLater component member).1, isFirst,
      fun component member => (isLater component member).2⟩
  · rintro ⟨stated, isFirst, isLater⟩
    obtain ⟨subject, context⟩ := (same Compound.Written (· ≠ .unstated)).mp
      ⟨isFirst, fun component member => ⟨stated component member, isLater component member⟩⟩
    exact ⟨subject, context⟩

/-- A chain gives a selector with its components. -/
theorem components_of_isChain {components : List (Relation × Compound)}
    (chain : IsChain components) : (ofComponents components).components = components := by
  obtain ⟨⟨relation, first⟩, later, rfl⟩ := List.exists_cons_of_ne_nil chain.filled
  rw [components_ofComponents, (isChain_cons.mp chain).1]

theorem ofComponents_concat {components : List (Relation × Compound)} (filled : components ≠ [])
    (relation : Relation) (subject : Compound) :
    ofComponents (components ++ [(relation, subject)]) =
      (ofComponents components).descend relation subject := by
  obtain ⟨first, later, rfl⟩ := List.exists_cons_of_ne_nil filled
  simp only [ofComponents, List.cons_append, List.foldl_append, List.foldl_cons, List.foldl_nil]

/-- A selector is made of its components. -/
theorem ofComponents_components (selector : Selector) :
    ofComponents selector.components = selector := by
  obtain ⟨subject, context⟩ := selector
  induction context generalizing subject with
  | nil => rfl
  | cons step above inductionHypothesis =>
      obtain ⟨relation, next⟩ := step
      obtain ⟨first, later, components, -⟩ := (Selector.mk next above).exists_components
      have filled : (Selector.mk next above).components ≠ [] := by
        rw [components]
        exact List.cons_ne_nil _ _
      have descended : (Selector.mk subject ((relation, next) :: above)).components =
          (Selector.mk next above).components ++ [(relation, subject)] := rfl
      rw [descended, ofComponents_concat filled, inductionHypothesis]
      rfl

end Selector

/-- Whatever selector is read can be written down. -/
theorem readSelector?_written {text : List Char} {selector : Selector}
    (read : readSelector? text = some selector) : selector.Written := by
  have compounds := readSelector?_each Compound.written_anything
    (fun _ _ _ _ gains written => ⟨gains.named written.named, gains.known written.known⟩) read
  obtain ⟨draft, first, later, isRead, components, origin⟩ := readSelector?_components read
  have start : SelectorDraft.Stated {} :=
    ⟨fun _ member => absurd member List.not_mem_nil, fun filled => absurd rfl filled⟩
  have stated := (SelectorDraft.addAll_induction
    (fun _ _ _ _ holds added => holds.add? added) start isRead).finish
  have chain : IsChain selector.components := by
    rw [components, isChain_cons]
    refine ⟨rfl, ?_⟩
    rcases origin with ⟨-, rfl⟩ | ⟨relation, finished⟩
    · exact fun _ member => absurd member List.not_mem_nil
    · rwa [finished] at stated
  exact Selector.written_iff.mpr ⟨chain, compounds⟩

end StyledWidgets.Sheet
