/-
Module: StyledWidgets.Proofs.GreedyMatching
Purpose: What a selector means, told without a search, and how far the search toward the root
  follows the meaning. It never matches a node that the selector does not relate to. It stays with
  the nearest ancestor for each step, which loses nothing as long as no parent step comes later.
Main exports: Placed, Relates, ParentsFirst, Climb, relates_iff_climb, contextMatches_search,
  matchesLineage_relates
-/
import Mathlib.Data.Nat.Init
import Mathlib.Tactic.Common
import StyledWidgets.Style.Matching

namespace StyledWidgets.Style

open StyledWidgets.Sheet

/-! ### The meaning of a selector -/

/-- The steps of a selector are placed on a path that starts at a node and goes toward the root.
Place `0` is the node that the first step is tied to, and step `i` leads from place `i` to place
`i + 1`. -/
structure Placed (steps : List (Relation × Compound)) (path : List StyleNode)
    (place : Nat → Nat) : Prop where
  /-- The path starts at the node that the first step is tied to. -/
  starts : place 0 = 0
  /-- Every step leads to a strictly higher node. -/
  climbs : ∀ i < steps.length, place i < place (i + 1)
  /-- A parent step leads to the next node of the path. -/
  direct : ∀ i compound, steps[i]? = some (.parent, compound) → place (i + 1) = place i + 1
  /-- Every step leads to a node that has the required names. -/
  named : ∀ i relation compound, steps[i]? = some (relation, compound) →
    ∃ node, path[place (i + 1)]? = some node ∧ matchesNode compound node = true

/-- A selector relates to a node in its place: the node has the names that the subject requires,
and the other components can be placed on the way to the root. -/
def Relates (selector : Selector) (lineage : Lineage) : Prop :=
  matchesNode selector.subject lineage.node = true ∧
    ∃ place, Placed selector.context lineage.path place

/-- Read from the subject toward the root, no parent step comes after a step of another kind. -/
def ParentsFirst (steps : List (Relation × Compound)) : Prop :=
  steps.Pairwise fun nearer farther => farther.1 = .parent → nearer.1 = .parent

/-! ### One step at a time -/

/-- The steps lead up a list of ancestors, the nearest first. Each step passes over some of them,
and a parent step passes over none. -/
inductive Climb : List (Relation × Compound) → List StyleNode → Prop
  | done {above : List StyleNode} : Climb [] above
  | step {relation : Relation} {compound : Compound} {steps : List (Relation × Compound)}
      {passed : List StyleNode} {node : StyleNode} {above : List StyleNode}
      (direct : relation = .parent → passed = []) (named : matchesNode compound node = true)
      (rest : Climb steps above) : Climb ((relation, compound) :: steps) (passed ++ node :: above)

/-- A climb gives each step its place. -/
theorem Climb.placed {steps : List (Relation × Compound)} {above : List StyleNode}
    (climb : Climb steps above) (start : StyleNode) :
    ∃ place, Placed steps (start :: above) place := by
  induction climb generalizing start with
  | done =>
    exact ⟨fun _ => 0, rfl, by simp, by simp, by simp⟩
  | @step relation compound steps passed node above direct named rest inductionHypothesis =>
    obtain ⟨place, placed⟩ := inductionHypothesis node
    -- The later places are counted from the node of the first step.
    refine ⟨fun i => Nat.casesOn i 0 fun i => passed.length + 1 + place i, rfl, ?_, ?_, ?_⟩
    · intro i inside
      cases i with
      | zero => exact Nat.add_pos_left (Nat.succ_pos _) _
      | succ i =>
        have higher := placed.climbs i (by simpa using inside)
        simpa using higher
    · intro i other isParent
      cases i with
      | zero =>
        obtain ⟨rfl, -⟩ : relation = .parent ∧ compound = other := by simpa using isParent
        simp [direct rfl, placed.starts]
      | succ i =>
        have next := placed.direct i other (by simpa using isParent)
        simp only [next]
        omega
    · intro i otherRelation other isStep
      cases i with
      | zero =>
        obtain ⟨-, rfl⟩ : relation = otherRelation ∧ compound = other := by simpa using isStep
        exact ⟨node, by simp [placed.starts], named⟩
      | succ i =>
        obtain ⟨found, isFound, foundNamed⟩ :=
          placed.named i otherRelation other (by simpa using isStep)
        refine ⟨found, ?_, foundNamed⟩
        have moved : passed.length + 1 + place (i + 1) = passed.length + place (i + 1) + 1 := by
          omega
        simp only [moved, List.getElem?_cons_succ]
        rw [List.getElem?_append_right (by omega), Nat.add_sub_cancel_left]
        exact isFound

/-- Steps that have their places are a climb, from the node of each step on. -/
theorem Placed.climb_from {steps : List (Relation × Compound)} {path : List StyleNode}
    {place : Nat → Nat} (placed : Placed steps path place) {i : Nat} (inside : i ≤ steps.length) :
    Climb (steps.drop i) (path.drop (place i + 1)) := by
  -- From the last step back to the first: the climb that is left grows by a step.
  induction inside using Nat.decreasingInduction with
  | self => simpa using Climb.done
  | of_succ i inside rest =>
    obtain ⟨⟨relation, compound⟩, isStep⟩ : ∃ step, steps[i]? = some step :=
      ⟨_, List.getElem?_eq_getElem inside⟩
    obtain ⟨node, isNode, named⟩ := placed.named i relation compound isStep
    have stepsSplit : steps.drop i = (relation, compound) :: steps.drop (i + 1) := by
      rw [List.drop_eq_getElem_cons inside, (List.getElem?_eq_some_iff.mp isStep).2]
    have nodesSplit : path.drop (place (i + 1)) = node :: path.drop (place (i + 1) + 1) := by
      obtain ⟨present, rfl⟩ := List.getElem?_eq_some_iff.mp isNode
      exact List.drop_eq_getElem_cons present
    have reached : place i + 1 + (place (i + 1) - (place i + 1)) = place (i + 1) := by
      have higher := placed.climbs i inside
      omega
    have passedSplit :=
      calc path.drop (place i + 1)
        _ = (path.drop (place i + 1)).take (place (i + 1) - (place i + 1)) ++
              (path.drop (place i + 1)).drop (place (i + 1) - (place i + 1)) :=
            (List.take_append_drop _ _).symm
        _ = (path.drop (place i + 1)).take (place (i + 1) - (place i + 1)) ++
              node :: path.drop (place (i + 1) + 1) := by
            rw [List.drop_drop (l := path), reached, nodesSplit]
    rw [stepsSplit, passedSplit]
    refine .step (fun isParent => ?_) named rest
    rw [placed.direct i compound (by rw [isStep, isParent]), Nat.sub_self, List.take_zero]

/-- A selector relates to a node exactly if its steps are a climb from the node. -/
theorem relates_iff_climb (selector : Selector) (lineage : Lineage) :
    Relates selector lineage ↔
      matchesNode selector.subject lineage.node = true ∧
        Climb selector.context lineage.ancestors := by
  refine and_congr_right fun _ => ⟨fun ⟨place, placed⟩ => ?_, fun climb => climb.placed _⟩
  simpa [placed.starts, Lineage.path] using placed.climb_from (Nat.zero_le _)

/-! ### The search -/

/-- A step that is not a parent step looks for the nearest node with the required names. -/
theorem contextMatches_search {relation : Relation} (notParent : relation ≠ .parent)
    (compound : Compound) (steps : List (Relation × Compound)) (above : List StyleNode) :
    contextMatches ((relation, compound) :: steps) above =
      match above.dropWhile fun node => !matchesNode compound node with
      | [] => false
      | _ :: higher => contextMatches steps higher := by
  cases relation with
  | parent => exact absurd rfl notParent
  | unstated => cases above <;> rfl
  | ancestor => cases above <;> rfl

/-- The search goes on above the nearest node with the required names. -/
theorem contextMatches_nearest {relation : Relation} (notParent : relation ≠ .parent)
    (compound : Compound) (steps : List (Relation × Compound)) {passed : List StyleNode}
    {node : StyleNode} (above : List StyleNode)
    (unnamed : ∀ other ∈ passed, matchesNode compound other = false)
    (named : matchesNode compound node = true) :
    contextMatches ((relation, compound) :: steps) (passed ++ node :: above) =
      contextMatches steps above := by
  rw [contextMatches_search notParent, List.dropWhile_append_of_pos (by simpa using unnamed),
    List.dropWhile_cons_of_neg (by simp [named])]

/-- A list in which some node has the required names has a nearest one, and what lies above a
given one lies above the nearest one too. -/
theorem exists_nearest (compound : Compound) (passed : List StyleNode) {node : StyleNode}
    (above : List StyleNode) (named : matchesNode compound node = true) :
    ∃ before nearest between, passed ++ node :: above = before ++ nearest :: (between ++ above) ∧
      (∀ other ∈ before, matchesNode compound other = false) ∧
        matchesNode compound nearest = true := by
  induction passed with
  | nil => exact ⟨[], node, [], rfl, by simp, named⟩
  | cons first passed inductionHypothesis =>
    cases firstNamed : matchesNode compound first with
    | true => exact ⟨[], first, passed ++ [node], by simp, by simp, firstNamed⟩
    | false =>
      obtain ⟨before, nearest, between, split, unnamed, nearestNamed⟩ := inductionHypothesis
      exact ⟨first :: before, nearest, between, by simp [split],
        by simpa [firstNamed] using unnamed, nearestNamed⟩

/-- The search finds climbs only. -/
theorem climb_of_contextMatches {steps : List (Relation × Compound)} {above : List StyleNode}
    (found : contextMatches steps above = true) : Climb steps above := by
  fun_induction contextMatches steps above with
  | case1 above => exact .done
  | case2 compound steps => contradiction
  | case3 compound steps node above inductionHypothesis =>
    obtain ⟨named, rest⟩ := Bool.and_eq_true_iff.mp found
    have passesNone : Climb ((.parent, compound) :: steps) ([] ++ node :: above) :=
      .step (fun _ => rfl) named (inductionHypothesis rest)
    exact passesNone
  | case4 => contradiction
  | case5 relation compound steps above isEmpty isNext nearest higher split inductionHypothesis =>
    have notParent : relation ≠ .parent := by
      cases above with
      | nil => exact isEmpty rfl
      | cons node above => exact isNext node above rfl
    have named : matchesNode compound nearest = true := by
      simpa [split] using List.head?_dropWhile_not (fun node => !matchesNode compound node) above
    have cut := List.takeWhile_append_dropWhile (l := above)
      (p := fun node => !matchesNode compound node)
    rw [← cut, split]
    exact .step (fun isParent => absurd isParent notParent) named (inductionHypothesis found)

/-- A climb without parent steps can start lower. -/
theorem Climb.lower {steps : List (Relation × Compound)} {above : List StyleNode}
    (climb : Climb steps above) (noParent : ∀ step ∈ steps, step.1 ≠ .parent)
    (between : List StyleNode) : Climb steps (between ++ above) := by
  cases climb with
  | done => exact .done
  | step direct named rest =>
    rw [← List.append_assoc]
    exact .step (fun isParent => absurd isParent (noParent _ (List.mem_cons_self))) named rest

/-- Without parent steps the search finds a climb whenever there is one: the nearest node leaves
all the nodes that any other choice leaves. -/
theorem Climb.contextMatches_of_noParent {steps : List (Relation × Compound)}
    {above : List StyleNode} (climb : Climb steps above)
    (noParent : ∀ step ∈ steps, step.1 ≠ .parent) : contextMatches steps above = true := by
  induction steps generalizing above with
  | nil => rfl
  | cons step steps inductionHypothesis =>
    obtain ⟨headNotParent, restNotParent⟩ := List.forall_mem_cons.mp noParent
    cases climb with
    | @step relation compound _ passed node higher _ named rest =>
      obtain ⟨before, nearest, between, split, unnamed, nearestNamed⟩ :=
        exists_nearest compound passed higher named
      rw [split, contextMatches_nearest headNotParent compound steps _ unnamed nearestNamed]
      exact inductionHypothesis (rest.lower restNotParent between) restNotParent

/-- The search finds a climb whenever there is one, if the parent steps come first. -/
theorem Climb.contextMatches {steps : List (Relation × Compound)} {above : List StyleNode}
    (climb : Climb steps above) (parentsFirst : ParentsFirst steps) :
    contextMatches steps above = true := by
  induction climb with
  | done => rfl
  | @step relation compound steps passed node above direct named rest inductionHypothesis =>
    obtain ⟨headFirst, restFirst⟩ := List.pairwise_cons.mp parentsFirst
    by_cases isParent : relation = .parent
    · obtain rfl := direct isParent
      subst isParent
      exact Bool.and_eq_true_iff.mpr ⟨named, inductionHypothesis restFirst⟩
    · have noParent : ∀ step ∈ (relation, compound) :: steps, step.1 ≠ .parent :=
        List.forall_mem_cons.mpr ⟨isParent, fun step present parent =>
          isParent (headFirst step present parent)⟩
      exact (Climb.step direct named rest).contextMatches_of_noParent noParent

/-- A selector that the search matches to a node relates to it. If the parent steps come first on
the way to the root, the search misses no node that the selector relates to. -/
theorem matchesLineage_relates (selector : Selector) (lineage : Lineage) :
    (matchesLineage selector lineage = true → Relates selector lineage) ∧
      (ParentsFirst selector.context → Relates selector lineage →
        matchesLineage selector lineage = true) := by
  rw [relates_iff_climb, matchesLineage, Bool.and_eq_true]
  exact ⟨And.imp_right climb_of_contextMatches,
    fun parentsFirst => And.imp_right fun climb => climb.contextMatches parentsFirst⟩

/-- A box in a list on a page whose list is in a window. -/
def nestedBox : Lineage :=
  ⟨⟨.query 1, "Box", "", false⟩, [⟨.query 2, "List", "", false⟩, ⟨.query 3, "Page", "", false⟩,
    ⟨.query 4, "List", "", false⟩, ⟨.query 5, "Window", "", false⟩]⟩

/-- The selector `Window List > Box`. -/
def listedBox : Selector :=
  ⟨{ element := some "Box" }, [(.parent, { element := some "List" }),
    (.ancestor, { element := some "Window" })]⟩

/-- The search matches `Window List > Box` to the box, which it relates to. -/
theorem matchesLineage_relates_listedBox :
    ParentsFirst listedBox.context ∧ Relates listedBox nestedBox ∧
      matchesLineage listedBox nestedBox = true := by
  have parentsFirst : ParentsFirst listedBox.context := by simp [ParentsFirst, listedBox]
  have related : Relates listedBox nestedBox :=
    (matchesLineage_relates listedBox nestedBox).1 (by decide)
  exact ⟨parentsFirst, related, (matchesLineage_relates _ _).2 parentsFirst related⟩

/-- The selector `Window > List Box`, whose parent step comes last. -/
def outerListBox : Selector :=
  ⟨{ element := some "Box" }, [(.ancestor, { element := some "List" }),
    (.parent, { element := some "Window" })]⟩

/-- The search stays with the list on the page, although the selector relates to the box. -/
example : Relates outerListBox nestedBox ∧ matchesLineage outerListBox nestedBox = false := by
  refine ⟨(relates_iff_climb _ _).mpr ⟨by decide, ?_⟩, by decide⟩
  have outer : Climb [(.parent, { element := some "Window" })] ([] ++ [nestedBox.ancestors[3]]) :=
    .step (fun _ => rfl) (by decide) .done
  have inner : Climb outerListBox.context
      (nestedBox.ancestors.take 2 ++ nestedBox.ancestors[2] :: ([] ++ [nestedBox.ancestors[3]])) :=
    .step (by simp) (by decide) outer
  exact inner

end StyledWidgets.Style
