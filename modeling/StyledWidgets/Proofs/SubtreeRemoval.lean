/-
Module: StyledWidgets.Proofs.SubtreeRemoval
Purpose: The removal of a widget takes out its subtree and nothing else. The subtree is what a walk
  over a stack of waiting widgets lists; the links upward tell which widgets are in it, and they
  tell the order of its members, of which a widget stands before those below it and a lower sibling
  with all below it before a higher one.
Main exports: Forest.Before, Forest.Linked.subtree_before, Forest.Linked.before_asymm,
  Forest.Linked.visits_iff, Forest.RemovesOnly, Forest.Linked.removesOnly, Forest.removal_exact
-/
import StyledWidgets.Proofs.ForestEdits

namespace StyledWidgets

namespace Forest

variable {forest after : Forest} {id parent : WidgetId}

/-! ### Pre-order -/

/-- One widget stands before the other in pre-order: it is above the other, or on the ways up from
the two stand siblings, and its own is the lower one. -/
def Before (forest : Forest) (one other : WidgetId) : Prop :=
  (one ≠ other ∧ one ∈ forest.path other) ∨
    ∃ parent lower higher, [lower, higher].Sublist (forest.children parent) ∧
      lower ∈ forest.path one ∧ higher ∈ forest.path other

/-- The members of a subtree stand in pre-order. -/
theorem Linked.subtree_before (linked : forest.Linked) (id : WidgetId) :
    (forest.subtree id).Pairwise forest.Before := by
  induction id using linked.downward with
  | _ id inductionHypothesis =>
      rw [linked.subtree_eq, List.pairwise_cons, List.pairwise_flatMap]
      refine ⟨fun other member => Or.inl ?_, inductionHypothesis, ?_⟩
      · obtain ⟨child, isChild, deeper⟩ := List.mem_flatMap.mp member
        have up := linked.mem_children_iff.mp isChild
        have below := linked.mem_subtree_iff.mp deeper
        refine ⟨?_, linked.parent_mem_path below up⟩
        rintro rfl
        exact linked.not_mem_path_parent up below
      · refine List.pairwise_iff_forall_sublist.mpr fun {lower higher} siblings => ?_
        intro one memberOne other memberOther
        exact Or.inr ⟨id, lower, higher, siblings, linked.mem_subtree_iff.mp memberOne,
          linked.mem_subtree_iff.mp memberOther⟩

/-- Of two widgets on a path one is above the other. -/
theorem Linked.mem_path_or_mem_path (linked : forest.Linked) {one other : WidgetId}
    (first : one ∈ forest.path id) (second : other ∈ forest.path id) :
    one ∈ forest.path other ∨ other ∈ forest.path one := by
  obtain ⟨belowOne, splitOne⟩ := linked.path_append first
  obtain ⟨belowOther, splitOther⟩ := linked.path_append second
  rcases List.suffix_or_suffix_of_suffix ⟨belowOne, splitOne.symm⟩
    ⟨belowOther, splitOther.symm⟩ with suffix | suffix
  · exact Or.inl (suffix.subset (mem_path_self one))
  · exact Or.inr (suffix.subset (mem_path_self other))

/-- Two siblings, one listed behind the other, are different children of their parent. -/
theorem Linked.siblings_of_sublist (linked : forest.Linked) {lower higher : WidgetId}
    (siblings : [lower, higher].Sublist (forest.children parent)) :
    forest.parent? lower = some parent ∧ forest.parent? higher = some parent ∧
      lower ≠ higher := by
  have apart := siblings.nodup (linked.children_nodup parent)
  refine ⟨linked.mem_children_iff.mp (siblings.subset (List.mem_cons_self ..)),
    linked.mem_children_iff.mp (siblings.subset (by simp)), ?_⟩
  simpa using apart

/-- Two siblings do not stand on one path. -/
theorem Linked.not_mem_path_of_siblings (linked : forest.Linked) {lower higher : WidgetId}
    (siblings : [lower, higher].Sublist (forest.children parent))
    (first : lower ∈ forest.path id) : higher ∉ forest.path id := by
  obtain ⟨upLower, upHigher, apart⟩ := linked.siblings_of_sublist siblings
  exact fun second => apart (linked.child_on_path_unique first second upLower upHigher)

/-- A list without repetitions has two members in one order only. -/
theorem not_sublist_swap {list : List WidgetId} (distinct : list.Nodup) {one other : WidgetId}
    (inOrder : [one, other].Sublist list) : ¬[other, one].Sublist list := by
  obtain ⟨front, behind, rfl, oneFront, otherBehind⟩ := List.cons_sublist_iff.mp inOrder
  intro swapped
  obtain ⟨frontToo, behindToo, same, otherFront, oneBehind⟩ := List.cons_sublist_iff.mp swapped
  have apart := (List.nodup_append.mp distinct).2.2
  have apartToo := (List.nodup_append.mp (same ▸ distinct)).2.2
  rw [List.singleton_sublist] at otherBehind oneBehind
  rcases List.append_eq_append_iff.mp same with ⟨middle, rfl, -⟩ | ⟨middle, rfl, -⟩
  · exact apartToo one (List.mem_append_left middle oneFront) one oneBehind rfl
  · exact apart other (List.mem_append_left middle otherFront) other otherBehind rfl

/-- Two widgets do not part at siblings in both orders: the siblings at which they part are the
same ones, as each stands on the way up from its widget where the parent of the other does. -/
theorem Linked.not_parted_both (linked : forest.Linked)
    {one other above lower higher lowerToo higherToo : WidgetId}
    (siblings : [lower, higher].Sublist (forest.children parent))
    (siblingsToo : [lowerToo, higherToo].Sublist (forest.children above))
    (lowerOne : lower ∈ forest.path one) (higherOther : higher ∈ forest.path other)
    (lowerOther : lowerToo ∈ forest.path other) : higherToo ∉ forest.path one := by
  intro higherOne
  obtain ⟨upLower, upHigher, -⟩ := linked.siblings_of_sublist siblings
  obtain ⟨upLowerToo, upHigherToo, -⟩ := linked.siblings_of_sublist siblingsToo
  have same : lower = higherToo := by
    rcases linked.mem_path_or_mem_path lowerOne higherOne with onPath | onPath
    · rcases linked.mem_path_iff.mp onPath with same | ⟨next, up, further⟩
      · exact same
      · have isAbove : above = next := Option.some_inj.mp (upHigherToo.symm.trans up)
        have lowerAbove := linked.mem_path_iff.mpr (Or.inr ⟨next, isAbove ▸ upLowerToo, further⟩)
        exact absurd higherOther (linked.not_mem_path_of_siblings siblings
          (linked.mem_path_trans lowerOther lowerAbove))
    · rcases linked.mem_path_iff.mp onPath with same | ⟨next, up, further⟩
      · exact same.symm
      · have isParent : parent = next := Option.some_inj.mp (upLower.symm.trans up)
        have higherAbove := linked.mem_path_iff.mpr (Or.inr ⟨next, isParent ▸ upHigher, further⟩)
        exact absurd (linked.mem_path_trans higherOther higherAbove)
          (linked.not_mem_path_of_siblings siblingsToo lowerOther)
  subst same
  have isParent : parent = above := Option.some_inj.mp (upLower.symm.trans upHigherToo)
  subst isParent
  have sameToo := linked.child_on_path_unique higherOther lowerOther upHigher upLowerToo
  subst sameToo
  exact not_sublist_swap (linked.children_nodup parent) siblings siblingsToo

/-- Of two widgets at most one stands before the other. -/
theorem Linked.before_asymm (linked : forest.Linked) {one other : WidgetId}
    (first : forest.Before one other) : ¬forest.Before other one := by
  rintro (⟨-, otherAbove⟩ | ⟨above, lowerToo, higherToo, siblingsToo, lowerOther, higherOne⟩)
  · rcases first with ⟨apart, oneAbove⟩ | ⟨parent, lower, higher, siblings, lowerOne, higherOther⟩
    · exact apart (linked.path_antisymm oneAbove otherAbove)
    · exact linked.not_mem_path_of_siblings siblings lowerOne
        (linked.mem_path_trans otherAbove higherOther)
  · rcases first with ⟨-, oneAbove⟩ | ⟨parent, lower, higher, siblings, lowerOne, higherOther⟩
    · exact linked.not_mem_path_of_siblings siblingsToo lowerOther
        (linked.mem_path_trans oneAbove higherOne)
    · exact linked.not_parted_both siblings siblingsToo lowerOne higherOther lowerOther higherOne

/-- The subtree is the one arrangement of its members in pre-order. -/
theorem Linked.pairwise_before_iff (linked : forest.Linked) {order : List WidgetId}
    (perm : order.Perm (forest.subtree id)) :
    order.Pairwise forest.Before ↔ order = forest.subtree id := by
  constructor
  · intro sorted
    exact perm.eq_of_pairwise (fun _ _ _ _ first second =>
      absurd second (linked.before_asymm first)) sorted (linked.subtree_before id)
  · rintro rfl
    exact linked.subtree_before id

/-! ### The walks are determined -/

theorem Linked.climbs_iff (linked : forest.Linked) {climbed : List WidgetId} :
    forest.Climbs id climbed ↔ climbed = forest.path id := by
  constructor
  · intro climbs
    induction climbs with
    | top root => exact (linked.path_of_root root).symm
    | up further _ inductionHypothesis => rw [inductionHypothesis, linked.path_of_child further]
  · rintro rfl
    exact linked.climbs id

theorem Visits.unique {stack one other : List WidgetId} (first : forest.Visits stack one)
    (second : forest.Visits stack other) : one = other := by
  induction first generalizing other with
  | done =>
      cases second
      rfl
  | next _ inductionHypothesis =>
      cases second with
      | next further => rw [inductionHypothesis further]

/-- The walk over a stack that starts with one widget ends, and lists the subtree. -/
theorem Linked.visits_iff (linked : forest.Linked) {order : List WidgetId} :
    forest.Visits [id] order ↔ order = forest.subtree id := by
  constructor
  · exact fun visits => visits.unique (linked.visits id)
  · rintro rfl
    exact linked.visits id

/-! ### What a removal leaves -/

/-- One forest is the other without the subtree of a widget: the parent of the widget has lost one
child, and nothing else is different. -/
structure RemovesOnly (forest : Forest) (id : WidgetId) (after : Forest) : Prop where
  contains : ∀ other, after.contains other = true ↔
    forest.contains other = true ∧ other ∉ forest.subtree id
  live : after.live + (forest.subtree id).length = forest.live
  oldParent : ∀ parent, forest.parent? id = some parent →
    ∃ below above, forest.children parent = below ++ id :: above ∧
      after.get? parent =
        (forest.get? parent).map fun widget => { widget with children := below ++ above }
  others : ∀ other, other ∉ forest.subtree id → forest.parent? id ≠ some other →
    after.get? other = forest.get? other

/-- A subtree has no more members than there are widgets. -/
theorem Counted.length_subtree_le (counted : forest.Counted) (linked : forest.Linked)
    (live : forest.contains id = true) : (forest.subtree id).length ≤ forest.live := by
  obtain ⟨used, isUsed, count⟩ := counted
  rw [count, ← List.toFinset_card_of_nodup (linked.subtree_nodup id)]
  refine Finset.card_le_card fun other member => ?_
  rw [List.mem_toFinset, linked.mem_subtree_iff] at member
  rw [isUsed]
  exact linked.contains_of_below live member

/-- A child stands once among the children of its parent; without it the others stay in their
order. -/
theorem Linked.children_without (linked : forest.Linked) (up : forest.parent? id = some parent) :
    ∃ below above, forest.children parent = below ++ id :: above ∧
      (forest.children parent).filter (fun other => other ≠ id) = below ++ above := by
  obtain ⟨below, above, split⟩ := List.append_of_mem (linked.mem_children_iff.mpr up)
  refine ⟨below, above, split, ?_⟩
  have distinct := linked.children_nodup parent
  rw [split, List.nodup_middle, List.nodup_cons] at distinct
  rw [split, List.filter_append, List.filter_cons_of_neg (by simp), ← List.filter_append]
  refine List.filter_eq_self.mpr fun other member => ?_
  rw [decide_eq_true_eq]
  rintro rfl
  exact distinct.1 member

theorem Linked.removesOnly (linked : forest.Linked) (counted : forest.Counted)
    {removed : List WidgetId} (gone : forest.remove id = .ok (removed, after)) :
    forest.RemovesOnly id after := by
  obtain ⟨live, rfl, left⟩ := remove_eq_ok gone
  constructor
  case contains =>
    intro other
    rw [Application.contains_remove linked gone, linked.mem_subtree_iff]
  case live =>
    rw [live_remove gone]
    exact Nat.sub_add_cancel (counted.length_subtree_le linked live)
  case oldParent =>
    intro parent up
    obtain ⟨below, above, split, without⟩ := linked.children_without up
    refine ⟨below, above, split, ?_⟩
    have outside : parent ∉ forest.subtree id := fun member =>
      linked.not_mem_path_parent up (linked.mem_subtree_iff.mp member)
    rw [left, if_neg outside, up, released, detach, get?_adjust, if_pos rfl]
    obtain ⟨widget, found⟩ := contains_iff.mp (linked.contains_parent up)
    rw [children, found] at without
    rw [found, Option.map_some, Option.map_some, without]
  case others =>
    intro other outside notParent
    rw [left, if_neg outside]
    cases up : forest.parent? id with
    | none => rfl
    | some parent =>
        rw [released, detach, get?_adjust, if_neg]
        rintro rfl
        exact notParent up

/-- The removal of a widget from a forest that edits have led to. Its subtree is what the walk over
a stack lists; its members are the widgets whose way up leads through the widget, each once, and
they stand in pre-order. All at once or in place, the removal succeeds, tells the subtree, and takes
out just that. -/
theorem removal_exact (edits : List Edit)
    (live : (Record.afterEdits edits).forest.contains id = true) :
    let forest := (Record.afterEdits edits).forest
    (∀ order, forest.Visits [id] order ↔ order = forest.subtree id) ∧
    (∀ other, other ∈ forest.subtree id ↔
      ∃ climbed, forest.Climbs other climbed ∧ id ∈ climbed) ∧
    (forest.subtree id).Nodup ∧
    (∀ order, order.Perm (forest.subtree id) →
      (order.Pairwise forest.Before ↔ order = forest.subtree id)) ∧
    ∃ after, forest.remove id = .ok (forest.subtree id, after) ∧
      (EditM.remove id).run forest = (.ok (forest.subtree id), after) ∧
      forest.RemovesOnly id after := by
  have regular := Record.regular_afterEdits edits
  generalize Record.afterEdits edits = record at regular live
  obtain ⟨issued, forest⟩ := record
  obtain ⟨linked, counted, -⟩ := regular
  dsimp only at linked counted live ⊢
  refine ⟨fun order => linked.visits_iff, fun other => ?_, linked.subtree_nodup id,
    fun order => linked.pairwise_before_iff, ?_⟩
  · simp only [linked.climbs_iff, exists_eq_left, linked.mem_subtree_iff]
  · obtain ⟨widget, found⟩ := contains_iff.mp live
    have gone := remove_eq found
    refine ⟨forest.cleared id, gone, ?_, linked.removesOnly counted gone⟩
    rw [linked.remove_run, gone]
    rfl

/-- A window with two panels, of which the lower one has been raised, and labels on them. -/
def panelEdits : List Edit :=
  [.insertWindow { typeName := "Window" }, .insert (some ⟨0⟩) { typeName := "Panel" },
    .insert (some ⟨0⟩) { typeName := "Panel" }, .insert (some ⟨1⟩) { typeName := "Label" },
    .insert (some ⟨1⟩) { typeName := "Panel" }, .insert (some ⟨4⟩) { typeName := "Label" },
    .raise ⟨1⟩, .lower ⟨4⟩]

theorem removal_exact_raisedPanel :
    (Record.afterEdits panelEdits).forest.contains ⟨1⟩ = true ∧
      (Record.afterEdits panelEdits).forest.subtree ⟨1⟩ = [⟨1⟩, ⟨4⟩, ⟨5⟩, ⟨3⟩] ∧
      ∃ after, (EditM.remove ⟨1⟩).run (Record.afterEdits panelEdits).forest =
          (.ok [⟨1⟩, ⟨4⟩, ⟨5⟩, ⟨3⟩], after) ∧
        (Record.afterEdits panelEdits).forest.RemovesOnly ⟨1⟩ after := by
  have live : (Record.afterEdits panelEdits).forest.contains ⟨1⟩ = true := by decide
  have listed : (Record.afterEdits panelEdits).forest.subtree ⟨1⟩ = [⟨1⟩, ⟨4⟩, ⟨5⟩, ⟨3⟩] := by
    decide
  obtain ⟨-, -, -, -, after, -, run, only⟩ := removal_exact panelEdits live
  rw [listed] at run
  exact ⟨live, listed, after, run, only⟩

end Forest

end StyledWidgets
