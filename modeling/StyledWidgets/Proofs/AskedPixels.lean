/-
Module: StyledWidgets.Proofs.AskedPixels
Purpose: Which widgets have a pixel that waits to be repainted and would be seen: their own, or one
  of a widget below them that nothing covers on the way up. Between two states of a window, a pixel
  is asked for or shows the same.
Main exports: Forest.Asked, Forest.asked_iff, Forest.exists_exposed_of_asked, Forest.SameAt,
  Forest.SameAt.unasked_and_seen, Forest.seen_unless_asked
-/
import StyledWidgets.Proofs.RepaintClosure
import StyledWidgets.Proofs.VisibleStack

namespace StyledWidgets

namespace Forest

/-! ### Lists of siblings -/

/-- The children of a widget need no examination. -/
def skips (forest : Forest) (settings : RepaintSettings) (id : WidgetId) : Bool :=
  settings.honorNonOverlap && forest.childrenNeverOverlap id

/-- A visible opaque widget has the pixel. -/
def Covers (forest : Forest) (pixel : Point) (id : WidgetId) : Prop :=
  forest.isVisible id = true ∧ forest.isOpaque id = true ∧ pixel ∈ forest.windowRect id

/-- Some sibling is asked for, and no sibling above covers it if siblings are examined. -/
def Emerges (asked covers : WidgetId → Prop) (skip : Bool) : List WidgetId → Prop
  | [] => False
  | child :: above =>
      (asked child ∧ (skip = true ∨ ∀ sibling ∈ above, ¬covers sibling)) ∨
        Emerges asked covers skip above

section Emerges

variable {asked askedAfter covers coversAfter : WidgetId → Prop} {skip : Bool}

theorem emerges_iff {siblings : List WidgetId} :
    Emerges asked covers skip siblings ↔
      ∃ below child above, siblings = below ++ child :: above ∧ asked child ∧
        (skip = true ∨ ∀ sibling ∈ above, ¬covers sibling) := by
  induction siblings with
  | nil => simp [Emerges]
  | cons first later inductionHypothesis =>
      rw [Emerges, inductionHypothesis]
      constructor
      · rintro (here | ⟨below, child, above, rfl, facts⟩)
        · exact ⟨[], first, later, rfl, here⟩
        · exact ⟨first :: below, child, above, rfl, facts⟩
      · rintro ⟨below, child, above, split, facts⟩
        cases below with
        | nil =>
            rw [List.nil_append, List.cons.injEq] at split
            rw [split.1, split.2]
            exact Or.inl facts
        | cons low below =>
            rw [List.cons_append, List.cons.injEq] at split
            exact Or.inr ⟨below, child, above, split.2, facts⟩

/-- Siblings that are neither asked for nor cover anything do not matter. -/
theorem emerges_filter {keep : WidgetId → Bool} {siblings : List WidgetId}
    (idle : ∀ sibling ∈ siblings, keep sibling = false → ¬asked sibling ∧ ¬covers sibling) :
    Emerges asked covers skip (siblings.filter keep) ↔ Emerges asked covers skip siblings := by
  induction siblings with
  | nil => rfl
  | cons child above inductionHypothesis =>
      have further := inductionHypothesis fun sibling member =>
        idle sibling (List.mem_cons_of_mem child member)
      have sameCover : (∀ sibling ∈ above.filter keep, ¬covers sibling) ↔
          ∀ sibling ∈ above, ¬covers sibling := by
        constructor
        · intro none sibling member
          cases kept : keep sibling with
          | true => exact none sibling (List.mem_filter.mpr ⟨member, kept⟩)
          | false => exact (idle sibling (List.mem_cons_of_mem child member) kept).2
        · exact fun none sibling member => none sibling (List.mem_filter.mp member).1
      cases kept : keep child with
      | true =>
          rw [List.filter_cons_of_pos kept, Emerges, Emerges, sameCover, further]
      | false =>
          have unasked := (idle child (List.mem_cons_self ..) kept).1
          rw [List.filter_cons_of_neg (by rw [kept]; exact Bool.false_ne_true), Emerges, further]
          exact (or_iff_right fun here => unasked here.1).symm

/-- Where a sibling covers the pixel, some sibling emerges, or one that is not asked for covers
it. -/
theorem emerges_or_exists_cover {siblings : List WidgetId}
    (some : ∃ sibling ∈ siblings, covers sibling) :
    Emerges asked covers skip siblings ∨ ∃ sibling ∈ siblings, covers sibling ∧ ¬asked sibling := by
  induction siblings with
  | nil => simp at some
  | cons child above inductionHypothesis =>
      by_cases higher : ∃ sibling ∈ above, covers sibling
      · rcases inductionHypothesis higher with emerges | ⟨sibling, member, facts⟩
        · exact Or.inl (Or.inr emerges)
        · exact Or.inr ⟨sibling, List.mem_cons_of_mem child member, facts⟩
      · obtain ⟨sibling, member, covered⟩ := some
        have here : sibling = child := by
          rcases List.mem_cons.mp member with same | further
          · exact same
          · exact absurd ⟨sibling, further, covered⟩ higher
        subst here
        by_cases isAsked : asked sibling
        · refine Or.inl (Or.inl ⟨isAsked, Or.inr fun other further covered => ?_⟩)
          exact higher ⟨other, further, covered⟩
        · exact Or.inr ⟨sibling, List.mem_cons_self .., covered, isAsked⟩

/-- If each sibling stays asked for, and is asked for or looks the same, then so it is for all of
them together. -/
theorem emerges_or_seen {layers layersAfter : WidgetId → List Layer} {siblings : List WidgetId}
    (stays : ∀ sibling ∈ siblings, asked sibling → askedAfter sibling)
    (same : ∀ sibling ∈ siblings, askedAfter sibling ∨
      seen (layers sibling) = seen (layersAfter sibling) ∧ (coversAfter sibling → covers sibling))
    (hides : ∀ sibling ∈ siblings, coversAfter sibling →
      (layersAfter sibling).any Layer.isOpaque = true) :
    (Emerges asked covers skip siblings → Emerges askedAfter coversAfter skip siblings) ∧
      (Emerges askedAfter coversAfter skip siblings ∨
        seen (siblings.flatMap layers) = seen (siblings.flatMap layersAfter)) := by
  induction siblings with
  | nil => exact ⟨id, Or.inr rfl⟩
  | cons child above inductionHypothesis =>
      have further := inductionHypothesis
        (fun sibling member => stays sibling (List.mem_cons_of_mem child member))
        (fun sibling member => same sibling (List.mem_cons_of_mem child member))
        (fun sibling member => hides sibling (List.mem_cons_of_mem child member))
      by_cases emerges : Emerges askedAfter coversAfter skip above
      · exact ⟨fun _ => Or.inr emerges, Or.inl (Or.inr emerges)⟩
      · have looksSame := further.2.resolve_left emerges
        have stillAbove : ¬Emerges asked covers skip above := fun before =>
          emerges (further.1 before)
        by_cases covered : ∃ sibling ∈ above, coversAfter sibling
        · -- Whatever happens below the cover is not seen, before or after.
          obtain ⟨cover, coverMember, isCover, unasked⟩ :=
            (emerges_or_exists_cover covered).resolve_left emerges
          have before : covers cover :=
            ((same cover (List.mem_cons_of_mem child coverMember)).resolve_left unasked).2 isCover
          have hidesAfter : (above.flatMap layersAfter).any Layer.isOpaque = true := by
            obtain ⟨layer, layerMember, isOpaque⟩ := List.any_eq_true.mp
              (hides cover (List.mem_cons_of_mem child coverMember) isCover)
            exact List.any_eq_true.mpr
              ⟨layer, List.mem_flatMap.mpr ⟨cover, coverMember, layerMember⟩, isOpaque⟩
          have hidesBefore : (above.flatMap layers).any Layer.isOpaque = true := by
            rw [← any_seen, looksSame, any_seen, hidesAfter]
          constructor
          · rintro (⟨isAsked, skipped | uncovered⟩ | emergesAbove)
            · exact Or.inl ⟨stays child (List.mem_cons_self ..) isAsked, Or.inl skipped⟩
            · exact absurd before (uncovered cover coverMember)
            · exact absurd emergesAbove stillAbove
          · right
            rw [List.flatMap_cons, List.flatMap_cons, seen_append_covered hidesBefore,
              seen_append_covered hidesAfter, looksSame]
        · have uncovered : ∀ sibling ∈ above, ¬coversAfter sibling := fun sibling member isCover =>
            covered ⟨sibling, member, isCover⟩
          rcases same child (List.mem_cons_self ..) with isAsked | ⟨childSame, -⟩
          · have here : Emerges askedAfter coversAfter skip (child :: above) :=
              Or.inl ⟨isAsked, Or.inr uncovered⟩
            exact ⟨fun _ => here, Or.inl here⟩
          · refine ⟨?_, Or.inr ?_⟩
            · rintro (⟨isAsked, -⟩ | emergesAbove)
              · exact Or.inl ⟨stays child (List.mem_cons_self ..) isAsked, Or.inr uncovered⟩
              · exact absurd emergesAbove stillAbove
            · rw [List.flatMap_cons, List.flatMap_cons]
              exact seen_append_congr childSame looksSame

end Emerges

/-! ### Widgets that are asked for -/

variable {forest : Forest} {settings : RepaintSettings} {pixel : Point}
  {wants : WidgetId → Prop} {id root : WidgetId}

/-- The pixel of a widget waits to be repainted: its own, or that of a child that is not covered by
a sibling above. -/
inductive Asked (forest : Forest) (settings : RepaintSettings) (pixel : Point)
    (wants : WidgetId → Prop) : WidgetId → Prop
  | here {id : WidgetId} : forest.shownAt pixel id = true → wants id →
      Asked forest settings pixel wants id
  | through {id child : WidgetId} : forest.parent? child = some id →
      Asked forest settings pixel wants child →
        (forest.skips settings id = true ∨
          ∀ sibling ∈ forest.siblingsAbove id child, ¬forest.Covers pixel sibling) →
          Asked forest settings pixel wants id

theorem Asked.shown (linked : forest.Linked) (asked : forest.Asked settings pixel wants id) :
    forest.shownAt pixel id = true := by
  induction asked with
  | here shown _ => exact shown
  | through up _ _ shown => exact ((linked.shownAt_of_child up).mp shown).2

theorem asked_iff (linked : forest.Linked) :
    forest.Asked settings pixel wants id ↔
      forest.shownAt pixel id = true ∧
        (wants id ∨ Emerges (forest.Asked settings pixel wants) (forest.Covers pixel)
          (forest.skips settings id) (forest.children id)) := by
  constructor
  · intro asked
    refine ⟨asked.shown linked, ?_⟩
    cases asked with
    | here _ wanted => exact Or.inl wanted
    | @through _ child up further uncovered =>
        right
        rw [emerges_iff]
        exact ⟨_, child, _, linked.children_split up, further, uncovered⟩
  · rintro ⟨shown, wanted | emerges⟩
    · exact .here shown wanted
    · obtain ⟨below, child, above, split, further, uncovered⟩ := emerges_iff.mp emerges
      have up : forest.parent? child = some id := by
        rw [← linked.mem_children_iff, split]
        simp
      refine .through up further ?_
      rwa [linked.siblingsAbove_eq split]

/-- If a window is asked for, some widget that wants the pixel is exposed there. -/
theorem exists_exposed_of_asked (linked : forest.Linked)
    (asked : forest.Asked settings pixel wants id) (exposed : forest.ExposedAt settings pixel id) :
    ∃ lit, id ∈ forest.path lit ∧ wants lit ∧ forest.ExposedAt settings pixel lit := by
  induction asked with
  | @here id _ wanted => exact ⟨id, mem_path_self id, wanted, exposed⟩
  | @through id child up further uncovered inductionHypothesis =>
      have shown := further.shown linked
      obtain ⟨lit, above, facts⟩ := inductionHypothesis
        ((linked.exposedAt_of_child settings up pixel).mpr
          ⟨((linked.shownAt_of_child up).mp shown).1,
            uncovered.imp_right fun none ⟨sibling, member, covers⟩ => none sibling member covers,
            exposed⟩)
      exact ⟨lit, linked.parent_mem_path above up, facts⟩

theorem asked_of_exposed (linked : forest.Linked) (wanted : wants id)
    (exposed : forest.ExposedAt settings pixel id) (onPath : root ∈ forest.path id) :
    forest.Asked settings pixel wants root := by
  have climbs : ∀ above, forest.ExposedAt settings pixel above →
      forest.Asked settings pixel wants above → root ∈ forest.path above →
        forest.Asked settings pixel wants root := by
    intro above
    induction above using linked.upward with
    | _ above inductionHypothesis =>
        intro exposed asked onPath
        rcases linked.mem_path_iff.mp onPath with rfl | ⟨parent, up, further⟩
        · exact asked
        · obtain ⟨-, uncovered, exposedParent⟩ :=
            (linked.exposedAt_of_child settings up pixel).mp exposed
          refine inductionHypothesis parent up exposedParent (.through up asked ?_) further
          exact uncovered.imp_right fun none sibling member covers =>
            none ⟨sibling, member, covers⟩
  exact climbs id exposed (.here exposed.shown wanted) onPath

/-! ### Shown children -/

theorem Linked.shownAt_of_covers (linked : forest.Linked) {child : WidgetId}
    (shown : forest.shownAt pixel id = true) (up : forest.parent? child = some id)
    (covers : forest.Covers pixel child) : forest.shownAt pixel child = true :=
  (linked.shownAt_of_child up).mpr ⟨⟨covers.1, covers.2.2⟩, shown⟩

theorem covers_of_shownAt (shown : forest.shownAt pixel id = true)
    (isOpaque : forest.isOpaque id = true) : forest.Covers pixel id :=
  ⟨isVisible_of_shownAt shown, isOpaque, mem_windowRect_of_shownAt shown⟩

/-- Children that are not shown do not matter for what is asked for. -/
theorem Linked.asked_iff_filter (linked : forest.Linked)
    (shown : forest.shownAt pixel id = true) {keep : WidgetId → Bool}
    (idle : ∀ child ∈ forest.children id, keep child = false →
      forest.shownAt pixel child = false) :
    forest.Asked settings pixel wants id ↔
      wants id ∨ Emerges (forest.Asked settings pixel wants) (forest.Covers pixel)
        (forest.skips settings id) ((forest.children id).filter keep) := by
  rw [asked_iff linked, and_iff_right shown, emerges_filter]
  intro child member unkept
  have hidden := idle child member unkept
  constructor
  · intro asked
    rw [asked.shown linked] at hidden
    cases hidden
  · intro covers
    rw [linked.shownAt_of_covers shown (linked.mem_children_iff.mp member) covers] at hidden
    cases hidden

/-- Children that are not shown do not matter for what is shown. -/
theorem Linked.layers_eq_filter (linked : forest.Linked) (layer : WidgetId → Layer)
    (shown : forest.shownAt pixel id = true) {keep : WidgetId → Bool}
    (idle : ∀ child ∈ forest.children id, keep child = false →
      forest.shownAt pixel child = false) :
    (forest.stackAt pixel id).map layer =
      [layer id] ++ ((forest.children id).filter keep).flatMap fun child =>
        (forest.stackAt pixel child).map layer := by
  rw [linked.stackAt_eq shown, List.map_cons, List.map_flatMap, List.singleton_append,
    List.cons.injEq]
  refine ⟨rfl, ?_⟩
  generalize forest.children id = children at idle
  induction children with
  | nil => rfl
  | cons child later inductionHypothesis =>
      have further := inductionHypothesis fun sibling member =>
        idle sibling (List.mem_cons_of_mem child member)
      cases kept : keep child with
      | true =>
          rw [List.filter_cons_of_pos kept, List.flatMap_cons, List.flatMap_cons, further]
      | false =>
          have hidden := idle child (List.mem_cons_self ..) kept
          rw [List.filter_cons_of_neg (by rw [kept]; exact Bool.false_ne_true),
            List.flatMap_cons, linked.stackAt_eq_nil hidden, List.map_nil, List.nil_append,
            further]

/-! ### Two states of a window -/

/-- Nothing has changed of a widget at a pixel, apart from what its children show. -/
structure SameAt (before after : Forest) (layer layerAfter : WidgetId → Layer) (pixel : Point)
    (wants wantsAfter : WidgetId → Prop) (id : WidgetId) : Prop where
  shown : before.shownAt pixel id = true
  layer : layer id = layerAfter id
  flag : before.childrenNeverOverlap id = after.childrenNeverOverlap id
  wants : wants id → wantsAfter id
  /-- The same children in the same order, apart from those that are not shown. -/
  children : ∃ keep : WidgetId → Bool,
    (before.children id).filter keep = (after.children id).filter keep ∧
      (∀ child ∈ before.children id, keep child = false → before.shownAt pixel child = false) ∧
      (∀ child ∈ after.children id, keep child = false → after.shownAt pixel child = false) ∧
      ∀ child ∈ before.children id, keep child = true → before.shownAt pixel child = true →
        after.shownAt pixel child = true

theorem Linked.parents_of_kept {before after : Forest} (linked : before.Linked)
    (linkedAfter : after.Linked) {keep : WidgetId → Bool}
    (order : (before.children id).filter keep = (after.children id).filter keep)
    {child : WidgetId} (member : child ∈ (before.children id).filter keep) :
    before.parent? child = some id ∧ after.parent? child = some id := by
  have memberAfter := order ▸ member
  rw [List.mem_filter] at member memberAfter
  exact ⟨linked.mem_children_iff.mp member.1, linkedAfter.mem_children_iff.mp memberAfter.1⟩

/-- A child that is not shown in either state looks the same. -/
theorem Linked.same_of_hidden {before after : Forest} (linked : before.Linked)
    (linkedAfter : after.Linked) (layer layerAfter : WidgetId → Layer)
    (shown : after.shownAt pixel id = true) {child : WidgetId}
    (upAfter : after.parent? child = some id) (hidden : before.shownAt pixel child = false)
    (hiddenAfter : after.shownAt pixel child = false) :
    seen ((before.stackAt pixel child).map layer) =
        seen ((after.stackAt pixel child).map layerAfter) ∧
      (after.Covers pixel child → before.Covers pixel child) := by
  constructor
  · rw [linked.stackAt_eq_nil hidden, linkedAfter.stackAt_eq_nil hiddenAfter]
    rfl
  · intro covers
    rw [linkedAfter.shownAt_of_covers shown upAfter covers] at hiddenAfter
    cases hiddenAfter

/-- Where nothing has changed of a widget, it is enough to know of its children that they stay asked
for, and that each is asked for or looks the same. -/
theorem SameAt.unasked_and_seen {before after : Forest} (linked : before.Linked)
    (linkedAfter : after.Linked) {layer layerAfter : WidgetId → Layer}
    (opaqueLayerAfter : ∀ id, (layerAfter id).isOpaque = after.isOpaque id)
    {wantsAfter : WidgetId → Prop}
    (same : SameAt before after layer layerAfter pixel wants wantsAfter id)
    (shown : after.shownAt pixel id = true)
    (unasked : ¬after.Asked settings pixel wantsAfter id)
    (stays : ∀ child, after.parent? child = some id → after.shownAt pixel child = true →
      before.Asked settings pixel wants child → after.Asked settings pixel wantsAfter child)
    (looks : ∀ child, after.parent? child = some id → after.shownAt pixel child = true →
      after.Asked settings pixel wantsAfter child ∨
        seen ((before.stackAt pixel child).map layer) =
            seen ((after.stackAt pixel child).map layerAfter) ∧
          (after.Covers pixel child → before.Covers pixel child)) :
    ¬before.Asked settings pixel wants id ∧
      seen ((before.stackAt pixel id).map layer) =
        seen ((after.stackAt pixel id).map layerAfter) := by
  obtain ⟨shownBefore, layerSame, flag, wantsStay, keep, order, idle, idleAfter, kept⟩ := same
  have up : ∀ {child}, child ∈ (before.children id).filter keep → after.parent? child = some id :=
    fun member => (linked.parents_of_kept linkedAfter order member).2
  have keptStays : ∀ child ∈ (before.children id).filter keep,
      before.Asked settings pixel wants child → after.Asked settings pixel wantsAfter child := by
    intro child member asked
    obtain ⟨isChild, isKept⟩ := List.mem_filter.mp member
    exact stays child (up member) (kept child isChild isKept (asked.shown linked)) asked
  have keptLooks : ∀ child ∈ (before.children id).filter keep,
      after.Asked settings pixel wantsAfter child ∨
        seen ((before.stackAt pixel child).map layer) =
            seen ((after.stackAt pixel child).map layerAfter) ∧
          (after.Covers pixel child → before.Covers pixel child) := by
    intro child member
    obtain ⟨isChild, isKept⟩ := List.mem_filter.mp member
    cases shownChild : after.shownAt pixel child with
    | true => exact looks child (up member) shownChild
    | false =>
        have hidden : before.shownAt pixel child = false := by
          rw [Bool.eq_false_iff]
          intro shownToo
          rw [kept child isChild isKept shownToo] at shownChild
          cases shownChild
        exact Or.inr (linked.same_of_hidden linkedAfter layer layerAfter shown (up member)
          hidden shownChild)
  have keptHides : ∀ child ∈ (before.children id).filter keep, after.Covers pixel child →
      ((after.stackAt pixel child).map layerAfter).any Layer.isOpaque = true := by
    intro child member covers
    rw [linkedAfter.stackAt_eq (linkedAfter.shownAt_of_covers shown (up member) covers),
      List.map_cons, List.any_cons, opaqueLayerAfter, covers.2.1, Bool.true_or]
  obtain ⟨emerges, alike⟩ :=
    @emerges_or_seen _ _ _ _ (after.skips settings id) _ _ _ keptStays keptLooks keptHides
  rw [linkedAfter.asked_iff_filter shown idleAfter, ← order] at unasked
  constructor
  · rw [linked.asked_iff_filter shownBefore idle, skips, flag, ← skips]
    exact mt (Or.imp wantsStay emerges) unasked
  · have below := alike.resolve_left fun emerges => unasked (Or.inr emerges)
    rw [linked.layers_eq_filter layer shownBefore idle,
      linkedAfter.layers_eq_filter layerAfter shown idleAfter, ← order, layerSame]
    exact seen_append_congr rfl below

/-- Between two states, a widget that was asked for still is, and one that is not asked for looks
the same. -/
theorem seen_unless_asked {before after : Forest} (linked : before.Linked)
    (linkedAfter : after.Linked) {layer layerAfter : WidgetId → Layer}
    (opaqueLayer : ∀ id, (layer id).isOpaque = before.isOpaque id)
    (opaqueLayerAfter : ∀ id, (layerAfter id).isOpaque = after.isOpaque id)
    {wantsAfter : WidgetId → Prop} (reach : WidgetId → Prop)
    (step : ∀ id, reach id → after.shownAt pixel id = true →
      after.Asked settings pixel wantsAfter id ∨
        SameAt before after layer layerAfter pixel wants wantsAfter id)
    (down : ∀ id child, reach id → after.shownAt pixel id = true →
      after.parent? child = some id → ¬after.Asked settings pixel wantsAfter id → reach child)
    (id : WidgetId) :
    reach id → after.shownAt pixel id = true →
      (before.Asked settings pixel wants id → after.Asked settings pixel wantsAfter id) ∧
        (after.Asked settings pixel wantsAfter id ∨
          seen ((before.stackAt pixel id).map layer) =
            seen ((after.stackAt pixel id).map layerAfter)) := by
  induction id using linkedAfter.downward with
  | step id inductionHypothesis =>
      intro reached shown
      by_cases asked : after.Asked settings pixel wantsAfter id
      · exact ⟨fun _ => asked, Or.inl asked⟩
      · have same := (step id reached shown).resolve_left asked
        have reachedChild := fun child up => down id child reached shown up asked
        have further := fun child up shownChild =>
          inductionHypothesis child (linkedAfter.mem_children_iff.mpr up) (reachedChild child up)
            shownChild
        have looks : ∀ child, after.parent? child = some id → after.shownAt pixel child = true →
            after.Asked settings pixel wantsAfter child ∨
              seen ((before.stackAt pixel child).map layer) =
                  seen ((after.stackAt pixel child).map layerAfter) ∧
                (after.Covers pixel child → before.Covers pixel child) := by
          intro child up shownChild
          rcases step child (reachedChild child up) shownChild with askedChild | sameChild
          · exact Or.inl askedChild
          · refine (further child up shownChild).2.imp_right fun alike => ⟨alike, fun covers => ?_⟩
            apply covers_of_shownAt sameChild.shown
            rw [← opaqueLayer, sameChild.layer, opaqueLayerAfter]
            exact covers.2.1
        obtain ⟨unasked, alike⟩ := same.unasked_and_seen linked linkedAfter opaqueLayerAfter shown
          asked (fun child up shownChild => (further child up shownChild).1) looks
        exact ⟨fun before => absurd before unasked, Or.inr alike⟩

end Forest

end StyledWidgets
