/-
Module: StyledWidgets.Proofs.ScreenSteps
Purpose: What a change of one widget has to leave in the damage of a window so that nothing on the
  screen is lost: what waited to be repainted still waits, and wherever the window shows something
  else than before, the pixel waits now.
Main exports: Damage.Wants, Damage.Keeps, Application.Waits, Application.Answers,
  Application.Answers.waits_or_same
-/
import StyledWidgets.Proofs.AskedPixels

namespace StyledWidgets

namespace Damage

variable {damage after last : Damage} {forest : Forest} {pixel : Point} {id other : WidgetId}

/-! ### Pixels that wait -/

/-- A pixel of a widget waits to be repainted: it lies in the part of the widget that has been
requested, or it is scheduled. -/
def Wants (damage : Damage) (forest : Forest) (pixel : Point) (id : WidgetId) : Prop :=
  (∃ rect, damage.pending.find? id = some rect ∧
    forest.toLocal id pixel ∈ requestedPart forest id rect) ∨ damage.litAt pixel id

theorem requestedPart_none (forest : Forest) (id : WidgetId) (pixel : Point) :
    forest.toLocal id pixel ∈ requestedPart forest id none ↔ pixel ∈ forest.windowRect id :=
  Forest.mem_windowRect_iff.symm

/-- The whole widget is requested. -/
theorem wants_of_whole (whole : damage.pending.find? id = some none)
    (shown : forest.shownAt pixel id = true) : damage.Wants forest pixel id := by
  refine Or.inl ⟨none, whole, ?_⟩
  rw [requestedPart_none]
  exact Forest.mem_windowRect_of_shownAt shown

/-- Whether a pixel of a widget waits depends on the place of the widget alone. -/
theorem Wants.congr {before : Forest} (wanted : damage.Wants before pixel id)
    (geometry : before.geometry id = forest.geometry id)
    (place : before.toLocal id pixel = forest.toLocal id pixel) :
    damage.Wants forest pixel id := by
  have samePart : requestedPart before id = requestedPart forest id := by
    funext rect
    cases rect with
    | none => exact congrArg Rect.atOrigin geometry
    | some rect => exact congrArg (fun bounds => rect.intersect bounds.atOrigin) geometry
  refine wanted.imp_left fun ⟨rect, pending, inside⟩ => ⟨rect, pending, ?_⟩
  rwa [← samePart, ← place]

/-- Joined requests ask for all that either of them asks for. -/
theorem mem_requestedPart_join {earlier later : Option Rect} {point : Point}
    (inside : point ∈ requestedPart forest id earlier ∨ point ∈ requestedPart forest id later) :
    point ∈ requestedPart forest id (joinRequests earlier later) := by
  simp only [mem_requestedPart_iff] at inside ⊢
  refine ⟨inside.elim And.left And.left, fun joined isJoined => ?_⟩
  cases earlier with
  | none => cases isJoined
  | some a =>
      cases later with
      | none => cases isJoined
      | some b =>
          rw [← Option.some_inj.mp isJoined]
          exact Rect.mem_united (inside.imp (fun member => member.2 a rfl)
            fun member => member.2 b rfl)

theorem pending_requestUpdate (damage : Damage) (id other : WidgetId) (rect : Option Rect) :
    (damage.requestUpdate id rect).pending.find? other =
      if id = other then
        some (match damage.pending.find? id with
          | some earlier => joinRequests earlier rect
          | none => rect)
      else damage.pending.find? other :=
  Table.find?_insert _ _ _ _

/-- A request for a whole widget covers all earlier ones. -/
theorem pending_requestUpdate_none (damage : Damage) (id : WidgetId) :
    (damage.requestUpdate id none).pending.find? id = some none := by
  rw [pending_requestUpdate, if_pos rfl]
  cases damage.pending.find? id with
  | none => rfl
  | some earlier => cases earlier <;> rfl

theorem wants_requestUpdate {rect : Option Rect}
    (inside : forest.toLocal id pixel ∈ requestedPart forest id rect) :
    (damage.requestUpdate id rect).Wants forest pixel id := by
  left
  rw [pending_requestUpdate, if_pos rfl]
  refine ⟨_, rfl, ?_⟩
  cases damage.pending.find? id with
  | none => exact inside
  | some earlier => exact mem_requestedPart_join (Or.inr inside)

/-! ### What is kept of requests -/

/-- What waits of certain widgets still waits, and nothing has been scheduled. -/
structure Keeps (damage after : Damage) (kept : WidgetId → Prop) : Prop where
  wants : ∀ {forest : Forest} {pixel : Point} {id : WidgetId}, kept id →
    damage.Wants forest pixel id → after.Wants forest pixel id
  whole : ∀ {id : WidgetId}, kept id → damage.pending.find? id = some none →
    after.pending.find? id = some none
  scheduled : damage.scheduled = ∅ → after.scheduled = ∅
  above : damage.above = [] → after.above = []

namespace Keeps

variable {kept : WidgetId → Prop}

theorem refl (damage : Damage) (kept : WidgetId → Prop) : damage.Keeps damage kept where
  wants _ wanted := wanted
  whole _ whole := whole
  scheduled none := none
  above none := none

theorem trans (first : damage.Keeps after kept) (second : after.Keeps last kept) :
    damage.Keeps last kept where
  wants isKept wanted := second.wants isKept (first.wants isKept wanted)
  whole isKept whole := second.whole isKept (first.whole isKept whole)
  scheduled none := second.scheduled (first.scheduled none)
  above none := second.above (first.above none)

theorem requestUpdate (damage : Damage) (id : WidgetId) (rect : Option Rect) :
    damage.Keeps (damage.requestUpdate id rect) kept where
  wants {forest pixel other} _ wanted := by
    rcases wanted with ⟨earlier, pending, inside⟩ | lit
    · by_cases same : id = other
      · subst same
        left
        rw [pending_requestUpdate, if_pos rfl, pending]
        exact ⟨_, rfl, mem_requestedPart_join (Or.inl inside)⟩
      · left
        rw [pending_requestUpdate, if_neg same]
        exact ⟨earlier, pending, inside⟩
    · exact Or.inr lit
  whole {other} _ whole := by
    rw [pending_requestUpdate]
    split
    case isTrue same =>
      rw [same, whole]
      rfl
    case isFalse => exact whole
  scheduled none := none
  above none := none

theorem forget (damage : Damage) (ids : List WidgetId) :
    damage.Keeps (ids.foldl Damage.forget damage) fun other => other ∉ ids := by
  induction ids generalizing damage with
  | nil => exact refl damage _
  | cons id later inductionHypothesis =>
      have further := inductionHypothesis (damage.forget id)
      have outside : ∀ {other}, other ∉ id :: later → other ≠ id ∧ other ∉ later := by
        intro other apart
        rwa [List.mem_cons, not_or] at apart
      refine ⟨fun {forest pixel other} apart wanted => ?_, fun {other} apart whole => ?_,
        fun none => ?_, fun none => ?_⟩
      · apply further.wants (outside apart).2
        rcases wanted with ⟨rect, pending, inside⟩ | ⟨region, held, inside⟩
        · refine Or.inl ⟨rect, ?_, inside⟩
          rwa [Damage.forget, Table.find?_erase, if_neg (outside apart).1]
        · refine Or.inr ⟨region, ?_, inside⟩
          rwa [region?, Damage.forget, Table.find?_erase, if_neg (outside apart).1]
      · apply further.whole (outside apart).2
        rwa [Damage.forget, Table.find?_erase, if_neg (outside apart).1]
      · apply further.scheduled
        rw [Damage.forget, none]
        rfl
      · apply further.above
        rw [Damage.forget, none]
        rfl

theorem mono {fewer : WidgetId → Prop} (keeps : damage.Keeps after kept)
    (sub : ∀ {id}, fewer id → kept id) : damage.Keeps after fewer where
  wants isKept := keeps.wants (sub isKept)
  whole isKept := keeps.whole (sub isKept)
  scheduled := keeps.scheduled
  above := keeps.above

end Keeps

end Damage

namespace Application

open Forest

variable {before after : Application} {window id : WidgetId} {damage damageAfter : Damage}
  {pixel : Point}

/-- A pixel of a widget waits to be repainted, its own or one that would be seen of a widget below
it. -/
def Waits (app : Application) (damage : Damage) (pixel : Point) (id : WidgetId) : Prop :=
  app.forest.Asked app.settings.repaint pixel (damage.Wants app.forest pixel) id

/-! ### A change that is answered for -/

/-- A change of a widget and of those below it, and of nothing else in a window, is answered for in
the damage of the window. -/
structure Answers (before after : Application) (window : WidgetId)
    (damage damageAfter : Damage) (id : WidgetId) : Prop where
  settings : after.settings = before.settings
  alike : AlikeAway before.forest after.forest id
  layer : ∀ {other : WidgetId}, after.forest.contains other = true →
    window ∈ after.forest.path other → id ∉ after.forest.path other →
      before.layer other = after.layer other
  keeps : damage.Keeps damageAfter fun other =>
    after.forest.contains other = true ∧ id ∉ after.forest.path other
  /-- A widget that is still to be seen is requested as a whole. -/
  asks : ∀ {pixel : Point}, window ∈ after.forest.path id →
    after.forest.shownAt pixel id = true → damageAfter.pending.find? id = some none
  /-- Where the widget has been shown and is no longer, its parent is repainted. -/
  gap : ∀ {pixel : Point} {parent : WidgetId}, before.forest.parent? id = some parent →
    window ∈ after.forest.path parent → id ∉ after.forest.path parent →
      after.forest.shownAt pixel parent = true → before.forest.shownAt pixel id = true →
        damageAfter.Wants after.forest pixel parent ∨
          after.forest.shownAt pixel id = true ∧
            before.forest.children parent = after.forest.children parent
  /-- A widget that gets another place among its siblings is the topmost of them. -/
  arrival : ∀ {parent : WidgetId}, after.forest.parent? id = some parent →
    before.forest.children parent = after.forest.children parent ∨
      after.forest.siblingsAbove parent id = []

namespace Answers

variable (answers : Answers before after window damage damageAfter id)

include answers

theorem waits (inWindow : window ∈ after.forest.path id)
    (shown : after.forest.shownAt pixel id = true) : after.Waits damageAfter pixel id :=
  .here shown (Damage.wants_of_whole (answers.asks inWindow shown) shown)

variable (linked : before.forest.Linked) (linkedAfter : after.forest.Linked)

include linked linkedAfter

/-- The children of a widget away from the change are shown as before, but for the changed one. -/
theorem shownAt_child {other child : WidgetId} (away : id ∉ after.forest.path other)
    (member : child ∈ after.forest.children other) (apart : child ≠ id) :
    before.forest.shownAt pixel child = after.forest.shownAt pixel child := by
  have up := linkedAfter.mem_children_iff.mp member
  apply answers.alike.shownAt linked linkedAfter (contains_of_parent up)
  rw [linkedAfter.path_of_child up, List.mem_cons, not_or]
  exact ⟨Ne.symm apart, away⟩

omit linked in
/-- A changed widget that has come to a parent waits where it is shown, on top of its siblings. -/
theorem waits_of_arrival {other : WidgetId} (inWindow : window ∈ after.forest.path other)
    (differs : before.forest.children other ≠ after.forest.children other)
    (member : id ∈ after.forest.children other) (shown : after.forest.shownAt pixel id = true) :
    after.Waits damageAfter pixel other := by
  have up := linkedAfter.mem_children_iff.mp member
  have topmost := (answers.arrival up).resolve_left differs
  refine .through up (answers.waits ?_ shown) (Or.inr ?_)
  · exact linkedAfter.mem_path_iff.mpr (Or.inr ⟨other, up, inWindow⟩)
  · rw [topmost]
    exact fun _ member => absurd member List.not_mem_nil

/-- A widget away from the change that is not asked for itself has the same children as before,
apart from one that is not shown, or it waits. -/
theorem sameChildren_or_waits {other : WidgetId} (inWindow : window ∈ after.forest.path other)
    (away : id ∉ after.forest.path other) (shown : after.forest.shownAt pixel other = true)
    (unwanted : ¬damageAfter.Wants after.forest pixel other) :
    (∃ keep : WidgetId → Bool,
      (before.forest.children other).filter keep = (after.forest.children other).filter keep ∧
        (∀ child ∈ before.forest.children other, keep child = false →
          before.forest.shownAt pixel child = false) ∧
        (∀ child ∈ after.forest.children other, keep child = false →
          after.forest.shownAt pixel child = false) ∧
        ∀ child ∈ before.forest.children other, keep child = true →
          before.forest.shownAt pixel child = true →
            after.forest.shownAt pixel child = true) ∨
      after.Waits damageAfter pixel other := by
  -- The changed widget may still be, or have been, a child of this one.
  have stays : id ∈ before.forest.children other → before.forest.shownAt pixel id = true →
      after.forest.shownAt pixel id = true ∧
        before.forest.children other = after.forest.children other := by
    intro member shownBefore
    exact (answers.gap (linked.mem_children_iff.mp member) inWindow away shown
      shownBefore).resolve_left unwanted
  by_cases same : before.forest.children other = after.forest.children other
  · refine Or.inl ⟨fun _ => true, by rw [same], ?_, ?_, ?_⟩
    · exact fun _ _ kept => by cases kept
    · exact fun _ _ kept => by cases kept
    · intro child member _ shownBefore
      by_cases here : child = id
      · rw [here] at member shownBefore ⊢
        exact (stays member shownBefore).1
      · rwa [← answers.shownAt_child linked linkedAfter away (same ▸ member) here]
  · by_cases arrived : id ∈ after.forest.children other ∧ after.forest.shownAt pixel id = true
    · exact Or.inr (answers.waits_of_arrival linkedAfter inWindow same arrived.1 arrived.2)
    · have order := answers.alike.order (contains_of_shownAt shown) away
      refine Or.inl ⟨fun child => decide (child ≠ id), order, ?_, ?_, ?_⟩
      · intro child member isChanged
        rw [decide_eq_false_iff_not, not_not] at isChanged
        rw [isChanged] at member ⊢
        rw [Bool.eq_false_iff]
        exact fun shownBefore => same (stays member shownBefore).2
      · intro child member isChanged
        rw [decide_eq_false_iff_not, not_not] at isChanged
        rw [isChanged] at member ⊢
        rw [Bool.eq_false_iff]
        exact fun shownAfter => arrived ⟨member, shownAfter⟩
      · intro child member apart shownBefore
        have inBoth : child ∈ (after.forest.children other).filter fun child => child ≠ id := by
          rw [← order]
          exact List.mem_filter.mpr ⟨member, apart⟩
        rwa [← answers.shownAt_child linked linkedAfter away (List.mem_filter.mp inBoth).1
          (of_decide_eq_true apart)]

/-- A widget away from the change waits, or nothing has changed of it but what its children
show. -/
theorem step {other : WidgetId} (inWindow : window ∈ after.forest.path other)
    (away : id ∉ after.forest.path other) (shown : after.forest.shownAt pixel other = true) :
    after.Waits damageAfter pixel other ∨
      SameAt before.forest after.forest before.layer after.layer pixel
        (damage.Wants before.forest pixel) (damageAfter.Wants after.forest pixel) other := by
  have live : after.forest.contains other = true := contains_of_shownAt shown
  have alike := answers.alike
  by_cases wanted : damageAfter.Wants after.forest pixel other
  · exact Or.inl (.here shown wanted)
  · rcases answers.sameChildren_or_waits linked linkedAfter inWindow away shown wanted with
      children | waits
    · right
      refine ⟨?_, answers.layer live inWindow away, ?_, fun before => ?_, children⟩
      · rwa [alike.shownAt linked linkedAfter live away]
      · exact childrenNeverOverlap_congr (alike.face live away)
      · apply answers.keeps.wants ⟨live, away⟩
        apply before.congr
        · exact geometry_congr (alike.face live away)
        · exact alike.toLocal linked linkedAfter live away pixel
    · exact Or.inl waits

/-- A pixel of the window waits after the change, or it has waited before if it waits, and the
window shows the same there. -/
theorem waits_or_same (top : after.forest.parent? window = none)
    (shown : after.forest.shownAt pixel window = true) :
    after.Waits damageAfter pixel window ∨
      before.forest.shownAt pixel window = true ∧ ¬before.Waits damage pixel window ∧
        before.visibleStack window pixel = after.visibleStack window pixel := by
  have alone := linkedAfter.path_of_root top
  have inWindow : window ∈ after.forest.path window := mem_path_self window
  by_cases waits : after.Waits damageAfter pixel window
  · exact Or.inl waits
  · right
    have apart : id ≠ window := by
      rintro rfl
      exact waits (answers.waits inWindow shown)
    have away : id ∉ after.forest.path window := by
      rw [alone, List.mem_singleton]
      exact apart
    have same := (answers.step linked linkedAfter inWindow away shown).resolve_left waits
    have run := @seen_unless_asked after.settings.repaint pixel (damage.Wants before.forest pixel)
      before.forest after.forest linked linkedAfter before.layer after.layer (fun _ => rfl)
      (fun _ => rfl) (damageAfter.Wants after.forest pixel)
      (fun other => window ∈ after.forest.path other ∧ (id ∈ after.forest.path other → other = id))
      ?_ ?_ window ⟨inWindow, fun below => absurd below away⟩ shown
    · refine ⟨same.shown, fun earlier => waits (run.1 ?_), run.2.resolve_left waits⟩
      rw [answers.settings]
      exact earlier
    · rintro other ⟨reached, apartOrHere⟩ shownOther
      by_cases here : id ∈ after.forest.path other
      · rw [apartOrHere here] at reached shownOther ⊢
        exact Or.inl (answers.waits reached shownOther)
      · exact answers.step linked linkedAfter reached here shownOther
    · rintro other child ⟨reached, apartOrHere⟩ shownOther up unasked
      rw [linkedAfter.path_of_child up]
      refine ⟨List.mem_cons_of_mem child reached, fun below => ?_⟩
      rcases List.mem_cons.mp below with here | above
      · exact here.symm
      · rw [apartOrHere above] at reached shownOther unasked
        exact absurd (answers.waits reached shownOther) unasked

end Answers

end Application

end StyledWidgets
