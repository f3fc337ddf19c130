/-
Module: StyledWidgets.Proofs.ForestEdits
Purpose: Edits of a forest in place. Such an edit changes one widget after the other and looks each
  of them up again, so it could fail halfway. In the forests that edits lead to it never does: an
  edit that fails has changed nothing. The walks up and down these forests end by themselves.
Main exports: Forest.EditM, Forest.Edit, Forest.Edit.inPlace, Forest.Edited, Forest.Climbs,
  Forest.Visits, Forest.Linked.inPlace_run, Forest.afterEdits_isForest
-/
import Mathlib.Data.Finset.Card
import StyledWidgets.Proofs.WindowEntries

namespace StyledWidgets

open StyledWidgets.Sheet

namespace Forest

variable {forest after : Forest} {id parent child : WidgetId} {α : Type}

/-! ### Edits in place -/

/-- A step of an edit in place. What it has changed before a failure stays changed. -/
abbrev EditM := ExceptT ForestError (StateM Forest)

/-- The end of an edit that is made all at once: its outcome, and the forest as it was if it
fails. -/
def atOnce (forest : Forest) :
    Except ForestError (α × Forest) → Except ForestError α × Forest
  | .ok (value, after) => (.ok value, after)
  | .error failure => (.error failure, forest)

namespace EditM

/-- The widget with an identity, or the failure that there is none. -/
def require (id : WidgetId) : EditM Widget := fun forest => (forest.require id, forest)

/-- Change one widget, or fail if there is none. -/
def update (id : WidgetId) (change : Widget → Widget) : EditM Unit := fun forest =>
  forest.atOnce ((forest.change id change).map fun after => ((), after))

/-- Change the widget that a link leads to, if there is a link. -/
def updateLinked (link : Option WidgetId) (change : Widget → Widget) : EditM Unit :=
  match link with
  | none => pure ()
  | some id => update id change

/-- Put a widget into a new slot. -/
def push (widget : Widget) (parent : Option WidgetId) : EditM WidgetId := fun forest =>
  (.ok (forest.push widget parent).1, (forest.push widget parent).2)

/-- Add a widget: it gets its slot first, then its parent hears of it. -/
def insert (parent : Option WidgetId) (widget : Widget) : EditM WidgetId :=
  match parent with
  | none => push widget none
  | some above => do
      let _ ← require above
      let id ← push widget (some above)
      update above fun widget => { widget with children := widget.children ++ [id] }
      return id

/-- Fail if a widget cannot move below another one. -/
def requireTarget (id : WidgetId) (newParent : Option WidgetId) : EditM Unit :=
  match newParent with
  | none => pure ()
  | some parent => do
      let _ ← require parent
      if (← get).isAncestorOrSelf id parent then throw (.cycle id parent)

/-- Take a widget out of the children of its parent. -/
def release (id : WidgetId) (parent : Option WidgetId) : EditM Unit :=
  updateLinked parent fun old =>
    { old with children := old.children.filter fun other => other ≠ id }

/-- Rewrite the links of a widget: the old parent loses it, it gets the new parent, and the new
parent hears of it. -/
def relink (id : WidgetId) (oldParent newParent : Option WidgetId) : EditM Unit := do
  release id oldParent
  update id fun widget => { widget with parent := newParent }
  updateLinked newParent fun target => { target with children := target.children ++ [id] }

/-- Move a widget. -/
def reparent (id : WidgetId) (newParent : Option WidgetId) : EditM Unit := do
  let _ ← require id
  requireTarget id newParent
  let widget ← require id
  relink id widget.parent newParent

/-- Remove a widget and those below it: the parent loses it, then the slots are emptied. -/
def remove (id : WidgetId) : EditM (List WidgetId) := do
  let _ ← require id
  let removed := (← get).subtree id
  let widget ← require id
  release id widget.parent
  modify fun forest => forest.clearSlots removed
  modify fun forest => { forest with live := forest.live - removed.length }
  return removed

/-- Move a widget among the children of its parent. -/
def restack (id : WidgetId) (place : WidgetId → List WidgetId → List WidgetId) : EditM Unit := do
  let widget ← require id
  match widget.parent with
  | none => throw (.noSiblings id)
  | some parent =>
      update parent fun widget =>
        { widget with children := place id (widget.children.filter fun other => other ≠ id) }

end EditM

/-- A new value of an attribute of a widget. -/
inductive Setting where
  | geometry (value : Rect)
  | visible (value : Bool)
  | isOpaque (value : Bool)
  | childrenNeverOverlap (value : Bool)
  | ignoresSheets (value : Bool)
  | objectName (value : String)
  | pseudo (value : PseudoMask)
  | text (value : String)
  | nextFrame
  deriving Repr, DecidableEq, Inhabited

namespace Setting

/-- The widget with the new value. -/
def write : Setting → Widget → Widget
  | .geometry value, widget => { widget with geometry := value }
  | .visible value, widget => { widget with visible := value }
  | .isOpaque value, widget => { widget with isOpaque := value }
  | .childrenNeverOverlap value, widget => { widget with childrenNeverOverlap := value }
  | .ignoresSheets value, widget => { widget with ignoresSheets := value }
  | .objectName value, widget => { widget with objectName := value }
  | .pseudo value, widget => { widget with pseudo := value }
  | .text value, widget => { widget with text := value }
  | .nextFrame, widget => { widget with frame := widget.frame + 1 }

/-- The forest with the new value of the attribute of a widget. -/
def apply (forest : Forest) (id : WidgetId) : Setting → Except ForestError Forest
  | .geometry value => forest.setGeometry id value
  | .visible value => forest.setVisible id value
  | .isOpaque value => forest.setOpaque id value
  | .childrenNeverOverlap value => forest.setChildrenNeverOverlap id value
  | .ignoresSheets value => forest.setIgnoresSheets id value
  | .objectName value => forest.setObjectName id value
  | .pseudo value => (forest.setPseudo id value).map (·.2)
  | .text value => forest.setText id value
  | .nextFrame => (forest.advanceFrame id).map (·.2)

end Setting

/-- An edit of a forest, with any identities. -/
inductive Edit where
  | insert (parent : Option WidgetId) (widget : Widget)
  | insertWindow (widget : Widget)
  | reparent (id : WidgetId) (newParent : Option WidgetId)
  | remove (id : WidgetId)
  | raise (id : WidgetId)
  | lower (id : WidgetId)
  | set (id : WidgetId) (setting : Setting)
  deriving Repr, DecidableEq, Inhabited

namespace Edit

/-- What an edit makes of a forest, with the identities that it hands out. -/
def outcome (forest : Forest) : Edit → Except ForestError (List WidgetId × Forest)
  | .insert parent widget => (forest.insert parent widget).map fun (id, after) => ([id], after)
  | .insertWindow widget =>
      let (id, after) := forest.insertWindow widget
      .ok ([id], after)
  | .reparent id newParent => (forest.reparent id newParent).map fun after => ([], after)
  | .remove id => (forest.remove id).map fun (_, after) => ([], after)
  | .raise id => (forest.raise id).map fun after => ([], after)
  | .lower id => (forest.lower id).map fun after => ([], after)
  | .set id setting => (setting.apply forest id).map fun after => ([], after)

/-- The edit in place; the identities that it hands out. -/
def inPlace : Edit → EditM (List WidgetId)
  | .insert parent widget => do return [← EditM.insert parent widget]
  | .insertWindow widget => do return [← EditM.push widget none]
  | .reparent id newParent => do
      EditM.reparent id newParent
      return []
  | .remove id => do
      let _ ← EditM.remove id
      return []
  | .raise id => do
      EditM.restack id fun child others => others ++ [child]
      return []
  | .lower id => do
      EditM.restack id fun child others => child :: others
      return []
  | .set id setting => do
      EditM.update id setting.write
      return []

end Edit

/-! ### Edits in place are made all at once -/

theorem require_run :
    (EditM.require id).run forest = (forest.require id, forest) := rfl

theorem update_run (live : forest.contains id = true) (change : Widget → Widget) :
    (EditM.update id change).run forest = (.ok (), forest.adjust id change) := by
  obtain ⟨widget, found⟩ := contains_iff.mp live
  have changed := Application.change_eq found change
  exact congrArg (fun outcome => forest.atOnce (outcome.map fun after => ((), after))) changed

theorem updateLinked_run {link : Option WidgetId} {change : Widget → Widget}
    (live : ∀ target, link = some target → forest.contains target = true) :
    (EditM.updateLinked link change).run forest =
      (.ok (), link.elim forest fun target => forest.adjust target change) := by
  cases link with
  | none => rfl
  | some target => exact update_run (live target rfl) change

theorem insert_run (parent : Option WidgetId) (widget : Widget) :
    (EditM.insert parent widget).run forest = forest.atOnce (forest.insert parent widget) := by
  cases parent with
  | none => rfl
  | some above =>
      simp only [EditM.insert, run_bind, require_run]
      cases found : forest.get? above with
      | none =>
          simp only [Application.require_eq_error found, Forest.insert]
          rfl
      | some old =>
          have live := contains_iff.mpr ⟨old, found⟩
          have stillLive : (forest.push widget (some above)).2.contains above = true := by
            rw [contains, get?_push]
            split
            · rfl
            · exact live
          have pushed : (EditM.push widget (some above)).run forest =
              (.ok (forest.push widget (some above)).1, (forest.push widget (some above)).2) := rfl
          simp only [Application.require_eq_ok found, pushed, update_run stillLive,
            insert_of_contains above widget live]
          rfl

/-- Whether a widget can move below another one. -/
def checkTarget (forest : Forest) (id : WidgetId) : Option WidgetId → Except ForestError Unit
  | none => .ok ()
  | some parent => do
      let _ ← forest.require parent
      if forest.isAncestorOrSelf id parent then throw (.cycle id parent)

theorem requireTarget_run (newParent : Option WidgetId) :
    (EditM.requireTarget id newParent).run forest =
      (forest.checkTarget id newParent, forest) := by
  cases newParent with
  | none => rfl
  | some parent =>
      simp only [EditM.requireTarget, run_bind, require_run, checkTarget]
      cases forest.require parent with
      | error failure => rfl
      | ok target =>
          change (if forest.isAncestorOrSelf id parent then throw (.cycle id parent)
            else pure () : EditM Unit).run forest = _
          split <;> rfl

theorem reparent_eq {widget : Widget} (found : forest.get? id = some widget)
    (newParent : Option WidgetId) :
    forest.reparent id newParent = (forest.checkTarget id newParent).map fun _ =>
      ((forest.released id (forest.parent? id)).turned id newParent).held id newParent := by
  rw [parent?_of_get? found, Forest.reparent, Application.require_eq_ok found]
  cases newParent with
  | none => rfl
  | some parent =>
      simp only [checkTarget]
      cases forest.require parent with
      | error failure => rfl
      | ok target =>
          cases below : forest.isAncestorOrSelf id parent with
          | true => rfl
          | false => rfl

theorem contains_of_checkTarget {newParent : Option WidgetId}
    (fits : forest.checkTarget id newParent = .ok ()) {parent : WidgetId}
    (isParent : newParent = some parent) : forest.contains parent = true := by
  subst isParent
  rw [checkTarget] at fits
  cases found : forest.get? parent with
  | none =>
      rw [Application.require_eq_error found] at fits
      cases fits
  | some target => exact contains_iff.mpr ⟨target, found⟩

theorem Linked.release_run (linked : forest.Linked) :
    (EditM.release id (forest.parent? id)).run forest =
      (.ok (), forest.released id (forest.parent? id)) := by
  rw [EditM.release, updateLinked_run fun above up => linked.contains_parent up]
  cases forest.parent? id <;> rfl

/-- The links of a widget that moves are rewritten without a failure, as all that is looked up is
there. -/
theorem Linked.relink_run (linked : forest.Linked) {newParent : Option WidgetId}
    (live : forest.contains id = true)
    (target : ∀ {parent}, newParent = some parent → forest.contains parent = true) :
    (EditM.relink id (forest.parent? id) newParent).run forest =
      (.ok (),
        ((forest.released id (forest.parent? id)).turned id newParent).held id newParent) := by
  have stillLive : (forest.released id (forest.parent? id)).contains id = true := by
    rwa [contains_released]
  simp only [EditM.relink, run_bind, linked.release_run, update_run stillLive]
  change (EditM.updateLinked newParent _).run
    ((forest.released id (forest.parent? id)).turned id newParent) = _
  rw [updateLinked_run]
  · cases newParent <;> rfl
  · intro parent same
    rw [turned, contains_adjust, contains_released]
    exact target same

theorem Linked.reparent_run (linked : forest.Linked) (newParent : Option WidgetId) :
    (EditM.reparent id newParent).run forest =
      forest.atOnce ((forest.reparent id newParent).map fun after => ((), after)) := by
  simp only [EditM.reparent, run_bind, require_run, requireTarget_run]
  cases found : forest.get? id with
  | none =>
      simp only [Application.require_eq_error found, Forest.reparent]
      rfl
  | some widget =>
      rw [reparent_eq found]
      simp only [Application.require_eq_ok found]
      cases fits : forest.checkTarget id newParent with
      | error failure => rfl
      | ok =>
          have live := contains_iff.mpr ⟨widget, found⟩
          simp only [Application.require_eq_ok found, ← parent?_of_get? found]
          exact linked.relink_run live (contains_of_checkTarget fits)

/-- The forest without a widget and those below it. -/
def cleared (forest : Forest) (id : WidgetId) : Forest :=
  let emptied := (forest.released id (forest.parent? id)).clearSlots (forest.subtree id)
  { emptied with live := emptied.live - (forest.subtree id).length }

theorem remove_eq {widget : Widget} (found : forest.get? id = some widget) :
    forest.remove id = .ok (forest.subtree id, forest.cleared id) := by
  rw [Forest.remove, Application.require_eq_ok found, cleared, parent?_of_get? found]
  rfl

theorem Linked.remove_run (linked : forest.Linked) :
    (EditM.remove id).run forest = forest.atOnce (forest.remove id) := by
  simp only [EditM.remove, run_bind, require_run]
  cases found : forest.get? id with
  | none =>
      simp only [Application.require_eq_error found, Forest.remove]
      rfl
  | some widget =>
      have read : (get : EditM Forest).run forest = (.ok forest, forest) := rfl
      simp only [remove_eq found, Application.require_eq_ok found, read,
        ← parent?_of_get? found, linked.release_run]
      rfl

theorem restack_run (place : WidgetId → List WidgetId → List WidgetId) :
    (EditM.restack id place).run forest =
      forest.atOnce ((forest.restack id place).map fun after => ((), after)) := by
  simp only [EditM.restack, run_bind, require_run, Forest.restack]
  cases forest.require id with
  | error failure => rfl
  | ok widget =>
      cases isParent : widget.parent with
      | none =>
          simp only [isParent, bind, Except.bind]
          rfl
      | some parent =>
          simp only [isParent, bind, Except.bind]
          rfl

theorem Setting.apply_eq (setting : Setting) :
    setting.apply forest id = forest.change id setting.write := by
  cases setting with
  | pseudo value =>
      rw [apply, setPseudo, change]
      cases forest.require id <;> rfl
  | nextFrame =>
      rw [apply, advanceFrame, change]
      cases forest.require id <;> rfl
  | _ => rfl

theorem Linked.inPlace_run (linked : forest.Linked) (edit : Edit) :
    edit.inPlace.run forest = forest.atOnce (edit.outcome forest) := by
  cases edit with
  | insert parent widget =>
      simp only [Edit.inPlace, Edit.outcome, run_bind, insert_run]
      cases forest.insert parent widget <;> rfl
  | insertWindow widget => rfl
  | reparent id newParent =>
      simp only [Edit.inPlace, Edit.outcome, run_bind, linked.reparent_run]
      cases forest.reparent id newParent <;> rfl
  | remove id =>
      simp only [Edit.inPlace, Edit.outcome, run_bind, linked.remove_run]
      cases forest.remove id <;> rfl
  | raise id =>
      simp only [Edit.inPlace, Edit.outcome, run_bind, restack_run]
      cases isRaised : forest.raise id <;> rw [raise] at isRaised <;> rw [isRaised] <;> rfl
  | lower id =>
      simp only [Edit.inPlace, Edit.outcome, run_bind, restack_run]
      cases isLowered : forest.lower id <;> rw [lower] at isLowered <;> rw [isLowered] <;> rfl
  | set id setting =>
      have run : (EditM.update id setting.write).run forest =
        forest.atOnce ((forest.change id setting.write).map fun after => ((), after)) := rfl
      simp only [Edit.inPlace, Edit.outcome, run_bind, run, setting.apply_eq]
      cases forest.change id setting.write <;> rfl

/-! ### What an edit makes of the widgets -/

/-- The forest with the children of a widget put into another order. -/
def arranged (forest : Forest) (parent id : WidgetId)
    (place : WidgetId → List WidgetId → List WidgetId) : Forest :=
  forest.adjust parent fun widget =>
    { widget with children := place id (widget.children.filter fun other => other ≠ id) }

theorem parent?_arranged (parent id other : WidgetId)
    (place : WidgetId → List WidgetId → List WidgetId) :
    (forest.arranged parent id place).parent? other = forest.parent? other := by
  rw [arranged, parent?_adjust]
  exact fun _ => rfl

theorem children_arranged (live : forest.contains parent = true) (id other : WidgetId)
    (place : WidgetId → List WidgetId → List WidgetId) :
    (forest.arranged parent id place).children other =
      if other = parent then
        place id ((forest.children other).filter fun member => member ≠ id)
      else forest.children other := by
  obtain ⟨widget, found⟩ := contains_iff.mp live
  rw [arranged, children, get?_adjust]
  by_cases same : other = parent
  · subst same
    simp [children, found]
  · simp [same, children]

theorem restack_eq_ok {place : WidgetId → List WidgetId → List WidgetId}
    (moved : forest.restack id place = .ok after) :
    ∃ parent, forest.parent? id = some parent ∧ after = forest.arranged parent id place := by
  rw [restack] at moved
  cases found : forest.get? id with
  | none =>
      rw [Application.require_eq_error found] at moved
      cases moved
  | some widget =>
      simp only [Application.require_eq_ok found, bind, Except.bind] at moved
      cases isParent : widget.parent with
      | none =>
          rw [isParent] at moved
          cases moved
      | some parent =>
          simp only [isParent] at moved
          refine ⟨parent, (parent?_of_get? found).trans isParent, ?_⟩
          cases above : forest.get? parent with
          | none =>
              rw [Application.change_eq_error above] at moved
              cases moved
          | some old =>
              rw [Application.change_eq above] at moved
              exact (Except.ok.inj moved).symm

/-- Siblings in another order are still the children of their parent. -/
theorem Linked.arranged (linked : forest.Linked) (up : forest.parent? id = some parent)
    {place : WidgetId → List WidgetId → List WidgetId}
    (permutes : ∀ child others, (place child others).Perm (child :: others)) :
    (forest.arranged parent id place).Linked := by
  have siblings : (id :: (forest.children parent).filter fun other => other ≠ id).Perm
      (forest.children parent) := by
    have isChild := linked.mem_children_iff.mpr up
    have distinct := linked.children_nodup parent
    refine (List.perm_ext_iff_of_nodup ?_ distinct).mpr fun other => ?_
    · exact List.nodup_cons.mpr ⟨by simp, distinct.filter _⟩
    · by_cases same : other = id
      · simp [same, isChild]
      · simp [same]
  have children : ∀ other,
      ((forest.arranged parent id place).children other).Perm (forest.children other) := by
    intro other
    rw [children_arranged (linked.contains_parent up)]
    split
    case isTrue same => exact same ▸ (permutes id _).trans siblings
    case isFalse => exact List.Perm.refl _
  constructor
  case mem_children_iff =>
    intro above child
    rw [(children above).mem_iff, parent?_arranged]
    exact linked.mem_children_iff
  case children_nodup =>
    exact fun other => (children other).nodup_iff.mpr (linked.children_nodup other)
  case ranked =>
    obtain ⟨rank, falls⟩ := linked.ranked
    exact ⟨rank, fun further => falls (parent?_arranged .. ▸ further)⟩

/-- A forest has the same identities in use as another one, and the same number of slots. -/
structure SameWidgets (forest after : Forest) : Prop where
  contains : ∀ id, after.contains id = forest.contains id
  live : after.live = forest.live
  slots : after.slots.size = forest.slots.size

theorem SameWidgets.refl (forest : Forest) : SameWidgets forest forest := ⟨fun _ => rfl, rfl, rfl⟩

theorem SameWidgets.trans {middle : Forest} (first : SameWidgets forest middle)
    (second : SameWidgets middle after) : SameWidgets forest after where
  contains id := (second.contains id).trans (first.contains id)
  live := second.live.trans first.live
  slots := second.slots.trans first.slots

theorem sameWidgets_adjust (id : WidgetId) (change : Widget → Widget) :
    SameWidgets forest (forest.adjust id change) where
  contains other := contains_adjust id other change
  live := by
    rw [adjust]
    split <;> rfl
  slots := by
    rw [adjust]
    split
    · exact Array.size_setIfInBounds
    · rfl

theorem sameWidgets_released (id : WidgetId) (parent : Option WidgetId) :
    SameWidgets forest (forest.released id parent) := by
  cases parent with
  | none => exact .refl forest
  | some parent => exact sameWidgets_adjust parent _

theorem sameWidgets_reparent {newParent : Option WidgetId}
    (moved : forest.reparent id newParent = .ok after) : SameWidgets forest after := by
  obtain ⟨-, -, rfl⟩ := reparent_eq_ok moved
  have turned : SameWidgets forest
      ((forest.released id (forest.parent? id)).turned id newParent) :=
    (sameWidgets_released id _).trans (sameWidgets_adjust id _)
  cases newParent with
  | none => exact turned
  | some parent => exact turned.trans (sameWidgets_adjust parent _)

theorem change_eq_ok {change : Widget → Widget} (changed : forest.change id change = .ok after) :
    after = forest.adjust id change := by
  cases found : forest.get? id with
  | none =>
      rw [Application.change_eq_error found] at changed
      cases changed
  | some widget =>
      rw [Application.change_eq found] at changed
      exact (Except.ok.inj changed).symm

private theorem exists_of_map_eq_ok {ε β : Type} {outcome : Except ε α} {next : α → β} {value : β}
    (mapped : outcome.map next = .ok value) :
    ∃ first, outcome = .ok first ∧ next first = value := by
  cases outcome with
  | error failure => cases mapped
  | ok first => exact ⟨first, rfl, Except.ok.inj mapped⟩

/-- Everything that an edit that succeeds can have done: the identities that it has handed out and
the forest that it has led to. -/
inductive Edited (forest : Forest) : List WidgetId → Forest → Prop
  | window (widget : Widget) :
      Edited forest [(forest.insertWindow widget).1] (forest.insertWindow widget).2
  | child {parent id : WidgetId} {widget : Widget} {after : Forest}
      (inserted : forest.insert (some parent) widget = .ok (id, after)) :
      Edited forest [id] after
  | moved {id : WidgetId} {newParent : Option WidgetId} {after : Forest}
      (moved : forest.reparent id newParent = .ok after) :
      Edited forest [] after
  | removed {id : WidgetId} {removed : List WidgetId} {after : Forest}
      (gone : forest.remove id = .ok (removed, after)) :
      Edited forest [] after
  | arranged {parent id : WidgetId} {place : WidgetId → List WidgetId → List WidgetId}
      (up : forest.parent? id = some parent)
      (permutes : ∀ child others, (place child others).Perm (child :: others)) :
      Edited forest [] (forest.arranged parent id place)
  | written (id : WidgetId) (setting : Setting) :
      Edited forest [] (forest.adjust id setting.write)

theorem Edit.edited {edit : Edit} {ids : List WidgetId}
    (done : edit.outcome forest = .ok (ids, after)) : forest.Edited ids after := by
  cases edit with
  | insertWindow widget =>
      cases done
      exact .window widget
  | insert parent widget =>
      obtain ⟨⟨id, grown⟩, inserted, same⟩ := exists_of_map_eq_ok done
      cases same
      cases parent with
      | none =>
          cases inserted
          exact .window widget
      | some parent => exact .child inserted
  | reparent id newParent =>
      obtain ⟨moved, reparented, same⟩ := exists_of_map_eq_ok done
      cases same
      exact .moved reparented
  | remove id =>
      obtain ⟨⟨removed, left⟩, gone, same⟩ := exists_of_map_eq_ok done
      cases same
      exact .removed gone
  | raise id =>
      obtain ⟨moved, raised, same⟩ := exists_of_map_eq_ok done
      cases same
      obtain ⟨parent, up, rfl⟩ := restack_eq_ok raised
      exact .arranged up fun child others => List.perm_append_singleton child others
  | lower id =>
      obtain ⟨moved, lowered, same⟩ := exists_of_map_eq_ok done
      cases same
      obtain ⟨parent, up, rfl⟩ := restack_eq_ok lowered
      exact .arranged up fun child others => List.Perm.refl (child :: others)
  | set id setting =>
      obtain ⟨written, changed, same⟩ := exists_of_map_eq_ok done
      cases same
      rw [setting.apply_eq] at changed
      rw [change_eq_ok changed]
      exact .written id setting

theorem Setting.write_links (setting : Setting) (widget : Widget) :
    (setting.write widget).parent = widget.parent ∧
      (setting.write widget).children = widget.children := by
  cases setting <;> exact ⟨rfl, rfl⟩

/-- An edit keeps parents and children in agreement. -/
theorem Linked.edited (linked : forest.Linked) {ids : List WidgetId}
    (edited : forest.Edited ids after) : after.Linked := by
  cases edited with
  | window widget => exact linked.insertWindow widget
  | child inserted => exact linked.insert inserted
  | moved moved => exact linked.reparent moved
  | removed gone => exact linked.remove gone
  | arranged up permutes => exact linked.arranged up permutes
  | written id setting =>
      exact linked.adjust (fun widget => (setting.write_links widget).1)
        fun widget => (setting.write_links widget).2

/-! ### Identities in use -/

/-- The number of widgets that a forest keeps is right. -/
def Counted (forest : Forest) : Prop :=
  ∃ live : Finset WidgetId,
    (∀ id, id ∈ live ↔ forest.contains id = true) ∧ forest.live = live.card

theorem counted_empty : empty.Counted := ⟨∅, by simp [contains, get?, empty], rfl⟩

theorem Counted.of_same (counted : forest.Counted) (same : SameWidgets forest after) :
    after.Counted := by
  obtain ⟨live, isLive, count⟩ := counted
  exact ⟨live, fun id => same.contains id ▸ isLive id, same.live.trans count⟩

theorem Counted.push (counted : forest.Counted) (widget : Widget) (parent : Option WidgetId) :
    (forest.push widget parent).2.Counted := by
  obtain ⟨live, isLive, count⟩ := counted
  have isNew : (forest.push widget parent).1 ∉ live := by
    rw [isLive, contains, get?_push_fresh]
    exact Bool.false_ne_true
  refine ⟨Insert.insert (forest.push widget parent).1 live, fun id => ?_, ?_⟩
  · rw [Finset.mem_insert, isLive, contains_push]
  · rw [Finset.card_insert_of_notMem isNew, ← count]
    rfl

theorem slots_clearSlots (ids : List WidgetId) :
    ∀ forest : Forest, (forest.clearSlots ids).live = forest.live ∧
      (forest.clearSlots ids).slots.size = forest.slots.size := by
  induction ids with
  | nil => exact fun forest => ⟨rfl, rfl⟩
  | cons id later inductionHypothesis =>
      intro forest
      obtain ⟨live, slots⟩ := inductionHypothesis (forest.put id none)
      exact ⟨live, slots.trans Array.size_setIfInBounds⟩

/-- A removal counts off what it has found in the subtree. -/
theorem live_remove {removed : List WidgetId} (gone : forest.remove id = .ok (removed, after)) :
    after.live = forest.live - (forest.subtree id).length := by
  obtain ⟨widget, found⟩ := contains_iff.mp (remove_eq_ok gone).1
  rw [remove_eq found] at gone
  cases gone
  have same := (slots_clearSlots (forest.subtree id) (forest.released id (forest.parent? id))).1
  rw [cleared]
  simp only [same, (sameWidgets_released id (forest.parent? id)).live]

/-- A removal frees as many identities as it has found in the subtree, as each is there once. -/
theorem Counted.remove (counted : forest.Counted) (linked : forest.Linked)
    {removed : List WidgetId} (gone : forest.remove id = .ok (removed, after)) :
    after.Counted := by
  obtain ⟨live, isLive, count⟩ := counted
  have there : (forest.subtree id).toFinset ⊆ live := by
    intro other member
    rw [List.mem_toFinset, linked.mem_subtree_iff] at member
    rw [isLive]
    exact linked.contains_of_below (remove_eq_ok gone).1 member
  refine ⟨live \ (forest.subtree id).toFinset, fun other => ?_, ?_⟩
  · rw [Finset.mem_sdiff, List.mem_toFinset, isLive, Application.contains_remove linked gone,
      linked.mem_subtree_iff]
  · rw [Finset.card_sdiff_of_subset there, List.toFinset_card_of_nodup (linked.subtree_nodup id),
      ← count, live_remove gone]

/-- An edit adds one widget, or removes one with those below it, or leaves the same ones there. -/
theorem Edited.widgets {ids : List WidgetId} (edited : forest.Edited ids after) :
    (∃ widget parent, ids = [(forest.push widget parent).1] ∧
      SameWidgets (forest.push widget parent).2 after) ∨
    (∃ id removed, ids = [] ∧ forest.remove id = .ok (removed, after)) ∨
    ids = [] ∧ SameWidgets forest after := by
  cases edited with
  | window widget => exact Or.inl ⟨widget, none, rfl, .refl _⟩
  | @child parent id widget _ inserted =>
      obtain ⟨-, rfl, rfl⟩ := insert_eq_ok inserted
      exact Or.inl ⟨widget, some parent, rfl, sameWidgets_adjust parent _⟩
  | moved moved => exact Or.inr (Or.inr ⟨rfl, sameWidgets_reparent moved⟩)
  | @removed id removed _ gone => exact Or.inr (Or.inl ⟨id, removed, rfl, gone⟩)
  | @arranged parent _ _ _ _ => exact Or.inr (Or.inr ⟨rfl, sameWidgets_adjust parent _⟩)
  | written id setting => exact Or.inr (Or.inr ⟨rfl, sameWidgets_adjust id _⟩)

theorem Counted.edited (counted : forest.Counted) (linked : forest.Linked) {ids : List WidgetId}
    (edited : forest.Edited ids after) : after.Counted := by
  rcases edited.widgets with ⟨widget, parent, -, same⟩ | ⟨id, removed, -, gone⟩ | ⟨-, same⟩
  · exact (counted.push widget parent).of_same same
  · exact counted.remove linked gone
  · exact counted.of_same same

/-- The slots tell which identities have been handed out; an edit appends its own. -/
theorem Edited.handedOut {ids : List WidgetId} (edited : forest.Edited ids after) :
    after.handedOut = forest.handedOut ++ ids := by
  rcases edited.widgets with ⟨widget, parent, rfl, same⟩ | ⟨id, removed, rfl, gone⟩ | ⟨rfl, same⟩
  · rw [Forest.handedOut, same.slots, push, Array.size_push, List.range_succ, List.map_append]
    rfl
  · obtain ⟨widget, found⟩ := contains_iff.mp (remove_eq_ok gone).1
    rw [remove_eq found] at gone
    cases gone
    have same := (slots_clearSlots (forest.subtree id) (forest.released id (forest.parent? id))).2
    rw [Forest.handedOut, cleared, same, (sameWidgets_released id _).slots, List.append_nil,
      Forest.handedOut]
  · rw [Forest.handedOut, same.slots, List.append_nil, Forest.handedOut]

theorem handedOut_nodup : forest.handedOut.Nodup :=
  List.nodup_range.map fun one other same => by
    cases same
    rfl

/-- The number of widgets is the number of identities in use. -/
theorem Counted.live (counted : forest.Counted) :
    forest.live = (forest.handedOut.filter forest.contains).length := by
  obtain ⟨live, isLive, count⟩ := counted
  rw [count, ← List.toFinset_card_of_nodup (handedOut_nodup.filter _)]
  congr 1
  ext id
  rw [isLive, List.mem_toFinset, List.mem_filter]
  exact ⟨fun used => ⟨mem_handedOut used, used⟩, fun member => member.2⟩

/-! ### Walks that end by themselves -/

/-- The way up from a widget, without a bound on its length: the widgets on it. -/
inductive Climbs (forest : Forest) : WidgetId → List WidgetId → Prop
  | top {id : WidgetId} : forest.parent? id = none → Climbs forest id [id]
  | up {id parent : WidgetId} {above : List WidgetId} :
      forest.parent? id = some parent → Climbs forest parent above →
        Climbs forest id (id :: above)

/-- The way down from the widgets of a stack, without a bound on its length: a widget that is taken
from the stack leaves its children there. -/
inductive Visits (forest : Forest) : List WidgetId → List WidgetId → Prop
  | done : Visits forest [] []
  | next {id : WidgetId} {stack order : List WidgetId} :
      Visits forest (forest.children id ++ stack) order → Visits forest (id :: stack) (id :: order)

theorem Linked.climbs (linked : forest.Linked) (id : WidgetId) :
    forest.Climbs id (forest.path id) := by
  induction id using linked.upward with
  | _ id inductionHypothesis =>
      cases up : forest.parent? id with
      | none =>
          rw [linked.path_of_root up]
          exact .top up
      | some parent =>
          rw [linked.path_of_child up]
          exact .up up (inductionHypothesis parent up)

/-- The subtrees of the widgets of a stack are visited in turn. -/
theorem Linked.visits_cons (linked : forest.Linked) (id : WidgetId) :
    ∀ {stack order : List WidgetId}, forest.Visits stack order →
      forest.Visits (id :: stack) (forest.subtree id ++ order) := by
  induction id using linked.downward with
  | _ id inductionHypothesis =>
      intro stack order rest
      rw [linked.subtree_eq, List.cons_append]
      refine .next ?_
      generalize forest.children id = siblings at inductionHypothesis
      induction siblings with
      | nil => exact rest
      | cons child later visited =>
          have others := visited fun other member =>
            inductionHypothesis other (List.mem_cons_of_mem child member)
          rw [List.flatMap_cons, List.append_assoc]
          exact inductionHypothesis child (List.mem_cons_self ..) others

theorem Linked.visits (linked : forest.Linked) (id : WidgetId) :
    forest.Visits [id] (forest.subtree id) := by
  have visited := linked.visits_cons id .done
  rwa [List.append_nil] at visited

/-! ### Edits one after the other -/

/-- A forest with the identities that have been handed out for it, in order. -/
structure Record where
  issued : List WidgetId := []
  forest : Forest := empty
  deriving Repr, DecidableEq, Inhabited

namespace Record

/-- An edit in place, which may fail; a failure hands out nothing. -/
def edit (record : Record) (edit : Edit) : Record :=
  match edit.inPlace.run record.forest with
  | (.ok ids, after) => ⟨record.issued ++ ids, after⟩
  | (.error _, after) => ⟨record.issued, after⟩

/-- Edits in place one after the other, from the empty forest. -/
def afterEdits (edits : List Edit) : Record := edits.foldl edit {}

/-- What holds of a forest that edits have led to. -/
structure Regular (record : Record) : Prop where
  linked : record.forest.Linked
  counted : record.forest.Counted
  issued : record.issued = record.forest.handedOut

theorem Regular.edit {record : Record} (regular : record.Regular) (edit : Edit) :
    (record.edit edit).Regular := by
  rw [Record.edit, regular.linked.inPlace_run]
  cases done : edit.outcome record.forest with
  | error failure => exact regular
  | ok result =>
      obtain ⟨ids, after⟩ := result
      have edited := Edit.edited done
      exact
        { linked := regular.linked.edited edited
          counted := regular.counted.edited regular.linked edited
          issued := regular.issued ▸ edited.handedOut.symm }

theorem regular_afterEdits (edits : List Edit) : (afterEdits edits).Regular := by
  rw [afterEdits]
  have start : Regular {} := ⟨linked_empty, counted_empty, rfl⟩
  generalize ({} : Record) = record at start
  induction edits generalizing record with
  | nil => exact start
  | cons edit later inductionHypothesis => exact inductionHypothesis _ (start.edit edit)

end Record

/-- What edits lead to is a forest. A widget stands once among the children of its parent and
nowhere else, and links only lead to widgets that are there; the walks up and down end by
themselves; the widgets are counted, and no identity is handed out twice. An edit in place that
fails has left everything as it was. -/
theorem afterEdits_isForest (edits : List Edit) :
    let issued := (Record.afterEdits edits).issued
    let forest := (Record.afterEdits edits).forest
    (∀ parent child, forest.contains parent = true → forest.contains child = true →
      (forest.children parent).count child =
        if forest.parent? child = some parent then 1 else 0) ∧
    (∀ parent child, forest.parent? child = some parent ∨ child ∈ forest.children parent →
      forest.contains parent = true ∧ forest.contains child = true) ∧
    (∀ id, ∃ climbed, forest.Climbs id climbed ∧ climbed.Nodup ∧
      (∀ ancestor, forest.isAncestorOrSelf ancestor id = climbed.contains ancestor) ∧
      forest.windowOf? id = if forest.contains id then climbed.getLast? else none) ∧
    (∀ id, forest.Visits [id] (forest.subtree id) ∧ (forest.subtree id).Nodup) ∧
    forest.live = (forest.handedOut.filter forest.contains).length ∧
    issued.Nodup ∧ (∀ id, forest.contains id = true → id ∈ issued) ∧
    ∀ edit : Edit, edit.inPlace.run forest = forest.atOnce (edit.outcome forest) ∧
      ∀ failure after, edit.inPlace.run forest = (.error failure, after) → after = forest := by
  have regular := Record.regular_afterEdits edits
  generalize Record.afterEdits edits = record at regular
  obtain ⟨issued, forest⟩ := record
  obtain ⟨linked, counted, isIssued⟩ := regular
  dsimp only at linked counted isIssued ⊢
  refine ⟨?_, ?_, fun id => ⟨forest.path id, linked.climbs id, linked.path_nodup id,
    fun _ => rfl, rfl⟩, fun id => ⟨linked.visits id, linked.subtree_nodup id⟩, counted.live,
    ?_, ?_, fun edit => ⟨linked.inPlace_run edit, ?_⟩⟩
  · intro parent child _ _
    rw [(linked.children_nodup parent).count]
    simp only [linked.mem_children_iff]
  · intro parent child link
    have up := link.elim id linked.mem_children_iff.mp
    exact ⟨linked.contains_parent up, contains_of_parent up⟩
  · rw [isIssued]
    exact handedOut_nodup
  · intro id live
    rw [isIssued]
    exact mem_handedOut live
  · intro failure after failed
    rw [linked.inPlace_run] at failed
    cases done : edit.outcome forest with
    | error cause =>
        rw [done] at failed
        cases failed
        rfl
    | ok result =>
        rw [done] at failed
        cases failed

/-- A window is not moved below its own panel, and the identity of the removed panel stays gone. -/
example :
    (Record.afterEdits
      [.insertWindow { typeName := "Window" },
        .insert (some ⟨0⟩) { typeName := "Panel", parent := some ⟨7⟩, children := [⟨0⟩] },
        .reparent ⟨0⟩ (some ⟨1⟩), .remove ⟨1⟩, .raise ⟨1⟩,
        .insert (some ⟨0⟩) { typeName := "Label" }]) =
      ⟨[⟨0⟩, ⟨1⟩, ⟨2⟩],
        { slots := #[some { typeName := "Window", children := [⟨2⟩] }, none,
            some { typeName := "Label", parent := some ⟨0⟩ }]
          live := 2 }⟩ := by
  rfl

end Forest

end StyledWidgets
