/-
Module: StyledWidgets.Proofs.StylistRuns
Purpose: The states that calls of a stylist lead to, whatever the calls are given. Nothing is asked
  of the nodes that are looked up or of the subtrees that are handed over, so the caches may hold
  what is out of date; what holds nevertheless is that every sheet in use has been read under an
  identity of its own and that the caches of a node stand side by side.
Main exports: Stylist.Call, Stylist.Reachable, Stylist.Sound, Stylist.Reachable.sound
-/
import StyledWidgets.Proofs.StyleChanges
import StyledWidgets.Proofs.StyleLookups

namespace StyledWidgets.Style

open StyledWidgets.Sheet

namespace Stylist

variable {stylist after : Stylist}

/-! ### Calls -/

/-- A call of a stylist. -/
inductive Call where
  | setAppSheet (text : String)
  | setNodeSheet (key : NodeKey) (subtree : List NodeKey) (text : String)
  | clearNodeSheet (key : NodeKey) (subtree : List NodeKey)
  | resolve (lineage : Lineage) (mask : PseudoMask)
  | invalidate (key : NodeKey)
  | invalidateSubtree (subtree : List NodeKey)
  | clear
  | nodeDestroyed (key : NodeKey)
  | createQuery (typeName objectName : String) (parent : Option Lineage)
  | removeQuery (query : Lineage)
  deriving Repr, DecidableEq, Inhabited

/-- The stylist after a call. -/
def Call.apply (stylist : Stylist) : Call → Stylist
  | .setAppSheet text => stylist.setAppSheet text
  | .setNodeSheet key subtree text => stylist.setNodeSheet key subtree text
  | .clearNodeSheet key subtree => stylist.clearNodeSheet key subtree
  | .resolve lineage mask => (stylist.resolve lineage mask).2
  | .invalidate key => stylist.invalidate key
  | .invalidateSubtree subtree => stylist.invalidateSubtree subtree
  | .clear => stylist.clear
  | .nodeDestroyed key => stylist.nodeDestroyed key
  | .createQuery typeName objectName parent => (stylist.createQuery typeName objectName parent).2
  | .removeQuery query => stylist.removeQuery query

/-- The stylists that calls lead to. -/
inductive Reachable : Stylist → Prop
  | new (settings : StyleSettings) : Reachable (new settings)
  | call {stylist : Stylist} (call : Call) : Reachable stylist → Reachable (call.apply stylist)

theorem Reachable.calls (calls : List Call) :
    ∀ {stylist : Stylist}, stylist.Reachable → (calls.foldl Call.apply stylist).Reachable := by
  induction calls with
  | nil => exact id
  | cons first later inductionHypothesis =>
      intro stylist reachable
      exact inductionHypothesis (.call first reachable)

/-! ### What every call keeps -/

/-- The sheets in use have been read, and the caches of a node stand side by side. -/
structure Sound (stylist : Stylist) : Prop where
  read : stylist.SheetsRead
  follows : stylist.SetsFollow

/-- Only the entries of nodes matter for whether they stand side by side. -/
theorem SetsFollow.of_same (follows : stylist.SetsFollow)
    (matched : after.matchedRules = stylist.matchedRules)
    (sets : after.nodeRuleSets = stylist.nodeRuleSets) : after.SetsFollow := by
  intro key set noted
  rw [sets] at noted
  rw [matched]
  exact follows key set noted

theorem SetsFollow.invalidate (follows : stylist.SetsFollow) (key : NodeKey) :
    (stylist.invalidate key).SetsFollow := by
  intro other set noted
  simp only [Stylist.invalidate, Table.find?_erase] at noted ⊢
  split at noted
  case isTrue => cases noted
  case isFalse apart =>
    rw [if_neg apart]
    exact follows other set noted

theorem SetsFollow.invalidateSubtree (subtree : List NodeKey) :
    ∀ {stylist : Stylist}, stylist.SetsFollow → (stylist.invalidateSubtree subtree).SetsFollow := by
  induction subtree with
  | nil => exact id
  | cons key later inductionHypothesis =>
      intro stylist follows
      exact inductionHypothesis (follows.invalidate key)

/-- Taking the sheet off a node leaves the entries of nodes and the counters. -/
theorem unsheet_eq (key : NodeKey) :
    ∃ nodeSheets ruleSets, stylist.unsheet key =
      { stylist with nodeSheets := nodeSheets, ruleSets := ruleSets } := by
  rw [unsheet]
  split
  · exact ⟨_, _, rfl⟩
  · exact ⟨_, _, rfl⟩

namespace Sound

theorem new (settings : StyleSettings) : (new settings).Sound where
  read := (coherent_new settings fun _ => none).read
  follows _ _ noted := by cases noted

theorem clear (sound : stylist.Sound) : stylist.clear.Sound where
  read := (⟨rfl, rfl, rfl, rfl⟩ : SameSheets stylist stylist.clear).read sound.read
  follows _ _ noted := by cases noted

theorem setAppSheet (sound : stylist.Sound) (text : String) : (stylist.setAppSheet text).Sound where
  read := sound.read.setAppSheet text
  follows _ _ noted := by cases noted

theorem invalidateSubtree (sound : stylist.Sound) (subtree : List NodeKey) :
    (stylist.invalidateSubtree subtree).Sound where
  read := (invalidateSubtree_takenOut subtree stylist).read sound.read
  follows := sound.follows.invalidateSubtree subtree

theorem unsheet (sound : stylist.Sound) (key : NodeKey) : (stylist.unsheet key).Sound where
  read := (unsheet_takenOut key).read sound.read
  follows := by
    obtain ⟨nodeSheets, ruleSets, same⟩ := stylist.unsheet_eq key
    rw [same]
    exact sound.follows.of_same rfl rfl

theorem clearNodeSheet (sound : stylist.Sound) (key : NodeKey) (subtree : List NodeKey) :
    (stylist.clearNodeSheet key subtree).Sound := by
  rw [clearNodeSheet_eq]
  split
  · exact (sound.unsheet key).invalidateSubtree subtree
  · exact sound

theorem setNodeSheet (sound : stylist.Sound) (key : NodeKey) (subtree : List NodeKey)
    (text : String) : (stylist.setNodeSheet key subtree text).Sound := by
  by_cases visible : Text.trim text.toList = []
  · rw [Stylist.setNodeSheet, if_pos visible]
    exact sound.clearNodeSheet key subtree
  · have installs : Installs ((stylist.unsheet key).invalidateSubtree subtree)
        (stylist.setNodeSheet key subtree text) key text :=
      setNodeSheet_installs key subtree visible
    have taken := (sound.unsheet key).invalidateSubtree subtree
    exact ⟨installs.sheetsRead taken.read visible,
      taken.follows.of_same installs.matched installs.sets⟩

theorem nodeDestroyed (sound : stylist.Sound) (key : NodeKey) :
    (stylist.nodeDestroyed key).Sound :=
  (sound.invalidateSubtree [key]).unsheet key

theorem resolve (sound : stylist.Sound) (lineage : Lineage) (mask : PseudoMask) :
    (stylist.resolve lineage mask).2.Sound := by
  cases heeds : lineage.node.ignoresSheets with
  | true =>
      simp only [Stylist.resolve, heeds, if_true]
      exact sound
  | false =>
      have resolved := sound.follows.resolve heeds mask
      exact ⟨resolved.same.read sound.read, resolved.follows sound.follows⟩

theorem createQuery (sound : stylist.Sound) (typeName objectName : String)
    (parent : Option Lineage) : (stylist.createQuery typeName objectName parent).2.Sound where
  read :=
    have same : SameSheets stylist (stylist.createQuery typeName objectName parent).2 :=
      ⟨rfl, rfl, rfl, rfl⟩
    same.read sound.read
  follows := sound.follows.of_same rfl rfl

theorem call (sound : stylist.Sound) (call : Call) : (call.apply stylist).Sound := by
  cases call with
  | setAppSheet text => exact sound.setAppSheet text
  | setNodeSheet key subtree text => exact sound.setNodeSheet key subtree text
  | clearNodeSheet key subtree => exact sound.clearNodeSheet key subtree
  | resolve lineage mask => exact sound.resolve lineage mask
  | invalidate key => exact sound.invalidateSubtree [key]
  | invalidateSubtree subtree => exact sound.invalidateSubtree subtree
  | clear => exact sound.clear
  | nodeDestroyed key => exact sound.nodeDestroyed key
  | createQuery typeName objectName parent =>
      exact sound.createQuery typeName objectName parent
  | removeQuery query => exact sound.nodeDestroyed query.key

end Sound

theorem Reachable.sound (reachable : stylist.Reachable) : stylist.Sound := by
  induction reachable with
  | new settings => exact Sound.new settings
  | call call _ sound => exact sound.call call

end Stylist

end StyledWidgets.Style
