/-
Module: StyledWidgets.Proofs.OlderInstances
Purpose: What becomes of instances that have been made. A lookup adds new instances and lets older
  ones serve more pseudo states, but it never changes which older instance a node is given. So two
  stylists that have been told of the same sheets give the same older instances, whatever has been
  looked up in the one and not in the other.
Main exports: Stylist.Reachable.aliases, Stylist.older?, Stylist.Reachable.resolve_older,
  Stylist.Agrees, Stylist.Reachable.agrees_resolve, Stylist.Agrees.setNodeSheet,
  Stylist.Agrees.answer
-/
import StyledWidgets.Proofs.QuerySheets
import StyledWidgets.Proofs.SharedInstances

namespace StyledWidgets.Style

open StyledWidgets.Sheet

namespace Stylist

variable {stylist after one other : Stylist} {known : StyleSheet → Prop} {lineage : Lineage}
  {mask : PseudoMask} {bound : Nat}

/-! ### Styles that several pseudo states share -/

/-- A stylist knows its sheets, and with aliasing what it holds is held for the contributing
pseudo-classes as well, and an instance belongs to one choice of rules. -/
structure Aliases (stylist : Stylist) (known : StyleSheet → Prop) : Prop where
  knows : stylist.Knows known
  once : stylist.settings.aliasPseudoStates = true →
    HeldOnce known stylist.held? stylist.nextSerial

namespace Aliases

theorem of_empty (read : stylist.SheetsRead) (empty : stylist.clear = stylist) :
    stylist.Aliases stylist.Installed where
  knows := read.knows empty
  once _ := by
    have held : stylist.held? = fun _ _ => none := by
      funext set mask
      rw [held?, ← empty]
      rfl
    rw [held]
    exact heldOnce_none

variable (aliases : stylist.Aliases known)

include aliases

theorem real (aliasing : stylist.settings.aliasPseudoStates = true) :
    RealHeld known stylist.held? :=
  (aliases.once aliasing).real

/-- A set of matched rules that stays keeps all of its styles. -/
theorem takenOut {entries sheets : List NodeKey} (out : TakenOut stylist after entries sheets) :
    after.Aliases known where
  knows := aliases.knows.takenOut out
  once aliasing := by
    rw [out.settings] at aliasing
    obtain ⟨real, serials, apart⟩ := aliases.once aliasing
    constructor
    · intro set mask style held rules drawn isSet
      have before := real set mask style (out.held held) rules drawn isSet
      obtain ⟨styles, found, -⟩ := Option.bind_eq_some_iff.mp held
      rw [held?, (out.ruleSets set styles found).1] at before
      rw [held?, found]
      exact before
    · intro set mask made held
      rw [out.nextSerial]
      exact serials set mask made (out.held held)
    · intro set mask made other otherMask madeToo held heldToo
      exact apart set mask made other otherMask madeToo (out.held held) (out.held heldToo)

theorem install {key : NodeKey} {text : String} (installs : Installs stylist after key text) :
    after.Aliases fun sheet =>
      known sheet ∨ sheet = StyleSheet.parse ⟨stylist.nextSheet⟩ text where
  knows := aliases.knows.install installs
  once aliasing := by
    rw [installs.settings] at aliasing
    obtain ⟨real, serials, apart⟩ := aliases.once aliasing
    rw [installs.held, installs.nextSerial]
    refine ⟨?_, serials, ?_⟩
    · intro set mask style held rules drawn isSet
      have drawnBefore := aliases.knows.drawn_of_held (isSet ▸ held) drawn
      exact real set mask style held rules drawnBefore isSet
    · intro set mask made other otherMask madeToo held heldToo same
      obtain ⟨sets, choice⟩ := apart set mask made other otherMask madeToo held heldToo same
      refine ⟨sets, fun rules drawn isSet => ?_⟩
      exact choice rules (aliases.knows.drawn_of_held (isSet ▸ held) drawn) isSet

theorem clearNodeSheet (key : NodeKey) (subtree : List NodeKey) :
    (stylist.clearNodeSheet key subtree).Aliases known := by
  rw [clearNodeSheet_eq]
  split
  · exact aliases.takenOut (unsheetSubtree_takenOut key subtree)
  · exact aliases

theorem resolve (sound : stylist.Sound) (lineage : Lineage) (mask : PseudoMask) :
    (stylist.resolve lineage mask).2.Aliases known := by
  cases heeds : lineage.node.ignoresSheets with
  | true =>
      simp only [Stylist.resolve, heeds, if_true]
      exact aliases
  | false =>
      have resolved := sound.follows.resolve heeds mask
      obtain ⟨masks, finds, held⟩ := resolved.found
      refine ⟨aliases.knows.resolved sound.read resolved, fun aliasing => ?_⟩
      rw [resolved.same.settings] at aliasing
      rw [held]
      exact (aliases.once aliasing).noted aliases.knows.unique aliasing
        (aliases.knows.drawn sound.read lineage) finds

/-- Whatever is called, the sheets that have been known are known from then on. -/
theorem call (sound : stylist.Sound) (call : Call) :
    ∃ known, (call.apply stylist).Aliases known := by
  cases call with
  | setAppSheet text => exact ⟨_, of_empty (sound.setAppSheet text).read rfl⟩
  | setNodeSheet key subtree text =>
      by_cases visible : Text.trim text.toList = []
      · rw [Call.apply, Stylist.setNodeSheet, if_pos visible]
        exact ⟨known, aliases.clearNodeSheet key subtree⟩
      · have taken := aliases.takenOut (unsheetSubtree_takenOut key subtree)
        exact ⟨_, taken.install (setNodeSheet_installs key subtree visible)⟩
  | clearNodeSheet key subtree => exact ⟨known, aliases.clearNodeSheet key subtree⟩
  | resolve lineage mask => exact ⟨known, aliases.resolve sound lineage mask⟩
  | invalidate key => exact ⟨known, aliases.takenOut (invalidate_takenOut key)⟩
  | invalidateSubtree subtree =>
      exact ⟨known, aliases.takenOut (invalidateSubtree_takenOut subtree stylist)⟩
  | clear => exact ⟨_, of_empty sound.clear.read rfl⟩
  | nodeDestroyed key => exact ⟨known, aliases.takenOut (nodeDestroyed_takenOut key)⟩
  | createQuery typeName objectName parent =>
      obtain ⟨unique, handedOut, installed, kept, right, mentioned⟩ := aliases.knows
      exact ⟨known, ⟨unique, handedOut, installed, kept, right, mentioned⟩, aliases.once⟩
  | removeQuery query => exact ⟨known, aliases.takenOut (nodeDestroyed_takenOut query.key)⟩

end Aliases

theorem Reachable.aliases (reachable : stylist.Reachable) : ∃ known, stylist.Aliases known := by
  induction reachable with
  | new settings => exact ⟨_, Aliases.of_empty (Sound.new settings).read rfl⟩
  | call call reachable inductionHypothesis =>
      obtain ⟨known, aliases⟩ := inductionHypothesis
      exact aliases.call reachable.sound call

/-! ### Older instances -/

/-- The pseudo state under which a lookup finds whatever it can find: the pseudo-classes that
contribute, or with no aliasing the pseudo state itself. -/
def ownMask (settings : StyleSettings) (rules : List MatchedRule) (mask : PseudoMask) :
    PseudoMask :=
  if settings.aliasPseudoStates then realMask rules mask else mask

/-- The instance with a serial number below a bound that is held for rules in a pseudo state. -/
def older? (stylist : Stylist) (bound : Nat) (rules : List MatchedRule) (mask : PseudoMask) :
    Option StyleInstance :=
  (stylist.held? (RuleSetKey.ofMatched rules) (ownMask stylist.settings rules mask)).join.filter
    fun made => made.serial < bound

theorem older?_eq_some {rules : List MatchedRule} {made : StyleInstance} :
    stylist.older? bound rules mask = some made ↔
      stylist.held? (RuleSetKey.ofMatched rules) (ownMask stylist.settings rules mask) =
          some (some made) ∧ made.serial < bound := by
  simp only [older?, Option.filter_eq_some_iff, Option.join_eq_some_iff, decide_eq_true_eq]

section Finds

variable {rules rulesToo : List MatchedRule} {style : ResolvedStyle} {masks : List PseudoMask}
  {nextSerial : Nat} {made : StyleInstance}

/-- A lookup answers with an older instance exactly if that is held for the own pseudo state. -/
theorem Finds.answer_iff
    (real : stylist.settings.aliasPseudoStates = true → RealHeld known stylist.held?)
    (drawn : DrawnFrom known rules) (finds : Finds stylist rules mask style masks nextSerial)
    (isOlder : made.serial < stylist.nextSerial) :
    style = some made ↔
      stylist.held? (RuleSetKey.ofMatched rules) (ownMask stylist.settings rules mask) =
        some (some made) := by
  have of_held : stylist.held? (RuleSetKey.ofMatched rules)
      (ownMask stylist.settings rules mask) = some style → (style = some made ↔
        stylist.held? (RuleSetKey.ofMatched rules) (ownMask stylist.settings rules mask) =
          some (some made)) := by
    intro held
    rw [held, Option.some_inj]
  cases finds with
  | kept held =>
      apply of_held
      rw [ownMask]
      split
      case isTrue aliasing => exact real aliasing _ _ _ held rules drawn rfl
      case isFalse => exact held
  | aliased aliasing _ held =>
      apply of_held
      rw [ownMask, if_pos aliasing]
      exact held
  | made isNew unaliased =>
      have unheld : stylist.held? (RuleSetKey.ofMatched rules)
          (ownMask stylist.settings rules mask) = none := by
        rw [ownMask]
        split
        case isTrue aliasing => exact unaliased aliasing
        case isFalse => exact isNew
      obtain ⟨_, -, -, -, isFresh⟩ := stylist.materialize_spec (mergeOf (appliedIn mask rules))
      rw [unheld]
      refine iff_of_false (fun isMade => ?_) (fun isHeld => by cases isHeld)
      exact Nat.not_le_of_lt isOlder (isFresh made isMade).1

/-- What a lookup notes leaves the older instances that are held for own pseudo states. -/
theorem Finds.held_own
    (unique : ∀ {one other}, known one → known other → one.id = other.id → one = other)
    (finds : Finds stylist rules mask style masks nextSerial) (drawn : DrawnFrom known rules)
    (drawnToo : DrawnFrom known rulesToo) {otherMask : PseudoMask}
    (isOlder : made.serial < stylist.nextSerial) :
    withNoted stylist.held? (RuleSetKey.ofMatched rules) masks style
        (RuleSetKey.ofMatched rulesToo) (ownMask stylist.settings rulesToo otherMask) =
          some (some made) ↔
      stylist.held? (RuleSetKey.ofMatched rulesToo)
        (ownMask stylist.settings rulesToo otherMask) = some (some made) := by
  refine ⟨fun held => ?_, finds.stays⟩
  rcases withNoted_cases held with ⟨sets, noted, isStyle⟩ | before
  case inr => exact before
  case inl =>
    exfalso
    cases finds with
    | kept => cases noted
    | aliased aliasing isNew isHeld =>
        -- Were the pseudo state an own one, its style would have been held for it before.
        rw [ownMask, if_pos aliasing, List.mem_singleton] at noted
        have own : realMask rules mask = mask := by
          rw [← noted, ← drawnToo.realMask_congr unique drawn sets, realMask_realMask]
        rw [own, isNew] at isHeld
        cases isHeld
    | made =>
        obtain ⟨_, -, -, -, isFresh⟩ := stylist.materialize_spec (mergeOf (appliedIn mask rules))
        exact Nat.not_le_of_lt isOlder (isFresh made isStyle.symm).1

end Finds

/-- A lookup of a node answers with an older instance exactly if that is held for the rules that it
works with. -/
theorem Reachable.resolve_older (reachable : stylist.Reachable) (grown : bound ≤ stylist.nextSerial)
    (heeds : lineage.node.ignoresSheets = false) (mask : PseudoMask) {made : StyleInstance} :
    (stylist.resolve lineage mask).1 = some made ∧ made.serial < bound ↔
      stylist.older? bound (stylist.rulesFor lineage) mask = some made := by
  obtain ⟨known, aliases⟩ := reachable.aliases
  have drawn := aliases.knows.drawn reachable.sound.read lineage
  obtain ⟨masks, finds, -⟩ := (reachable.sound.follows.resolve heeds mask).found
  rw [older?_eq_some]
  apply and_congr_left
  intro isOlder
  exact finds.answer_iff aliases.real drawn (Nat.lt_of_lt_of_le isOlder grown)

/-! ### Agreement -/

/-- Two stylists use the same sheets and give the same instances, as far as these have a serial
number below a bound. -/
structure Agrees (bound : Nat) (one other : Stylist) : Prop where
  same : SameSheets one other
  grown : bound ≤ one.nextSerial
  grownToo : bound ≤ other.nextSerial
  older : ∀ rules, one.FromInstalled rules → ∀ mask,
    other.older? bound rules mask = one.older? bound rules mask

theorem SameSheets.symm (same : SameSheets one other) : SameSheets other one where
  settings := same.settings.symm
  nextSheet := same.nextSheet.symm
  appSheet := same.appSheet.symm
  nodeSheets := same.nodeSheets.symm

theorem SameSheets.fromInstalled (same : SameSheets one other) :
    other.FromInstalled = one.FromInstalled := by
  funext rules
  rw [FromInstalled, FromInstalled, same.installed]

namespace Agrees

theorem refl (grown : bound ≤ stylist.nextSerial) : Agrees bound stylist stylist where
  same := ⟨rfl, rfl, rfl, rfl⟩
  grown := grown
  grownToo := grown
  older _ _ _ := rfl

theorem symm (agrees : Agrees bound one other) : Agrees bound other one where
  same := agrees.same.symm
  grown := agrees.grownToo
  grownToo := agrees.grown
  older rules installed mask := by
    rw [agrees.same.fromInstalled] at installed
    exact (agrees.older rules installed mask).symm

theorem trans {last : Stylist} (first : Agrees bound one other)
    (second : Agrees bound other last) : Agrees bound one last where
  same := first.same.trans second.same
  grown := first.grown
  grownToo := second.grownToo
  older rules installed mask := by
    have installedToo := installed
    rw [← first.same.fromInstalled] at installedToo
    exact (second.older rules installedToo mask).trans (first.older rules installed mask)

/-- What two stylists become that each agree with their becoming still agrees. -/
theorem of_both {oneAfter otherAfter : Stylist} (agrees : Agrees bound one other)
    (first : Agrees bound one oneAfter) (second : Agrees bound other otherAfter) :
    Agrees bound oneAfter otherAfter :=
  first.symm.trans (agrees.trans second)

/-- Nothing but the sheets, the held styles and the next serial number matters. -/
theorem of_held (same : SameSheets stylist after) (grown : bound ≤ stylist.nextSerial)
    (nextSerial : after.nextSerial = stylist.nextSerial) (held : after.held? = stylist.held?) :
    Agrees bound stylist after where
  same := same
  grown := grown
  grownToo := nextSerial ▸ grown
  older rules _ mask := by rw [older?, older?, held, same.settings]

theorem invalidateSubtree (grown : bound ≤ stylist.nextSerial) (subtree : List NodeKey) :
    Agrees bound stylist (stylist.invalidateSubtree subtree) := by
  obtain ⟨stats, after⟩ := invalidateSubtree_eq subtree stylist
  rw [after]
  exact of_held ⟨rfl, rfl, rfl, rfl⟩ grown rfl rfl

end Agrees

/-- A stylist agrees with what it was before a lookup. -/
theorem Reachable.agrees_resolve (reachable : stylist.Reachable)
    (grown : bound ≤ stylist.nextSerial) (lineage : Lineage) (mask : PseudoMask) :
    Agrees bound stylist (stylist.resolve lineage mask).2 := by
  cases heeds : lineage.node.ignoresSheets with
  | true =>
      simp only [Stylist.resolve, heeds, if_true]
      exact .refl grown
  | false =>
      have resolved := reachable.sound.follows.resolve heeds mask
      obtain ⟨masks, finds, held⟩ := resolved.found
      obtain ⟨known, aliases⟩ := reachable.aliases
      have drawn := aliases.knows.drawn reachable.sound.read lineage
      refine ⟨resolved.same, grown, Nat.le_trans grown finds.grows, fun rules installed other => ?_⟩
      have drawnToo : DrawnFrom known rules :=
        DrawnFrom.mono installed fun sheet => aliases.knows.installed
      apply Option.ext
      intro made
      rw [older?_eq_some, older?_eq_some, held, resolved.same.settings]
      apply and_congr_left
      intro isOlder
      exact finds.held_own aliases.knows.unique drawn drawnToo (Nat.lt_of_lt_of_le isOlder grown)

/-! ### Sheets of two stylists -/

theorem held?_forgetSheet (sheet : SheetId) (set : RuleSetKey) (mask : PseudoMask) :
    (stylist.forgetSheet sheet).held? set mask =
      if set.references sheet then none else stylist.held? set mask := by
  rw [held?, forgetSheet, Table.find?_filterKeys]
  cases set.references sheet <;> rfl

theorem SameSheets.invalidateSubtree (same : SameSheets one other) (subtree : List NodeKey) :
    SameSheets (one.invalidateSubtree subtree) (other.invalidateSubtree subtree) := by
  obtain ⟨_, after⟩ := invalidateSubtree_eq subtree one
  obtain ⟨_, afterToo⟩ := invalidateSubtree_eq subtree other
  rw [after, afterToo]
  exact ⟨same.settings, same.nextSheet, same.appSheet, same.nodeSheets⟩

/-- Two stylists with the same sheets have the same ones when both are given another. -/
theorem SameSheets.setNodeSheet (same : SameSheets one other) (key : NodeKey)
    (subtree : List NodeKey) {text : String} (visible : Text.trim text.toList ≠ []) :
    SameSheets (one.setNodeSheet key subtree text) (other.setNodeSheet key subtree text) := by
  obtain ⟨settings, nextSheet, appSheet, nodeSheets⟩ := same
  rw [Stylist.setNodeSheet, Stylist.setNodeSheet, if_neg visible, if_neg visible]
  simp only [readSheet, nodeSheets, nextSheet]
  apply SameSheets.invalidateSubtree
  cases one.nodeSheets.find? key with
  | none => exact ⟨settings, rfl, appSheet, rfl⟩
  | some old => exact ⟨settings, rfl, appSheet, rfl⟩

namespace Agrees

variable (agrees : Agrees bound one other)

include agrees

/-- Both are given a sheet of the application, which empties both caches. -/
theorem setAppSheet (text : String) :
    Agrees bound (one.setAppSheet text) (other.setAppSheet text) where
  same := by
    obtain ⟨settings, nextSheet, -, nodeSheets⟩ := agrees.same
    refine ⟨settings, congrArg (· + 1) nextSheet, ?_, nodeSheets⟩
    exact congrArg (fun number => some (StyleSheet.parse ⟨number⟩ text)) nextSheet
  grown := agrees.grown
  grownToo := agrees.grownToo
  older _ _ _ := rfl

theorem unsheet (key : NodeKey) : Agrees bound (one.unsheet key) (other.unsheet key) := by
  have installedBefore : ∀ rules, (one.unsheet key).FromInstalled rules →
      one.FromInstalled rules := fun rules installed =>
    DrawnFrom.mono installed fun sheet => (unsheet_takenOut key).installed
  simp only [Stylist.unsheet, agrees.same.nodeSheets] at installedBefore ⊢
  cases onNode : one.nodeSheets.find? key with
  | none => exact agrees
  | some old =>
      simp only [onNode] at installedBefore
      obtain ⟨⟨settings, nextSheet, appSheet, nodeSheets⟩, grown, grownToo, older⟩ := agrees
      refine ⟨⟨settings, nextSheet, appSheet, ?_⟩, grown, grownToo, fun rules installed mask => ?_⟩
      · rfl
      · have before := older rules (installedBefore rules installed) mask
        simp only [older?] at before ⊢
        rw [held?_forgetSheet, held?_forgetSheet]
        cases (RuleSetKey.ofMatched rules).references old.id with
        | true => rfl
        | false => exact before

/-- A sheet with a new identity comes into use in both; no held style can mention it. -/
theorem install {oneAfter otherAfter : Stylist} {key : NodeKey} {text : String}
    {knownToo : StyleSheet → Prop} (knows : one.Knows known) (knowsToo : other.Knows knownToo)
    (same : SameSheets oneAfter otherAfter) (installs : Installs one oneAfter key text)
    (installsToo : Installs other otherAfter key text) : Agrees bound oneAfter otherAfter where
  same := same
  grown := installs.nextSerial ▸ agrees.grown
  grownToo := installsToo.nextSerial ▸ agrees.grownToo
  older rules installed mask := by
    have drawn : DrawnFrom (fun sheet => one.Installed sheet ∨
        sheet = StyleSheet.parse ⟨one.nextSheet⟩ text) rules :=
      DrawnFrom.mono installed fun sheet isInstalled => (installs.installed isInstalled).symm
    have of_held : ∀ {made}, one.older? bound rules mask = some made ∨
        other.older? bound rules mask = some made → one.FromInstalled rules := by
      intro made found
      apply DrawnFrom.without_new drawn
      intro ref member isNew
      have small : ref.sheet.raw < one.nextSheet := by
        rcases found with found | found
        · exact knows.mentioned (older?_eq_some.mp found).1 ref member
        · rw [← agrees.same.nextSheet]
          exact knowsToo.mentioned (older?_eq_some.mp found).1 ref member
      rw [isNew] at small
      exact Nat.lt_irrefl _ small
    rw [older?, older?, installs.held, installsToo.held, installs.settings, installsToo.settings,
      ← older?, ← older?]
    apply Option.ext
    intro made
    constructor
    · intro found
      rwa [← agrees.older rules (of_held (Or.inr found)) mask]
    · intro found
      rwa [agrees.older rules (of_held (Or.inl found)) mask]

/-- Both are given the same sheet for a node, or both lose it. -/
theorem setNodeSheet (reachable : one.Reachable) (reachableToo : other.Reachable) (key : NodeKey)
    (subtree : List NodeKey) (text : String) :
    Agrees bound (one.setNodeSheet key subtree text) (other.setNodeSheet key subtree text) := by
  have taken := agrees.unsheet key
  have takenToo := taken.of_both (invalidateSubtree taken.grown subtree)
    (invalidateSubtree taken.grownToo subtree)
  by_cases visible : Text.trim text.toList = []
  · rw [Stylist.setNodeSheet, Stylist.setNodeSheet, if_pos visible, if_pos visible,
      clearNodeSheet_eq, clearNodeSheet_eq, agrees.same.nodeSheets]
    split
    · exact takenToo
    · exact agrees
  · have knows : ∀ {stylist : Stylist}, stylist.Reachable →
        ∃ known, ((stylist.unsheet key).invalidateSubtree subtree).Knows known := by
      intro stylist reachable
      obtain ⟨known, aliases⟩ := reachable.aliases
      exact ⟨known, aliases.knows.takenOut (unsheetSubtree_takenOut key subtree)⟩
    obtain ⟨known, knowsOne⟩ := knows reachable
    obtain ⟨knownToo, knowsOther⟩ := knows reachableToo
    exact takenToo.install knowsOne knowsOther (agrees.same.setNodeSheet key subtree visible)
      (setNodeSheet_installs key subtree visible) (setNodeSheet_installs key subtree visible)

omit agrees in
theorem nodesDestroyed (gone : List NodeKey) :
    ∀ {one other : Stylist}, Agrees bound one other →
      Agrees bound (gone.foldl nodeDestroyed one) (gone.foldl nodeDestroyed other) := by
  induction gone with
  | nil => exact id
  | cons key later inductionHypothesis =>
      intro one other agrees
      apply inductionHypothesis
      exact (agrees.of_both (invalidateSubtree agrees.grown [key])
        (invalidateSubtree agrees.grownToo [key])).unsheet key

/-- A node for which neither stylist works with outdated rules is given the same older instance by
both. -/
theorem answer (reachable : one.Reachable) (reachableToo : other.Reachable)
    (current : one.rulesFor lineage = one.matchLineage lineage)
    (currentToo : other.rulesFor lineage = other.matchLineage lineage) {made : StyleInstance}
    (isMade : (one.resolve lineage mask).1 = some made) (isOlder : made.serial < bound) :
    (other.resolve lineage mask).1 = some made := by
  cases heeds : lineage.node.ignoresSheets with
  | true =>
      rw [Stylist.resolve, if_pos heeds] at isMade
      cases isMade
  | false =>
      have held := (reachable.resolve_older agrees.grown heeds mask).mp ⟨isMade, isOlder⟩
      rw [current, ← agrees.older _ (reachable.sound.read.fromInstalled lineage),
        ← congrFun agrees.same.matchLineage, ← currentToo] at held
      exact ((reachableToo.resolve_older agrees.grownToo heeds mask).mpr held).1

end Agrees

end Stylist

end StyledWidgets.Style
