/-
Module: StyledWidgets.Proofs.QuerySheets
Purpose: What a lookup of a node made for a query is given. Such a node knows those above it and
  none of those below, so a change of its sheet takes out its own entries only. A node below it that
  has been looked up before stays with the rules of that time until its own sheet or that of the
  application changes, and is given what a new stylist would give with the texts of that time.
Main exports: SheetTexts, SheetTexts.fresh, QueryCall, QuerySession, QuerySession.seenTexts,
  QuerySession.resolve_seen, QuerySession.resolve_outdated
-/
import StyledWidgets.Proofs.FreshStyle
import StyledWidgets.Proofs.StylistRuns

namespace StyledWidgets.Style

open StyledWidgets.Sheet

/-! ### Texts of sheets -/

/-- The texts of the sheets in use. -/
structure SheetTexts where
  ofApp : Option String
  ofNode : NodeKey → Option String

/-- The texts of the sheets that a stylist uses. -/
def Stylist.sheetTexts (stylist : Stylist) : SheetTexts :=
  ⟨stylist.appSheetText?, stylist.nodeSheetText?⟩

namespace SheetTexts

variable {texts other : SheetTexts} {settings : StyleSettings} {lineage : Lineage}

/-- A new stylist that has been given the text of the sheet of the application and then those of
the sheets on the path of a node. -/
def fresh (settings : StyleSettings) (texts : SheetTexts) (lineage : Lineage) : Stylist :=
  lineage.path.foldl
    (fun stylist node =>
      match texts.ofNode node.key with
      | some text => stylist.setNodeSheet node.key [node.key] text
      | none => stylist)
    (match texts.ofApp with
      | some text => (Stylist.new settings).setAppSheet text
      | none => Stylist.new settings)

/-- Only the texts on the path matter. -/
theorem fresh_congr (app : texts.ofApp = other.ofApp)
    (nodes : ∀ node ∈ lineage.path, texts.ofNode node.key = other.ofNode node.key) :
    texts.fresh settings lineage = other.fresh settings lineage := by
  rw [fresh, fresh, app]
  apply List.foldl_ext
  intro stylist node member
  rw [nodes node member]

/-- What a new stylist has been given so far. -/
structure GivenTo (texts : SheetTexts) (settings : StyleSettings) (stylist : Stylist)
    (keys : List NodeKey) : Prop where
  settings : stylist.settings = settings
  /-- No node has been looked up. -/
  coherent : stylist.Coherent fun _ => none
  ofApp : stylist.appSheetText? = texts.ofApp
  nodes : ∀ key, stylist.nodeSheetText? key = texts.ofNode key ∨
    key ∉ keys ∧ stylist.nodeSheetText? key = none

/-- A node without a sheet is passed over. -/
theorem GivenTo.passOver {stylist : Stylist} {keys : List NodeKey} {key : NodeKey}
    (given : texts.GivenTo settings stylist keys) (bare : texts.ofNode key = none) :
    texts.GivenTo settings stylist (keys ++ [key]) := by
  refine ⟨given.settings, given.coherent, given.ofApp, fun other => ?_⟩
  rcases given.nodes other with done | ⟨outside, without⟩
  · exact Or.inl done
  · by_cases same : other = key
    · rw [same] at without ⊢
      exact Or.inl (without.trans bare.symm)
    · exact Or.inr ⟨by simp [outside, same], without⟩

/-- A node with a sheet is given it. -/
theorem GivenTo.setNodeSheet {stylist : Stylist} {keys : List NodeKey} {key : NodeKey}
    {text : String}
    (given : texts.GivenTo settings stylist keys) (isText : texts.ofNode key = some text)
    (visible : Text.trim text.toList ≠ []) :
    texts.GivenTo settings (stylist.setNodeSheet key [key] text) (keys ++ [key]) := by
  constructor
  · exact (Stylist.setNodeSheet_others ..).1.trans given.settings
  · exact given.coherent.setNodeSheet _ fun _ _ isPlaced => by cases isPlaced.1
  · exact (Stylist.appSheetText?_setNodeSheet ..).trans given.ofApp
  · intro other
    rw [Stylist.nodeSheetText?_setNodeSheet _ _ _ visible]
    by_cases same : other = key
    · rw [if_pos same, same]
      exact Or.inl isText.symm
    · rw [if_neg same]
      apply (given.nodes other).imp_right
      rintro ⟨outside, without⟩
      exact ⟨by simp [outside, same], without⟩

theorem givenTo_fresh
    (visible : ∀ key text, texts.ofNode key = some text → Text.trim text.toList ≠ []) :
    texts.GivenTo settings (texts.fresh settings lineage) (lineage.path.map StyleNode.key) := by
  have run : ∀ (nodes : List StyleNode) (keys : List NodeKey) (stylist : Stylist),
      texts.GivenTo settings stylist keys →
        texts.GivenTo settings
          (nodes.foldl
            (fun stylist node =>
              match texts.ofNode node.key with
              | some text => stylist.setNodeSheet node.key [node.key] text
              | none => stylist) stylist) (keys ++ nodes.map StyleNode.key) := by
    intro nodes
    induction nodes with
    | nil =>
        intro keys stylist given
        rw [List.map_nil, List.append_nil]
        exact given
    | cons node later inductionHypothesis =>
        intro keys stylist given
        rw [List.map_cons, List.append_cons, List.foldl_cons]
        apply inductionHypothesis
        cases ofNode : texts.ofNode node.key with
        | none => exact given.passOver ofNode
        | some text => exact given.setNodeSheet ofNode (visible _ _ ofNode)
  apply run lineage.path []
  cases ofApp : texts.ofApp with
  | none =>
      exact ⟨rfl, Stylist.coherent_new _ _, ofApp.symm, fun _ => Or.inr ⟨List.not_mem_nil, rfl⟩⟩
  | some text =>
      exact ⟨rfl, (Stylist.coherent_new _ _).setAppSheet _, ofApp.symm,
        fun _ => Or.inr ⟨List.not_mem_nil, rfl⟩⟩

end SheetTexts

namespace Stylist

variable {stylist after : Stylist} {lineage : Lineage}

/-- Where no node has been looked up, the places of the nodes do not matter, nor how many have been
made for queries. -/
theorem Coherent.unasked (coherent : stylist.Coherent fun _ => none) (nextQuery : Nat)
    (placed : NodeKey → Option Lineage) :
    { stylist with nextQuery := nextQuery }.Coherent placed := by
  obtain ⟨parsed, handedOut, visible, apart, distinct⟩ := coherent.read
  refine coherent.transfer ⟨parsed, handedOut, visible, apart, distinct⟩ rfl rfl ?_ ?_ ?_ ?_
  · exact fun _ => Or.inl
  · exact fun _ _ found => ⟨found, fun _ isPlaced => by cases isPlaced.1⟩
  · exact fun _ _ found => ⟨found, fun _ isPlaced => by cases isPlaced.1⟩
  · exact fun _ _ found => ⟨found, fun _ _ _ installed _ => installed⟩

/-- Where no node has been looked up, a lookup of any node works without the caches. -/
theorem Coherent.resolve_unasked (coherent : stylist.Coherent fun _ => none) (lineage : Lineage)
    (mask : PseudoMask) :
    (stylist.resolve lineage mask).1.appearance? = stylist.freshAppearance lineage mask := by
  have placed : stylist.Coherent fun _ => some lineage := coherent.unasked stylist.nextQuery _
  exact (placed.resolve (fun _ => rfl) mask).appearance

/-- The sheets in use give to a node what a new stylist with their texts finds. -/
theorem SheetsRead.resolve_fresh (read : stylist.SheetsRead)
    (path : (lineage.path.map StyleNode.key).Nodup) (mask : PseudoMask) :
    ((stylist.sheetTexts.fresh stylist.settings lineage).resolve lineage mask).1.appearance? =
      stylist.freshAppearance lineage mask := by
  have visible : ∀ key text, stylist.sheetTexts.ofNode key = some text →
      Text.trim text.toList ≠ [] := by
    intro key text isText
    obtain ⟨sheet, onNode, rfl⟩ := Option.map_eq_some_iff.mp isText
    exact read.visible onNode
  have given : stylist.sheetTexts.GivenTo stylist.settings
      (stylist.sheetTexts.fresh stylist.settings lineage) (lineage.path.map StyleNode.key) :=
    SheetTexts.givenTo_fresh visible
  obtain ⟨settings, coherent, isApp, nodes⟩ := given
  rw [coherent.resolve_unasked]
  apply coherent.read.freshAppearance_of_sameTexts read settings path isApp
  intro node member
  apply (nodes node.key).resolve_right
  rintro ⟨outside, -⟩
  exact outside (List.mem_map_of_mem member)

/-! ### Sheets that have been known -/

/-- What a stylist holds about sheets that it has known, in use or not: no two have one identity,
and styles and kept rules are drawn from them. -/
structure Knows (stylist : Stylist) (known : StyleSheet → Prop) : Prop where
  unique : ∀ {one other : StyleSheet}, known one → known other → one.id = other.id → one = other
  handedOut : ∀ {sheet : StyleSheet}, known sheet → sheet.id.raw < stylist.nextSheet
  installed : ∀ {sheet : StyleSheet}, stylist.Installed sheet → known sheet
  kept : ∀ {key : NodeKey} {rules : List MatchedRule},
    stylist.matchedRules.find? key = some rules → DrawnFrom known rules
  right : HeldRight stylist.settings known stylist.held?
  mentioned : ∀ {set : RuleSetKey} {mask : PseudoMask} {style : ResolvedStyle},
    stylist.held? set mask = some style → ∀ ref ∈ set.refs, ref.sheet.raw < stylist.nextSheet

section Knows

variable {known : StyleSheet → Prop}

/-- With empty caches it is enough to know the sheets in use. -/
theorem SheetsRead.knows (read : stylist.SheetsRead) (empty : stylist.clear = stylist) :
    stylist.Knows stylist.Installed where
  unique := read.unique
  handedOut := read.handedOut
  installed := id
  kept found := by
    rw [← empty] at found
    cases found
  right set mask style held := by
    rw [← empty] at held
    cases held
  mentioned held := by
    rw [← empty] at held
    cases held

theorem TakenOut.held {entries sheets : List NodeKey}
    (out : TakenOut stylist after entries sheets) {set : RuleSetKey} {mask : PseudoMask}
    {style : ResolvedStyle} (held : after.held? set mask = some style) :
    stylist.held? set mask = some style := by
  simp only [held?, Option.bind_eq_some_iff] at held ⊢
  obtain ⟨styles, found, isStyle⟩ := held
  exact ⟨styles, (out.ruleSets set styles found).1, isStyle⟩

theorem Knows.takenOut (knows : stylist.Knows known) {entries sheets : List NodeKey}
    (out : TakenOut stylist after entries sheets) : after.Knows known where
  unique := knows.unique
  handedOut isKnown := by
    rw [out.nextSheet]
    exact knows.handedOut isKnown
  installed isInstalled := knows.installed (out.installed isInstalled)
  kept found := knows.kept (out.matched _ _ found).2
  right set mask style held := by
    rw [out.settings]
    exact knows.right set mask style (out.held held)
  mentioned held := by
    rw [out.nextSheet]
    exact knows.mentioned (out.held held)

theorem Installs.held {key : NodeKey} {text : String}
    (installs : Installs stylist after key text) : after.held? = stylist.held? := by
  funext set mask
  rw [held?, held?, installs.ruleSets]

/-- What is held mentions no sheet that comes into use, since that has a new identity. -/
theorem Knows.drawn_of_held (knows : stylist.Knows known) {rules : List MatchedRule}
    {mask : PseudoMask} {style : ResolvedStyle} {text : String}
    (held : stylist.held? (RuleSetKey.ofMatched rules) mask = some style)
    (drawn : DrawnFrom
      (fun sheet => known sheet ∨ sheet = StyleSheet.parse ⟨stylist.nextSheet⟩ text) rules) :
    DrawnFrom known rules := by
  apply DrawnFrom.without_new drawn
  intro ref member isNew
  have small := knows.mentioned held ref member
  rw [isNew] at small
  exact Nat.lt_irrefl _ small

theorem Knows.install (knows : stylist.Knows known) {key : NodeKey} {text : String}
    (installs : Installs stylist after key text) :
    after.Knows fun sheet => known sheet ∨ sheet = StyleSheet.parse ⟨stylist.nextSheet⟩ text := by
  have apart : ∀ {sheet}, known sheet → sheet.id.raw ≠ stylist.nextSheet :=
    fun isKnown => Nat.ne_of_lt (knows.handedOut isKnown)
  constructor
  · rintro one other (isKnown | rfl) (isKnownToo | rfl) same
    · exact knows.unique isKnown isKnownToo same
    · exact absurd (congrArg SheetId.raw same) (apart isKnown)
    · exact absurd (congrArg SheetId.raw same.symm) (apart isKnownToo)
    · rfl
  · rintro sheet (isKnown | rfl)
    · rw [installs.nextSheet]
      exact Nat.lt_succ_of_lt (knows.handedOut isKnown)
    · rw [installs.nextSheet]
      exact Nat.lt_succ_self _
  · intro sheet isInstalled
    exact (installs.installed isInstalled).symm.imp_left knows.installed
  · intro other rules found
    rw [installs.matched] at found
    exact (knows.kept found).mono fun _ => Or.inl
  · rintro set mask style isHeld rules drawn rfl
    rw [installs.held] at isHeld
    rw [installs.settings]
    exact knows.right _ mask style isHeld rules (knows.drawn_of_held isHeld drawn) rfl
  · intro set mask style isHeld ref member
    rw [installs.held] at isHeld
    rw [installs.nextSheet]
    exact Nat.lt_succ_of_lt (knows.mentioned isHeld ref member)

/-- The rules that a lookup works with are drawn from known sheets. -/
theorem Knows.drawn (knows : stylist.Knows known) (read : stylist.SheetsRead)
    (lineage : Lineage) : DrawnFrom known (stylist.rulesFor lineage) := by
  rw [rulesFor]
  cases found : stylist.matchedRules.find? lineage.key with
  | some rules => exact knows.kept found
  | none =>
      exact DrawnFrom.mono (read.fromInstalled lineage) fun sheet => knows.installed

theorem Knows.resolved (knows : stylist.Knows known) (read : stylist.SheetsRead)
    {mask : PseudoMask} {outcome : ResolvedStyle × Stylist}
    (resolved : Resolved stylist lineage mask outcome) : outcome.2.Knows known := by
  have drawn := knows.drawn read lineage
  obtain ⟨masks, finds, held⟩ := resolved.found
  constructor
  · exact knows.unique
  · rw [resolved.same.nextSheet]
    exact knows.handedOut
  · rw [resolved.same.installed]
    exact knows.installed
  · intro key rules found
    rw [resolved.matched] at found
    split at found
    case isTrue => exact Option.some_inj.mp found ▸ drawn
    case isFalse => exact knows.kept found
  · rw [held, resolved.same.settings]
    exact knows.right.noted knows.unique drawn finds
  · intro set other style isHeld ref member
    rw [resolved.same.nextSheet]
    rw [held] at isHeld
    rcases withNoted_cases isHeld with ⟨rfl, -, -⟩ | before
    · obtain ⟨matched, isMatched, rfl⟩ := List.mem_map.mp member
      obtain ⟨sheet, isKnown, isSheet, -⟩ := drawn matched isMatched
      rw [isSheet]
      exact knows.handedOut isKnown
    · exact knows.mentioned before ref member

end Knows

/-- Sheets that are put on nodes leave the counter of the nodes made for queries. -/
theorem nextQuery_invalidateSubtree (subtree : List NodeKey) :
    (stylist.invalidateSubtree subtree).nextQuery = stylist.nextQuery := by
  obtain ⟨stats, same⟩ := invalidateSubtree_eq subtree stylist
  rw [same]

theorem nextQuery_setNodeSheet (key : NodeKey) (subtree : List NodeKey) (text : String) :
    (stylist.setNodeSheet key subtree text).nextQuery = stylist.nextQuery := by
  rw [Stylist.setNodeSheet]
  split
  · rw [Stylist.clearNodeSheet]
    split
    · rfl
    · exact nextQuery_invalidateSubtree ..
  · apply (nextQuery_invalidateSubtree ..).trans
    split
    · rfl
    · rfl

end Stylist

/-! ### Calls on nodes made for queries -/

/-- A stylist with the nodes that have been made for queries, the first one first. -/
structure QuerySession where
  stylist : Stylist
  queries : List Lineage := []
  deriving Repr, DecidableEq, Inhabited

/-- A call that is about nodes made for queries, which are named by their places. -/
inductive QueryCall where
  /-- Make a node, below another one or at the top. -/
  | create (typeName objectName : String) (parent : Option Nat)
  | setSheet (place : Nat) (text : String)
  | clearSheet (place : Nat)
  | setAppSheet (text : String)
  | resolve (place : Nat) (mask : PseudoMask)
  deriving Repr, DecidableEq, Inhabited

namespace QuerySession

/-- The start, without sheets and nodes. -/
def start (settings : StyleSettings) : QuerySession := { stylist := Stylist.new settings }

/-- Change the stylist on behalf of a node; a place without a node changes nothing. -/
def on (session : QuerySession) (place : Nat) (change : Stylist → Lineage → Stylist) :
    QuerySession :=
  match session.queries[place]? with
  | some query => { session with stylist := change session.stylist query }
  | none => session

/-- A node has a sheet. -/
def hasSheet (session : QuerySession) (place : Nat) : Bool :=
  (session.queries[place]?).any fun query => session.stylist.nodeSheets.contains query.key

end QuerySession

/-- The session after a call. -/
def QueryCall.apply (session : QuerySession) : QueryCall → QuerySession
  | .create typeName objectName parent =>
      let (query, stylist) := session.stylist.createQuery typeName objectName
        (parent.bind fun place => session.queries[place]?)
      ⟨stylist, session.queries ++ [query]⟩
  | .setSheet place text => session.on place fun stylist query => stylist.setQuerySheet query text
  | .clearSheet place => session.on place Stylist.clearQuerySheet
  | .setAppSheet text => { session with stylist := session.stylist.setAppSheet text }
  | .resolve place mask => session.on place fun stylist query => (stylist.resolve query mask).2

/-- The texts that a node is looked up with after a call, if it has been looked up. They are those
of the first lookup since the sheet of the application or that of the node itself changed; sheets
that nodes above it are given in the meantime do not count. -/
def QueryCall.note (place : Nat) (session : QuerySession) (seen : Option SheetTexts) :
    QueryCall → Option SheetTexts
  | .create _ _ _ => seen
  | .setSheet other text =>
      if other = place ∧ (Text.trim text.toList ≠ [] ∨ session.hasSheet place = true) then none
      else seen
  | .clearSheet other => if other = place ∧ session.hasSheet place = true then none else seen
  | .setAppSheet _ => none
  | .resolve other _ =>
      if other = place then
        (session.queries[place]?).map fun _ => seen.getD session.stylist.sheetTexts
      else seen

namespace QuerySession

/-- The session after calls. -/
def run (session : QuerySession) (calls : List QueryCall) : QuerySession :=
  calls.foldl QueryCall.apply session

/-- The texts that a node is looked up with after calls, if it has been looked up. -/
def noted (place : Nat) : QuerySession → Option SheetTexts → List QueryCall → Option SheetTexts
  | _, seen, [] => seen
  | session, seen, call :: later =>
      noted place (call.apply session) (call.note place session seen) later

/-- The texts that a node is looked up with next after calls from the start. -/
def seenTexts (settings : StyleSettings) (calls : List QueryCall) (place : Nat) : SheetTexts :=
  (noted place (start settings) none calls).getD ((start settings).run calls).stylist.sheetTexts

/-! ### What calls keep -/

/-- A node made for a query, in its place: it heeds sheets and is below nodes made before it. -/
structure MadeAt (place : Nat) (lineage : Lineage) : Prop where
  key : lineage.key = .query (place + 1)
  heeds : lineage.node.ignoresSheets = false
  above : ∀ node ∈ lineage.ancestors, ∃ other < place, node.key = .query (other + 1)
  once : (lineage.path.map StyleNode.key).Nodup

/-- The rules that are kept for a node lead to what a new stylist finds with the texts that the node
is looked up with. -/
inductive Remembers (settings : StyleSettings) (query : Option Lineage) :
    Option (List MatchedRule) → Option SheetTexts → Prop
  | nothing : Remembers settings query none none
  | rules {lineage : Lineage} {rules : List MatchedRule} {texts : SheetTexts}
      (isQuery : query = some lineage)
      (right : ∀ mask, appearanceOf settings rules mask =
        ((texts.fresh settings lineage).resolve lineage mask).1.appearance?) :
      Remembers settings query (some rules) (some texts)

/-- What calls keep, for one place among the nodes. -/
structure Truthful (settings : StyleSettings) (place : Nat) (session : QuerySession)
    (seen : Option SheetTexts) : Prop where
  configured : session.stylist.settings = settings
  sound : session.stylist.Sound
  made : ∀ {other : Nat} {lineage : Lineage}, session.queries[other]? = some lineage →
    MadeAt other lineage
  numbered : session.stylist.nextQuery = session.queries.length + 1
  knows : ∃ known, session.stylist.Knows known
  remembers : Remembers settings session.queries[place]?
    (session.stylist.matchedRules.find? (.query (place + 1))) seen

/-- Where there is no node, nothing is kept. -/
theorem Remembers.of_none {settings : StyleSettings} {query : Option Lineage}
    {kept : Option (List MatchedRule)} {seen : Option SheetTexts}
    (remembers : Remembers settings none kept seen) : Remembers settings query kept seen := by
  cases remembers with
  | nothing => exact .nothing
  | rules isQuery => cases isQuery

variable {settings : StyleSettings} {place other : Nat} {session : QuerySession}
  {seen : Option SheetTexts} {lineage : Lineage} {text : String}

theorem truthful_start (settings : StyleSettings) (place : Nat) :
    Truthful settings place (start settings) none where
  configured := rfl
  sound := Stylist.Sound.new settings
  made isQuery := by cases isQuery
  numbered := rfl
  knows := ⟨_, (Stylist.Sound.new settings).read.knows rfl⟩
  remembers := .nothing

namespace Truthful

/-- The rules that a lookup works with lead to what a new stylist finds. -/
theorem rulesFor (truthful : Truthful settings place session seen)
    (isQuery : session.queries[place]? = some lineage) (mask : PseudoMask) :
    appearanceOf settings (session.stylist.rulesFor lineage) mask =
      (((seen.getD session.stylist.sheetTexts).fresh settings lineage).resolve lineage
        mask).1.appearance? := by
  have made := truthful.made isQuery
  have remembers := truthful.remembers
  rw [← made.key] at remembers
  rw [Stylist.rulesFor]
  generalize found : session.stylist.matchedRules.find? lineage.key = kept at remembers
  cases remembers with
  | nothing =>
      rw [Option.getD_none, Option.getD_none, ← truthful.configured,
        truthful.sound.read.resolve_fresh made.once, Stylist.freshAppearance, made.heeds]
      rfl
  | rules isQueryToo right =>
      rw [isQuery, Option.some_inj] at isQueryToo
      rw [isQueryToo]
      exact right mask

theorem resolve_appearance (truthful : Truthful settings place session seen)
    (isQuery : session.queries[place]? = some lineage) (mask : PseudoMask) :
    (session.stylist.resolve lineage mask).1.appearance? =
      (((seen.getD session.stylist.sheetTexts).fresh settings lineage).resolve lineage
        mask).1.appearance? := by
  obtain ⟨known, knows⟩ := truthful.knows
  have resolved := truthful.sound.follows.resolve (truthful.made isQuery).heeds mask
  obtain ⟨masks, finds, -⟩ := resolved.found
  rw [← truthful.rulesFor isQuery mask, ← truthful.configured]
  exact finds.appearance knows.right (knows.drawn truthful.sound.read lineage)

/-- A lookup keeps the rules that it has worked with. -/
theorem resolve (truthful : Truthful settings place session seen)
    (isQuery : session.queries[other]? = some lineage) (mask : PseudoMask) :
    Truthful settings place { session with stylist := (session.stylist.resolve lineage mask).2 }
      (if other = place then
        (session.queries[place]?).map fun _ => seen.getD session.stylist.sheetTexts
      else seen) := by
  obtain ⟨known, knows⟩ := truthful.knows
  have made := truthful.made isQuery
  have resolved := truthful.sound.follows.resolve made.heeds mask
  refine ⟨resolved.same.settings.trans truthful.configured, truthful.sound.resolve lineage mask,
    truthful.made, resolved.nextQuery.trans truthful.numbered,
    ⟨known, knows.resolved truthful.sound.read resolved⟩, ?_⟩
  rw [resolved.matched, made.key]
  by_cases same : other = place
  · subst same
    rw [if_pos rfl, if_pos rfl]
    simp only [isQuery, Option.map_some]
    exact .rules rfl (truthful.rulesFor isQuery)
  · rw [if_neg same, if_neg fun sameKey => same (Nat.succ.inj (NodeKey.query.inj sameKey))]
    exact truthful.remembers

/-- The sheet of a node is taken off, with the entries of the node. -/
theorem unsheet (truthful : Truthful settings place session seen)
    (isQuery : session.queries[other]? = some lineage) :
    Truthful settings place
      { session with
        stylist := (session.stylist.unsheet lineage.key).invalidateSubtree [lineage.key] }
      (if other = place then none else seen) := by
  obtain ⟨known, knows⟩ := truthful.knows
  have out : Stylist.TakenOut session.stylist _ [lineage.key] [lineage.key] :=
    Stylist.unsheetSubtree_takenOut lineage.key [lineage.key]
  obtain ⟨nodeSheets, ruleSets, same⟩ := session.stylist.unsheet_eq lineage.key
  refine ⟨out.settings.trans truthful.configured,
    (truthful.sound.unsheet lineage.key).invalidateSubtree _, truthful.made, ?_,
    ⟨known, knows.takenOut out⟩, ?_⟩
  · rw [same]
    exact truthful.numbered
  · have entry : ((session.stylist.unsheet lineage.key).invalidateSubtree
        [lineage.key]).matchedRules = session.stylist.matchedRules.erase lineage.key := by
      rw [same]
      rfl
    simp only [entry, Table.find?_erase]
    rw [(truthful.made isQuery).key]
    simp only [NodeKey.query.injEq, Nat.add_right_cancel_iff, eq_comm]
    split
    · exact .nothing
    · exact truthful.remembers

/-- A sheet with a new identity comes into use; the entries stay. -/
theorem install (truthful : Truthful settings place session seen) {after : Stylist} {key : NodeKey}
    (installs : Stylist.Installs session.stylist after key text)
    (visible : Text.trim text.toList ≠ [])
    (numbered : after.nextQuery = session.stylist.nextQuery) :
    Truthful settings place { session with stylist := after } seen := by
  obtain ⟨known, knows⟩ := truthful.knows
  refine ⟨installs.settings.trans truthful.configured,
    ⟨installs.sheetsRead truthful.sound.read visible,
      truthful.sound.follows.of_same installs.matched installs.sets⟩,
    truthful.made, numbered.trans truthful.numbered, ⟨_, knows.install installs⟩, ?_⟩
  rw [installs.matched]
  exact truthful.remembers

theorem clearSheet (truthful : Truthful settings place session seen)
    (isQuery : session.queries[other]? = some lineage) :
    Truthful settings place
      { session with stylist := session.stylist.clearQuerySheet lineage }
      (if other = place ∧ session.hasSheet place = true then none else seen) := by
  have sheet : session.hasSheet other = (session.stylist.nodeSheets.find? lineage.key).isSome := by
    rw [hasSheet, isQuery, Option.any_some, Table.contains]
  have taken := truthful.unsheet isQuery
  rw [Stylist.unsheet] at taken
  rw [Stylist.clearQuerySheet, Stylist.querySubtree, Stylist.clearNodeSheet]
  cases onNode : session.stylist.nodeSheets.find? lineage.key with
  | none =>
      rw [if_neg]
      · exact truthful
      · rintro ⟨rfl, isOn⟩
        rw [sheet, onNode] at isOn
        cases isOn
  | some old =>
      rw [onNode] at taken sheet
      have same : (other = place ∧ session.hasSheet place = true) ↔ other = place := by
        constructor
        · exact And.left
        · rintro rfl
          exact ⟨rfl, sheet⟩
      rw [if_congr same rfl rfl]
      exact taken

theorem setSheet (truthful : Truthful settings place session seen)
    (isQuery : session.queries[other]? = some lineage) (text : String) :
    Truthful settings place
      { session with stylist := session.stylist.setQuerySheet lineage text }
      (if other = place ∧ (Text.trim text.toList ≠ [] ∨ session.hasSheet place = true) then none
      else seen) := by
  by_cases visible : Text.trim text.toList = []
  · have cleared := truthful.clearSheet isQuery
    rw [Stylist.clearQuerySheet] at cleared
    rw [Stylist.setQuerySheet, Stylist.setNodeSheet, if_pos visible]
    simpa only [visible, ne_eq, not_true_eq_false, false_or] using cleared
  · have taken := truthful.unsheet isQuery
    have installed := taken.install
      (Stylist.setNodeSheet_installs lineage.key [lineage.key] visible) visible
    simp only [visible, ne_eq, not_false_eq_true, true_or, and_true]
    apply installed
    obtain ⟨nodeSheets, ruleSets, same⟩ := session.stylist.unsheet_eq lineage.key
    rw [Stylist.nextQuery_setNodeSheet, Stylist.nextQuery_invalidateSubtree, same]

theorem setAppSheet (truthful : Truthful settings place session seen) (text : String) :
    Truthful settings place { session with stylist := session.stylist.setAppSheet text } none where
  configured := truthful.configured
  sound := truthful.sound.setAppSheet text
  made := truthful.made
  numbered := truthful.numbered
  knows := ⟨_, (truthful.sound.setAppSheet text).read.knows rfl⟩
  remembers := .nothing

/-- A node is made below nodes that were made before it. -/
theorem madeAt_create (truthful : Truthful settings place session seen)
    (typeName objectName : String) (parent : Option Nat) :
    MadeAt session.queries.length (session.stylist.createQuery typeName objectName
      (parent.bind fun place => session.queries[place]?)).1 := by
  have key : NodeKey.query session.stylist.nextQuery = .query (session.queries.length + 1) :=
    congrArg NodeKey.query truthful.numbered
  cases isParent : parent.bind fun place => session.queries[place]? with
  | none =>
      refine ⟨key, rfl, fun node member => ?_, ?_⟩
      · cases member
      · exact List.nodup_singleton _
  | some lineage =>
      obtain ⟨above, -, isQuery⟩ := Option.bind_eq_some_iff.mp isParent
      have made := truthful.made isQuery
      obtain ⟨small, -⟩ := List.getElem?_eq_some_iff.mp isQuery
      have path : ∀ node ∈ lineage.path, ∃ other < session.queries.length,
          node.key = .query (other + 1) := by
        intro node member
        rcases List.mem_cons.mp member with rfl | further
        · exact ⟨above, small, made.key⟩
        · obtain ⟨other, before, isKey⟩ := made.above node further
          exact ⟨other, Nat.lt_trans before small, isKey⟩
      refine ⟨key, rfl, path, ?_⟩
      apply List.nodup_cons.mpr
      refine ⟨fun again => ?_, made.once⟩
      obtain ⟨node, member, isKey⟩ := List.mem_map.mp again
      obtain ⟨other, before, isOther⟩ := path node member
      rw [isOther] at isKey
      have same := NodeKey.query.inj (isKey.trans key)
      omega

theorem create (truthful : Truthful settings place session seen) (typeName objectName : String)
    (parent : Option Nat) :
    Truthful settings place
      (QueryCall.apply session (.create typeName objectName parent)) seen := by
  obtain ⟨known, knows⟩ := truthful.knows
  have made := truthful.madeAt_create typeName objectName parent
  simp only [QueryCall.apply]
  generalize parent.bind (fun place => session.queries[place]?) = above at made ⊢
  have queries : ∀ place, (session.queries ++ [(session.stylist.createQuery typeName objectName
      above).1])[place]? = if place = session.queries.length then
        some (session.stylist.createQuery typeName objectName above).1
      else session.queries[place]? := by
    intro place
    split
    case isTrue last => rw [last, List.getElem?_concat_length]
    case isFalse apart =>
      rw [List.getElem?_append]
      split
      case isTrue => rfl
      case isFalse beyond =>
        rw [List.getElem?_singleton, if_neg (by omega), List.getElem?_eq_none (by omega)]
  constructor
  · exact truthful.configured
  · exact truthful.sound.createQuery typeName objectName above
  · intro other lineage isQuery
    rw [queries] at isQuery
    split at isQuery
    case isTrue last =>
      rw [last, ← Option.some_inj.mp isQuery]
      exact made
    case isFalse => exact truthful.made isQuery
  · rw [List.length_append, List.length_singleton, ← truthful.numbered]
    rfl
  · exact ⟨known, knows.unique, knows.handedOut, knows.installed, knows.kept, knows.right,
      knows.mentioned⟩
  · rw [queries]
    split
    case isTrue last =>
      apply Remembers.of_none
      have remembers := truthful.remembers
      rwa [last, List.getElem?_eq_none (Nat.le_refl _), ← last] at remembers
    case isFalse => exact truthful.remembers

/-- A place without a node has seen nothing. -/
theorem unmade (truthful : Truthful settings place session seen)
    (missing : session.queries[place]? = none) : seen = none := by
  have remembers := truthful.remembers
  rw [missing] at remembers
  generalize session.stylist.matchedRules.find? (.query (place + 1)) = kept at remembers
  cases remembers with
  | nothing => rfl
  | rules isQuery => cases isQuery

theorem call (truthful : Truthful settings place session seen) (call : QueryCall) :
    Truthful settings place (call.apply session) (call.note place session seen) := by
  have unchanged : ∀ {other after}, session.queries[other]? = none →
      (after = seen ∨ other = place ∧ after = none) → Truthful settings place session after := by
    rintro other after missing (rfl | ⟨rfl, rfl⟩)
    · exact truthful
    · rw [← truthful.unmade missing]
      exact truthful
  cases call with
  | create typeName objectName parent => exact truthful.create typeName objectName parent
  | setAppSheet text => exact truthful.setAppSheet text
  | setSheet other text =>
      simp only [QueryCall.apply, QueryCall.note, on]
      cases isQuery : session.queries[other]? with
      | some lineage => exact truthful.setSheet isQuery text
      | none =>
          apply unchanged isQuery
          split
          case isTrue renews => exact Or.inr ⟨renews.1, rfl⟩
          case isFalse => exact Or.inl rfl
  | clearSheet other =>
      simp only [QueryCall.apply, QueryCall.note, on]
      cases isQuery : session.queries[other]? with
      | some lineage => exact truthful.clearSheet isQuery
      | none =>
          apply unchanged isQuery
          split
          case isTrue renews => exact Or.inr ⟨renews.1, rfl⟩
          case isFalse => exact Or.inl rfl
  | resolve other mask =>
      simp only [QueryCall.apply, QueryCall.note, on]
      cases isQuery : session.queries[other]? with
      | some lineage => exact truthful.resolve isQuery mask
      | none =>
          apply unchanged isQuery
          split
          case isTrue own => exact Or.inr ⟨own, by rw [← own, isQuery, Option.map_none]⟩
          case isFalse => exact Or.inl rfl

theorem run (calls : List QueryCall) :
    ∀ {session : QuerySession} {seen : Option SheetTexts}, Truthful settings place session seen →
      Truthful settings place (session.run calls) (noted place session seen calls) := by
  induction calls with
  | nil => exact id
  | cons call later inductionHypothesis =>
      intro session seen truthful
      exact inductionHypothesis (truthful.call call)

end Truthful

/-! ### Lookups -/

/-- After any calls, a lookup of a node made for a query is given what a new stylist would give with
the texts of the first lookup of the node since its own sheet or that of the application changed.
If these are the present texts of the application, of the node and of those above it, the lookup
is given what a new stylist would give with the present texts. -/
theorem resolve_seen (settings : StyleSettings) (calls : List QueryCall) {place : Nat}
    {lineage : Lineage} (isQuery : ((start settings).run calls).queries[place]? = some lineage)
    (mask : PseudoMask) :
    (((start settings).run calls).stylist.resolve lineage mask).1.appearance? =
        (((seenTexts settings calls place).fresh settings lineage).resolve lineage
          mask).1.appearance? ∧
      ((seenTexts settings calls place).ofApp =
          ((start settings).run calls).stylist.appSheetText? →
        (∀ node ∈ lineage.path, (seenTexts settings calls place).ofNode node.key =
          ((start settings).run calls).stylist.nodeSheetText? node.key) →
        (((start settings).run calls).stylist.resolve lineage mask).1.appearance? =
          ((((start settings).run calls).stylist.sheetTexts.fresh settings lineage).resolve lineage
            mask).1.appearance?) := by
  have answer := ((truthful_start settings place).run calls).resolve_appearance isQuery mask
  refine ⟨answer, fun app nodes => ?_⟩
  rw [answer]
  have same : (seenTexts settings calls place).fresh settings lineage =
      ((start settings).run calls).stylist.sheetTexts.fresh settings lineage :=
    SheetTexts.fresh_congr app nodes
  exact congrArg (fun stylist => (stylist.resolve lineage mask).1.appearance?) same

/-- A dialog with a button below it that is looked up, and then a sheet on the dialog. -/
def outdatedCalls : List QueryCall :=
  [.create "Dialog" "" none, .create "Button" "" (some 0), .resolve 1 PseudoMask.empty,
    .setSheet 0 "Button { width: 5px; }"]

/-- The button in the dialog. -/
def outdatedButton : Lineage where
  node := ⟨.query 2, "Button", "", false⟩
  ancestors := [⟨.query 1, "Dialog", "", false⟩]

/-- The sheet of the dialog does not reach the button, though a new stylist would apply it. -/
theorem resolve_outdated :
    ((start {}).run outdatedCalls).queries[1]? = some outdatedButton ∧
      (((start {}).run outdatedCalls).stylist.resolve outdatedButton
        PseudoMask.empty).1.appearance? = none ∧
      ((((start {}).run outdatedCalls).stylist.sheetTexts.fresh {} outdatedButton).resolve
        outdatedButton PseudoMask.empty).1.appearance?.isSome = true := by
  decide +kernel

/-- What the button is given is what a new stylist gives without any sheet. -/
theorem resolve_seen_outdatedButton :
    ((start {}).run outdatedCalls).queries[1]? = some outdatedButton ∧
      (seenTexts {} outdatedCalls 1).ofNode (.query 1) = none ∧
      (((start {}).run outdatedCalls).stylist.resolve outdatedButton
          PseudoMask.empty).1.appearance? =
        (((seenTexts {} outdatedCalls 1).fresh {} outdatedButton).resolve outdatedButton
          PseudoMask.empty).1.appearance? := by
  have isQuery : ((start {}).run outdatedCalls).queries[1]? = some outdatedButton := by
    decide +kernel
  exact ⟨isQuery, by decide +kernel, (resolve_seen {} outdatedCalls isQuery _).1⟩

end QuerySession

end StyledWidgets.Style
