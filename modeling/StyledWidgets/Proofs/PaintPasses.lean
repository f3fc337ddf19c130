/-
Module: StyledWidgets.Proofs.PaintPasses
Purpose: The passes of a painting. Each of them asks the backend for the beginning of one list of
  draw commands, however the backend behaves: the styles that a pass has looked up before it failed
  are found again by the next one. What a painting asks for is read off a log of the backend.
Main exports: commandsOf, commandsOf_lookedUp, Backend.logged, Pass, Passes, paintPasses_logs,
  Painted, Damage.commands_congr, Damage.paint_logs
-/
import StyledWidgets.Proofs.PaintedPixels
import StyledWidgets.Proofs.ApplicationRuns
import StyledWidgets.Proofs.RepeatedLookups

namespace StyledWidgets

open StyledWidgets.Style

/-! ### The commands for items -/

/-- The command that draws an item in a style. -/
def DrawItem.command (forest : Forest) (item : DrawItem) (style : ResolvedStyle) : DrawCommand where
  widget := item.widget
  style := style
  windowRect := item.windowRect
  clip := item.clip
  text := forest.text item.widget
  frame := forest.frame item.widget

/-- What a stylist answers for the widget of an item, and the stylist afterwards. -/
def lookUp (forest : Forest) (stylist : Stylist) (item : DrawItem) : ResolvedStyle × Stylist :=
  stylist.resolve (forest.lineage item.widget) (forest.pseudo item.widget)

/-- The commands that draw items, whose styles are looked up one after the other. -/
def commandsOf (forest : Forest) : Stylist → List DrawItem → List DrawCommand
  | _, [] => []
  | stylist, item :: later =>
      item.command forest (lookUp forest stylist item).1 ::
        commandsOf forest (lookUp forest stylist item).2 later

/-- A stylist after the styles of items have been looked up. -/
def lookedUp (forest : Forest) (stylist : Stylist) (items : List DrawItem) : Stylist :=
  items.foldl (fun stylist item => (lookUp forest stylist item).2) stylist

/-- The commands that paint what is scheduled. -/
def Damage.commands (damage : Damage) (forest : Forest) (stylist : Stylist) : List DrawCommand :=
  commandsOf forest stylist (damage.plan forest)

section Commands

variable {forest : Forest} {stylist one two : Stylist} {item : DrawItem} {style : ResolvedStyle}

@[simp]
theorem length_commandsOf (items : List DrawItem) :
    (commandsOf forest stylist items).length = items.length := by
  induction items generalizing stylist with
  | nil => rfl
  | cons item later inductionHypothesis =>
      rw [commandsOf, List.length_cons, List.length_cons, inductionHypothesis]

theorem commandsOf_append (items later : List DrawItem) :
    commandsOf forest stylist (items ++ later) =
      commandsOf forest stylist items ++
        commandsOf forest (lookedUp forest stylist items) later := by
  induction items generalizing stylist with
  | nil => rfl
  | cons item further inductionHypothesis =>
      rw [List.cons_append, commandsOf, commandsOf, inductionHypothesis]
      rfl

/-- The counters of a stylist have no say in what it answers. -/
theorem lookUp_congr (item : DrawItem) (same : one.uncounted = two.uncounted) :
    (lookUp forest one item).1 = (lookUp forest two item).1 ∧
      (lookUp forest one item).2.uncounted = (lookUp forest two item).2.uncounted :=
  Stylist.resolve_congr same ..

theorem commandsOf_congr (items : List DrawItem) (same : one.uncounted = two.uncounted) :
    commandsOf forest one items = commandsOf forest two items := by
  induction items generalizing one two with
  | nil => rfl
  | cons item later inductionHypothesis =>
      obtain ⟨style, after⟩ := lookUp_congr item same
      rw [commandsOf, commandsOf, inductionHypothesis after, style]

theorem lookedUp_congr (items : List DrawItem) (same : one.uncounted = two.uncounted) :
    (lookedUp forest one items).uncounted = (lookedUp forest two items).uncounted := by
  induction items generalizing one two with
  | nil => exact same
  | cons item later inductionHypothesis =>
      exact inductionHypothesis (lookUp_congr item same).2

/-- A style is at hand for an item if the caches of the stylist hold it for the widget. -/
def AtHand (forest : Forest) (stylist : Stylist) (item : DrawItem) (style : ResolvedStyle) : Prop :=
  stylist.Answers (forest.lineage item.widget) (forest.pseudo item.widget) style

theorem atHand_lookUp (stylist : Stylist) (item : DrawItem) :
    AtHand forest (lookUp forest stylist item).2 item (lookUp forest stylist item).1 :=
  stylist.answers_resolve ..

/-- Looking up a style that is at hand changes nothing but a counter. -/
theorem AtHand.again (atHand : AtHand forest stylist item style) :
    (lookUp forest stylist item).1 = style ∧
      (lookUp forest stylist item).2.uncounted = stylist.uncounted :=
  Stylist.Answers.again atHand

/-- What is at hand for a widget stays so when the styles of other widgets are looked up, or that
of the widget itself. -/
theorem AtHand.lookedUp (items : List DrawItem) (atHand : AtHand forest stylist item style) :
    AtHand forest (lookedUp forest stylist items) item style := by
  induction items generalizing stylist with
  | nil => exact atHand
  | cons other later inductionHypothesis =>
      apply inductionHypothesis
      apply Stylist.Answers.resolve atHand
      intro sameKey
      rw [Forest.lineage_key, Forest.lineage_key] at sameKey
      rw [Forest.styleKey_injective sameKey]
      exact ⟨rfl, rfl⟩

/-- Once the styles of items have been looked up, they are all at hand. -/
theorem atHand_of_lookedUp (items : List DrawItem) :
    List.Forall₂ (fun item command => ∃ style,
        AtHand forest (lookedUp forest stylist items) item style ∧
          command = item.command forest style) items (commandsOf forest stylist items) := by
  induction items generalizing stylist with
  | nil => exact .nil
  | cons item later inductionHypothesis =>
      exact .cons ⟨_, (atHand_lookUp stylist item).lookedUp later, rfl⟩ inductionHypothesis

/-- Styles that are at hand give the same commands again and leave the stylist as it is, up to its
counters. -/
theorem commandsOf_of_atHand {items : List DrawItem} {commands : List DrawCommand}
    (atHand : List.Forall₂ (fun item command => ∃ style, AtHand forest stylist item style ∧
      command = item.command forest style) items commands) :
    commandsOf forest stylist items = commands ∧
      (lookedUp forest stylist items).uncounted = stylist.uncounted := by
  induction atHand with
  | nil => exact ⟨rfl, rfl⟩
  | cons first _ inductionHypothesis =>
      obtain ⟨style, isAtHand, rfl⟩ := first
      obtain ⟨answer, unchanged⟩ := isAtHand.again
      constructor
      · rw [commandsOf, commandsOf_congr _ unchanged, inductionHypothesis.1, answer]
      · exact (lookedUp_congr _ unchanged).trans inductionHypothesis.2

/-- The commands for items are the same after the styles of some of the first have been looked
up. -/
theorem commandsOf_lookedUp {drawn items : List DrawItem} (begins : drawn <+: items) :
    commandsOf forest (lookedUp forest stylist drawn) items = commandsOf forest stylist items := by
  obtain ⟨later, rfl⟩ := begins
  obtain ⟨again, unchanged⟩ := commandsOf_of_atHand (atHand_of_lookedUp drawn)
  rw [commandsOf_append, commandsOf_append, again, commandsOf_congr later unchanged]

end Commands

/-! ### What is asked of a backend -/

/-- The failure of a call, as it is noted. -/
def failureOf : Except DrawError Unit → List PaintEvent
  | .ok () => []
  | .error failure => [.failed failure]

/-- A call of a backend that is noted, with its failure. -/
def noted {σ : Type} (event : PaintEvent) (work : StateM σ (Except DrawError Unit)) :
    StateM (σ × List PaintEvent) (Except DrawError Unit) := fun (state, log) =>
  let (outcome, after) := work state
  (outcome, after, log ++ event :: failureOf outcome)

/-- A backend together with a log of everything it has been asked to do. -/
def Backend.logged {σ : Type} (backend : Backend σ) : Backend (σ × List PaintEvent) where
  start dirty := noted (.started dirty) (backend.start dirty)
  draw command := noted (.drawn command) (backend.draw command)
  finish := noted .finished backend.finish
  recreate := fun (state, log) => ((), (backend.recreate state).2, log ++ [.recreated])

/-- What a pass asks of a backend, and how it ends. -/
structure Pass where
  commands : List DrawCommand
  /-- The backend has been asked to finish. -/
  isFinished : Bool
  outcome : Except DrawError Unit

namespace Pass

/-- The calls of a pass over some pixels. Only the last of them can have failed. -/
def events (dirty : Region) (pass : Pass) : List PaintEvent :=
  .started dirty :: pass.commands.map .drawn ++ (if pass.isFinished then [.finished] else []) ++
    failureOf pass.outcome

/-- The device was lost in a pass. -/
def isLost (pass : Pass) : Bool :=
  match pass.outcome with
  | .error .deviceLost => true
  | _ => false

/-- A pass draws commands from the first on. It finishes only after the last of them, and does so
if no call fails. -/
structure Follows (pass : Pass) (commands : List DrawCommand) : Prop where
  begins : pass.commands <+: commands
  finishes : pass.isFinished = true → pass.commands = commands
  completes : pass.outcome = .ok () → pass.commands = commands ∧ pass.isFinished = true

end Pass

section Logged

variable {σ α β : Type}

/-- The state of a painting whose backend keeps a log. -/
def PaintState.withLog (state : PaintState σ) (log : List PaintEvent) :
    PaintState (σ × List PaintEvent) :=
  ⟨state.stylist, state.backend, log⟩

/-- Work leads from a state to another one. With a log it does the same and notes the events. -/
structure Logs (plain : StateM (PaintState σ) α)
    (logged : StateM (PaintState (σ × List PaintEvent)) α) (before : PaintState σ) (value : α)
    (after : PaintState σ) (events : List PaintEvent) : Prop where
  plain : plain before = (value, after)
  logged : ∀ log, logged (before.withLog log) = (value, after.withLog (log ++ events))

namespace Logs

variable {step : PaintM σ α} {loggedStep : PaintM (σ × List PaintEvent) α}
  {next : α → PaintM σ β} {loggedNext : α → PaintM (σ × List PaintEvent) β}
  {before middle after : PaintState σ} {events further : List PaintEvent}

theorem of_events {plain : StateM (PaintState σ) α}
    {logged : StateM (PaintState (σ × List PaintEvent)) α} {value : α}
    (logs : Logs plain logged before value after events) (same : events = further) :
    Logs plain logged before value after further := same ▸ logs

theorem call (event : PaintEvent) (work : StateM σ (Except DrawError Unit))
    (before : PaintState σ) :
    Logs (PaintM.call work).run (PaintM.call (noted event work)).run before
      (work before.backend).1 ⟨before.stylist, (work before.backend).2⟩
      (event :: failureOf (work before.backend).1) where
  plain := rfl
  logged _ := rfl

/-- Work goes on after a step that succeeds. -/
theorem bind {value : α} {outcome : Except DrawError β}
    (first : Logs step.run loggedStep.run before (.ok value) middle events)
    (second : Logs (next value).run (loggedNext value).run middle outcome after further) :
    Logs (step >>= next).run (loggedStep >>= loggedNext).run before outcome after
      (events ++ further) where
  plain := by
    have firstPlain : step.run before = _ := first.plain
    rw [run_bind, firstPlain]
    exact second.plain
  logged log := by
    have firstLogged : loggedStep.run (before.withLog log) = _ := first.logged log
    rw [run_bind, firstLogged, ← List.append_assoc]
    exact second.logged _

/-- Work ends with a step that fails. -/
theorem bind_error {failure : DrawError}
    (first : Logs step.run loggedStep.run before (.error failure) after events) :
    Logs (step >>= next).run (loggedStep >>= loggedNext).run before (.error failure) after
      events where
  plain := by
    have firstPlain : step.run before = _ := first.plain
    rw [run_bind, firstPlain]
  logged log := by
    have firstLogged : loggedStep.run (before.withLog log) = _ := first.logged log
    rw [run_bind, firstLogged]

end Logs

/-! ### One pass -/

variable (forest : Forest) (backend : Backend σ)

/-- Items are drawn up to the first that fails. -/
theorem drawItems_logs (items : List DrawItem) (before : PaintState σ) :
    ∃ drawn outcome after, drawn <+: items ∧ (outcome = .ok () → drawn = items) ∧
      after.stylist = lookedUp forest before.stylist drawn ∧
      Logs (drawItems forest backend items).run (drawItems forest backend.logged items).run before
        outcome after
        ((commandsOf forest before.stylist drawn).map .drawn ++ failureOf outcome) := by
  induction items generalizing before with
  | nil =>
      exact ⟨[], .ok (), before, List.prefix_refl _, fun _ => rfl, rfl, rfl,
        fun log => congrArg (fun log => (_, before.withLog log)) (List.append_nil log).symm⟩
  | cons item later inductionHypothesis =>
      let looked := lookUp forest before.stylist item
      let command := item.command forest looked.1
      have first : Logs (drawItem forest backend item).run
          (drawItem forest backend.logged item).run before (backend.draw command before.backend).1
          ⟨looked.2, (backend.draw command before.backend).2⟩
          (.drawn command :: failureOf (backend.draw command before.backend).1) :=
        ⟨rfl, fun _ => rfl⟩
      generalize backend.draw command before.backend = answer at first
      obtain ⟨failure | value, after⟩ := answer
      · exact ⟨[item], .error failure, ⟨looked.2, after⟩, ⟨later, rfl⟩, nofun, rfl,
          first.bind_error⟩
      · obtain ⟨drawn, outcome, last, begins, complete, isLooked, rest⟩ :=
          inductionHypothesis ⟨looked.2, after⟩
        exact ⟨item :: drawn, outcome, last, (List.prefix_cons_inj item).mpr begins,
          fun succeeds => congrArg _ (complete succeeds), isLooked, first.bind rest⟩

/-- A pass follows the commands for its items, and leaves them the same for the next one. -/
theorem paintPass_logs (dirty : Region) (items : List DrawItem) (before : PaintState σ) :
    ∃ pass after, Pass.Follows pass (commandsOf forest before.stylist items) ∧
      commandsOf forest after.stylist items = commandsOf forest before.stylist items ∧
      Logs (paintPass forest backend dirty items).run
        (paintPass forest backend.logged dirty items).run before pass.outcome after
        (pass.events dirty) := by
  have start := Logs.call (.started dirty) (backend.start dirty) before
  generalize backend.start dirty before.backend = answer at start
  obtain ⟨failure | _, begun⟩ := answer
  · exact ⟨⟨[], false, .error failure⟩, ⟨before.stylist, begun⟩,
      ⟨List.nil_prefix, nofun, nofun⟩, rfl, start.bind_error⟩
  · obtain ⟨drawn, outcome, middle, begins, complete, looked, draws⟩ :=
      drawItems_logs forest backend items ⟨before.stylist, begun⟩
    have again : commandsOf forest middle.stylist items =
        commandsOf forest before.stylist items := looked ▸ commandsOf_lookedUp begins
    obtain failure | _ := outcome
    · refine ⟨⟨commandsOf forest before.stylist drawn, false, .error failure⟩, middle,
        ⟨?_, nofun, nofun⟩, again, ?_⟩
      · obtain ⟨later, rfl⟩ := begins
        rw [commandsOf_append]
        exact List.prefix_append ..
      · exact (start.bind draws.bind_error).of_events (by simp [Pass.events, failureOf])
    · obtain rfl := complete rfl
      have finish := Logs.call .finished backend.finish middle
      refine ⟨⟨commandsOf forest before.stylist drawn, true, (backend.finish middle.backend).1⟩,
        ⟨middle.stylist, (backend.finish middle.backend).2⟩,
        ⟨List.prefix_refl _, fun _ => rfl, fun _ => ⟨rfl, rfl⟩⟩, again, ?_⟩
      exact (start.bind (draws.bind finish)).of_events (by simp [Pass.events, failureOf])

/-! ### Several passes -/

theorem attemptPass_logs (dirty : Region) (items : List DrawItem) {pass : Pass}
    {before after : PaintState σ} {events : List PaintEvent}
    (logs : Logs (paintPass forest backend dirty items).run
      (paintPass forest backend.logged dirty items).run before pass.outcome after events) :
    Logs (attemptPass forest backend dirty items) (attemptPass forest backend.logged dirty items)
      before (pass.outcome.mapError DrawError.toToolkit) after events where
  plain := by
    have plain : (paintPass forest backend dirty items).run before = _ := logs.plain
    simp only [attemptPass, bind, StateT.bind, plain]
    cases pass.outcome <;> rfl
  logged log := by
    have logged : (paintPass forest backend.logged dirty items).run (before.withLog log) = _ :=
      logs.logged log
    simp only [attemptPass, bind, StateT.bind, logged]
    cases pass.outcome <;> rfl

theorem Pass.isLost_iff {pass : Pass} : pass.isLost = true ↔ pass.outcome = .error .deviceLost := by
  rw [isLost]
  split
  case h_1 lost => exact iff_of_true rfl lost
  case h_2 kept => exact iff_of_false Bool.false_ne_true kept

/-- Users of the library see the loss of the device only if a pass has lost it. -/
theorem Pass.isLost_of_toToolkit {pass : Pass}
    (lost : pass.outcome.mapError DrawError.toToolkit = .error .deviceLost) :
    pass.isLost = true := by
  rw [Pass.isLost_iff]
  cases outcome : pass.outcome with
  | ok done =>
      rw [outcome] at lost
      cases lost
  | error cause =>
      rw [outcome] at lost
      cases cause with
      | deviceLost => rfl
      | failed detail => cases lost

section Retry

variable {operation : StateM (PaintState σ) (Except ToolkitError α)}
  {loggedOperation : StateM (PaintState (σ × List PaintEvent)) (Except ToolkitError α)}
  {before middle after : PaintState σ} {events further : List PaintEvent}
  {outcome : Except ToolkitError α} {more : Nat}

/-- An attempt ends a painting unless the device is lost. -/
theorem Logs.retry_ends (logs : Logs operation loggedOperation before outcome after events)
    (settled : outcome ≠ .error .deviceLost) :
    Logs (retryFrom operation (recreateBackend backend) (more + 1))
      (retryFrom loggedOperation (recreateBackend backend.logged) (more + 1)) before outcome after
      events where
  plain := by
    have kept : (operation before).1 ≠ .error .deviceLost := by rwa [logs.plain]
    rw [retryFrom_settled _ kept, logs.plain]
  logged log := by
    have kept : (loggedOperation (before.withLog log)).1 ≠ .error .deviceLost := by
      rwa [logs.logged]
    rw [retryFrom_settled _ kept, logs.logged]

/-- The resources of the backend are recreated before the next attempt. -/
theorem Logs.retry_again
    (logs : Logs operation loggedOperation before (.error .deviceLost) middle events)
    (rest : Logs (retryFrom operation (recreateBackend backend) more)
      (retryFrom loggedOperation (recreateBackend backend.logged) more)
      ⟨middle.stylist, (backend.recreate middle.backend).2⟩ outcome after further) :
    Logs (retryFrom operation (recreateBackend backend) (more + 1))
      (retryFrom loggedOperation (recreateBackend backend.logged) (more + 1)) before outcome after
      (events ++ [.recreated] ++ further) where
  plain := by
    have lost : (operation before).1 = .error .deviceLost := by rw [logs.plain]
    rw [retryFrom_lost _ lost, logs.plain]
    exact rest.plain
  logged log := by
    have lost : (loggedOperation (before.withLog log)).1 = .error .deviceLost := by
      rw [logs.logged]
    rw [retryFrom_lost _ lost, logs.logged, ← List.append_assoc, ← List.append_assoc]
    exact rest.logged _

end Retry

/-- The passes of a painting that is allowed some more than one: a pass that loses the device is
followed by another one as long as any are left, and no other pass is. -/
inductive Passes : Nat → List Pass → Pass → Prop where
  | last {more : Nat} {pass : Pass} (ends : pass.isLost = false ∨ more = 0) :
      Passes more [pass] pass
  | again {more : Nat} {pass last : Pass} {later : List Pass} (lost : pass.isLost = true)
      (rest : Passes more later last) : Passes (more + 1) (pass :: later) last

/-- All passes of a painting follow the same commands. Between two of them the resources of the
backend are recreated, and at no other time. -/
theorem paintPasses_logs (dirty : Region) (items : List DrawItem) (commands : List DrawCommand)
    (more : Nat) (before : PaintState σ)
    (same : commandsOf forest before.stylist items = commands) :
    ∃ passes last after, Passes more passes last ∧ (∀ pass ∈ passes, pass.Follows commands) ∧
      commandsOf forest after.stylist items = commands ∧
      Logs (retryFrom (attemptPass forest backend dirty items) (recreateBackend backend) more)
        (retryFrom (attemptPass forest backend.logged dirty items)
          (recreateBackend backend.logged) more) before
        (last.outcome.mapError DrawError.toToolkit) after
        ([PaintEvent.recreated].intercalate (passes.map (Pass.events dirty))) := by
  induction more generalizing before with
  | zero =>
      obtain ⟨pass, after, follows, again, logs⟩ := paintPass_logs forest backend dirty items before
      rw [same] at follows again
      exact ⟨[pass], pass, after, .last (Or.inr rfl), by simpa using follows, again,
        (attemptPass_logs forest backend dirty items logs).of_events
          List.intercalate_singleton.symm⟩
  | succ more inductionHypothesis =>
      obtain ⟨pass, after, follows, again, logs⟩ := paintPass_logs forest backend dirty items before
      rw [same] at follows again
      have attempt := attemptPass_logs forest backend dirty items logs
      cases lost : pass.isLost with
      | false =>
          exact ⟨[pass], pass, after, .last (Or.inl lost), by simpa using follows, again,
            (attempt.retry_ends backend fun again => by
              rw [Pass.isLost_of_toToolkit again] at lost
              cases lost).of_events List.intercalate_singleton.symm⟩
      | true =>
          rw [Pass.isLost_iff.mp lost] at attempt
          obtain ⟨later, last, final, passes, all, unchanged, rest⟩ :=
            inductionHypothesis ⟨after.stylist, (backend.recreate after.backend).2⟩ again
          refine ⟨pass :: later, last, final, .again lost passes,
            List.forall_mem_cons.mpr ⟨follows, all⟩, unchanged,
            (attempt.retry_again backend rest).of_events ?_⟩
          cases passes with
          | last => exact List.intercalate_cons_cons.symm
          | again => exact List.intercalate_cons_cons.symm

end Logged

/-! ### The number of passes -/

/-- The number of the first pass in which the device is not lost, counted from one. It is greater
than the number of passes if there is none. -/
def Pass.firstKept (passes : List Pass) : Nat := passes.findIdx (fun pass => !pass.isLost) + 1

namespace Passes

open Pass

variable {more : Nat} {passes : List Pass} {last : Pass}

theorem getLast? (made : Passes more passes last) : passes.getLast? = some last := by
  induction made with
  | last => rfl
  | again _ rest inductionHypothesis =>
      cases rest with
      | last => rfl
      | again => exact inductionHypothesis

/-- The passes are those up to the first that does not lose the device, as far as they are
allowed. -/
theorem length_eq (made : Passes more passes last) :
    passes.length = min (firstKept passes) (more + 1) := by
  induction made with
  | @last more pass ends =>
      rw [firstKept, List.findIdx_singleton, List.length_singleton]
      rcases ends with kept | none
      · simp [kept]
      · omega
  | again lost _ inductionHypothesis =>
      rw [List.length_cons, inductionHypothesis, firstKept, firstKept, List.findIdx_cons, lost]
      simp only [Bool.not_true, cond_false]
      omega

/-- The last pass is the first that does not lose the device, unless all of them lose it. -/
theorem getElem?_firstKept (made : Passes more passes last) :
    passes[firstKept passes - 1]? = if last.isLost then none else some last := by
  induction made with
  | @last more pass ends =>
      rw [firstKept, List.findIdx_singleton]
      cases pass.isLost <;> rfl
  | @again more pass last later lost _ inductionHypothesis =>
      rw [← inductionHypothesis, firstKept, firstKept, List.findIdx_cons, lost]
      simp only [Bool.not_true, cond_false, Nat.add_sub_cancel, List.getElem?_cons_succ]

/-- The last pass succeeds exactly if the first one that does not lose the device is allowed and
succeeds. -/
theorem succeeds_iff (made : Passes more passes last) :
    last.outcome = .ok () ↔ firstKept passes ≤ more + 1 ∧
      ∃ pass, passes[firstKept passes - 1]? = some pass ∧ pass.outcome = .ok () := by
  rw [made.getElem?_firstKept]
  constructor
  · intro succeeds
    have kept : last.isLost = false := by
      rw [Bool.eq_false_iff, ne_eq, isLost_iff, succeeds]
      nofun
    refine ⟨?_, last, by rw [kept]; rfl, succeeds⟩
    have inside : firstKept passes - 1 < passes.length := by
      have found := made.getElem?_firstKept
      rw [kept] at found
      exact (List.getElem?_eq_some_iff.mp found).1
    have count := made.length_eq
    omega
  · rintro ⟨-, pass, isLast, succeeds⟩
    split at isLast
    case isTrue => cases isLast
    case isFalse =>
      rw [Option.some_inj.mp isLast]
      exact succeeds

end Passes

/-! ### A painting -/

/-- What a painting of something scheduled does in some passes that follow one list of commands. -/
structure Painted (damage : Damage) (commands : List DrawCommand) (attempts : Nat)
    (passes : List Pass) (outcome : Except ToolkitError PaintReport) (after : Damage) : Prop where
  follows : ∀ pass ∈ passes, pass.Follows commands
  /-- Passes are made up to the first that does not lose the device, as far as they are allowed. -/
  count : passes.length = min (Pass.firstKept passes) attempts
  /-- The painting succeeds exactly if that pass is allowed and succeeds. -/
  succeeds : outcome = .ok ⟨commands.length, damage.dirtyRegion.boundingRect⟩ ↔
    Pass.firstKept passes ≤ attempts ∧
      ∃ pass, passes[Pass.firstKept passes - 1]? = some pass ∧ pass.outcome = .ok ()
  reports : ∀ report, outcome = .ok report →
    report = ⟨commands.length, damage.dirtyRegion.boundingRect⟩
  /-- The failure is that of the last pass. -/
  fails : ∀ failure, outcome = .error failure → ∃ last cause,
    passes.getLast? = some last ∧ last.outcome = .error cause ∧ failure = cause.toToolkit
  /-- After a failure everything is as it was. -/
  keeps : ∀ failure, outcome = .error failure → after = damage
  /-- After a success nothing is scheduled, and what has been asked for waits as before. -/
  clears : ∀ report, outcome = .ok report →
    after.scheduled = ∅ ∧ after.above = [] ∧ after.pending = damage.pending

namespace Damage

variable {damage other : Damage} {forest : Forest} {stylist : Stylist}

/-- Nothing is drawn where nothing is inherited and nothing is scheduled further down. -/
theorem planWithin_of_idle (linked : forest.Linked) (depth : Nat) :
    ∀ {id : WidgetId} {rect : Rect},
      (∀ lit, id ∈ forest.path lit → damage.region? lit = none) →
        damage.planWithin forest depth id rect Region.empty = [] := by
  induction depth with
  | zero => exact fun _ => rfl
  | succ depth inductionHypothesis =>
      intro id rect idle
      have clip : damage.clipOf Region.empty id rect = Region.empty := by
        rw [clipOf, idle id (Forest.mem_path_self id)]
        rfl
      have further : ∀ child ∈ forest.children id, ∀ rect,
          damage.planWithin forest depth child rect Region.empty = [] := by
        intro child isChild rect
        refine inductionHypothesis fun lit below => idle lit ?_
        exact linked.parent_mem_path below (linked.mem_children_iff.mp isChild)
      rw [planWithin]
      simp only [clip]
      split
      case isFalse => rfl
      case isTrue =>
        rw [List.append_eq_nil_iff]
        refine ⟨if_pos rfl, List.flatMap_eq_nil_iff.mpr fun child isChild => ?_⟩
        rw [further child isChild, ite_self, ite_self]

/-- If all marks are there, a child that is not marked might as well be visited. -/
private theorem planWithin_skipped (linked : forest.Linked) (marked : damage.Marked forest)
    (depth : Nat) {child : WidgetId} (unscheduled : damage.region? child = none) (rect : Rect) :
    (if damage.isAbove child then damage.planWithin forest depth child rect Region.empty else []) =
      damage.planWithin forest depth child rect Region.empty := by
  split
  case isTrue => rfl
  case isFalse skipped =>
    symm
    refine planWithin_of_idle linked depth fun lit below => Option.eq_none_iff_forall_ne_some.mpr ?_
    intro region held
    refine skipped (marked.isAbove linked held below ?_)
    rintro rfl
    rw [unscheduled] at held
    cases held

/-- Two damages with the same regions have their marks in common, as far as they matter: they have
the same ones, or neither lacks any. -/
def SameMarks (forest : Forest) (damage other : Damage) : Prop :=
  other.above = damage.above ∨ (forest.Linked ∧ damage.Marked forest ∧ other.Marked forest)

private theorem planWithin_congr (scheduled : other.scheduled = damage.scheduled)
    (marks : SameMarks forest damage other) (depth : Nat) :
    ∀ (id : WidgetId) (rect : Rect) (inherited : Region),
      other.planWithin forest depth id rect inherited =
        damage.planWithin forest depth id rect inherited := by
  induction depth with
  | zero => exact fun _ _ _ => rfl
  | succ depth inductionHypothesis =>
      intro id rect inherited
      have region : other.region? = damage.region? := funext fun id => by
        rw [region?, region?, scheduled]
      have clip : other.clipOf = damage.clipOf := by
        funext inherited id rect
        rw [clipOf, clipOf, region]
      have skipped : ∀ child rect, damage.region? child = none →
          (if other.isAbove child then damage.planWithin forest depth child rect Region.empty
            else []) =
          if damage.isAbove child then damage.planWithin forest depth child rect Region.empty
            else [] := by
        intro child rect unscheduled
        rcases marks with above | ⟨linked, marked, markedToo⟩
        · rw [isAbove, isAbove, above]
        · rw [planWithin_skipped linked marked depth unscheduled,
            ← inductionHypothesis child rect Region.empty]
          exact planWithin_skipped linked markedToo depth (by rw [region, unscheduled]) rect
      simp only [planWithin, clip, region, inductionHypothesis]
      split
      case isFalse => rfl
      case isTrue =>
        congr 1
        apply List.flatMap_congr
        intro child _
        split
        case isTrue => rfl
        case isFalse unvisited =>
          rw [Bool.not_eq_true, Bool.or_eq_false_iff] at unvisited
          exact skipped child _ (by simpa using unvisited.1)

/-- Commands depend on what is scheduled and on nothing that has only been asked for. -/
theorem commands_congr (root : other.root = damage.root)
    (scheduled : other.scheduled = damage.scheduled) (marks : SameMarks forest damage other) :
    other.commands forest stylist = damage.commands forest stylist := by
  rw [commands, commands, plan, plan, root, planWithin_congr scheduled marks]

/-- A painting of something scheduled makes passes that follow one list of commands. The backend
has no say in it, and the list stays the same for the next painting. -/
theorem paint_logs {σ : Type} (backend : Backend σ) (maxAttempts : Nat) (state : σ)
    (waits : damage.dirtyRegion.isEmpty = false) :
    ∃ passes outcome after final,
      damage.paint forest backend maxAttempts ⟨stylist, state⟩ = (outcome, after, final) ∧
      damage.paint forest backend.logged maxAttempts ⟨stylist, state, []⟩ =
        (outcome, after, final.withLog
          ([PaintEvent.recreated].intercalate (passes.map (Pass.events damage.dirtyRegion)))) ∧
      Painted damage (damage.commands forest stylist) (max 1 maxAttempts) passes outcome after ∧
      damage.commands forest final.stylist = damage.commands forest stylist := by
  obtain ⟨passes, last, final, made, follows, again, logs⟩ :=
    paintPasses_logs forest backend damage.dirtyRegion (damage.plan forest)
      (damage.commands forest stylist) (maxAttempts - 1) ⟨stylist, state⟩ rfl
  have attempts : maxAttempts - 1 + 1 = max 1 maxAttempts := by omega
  have count := made.length_eq
  have succeeds := made.succeeds_iff
  rw [attempts] at count succeeds
  have plain : Damage.paintPasses forest backend maxAttempts damage.dirtyRegion
      (damage.plan forest) ⟨stylist, state⟩ = _ := logs.plain
  have logged : Damage.paintPasses forest backend.logged maxAttempts damage.dirtyRegion
      (damage.plan forest) ⟨stylist, state, []⟩ = _ := logs.logged []
  have drawn : (damage.plan forest).length = (damage.commands forest stylist).length :=
    (length_commandsOf _).symm
  rw [List.nil_append] at logged
  simp only [paint, waits, Bool.false_eq_true, if_false, plain, logged, drawn]
  cases outcome : last.outcome with
  | ok done =>
      rw [outcome] at succeeds
      exact ⟨passes, _, _, final, rfl, rfl,
        { follows, count
          succeeds := ⟨fun _ => succeeds.mp rfl, fun _ => rfl⟩
          reports := fun _ same => (Except.ok.inj same).symm
          fails := fun _ failed => by cases failed
          keeps := fun _ failed => by cases failed
          clears := fun _ _ => ⟨rfl, rfl, rfl⟩ }, again⟩
  | error cause =>
      rw [outcome] at succeeds
      exact ⟨passes, _, _, final, rfl, rfl,
        { follows, count
          succeeds :=
            ⟨fun done => (by cases done), fun first => (by cases succeeds.mpr first)⟩
          reports := fun _ done => by cases done
          fails := fun _ same =>
            ⟨last, cause, made.getLast?, outcome, (Except.error.inj same).symm⟩
          keeps := fun _ _ => rfl
          clears := fun _ done => by cases done }, again⟩

end Damage

end StyledWidgets
