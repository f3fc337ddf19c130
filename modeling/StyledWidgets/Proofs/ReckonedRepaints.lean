/-
Module: StyledWidgets.Proofs.ReckonedRepaints
Purpose: What is scheduled and painted for requests in a window, with every number in a word. As
  long as no word overflows, a widget is scheduled where it is seen, the order of the requests does
  not matter, and a partial repaint is as good as a full one. Where a word overflows, each of these
  can fail.
Main exports: Damage.reckonRequested, Damage.reckonScheduled, Damage.ReachedOnWords,
  Damage.visiblePart_scheduled, Damage.dirt_perm, Damage.repaint_faithful,
  Damage.ReachedOnWords.drawsExactly_painted
-/
import StyledWidgets.Proofs.ExactClips
import StyledWidgets.Proofs.ReckonedPainting
import StyledWidgets.Proofs.RequestPermutations
import StyledWidgets.Proofs.RequestedRegion

namespace StyledWidgets

open Reckoned StyledWidgets.Style

namespace Damage

open Forest

variable {forest : Forest} {settings : RepaintSettings} {root : WidgetId}
  {requests others : List (WidgetId × Option Rect)}

/-! ### Requests in a window that is clean -/

/-- The damage of a window after requests. -/
def reckonRequested (root : WidgetId) (requests : List (WidgetId × Option Rect)) :
    Reckoned Damage :=
  requests.foldlM (fun damage request => damage.reckonRequestUpdate request.1 request.2) (new root)

/-- The damage of a window after requests that have been turned into regions. -/
def reckonScheduled (forest : Forest) (settings : RepaintSettings) (root : WidgetId)
    (requests : List (WidgetId × Option Rect)) : Reckoned Damage := do
  (← reckonRequested root requests).reckonCompute forest settings

theorem reckonRequested_yields :
    (reckonRequested root requests).Yields (requested root requests) :=
  .foldlM (fun _ _ => reckonRequestUpdate_yields) _ _

theorem reckonScheduled_yields :
    (reckonScheduled forest settings root requests).Yields
      ((requested root requests).compute forest settings) :=
  reckonRequested_yields.bind reckonCompute_yields

/-! ### Visible parts -/

/-- As long as no region collapses and no word overflows, a single request schedules of its widget
exactly the visible part. If there is none, nothing is scheduled at all. -/
theorem visiblePart_scheduled (linked : forest.Linked) (root id : WidgetId) (rect : Option Rect)
    (keeps : (requested root [(id, rect)]).Uncollapsed forest settings)
    (fits : (reckonScheduled forest settings root [(id, rect)]).overflowed = false) :
    let scheduled := (reckonScheduled forest settings root [(id, rect)]).value
    (∀ pixel, (∃ region, scheduled.region? id = some region ∧ pixel ∈ region) ↔
        forest.VisiblePart settings root id rect pixel) ∧
      ((∀ pixel, ¬forest.VisiblePart settings root id rect pixel) →
        scheduled.scheduled = ∅) := by
  intro scheduled
  have exact : scheduled = (requested root [(id, rect)]).compute forest settings :=
    reckonScheduled_yields fits
  rw [exact]
  exact requested_visiblePart linked root id rect keeps

/-- The canvas is scheduled around the button, and nothing is for a part of it behind the button. -/
theorem visiblePart_scheduled_canvas :
    let whole := reckonScheduled buttonOnCanvas {} ⟨0⟩ [(⟨1⟩, none)]
    let behind := reckonScheduled buttonOnCanvas {} ⟨0⟩ [(⟨1⟩, some ⟨45, 45, 5, 5⟩)]
    buttonOnCanvas.Linked ∧
      (requested ⟨0⟩ [(⟨1⟩, none)]).Uncollapsed buttonOnCanvas {} ∧ whole.overflowed = false ∧
      (requested ⟨0⟩ [(⟨1⟩, some ⟨45, 45, 5, 5⟩)]).Uncollapsed buttonOnCanvas {} ∧
      behind.overflowed = false ∧
      buttonOnCanvas.VisiblePart {} ⟨0⟩ ⟨1⟩ none ⟨10, 10⟩ ∧
      ¬buttonOnCanvas.VisiblePart {} ⟨0⟩ ⟨1⟩ none ⟨50, 50⟩ ∧ behind.value.scheduled = ∅ := by
  intro whole behind
  have keeps : (requested ⟨0⟩ [(⟨1⟩, none)]).Uncollapsed buttonOnCanvas {} := by decide
  have keepsBehind :
      (requested ⟨0⟩ [(⟨1⟩, some ⟨45, 45, 5, 5⟩)]).Uncollapsed buttonOnCanvas {} := by decide
  have fits : whole.overflowed = false := by decide
  have fitsBehind : behind.overflowed = false := by decide
  have pixels := (visiblePart_scheduled buttonOnCanvas_linked ⟨0⟩ ⟨1⟩ none keeps fits).1
  refine ⟨buttonOnCanvas_linked, keeps, fits, keepsBehind, fitsBehind,
    (pixels _).mp ⟨_, rfl, by decide⟩, ?_, ?_⟩
  · intro part
    obtain ⟨region, held, inside⟩ := (pixels _).mpr part
    obtain rfl := Option.some_inj.mp held
    exact absurd inside (by decide)
  · apply (visiblePart_scheduled buttonOnCanvas_linked ⟨0⟩ ⟨1⟩ _ keepsBehind fitsBehind).2
    intro pixel part
    have place : buttonOnCanvas.partInWindow ⟨1⟩ (some ⟨45, 45, 5, 5⟩) = ⟨45, 45, 5, 5⟩ := by decide
    have button : buttonOnCanvas.windowRect ⟨2⟩ = ⟨40, 40, 20, 20⟩ := by decide
    have inPart := part.inPart
    have beside := part.uncovered ⟨1⟩ (by decide) ⟨0⟩ rfl (by decide) ⟨2⟩ (by decide) rfl rfl
    simp only [place, button, Rect.mem_iff, Rect.right, Rect.bottom] at inPart beside
    omega

/-- A panel that is as wide as a word allows, a little to the right in its window, and a button in
the panel. -/
def widePanel : Forest :=
  { slots :=
      #[ some { typeName := "Window", geometry := ⟨0, 0, 100, 100⟩, children := [⟨1⟩] },
        some
          { typeName := "Panel", geometry := ⟨10, 0, 2147483647, 10⟩, parent := some ⟨0⟩,
            children := [⟨2⟩] },
        some { typeName := "Button", geometry := ⟨0, 0, 5, 5⟩, parent := some ⟨1⟩ } ]
    live := 3 }

theorem widePanel_linked : widePanel.Linked := by
  have window := linked_empty.insertWindow
    { typeName := "Window", geometry := ⟨0, 0, 100, 100⟩ }
  have panel := window.insert (insert_of_contains ⟨0⟩
    { typeName := "Panel", geometry := ⟨10, 0, 2147483647, 10⟩ } rfl)
  exact panel.insert (insert_of_contains ⟨1⟩
    { typeName := "Button", geometry := ⟨0, 0, 5, 5⟩ } rfl)

/-- The right edge of the panel overflows in its window, so that nothing is scheduled of it. -/
theorem visiblePart_widePanel :
    let scheduled := reckonScheduled widePanel {} ⟨0⟩ [(⟨1⟩, none)]
    widePanel.Linked ∧ (requested ⟨0⟩ [(⟨1⟩, none)]).Uncollapsed widePanel {} ∧
      widePanel.VisiblePart {} ⟨0⟩ ⟨1⟩ none ⟨12, 2⟩ ∧
      scheduled.value.scheduled = ∅ ∧ scheduled.overflowed = true := by
  have keeps : (requested ⟨0⟩ [(⟨1⟩, none)]).Uncollapsed widePanel {} := by decide
  have part := (requested_visiblePart widePanel_linked ⟨0⟩ ⟨1⟩ none keeps).1
  exact ⟨widePanel_linked, keeps, (part _).mp ⟨_, rfl, by decide⟩, by decide, by decide⟩

/-! ### Other orders -/

/-- As long as no region collapses and no word overflows, requests in another order lead to the same
dirt. -/
theorem dirt_perm (linked : forest.Linked) (root : WidgetId) (perm : requests.Perm others)
    (keeps : (requested root requests).Uncollapsed forest settings)
    (keepsToo : (requested root others).Uncollapsed forest settings)
    (fits : (reckonScheduled forest settings root requests).overflowed = false)
    (fitsToo : (reckonScheduled forest settings root others).overflowed = false) :
    SameDirt (reckonScheduled forest settings root requests).value
      (reckonScheduled forest settings root others).value := by
  rw [reckonScheduled_yields fits, reckonScheduled_yields fitsToo]
  exact requested_perm linked root perm keeps keepsToo

/-- Requests for parts of a label, one of them empty, and of the window that shows through it. -/
def labelRequests : List (WidgetId × Option Rect) :=
  [(⟨1⟩, some ⟨0, 0, 4, 4⟩), (⟨0⟩, some ⟨10, 5, 30, 30⟩), (⟨1⟩, some ⟨7, 7, 0, 3⟩),
    (⟨1⟩, some ⟨8, 0, 8, 8⟩)]

/-- If the window asks first, its region has other rectangles, and still the same pixels. -/
theorem dirt_perm_labelRequests :
    let forest := unpaintedLabel.forest
    let others := labelRequests.rotate 1
    let one := reckonScheduled forest {} ⟨0⟩ labelRequests
    let other := reckonScheduled forest {} ⟨0⟩ others
    forest.Linked ∧ labelRequests.Perm others ∧
      (requested ⟨0⟩ labelRequests).Uncollapsed forest {} ∧
      (requested ⟨0⟩ others).Uncollapsed forest {} ∧
      one.overflowed = false ∧ other.overflowed = false ∧
      one.value.region? ⟨0⟩ ≠ other.value.region? ⟨0⟩ ∧ SameDirt one.value other.value := by
  have linked := unpaintedLabel_reachable.sound.linked
  have perm : labelRequests.Perm (labelRequests.rotate 1) := (List.rotate_perm _ 1).symm
  have keeps : (requested ⟨0⟩ labelRequests).Uncollapsed unpaintedLabel.forest {} := by
    decide +kernel
  have keepsToo :
      (requested ⟨0⟩ (labelRequests.rotate 1)).Uncollapsed unpaintedLabel.forest {} := by
    decide +kernel
  have fits : (reckonScheduled unpaintedLabel.forest {} ⟨0⟩ labelRequests).overflowed = false := by
    decide +kernel
  have fitsToo : (reckonScheduled unpaintedLabel.forest {} ⟨0⟩
      (labelRequests.rotate 1)).overflowed = false := by
    decide +kernel
  exact ⟨linked, perm, keeps, keepsToo, fits, fitsToo, by decide +kernel,
    dirt_perm linked ⟨0⟩ perm keeps keepsToo fits fitsToo⟩

/-- Requests for the wide strips in one order lead to the third of them only; in another order they
lead to a strip of the window. -/
theorem dirt_perm_wideStrips :
    let asked := wideStrips.map fun strip => ((⟨0⟩ : WidgetId), some strip)
    let others := asked.rotate 1
    let one := reckonScheduled buttonOnCanvas {} ⟨0⟩ asked
    let other := reckonScheduled buttonOnCanvas {} ⟨0⟩ others
    buttonOnCanvas.Linked ∧ asked.Perm others ∧
      (requested ⟨0⟩ asked).Uncollapsed buttonOnCanvas {} ∧
      (requested ⟨0⟩ others).Uncollapsed buttonOnCanvas {} ∧
      ¬SameDirt one.value other.value ∧ one.overflowed = true ∧ other.overflowed = true := by
  intro asked others one other
  have part : one.value.region? ⟨0⟩ = some (Region.ofRect ⟨20, 0, 1, 1⟩) := by decide
  have strip : other.value.region? ⟨0⟩ = some (Region.ofRect ⟨0, 0, 100, 10⟩) := by decide
  refine ⟨buttonOnCanvas_linked, (List.rotate_perm asked 1).symm, by decide, by decide,
    fun same => ?_, by decide, by decide⟩
  have corner : (⟨0, 0⟩ : Point) ∈ (Region.ofRect ⟨0, 0, 100, 10⟩).pixels := by
    change _ ∈ Region.ofRect _
    decide
  rw [← same.pixels ⟨0⟩ _ _ part strip] at corner
  change _ ∈ Region.ofRect _ at corner
  exact absurd corner (by decide)

/-! ### Paintings -/

variable {σ : Type} {backend : Backend σ} {maxAttempts : Nat} {stylist : Stylist} {state : σ}
  {report : PaintReport} {after : Damage} {painted : PaintState (σ × List DrawCommand)}

/-- As long as no region collapses and no word overflows, a partial repaint is as good as a full one
at every pixel that it touches. It draws nothing that is not shown there; it draws all that is shown
above what it draws, so nothing is painted over a widget that is not repainted; and it starts from
the window or from an opaque widget, so nothing is blended onto old content. -/
theorem repaint_faithful (linked : forest.Linked) (apart : forest.NeverOverlapping settings)
    (keeps : (requested root requests).Uncollapsed forest settings)
    (paints : (reckonScheduled forest settings root requests >>= fun damage =>
        damage.reckonPaint forest backend.watched maxAttempts ⟨stylist, state, []⟩) =
      ⟨(.ok report, after, painted), false⟩) (pixel : Point) :
    (∀ id, drewAt painted.backend.2 pixel id → id ∈ forest.stackAt pixel root) ∧
      (∀ before id later, forest.stackAt pixel root = before ++ id :: later →
        drewAt painted.backend.2 pixel id →
          ∀ other ∈ later, drewAt painted.backend.2 pixel other) ∧
      ((∃ id, drewAt painted.backend.2 pixel id) →
        ∃ bottom, drewAt painted.backend.2 pixel bottom ∧
          (bottom = root ∨ forest.isOpaque bottom = true)) :=
  partialRepaint_faithful linked apart keeps
    ((reckonScheduled_yields.bind (reckonPaint_yields maxAttempts _)).eq paints) pixel

/-- The painting of a window after a request for the whole of a widget. -/
def reckonRepaint (forest : Forest) (id : WidgetId) :
    Reckoned (Except ToolkitError PaintReport × Damage × PaintState (Nat × List DrawCommand)) := do
  (← reckonScheduled forest {} ⟨0⟩ [(id, none)]).reckonPaint forest countingBackend.watched 1
    ⟨{}, 0, []⟩

/-- The canvas is repainted around the button. -/
theorem repaint_faithful_canvas :
    let painting := reckonRepaint buttonOnCanvas ⟨1⟩
    let log := painting.value.2.2.backend.2
    buttonOnCanvas.Linked ∧ buttonOnCanvas.NeverOverlapping {} ∧
      (requested ⟨0⟩ [(⟨1⟩, none)]).Uncollapsed buttonOnCanvas {} ∧
      painting.value.1 = .ok ⟨1, ⟨0, 0, 100, 100⟩⟩ ∧ painting.overflowed = false ∧
      drewAt log ⟨10, 10⟩ ⟨1⟩ ∧ ¬drewAt log ⟨50, 50⟩ ⟨1⟩ ∧
      ∀ pixel id, drewAt log pixel id → id ∈ buttonOnCanvas.stackAt pixel ⟨0⟩ := by
  intro painting log
  have keeps : (requested ⟨0⟩ [(⟨1⟩, none)]).Uncollapsed buttonOnCanvas {} := by decide
  have drawn : painting.value.1 = .ok ⟨1, ⟨0, 0, 100, 100⟩⟩ := by decide +kernel
  have fits : painting.overflowed = false := by decide +kernel
  have paints : painting = ⟨(.ok ⟨1, ⟨0, 0, 100, 100⟩⟩, painting.value.2), false⟩ :=
    Reckoned.ext (Prod.ext drawn rfl) fits
  refine ⟨buttonOnCanvas_linked, buttonOnCanvas_neverOverlapping {}, keeps, drawn, fits,
    by decide +kernel, by decide +kernel, fun pixel => ?_⟩
  exact (repaint_faithful buttonOnCanvas_linked (buttonOnCanvas_neverOverlapping {}) keeps paints
    pixel).1

/-- The right edge of the panel overflows as it is painted. The window is drawn and then the button,
but not the panel between them, which is seen there. -/
theorem repaint_faithful_widePanel :
    let painting := reckonRepaint widePanel ⟨2⟩
    let log := painting.value.2.2.backend.2
    widePanel.Linked ∧ widePanel.NeverOverlapping {} ∧
      (requested ⟨0⟩ [(⟨2⟩, none)]).Uncollapsed widePanel {} ∧
      (∃ report, painting.value.1 = .ok report) ∧
      widePanel.stackAt ⟨12, 2⟩ ⟨0⟩ = [⟨0⟩, ⟨1⟩, ⟨2⟩] ∧
      drewAt log ⟨12, 2⟩ ⟨0⟩ ∧ ¬drewAt log ⟨12, 2⟩ ⟨1⟩ ∧ drewAt log ⟨12, 2⟩ ⟨2⟩ ∧
      painting.overflowed = true := by
  intro painting log
  have drawn : painting.value.1 = .ok ⟨2, ⟨10, 0, 5, 5⟩⟩ := by decide +kernel
  exact ⟨widePanel_linked, neverOverlapping_of_unflagged (by decide) _, by decide, ⟨_, drawn⟩,
    by decide, by decide +kernel, by decide +kernel, by decide +kernel, by decide +kernel⟩

/-- The damage of a window that calls lead to while the forest stays as it is and no word
overflows. -/
inductive ReachedOnWords (forest : Forest) (root : WidgetId) : Damage → Prop where
  | new : ReachedOnWords forest root (.new root)
  | requestUpdate {damage : Damage} (id : WidgetId) (rect : Option Rect)
      (fits : (damage.reckonRequestUpdate id rect).overflowed = false)
      (reached : ReachedOnWords forest root damage) :
      ReachedOnWords forest root (damage.reckonRequestUpdate id rect).value
  | compute {damage : Damage} (settings : RepaintSettings)
      (fits : (damage.reckonCompute forest settings).overflowed = false)
      (reached : ReachedOnWords forest root damage) :
      ReachedOnWords forest root (damage.reckonCompute forest settings).value
  | clear {damage : Damage} (reached : ReachedOnWords forest root damage) :
      ReachedOnWords forest root damage.clear
  | paint {damage : Damage} {σ : Type} (backend : Backend σ) (maxAttempts : Nat)
      (state : PaintState σ)
      (fits : (damage.reckonPaint forest backend maxAttempts state).overflowed = false)
      (reached : ReachedOnWords forest root damage) :
      ReachedOnWords forest root (damage.reckonPaint forest backend maxAttempts state).value.2.1

namespace ReachedOnWords

variable {damage : Damage}

theorem reached (reached : ReachedOnWords forest root damage) : Reached forest root damage := by
  induction reached with
  | new => exact .new
  | requestUpdate id rect fits _ exact =>
      rw [reckonRequestUpdate_yields fits]
      exact exact.requestUpdate id rect
  | compute settings fits _ exact =>
      rw [reckonCompute_yields fits]
      exact exact.compute settings
  | clear _ exact => exact exact.clear
  | paint backend maxAttempts state fits _ exact =>
      rw [reckonPaint_yields maxAttempts state fits]
      exact exact.paint backend maxAttempts state

/-- A painting that succeeds draws, in the pass that meets no failure, exactly what an exhaustive
walk without flags would draw, whatever calls have led to the damage, as long as no word overflows.
The rectangles in the commands are those that the places of the widgets reckon to. -/
theorem drawsExactly_painted (linked : forest.Linked)
    (reached : ReachedOnWords forest root damage)
    (paints : damage.reckonPaint forest backend.watched maxAttempts ⟨stylist, state, []⟩ =
      ⟨(.ok report, after, painted), false⟩) :
    damage.DrawsExactly forest root painted.backend.2 ∧
      ∀ command ∈ painted.backend.2,
        (forest.reckonWindowRect command.widget).Yields command.windowRect := by
  have exact := reached.reached.painting_exact linked ((reckonPaint_yields maxAttempts _).eq paints)
  refine ⟨exact, fun command member => ?_⟩
  rw [exact.windowRect command member]
  exact reckonWindowRect_yields

end ReachedOnWords

/-- The canvas has been requested and computed, a painting of it has lost the device, and then the
button in front of it has been requested. -/
def retriedCanvas : Damage :=
  let scheduled := (reckonScheduled buttonOnCanvas {} ⟨0⟩ [(⟨1⟩, none)]).value
  let failed := (scheduled.reckonPaint buttonOnCanvas lossyBackend 1 ⟨{}, 1⟩).value.2.1
  ((failed.reckonRequestUpdate ⟨2⟩ none).value.reckonCompute buttonOnCanvas {}).value

theorem retriedCanvas_reached : ReachedOnWords buttonOnCanvas ⟨0⟩ retriedCanvas := by
  refine .compute {} (by decide +kernel) (.requestUpdate ⟨2⟩ none (by decide +kernel) ?_)
  refine .paint lossyBackend 1 ⟨{}, 1⟩ (by decide +kernel) ?_
  exact .compute {} (by decide +kernel) (.requestUpdate ⟨1⟩ none (by decide +kernel) .new)

/-- The next painting draws the canvas around the button and the button. The window, which is only
marked, is walked through and not drawn. -/
theorem drawsExactly_retriedCanvas :
    let painting := retriedCanvas.reckonPaint buttonOnCanvas countingBackend.watched 1 ⟨{}, 0, []⟩
    let log := painting.value.2.2.backend.2
    buttonOnCanvas.Linked ∧ ReachedOnWords buttonOnCanvas ⟨0⟩ retriedCanvas ∧
      painting.value.1 = .ok ⟨2, ⟨0, 0, 100, 100⟩⟩ ∧ painting.overflowed = false ∧
      log.map DrawCommand.widget = [⟨1⟩, ⟨2⟩] ∧ retriedCanvas.isAbove ⟨0⟩ = true ∧
      retriedCanvas.DrawsExactly buttonOnCanvas ⟨0⟩ log := by
  intro painting log
  have drawn : painting.value.1 = .ok ⟨2, ⟨0, 0, 100, 100⟩⟩ := by decide +kernel
  have fits : painting.overflowed = false := by decide +kernel
  have paints : painting = ⟨(.ok ⟨2, ⟨0, 0, 100, 100⟩⟩, painting.value.2), false⟩ :=
    Reckoned.ext (Prod.ext drawn rfl) fits
  exact ⟨buttonOnCanvas_linked, retriedCanvas_reached, drawn, fits, by decide +kernel,
    by decide +kernel,
    (retriedCanvas_reached.drawsExactly_painted buttonOnCanvas_linked paints).1⟩

/-- The damage of the window of the wide panel after a request for the button. -/
def wideDamage : Damage := (reckonScheduled widePanel {} ⟨0⟩ [(⟨2⟩, none)]).value

/-- The wide panel has something scheduled inside of its rectangle, and no command draws it. -/
theorem drawsExactly_wideDamage :
    let painting := wideDamage.reckonPaint widePanel countingBackend.watched 1 ⟨{}, 0, []⟩
    widePanel.Linked ∧ ReachedOnWords widePanel ⟨0⟩ wideDamage ∧
      (∃ report, painting.value.1 = .ok report) ∧
      ¬wideDamage.DrawsExactly widePanel ⟨0⟩ painting.value.2.2.backend.2 ∧
      painting.overflowed = true := by
  intro painting
  have reached : ReachedOnWords widePanel ⟨0⟩ wideDamage :=
    .compute {} (by decide +kernel) (.requestUpdate ⟨2⟩ none (by decide +kernel) .new)
  have drawn : painting.value.1 = .ok ⟨2, ⟨10, 0, 5, 5⟩⟩ := by decide +kernel
  refine ⟨widePanel_linked, reached, ⟨_, drawn⟩, fun exact => ?_, by decide +kernel⟩
  have undrawn : ⟨1⟩ ∉ painting.value.2.2.backend.2.map DrawCommand.widget := by decide +kernel
  refine undrawn ((exact.drawn ⟨1⟩).mpr ⟨by decide, ⟨12, 2⟩, ⟨1⟩, by decide, ?_, by decide⟩)
  exact ⟨_, rfl, by decide⟩

end Damage

end StyledWidgets
