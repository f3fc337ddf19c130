/-
Module: StyledWidgets.Proofs.RequestQueue
Purpose: The requests of a window in two stores: a hash table with what is asked of each widget, and
  a list of the widgets in the order in which they first asked. The two are edited apart, by
  requests, by widgets that leave and by computations that drain them, and never come to disagree,
  whatever overflows: no request is lost, and no widget is handed on twice. Only the rectangle of a
  widget whose joined requests have overflowed may miss what was asked for.
Main exports: RequestQueue, RequestQueue.drain, Damage.Call, Damage.waiting, QueuedDamage,
  reckonJoinAll, RequestQueue.Accounts, RequestQueue.drain_eq, QueuedDamage.Mirrors,
  QueuedDamage.queue_exact
-/
import Mathlib.Data.List.Basic
import Mathlib.Tactic.SplitIfs
import StyledWidgets.Proofs.ReckonedDamage
import StyledWidgets.Proofs.RequestPermutations

namespace StyledWidgets

/-- Widgets are hashed by their numbers. -/
instance : Hashable WidgetId := ⟨fun id => hash id.raw⟩

/-! ### Requests in two stores -/

/-- What is asked of each widget, and the widgets in the order in which they first asked. -/
structure RequestQueue where
  requests : Std.HashMap WidgetId (Option Rect) := ∅
  order : List WidgetId := []

namespace RequestQueue

/-- Ask for a part of a widget, or for all of it. A widget that waits already keeps its place. -/
def request (queue : RequestQueue) (id : WidgetId) (rect : Option Rect) :
    Reckoned RequestQueue := do
  match queue.requests[id]? with
  | some earlier =>
      let joined ← Damage.reckonJoin earlier rect
      return { queue with requests := queue.requests.insert id joined }
  | none => return ⟨queue.requests.insert id rect, queue.order ++ [id]⟩

/-- Drop a widget. The order is searched only if the widget waits. -/
def forget (queue : RequestQueue) (id : WidgetId) : RequestQueue :=
  if queue.requests.contains id then
    ⟨queue.requests.erase id, queue.order.filter fun other => other ≠ id⟩
  else queue

/-- Take widgets out of a table of requests one after the other, and hand on each that is there. The
requests that nothing has taken out are left. -/
def drain {β : Type} (handOn : β → WidgetId → Option Rect → β) :
    List WidgetId → Std.HashMap WidgetId (Option Rect) → β →
      β × Std.HashMap WidgetId (Option Rect)
  | [], requests, state => (state, requests)
  | id :: later, requests, state =>
      match requests[id]? with
      | some rect => drain handOn later (requests.erase id) (handOn state id rect)
      | none => drain handOn later requests state

/-- The widgets of the order, each with what is asked of it. -/
def entries (queue : RequestQueue) : List (WidgetId × Option Rect) :=
  queue.order.filterMap fun id => queue.requests[id]?.map fun rect => (id, rect)

end RequestQueue

/-! ### Calls -/

namespace Damage

/-- A call that changes what waits to be computed or painted. Each computation may see other widgets
and other settings. -/
inductive Call where
  | request (id : WidgetId) (rect : Option Rect)
  | forget (id : WidgetId)
  | clear
  | compute (forest : Forest) (settings : RepaintSettings)

/-- The damage after a call. -/
def call (damage : Damage) : Call → Reckoned Damage
  | .request id rect => damage.reckonRequestUpdate id rect
  | .forget id => return damage.forget id
  | .clear => return damage.clear
  | .compute forest settings => damage.reckonCompute forest settings

/-- The damage of a window after calls. -/
def after (root : WidgetId) (calls : List Call) : Reckoned Damage := calls.foldlM call (new root)

namespace Call

/-- What the call asks for. -/
def asks : Call → List (WidgetId × Option Rect)
  | .request id rect => [(id, rect)]
  | _ => []

/-- The call takes the requests of a widget, or drops them. -/
def ends (id : WidgetId) : Call → Bool
  | .forget other => other = id
  | .compute _ _ => true
  | _ => false

end Call

/-- The requests that no later call has taken or dropped, in the order in which they came. -/
def waiting : List Call → List (WidgetId × Option Rect)
  | [] => []
  | call :: later =>
      (call.asks.filter fun request => !later.any (Call.ends request.1)) ++ waiting later

/-- One more call ends some requests and may add one. -/
theorem waiting_append (calls : List Call) (call : Call) :
    waiting (calls ++ [call]) =
      ((waiting calls).filter fun request => !call.ends request.1) ++ call.asks := by
  induction calls with
  | nil => simp [waiting]
  | cons first later inductionHypothesis =>
      simp only [List.cons_append, waiting, inductionHypothesis, List.filter_append,
        List.filter_filter, List.append_assoc, List.any_append, List.any_cons, List.any_nil,
        Bool.or_false, Bool.not_or, Bool.and_comm]

/-- A widget that asks again after it has been dropped waits behind the others. -/
example : waiting [.request ⟨1⟩ none, .request ⟨2⟩ none, .forget ⟨1⟩, .clear,
    .request ⟨1⟩ (some ⟨0, 0, 5, 5⟩)] = [(⟨2⟩, none), (⟨1⟩, some ⟨0, 0, 5, 5⟩)] := by decide

end Damage

/-! ### A damage with its requests in two stores -/

/-- The damage of a window whose requests are kept in two stores. -/
structure QueuedDamage where
  queue : RequestQueue := {}
  /-- Everything but the requests; the table for them stays empty. -/
  base : Damage

namespace QueuedDamage

/-- Turn all requests into regions: both stores are emptied, and the widgets are taken out of what
was in them. -/
def compute (state : QueuedDamage) (forest : Forest) (settings : RepaintSettings) :
    Reckoned QueuedDamage := do
  let (handed, _) := RequestQueue.drain
    (fun damage id rect => do (← damage).reckonProcess forest settings id rect)
    state.queue.order state.queue.requests (pure state.base)
  return { queue := {}, base := ← handed }

/-- The damage after a call. -/
def call (state : QueuedDamage) : Damage.Call → Reckoned QueuedDamage
  | .request id rect => do return { state with queue := ← state.queue.request id rect }
  | .forget id => return ⟨state.queue.forget id, state.base.forget id⟩
  | .clear => return { state with base := state.base.clear }
  | .compute forest settings => state.compute forest settings

/-- The damage of a window after calls. -/
def after (root : WidgetId) (calls : List Damage.Call) : Reckoned QueuedDamage :=
  calls.foldlM call { base := .new root }

theorem after_append (root : WidgetId) (calls : List Damage.Call) (call : Damage.Call) :
    after root (calls ++ [call]) = after root calls >>= fun state => state.call call :=
  Reckoned.foldlM_push _ _ _ _

end QueuedDamage

theorem Damage.after_append (root : WidgetId) (calls : List Damage.Call) (call : Damage.Call) :
    after root (calls ++ [call]) = after root calls >>= fun damage => damage.call call :=
  Reckoned.foldlM_push _ _ _ _

/-! ### The order of first occurrences -/

section FirstPlaces

variable {α : Type} [DecidableEq α] {a b : α} {list : List α}

/-- Filtering keeps which of two kept elements comes first. -/
theorem idxOf_filter_lt {keep : α → Bool} (keepsOne : keep a = true) (keepsOther : keep b = true)
    (first : list.idxOf a < list.idxOf b) :
    (list.filter keep).idxOf a < (list.filter keep).idxOf b := by
  induction list with
  | nil => exact absurd first (Nat.lt_irrefl _)
  | cons c rest inductionHypothesis =>
      by_cases here : c = a
      · subst here
        by_cases both : c = b
        · subst both
          exact absurd first (Nat.lt_irrefl _)
        · rw [List.filter_cons_of_pos keepsOne, List.idxOf_cons_self, List.idxOf_cons_ne _ both]
          exact Nat.succ_pos _
      · have further : c ≠ b := by
          rintro rfl
          rw [List.idxOf_cons_self] at first
          exact absurd first (Nat.not_lt_zero _)
        rw [List.idxOf_cons_ne _ here, List.idxOf_cons_ne _ further] at first
        have rest := inductionHypothesis (Nat.lt_of_succ_lt_succ first)
        by_cases kept : keep c = true
        · rw [List.filter_cons_of_pos kept, List.idxOf_cons_ne _ here, List.idxOf_cons_ne _ further]
          exact Nat.succ_lt_succ rest
        · rwa [List.filter_cons_of_neg kept]

/-- The list has the elements of another one, in the order of their first places there. -/
structure FirstPlaces (firsts list : List α) : Prop where
  mem_iff : ∀ {a}, a ∈ firsts ↔ a ∈ list
  ascending : firsts.Pairwise fun a b => list.idxOf a < list.idxOf b

namespace FirstPlaces

variable {firsts : List α}

theorem nil : FirstPlaces ([] : List α) [] := ⟨Iff.rfl, List.Pairwise.nil⟩

/-- First places are distinct, so no element is listed twice. -/
theorem nodup (places : FirstPlaces firsts list) : firsts.Nodup :=
  places.ascending.imp fun before => by
    rintro rfl
    exact Nat.lt_irrefl _ before

/-- An element that comes again keeps its place. -/
theorem again (places : FirstPlaces firsts list) (known : a ∈ firsts) :
    FirstPlaces firsts (list ++ [a]) where
  mem_iff {b} := by
    rw [List.mem_append, List.mem_singleton, places.mem_iff]
    refine ⟨Or.inl, fun cause => cause.elim (fun member => member) ?_⟩
    rintro rfl
    exact places.mem_iff.mp known
  ascending := places.ascending.imp_of_mem fun {b c} isFirst isFirstToo before => by
    rwa [List.idxOf_append_of_mem (places.mem_iff.mp isFirst),
      List.idxOf_append_of_mem (places.mem_iff.mp isFirstToo)]

/-- An element that comes for the first time is last. -/
theorem push (places : FirstPlaces firsts list) (isNew : a ∉ firsts) :
    FirstPlaces (firsts ++ [a]) (list ++ [a]) where
  mem_iff {b} := by simp only [List.mem_append, places.mem_iff]
  ascending := by
    have absent : a ∉ list := fun member => isNew (places.mem_iff.mpr member)
    refine List.pairwise_append.mpr ⟨?_, List.pairwise_singleton _ _, fun b isFirst c isLast => ?_⟩
    · exact places.ascending.imp_of_mem fun {b c} isFirst isFirstToo before => by
        rwa [List.idxOf_append_of_mem (places.mem_iff.mp isFirst),
          List.idxOf_append_of_mem (places.mem_iff.mp isFirstToo)]
    · rw [List.mem_singleton.mp isLast, List.idxOf_append_of_mem (places.mem_iff.mp isFirst),
        List.idxOf_append_of_notMem absent, List.idxOf_cons_self]
      exact Nat.lt_add_right _ (List.idxOf_lt_length_of_mem (places.mem_iff.mp isFirst))

theorem filter (places : FirstPlaces firsts list) (keep : α → Bool) :
    FirstPlaces (firsts.filter keep) (list.filter keep) where
  mem_iff {b} := by simp only [List.mem_filter, places.mem_iff]
  ascending := by
    refine (places.ascending.sublist List.filter_sublist).imp_of_mem
      fun isFirst isFirstToo before => ?_
    exact idxOf_filter_lt (List.mem_filter.mp isFirst).2 (List.mem_filter.mp isFirstToo).2 before

end FirstPlaces

end FirstPlaces

/-! ### What the two stores hold -/

theorem askedOf_eq_nil_iff {id : WidgetId} {requests : List (WidgetId × Option Rect)} :
    askedOf id requests = [] ↔ id ∉ requests.map (·.1) := by
  simp only [askedOf, List.map_eq_nil_iff, List.filter_eq_nil_iff, decide_eq_true_eq, List.mem_map,
    not_exists, not_and]

/-- Dropping a widget leaves what is asked of the others. -/
theorem askedOf_drop (id other : WidgetId) (requests : List (WidgetId × Option Rect)) :
    askedOf other (requests.filter fun request => decide (request.1 ≠ id)) =
      if other = id then [] else askedOf other requests := by
  simp only [askedOf, List.filter_filter]
  split
  case isTrue same =>
    subst same
    simp
  case isFalse apart =>
    congr 2
    funext request
    by_cases here : request.1 = other <;> simp [here, apart]

/-- What has been joined contains each of its parts. -/
theorem containsRect_of_joinAll {asked : List (Option Rect)} {whole part : Rect}
    (joined : joinAll asked = some whole) (member : some part ∈ asked) :
    whole.containsRect part = true := by
  rw [joinAll] at joined
  split at joined
  case isTrue => cases joined
  case isFalse =>
    rw [← Option.some_inj.mp joined]
    apply Rect.containsRect_of_subset
    intro pixel inside
    exact Region.mem_boundingRect (Region.mem_iff.mpr ⟨part, List.reduceOption_mem_iff.mpr member,
      inside⟩)

/-- Requests for one widget as one, joined in their order. -/
def reckonJoinAll (asked : List (Option Rect)) : Reckoned (Option Rect) :=
  asked.foldlM Damage.reckonJoin (some Rect.zero)

theorem reckonJoinAll_append (asked : List (Option Rect)) (rect : Option Rect) :
    reckonJoinAll (asked ++ [rect]) =
      reckonJoinAll asked >>= fun joined => Damage.reckonJoin joined rect :=
  Reckoned.foldlM_push _ _ _ _

theorem reckonJoinAll_singleton (rect : Option Rect) : reckonJoinAll [rect] = pure rect := by
  cases rect with
  | none => rfl
  | some rect => rfl

/-- Joining requests goes as far as the bounding rectangle unless it overflows. -/
theorem reckonJoinAll_yields (asked : List (Option Rect)) :
    (reckonJoinAll asked).Yields (joinAll asked) := by
  induction asked using List.reverseRecOn with
  | nil => exact .pure _
  | append_singleton asked rect inductionHypothesis =>
      rw [reckonJoinAll_append, joinAll_append]
      exact inductionHypothesis.bind (Damage.reckonJoin_yields _)

/-- The whole widget is asked for if a request does so, even where the others overflow. -/
theorem value_reckonJoinAll_eq_none_iff {asked : List (Option Rect)} :
    (reckonJoinAll asked).value = none ↔ none ∈ asked := by
  induction asked using List.reverseRecOn with
  | nil => exact iff_of_false (fun whole => by cases whole) List.not_mem_nil
  | append_singleton asked rect inductionHypothesis =>
      rw [reckonJoinAll_append, Reckoned.value_bind, List.mem_append, ← inductionHypothesis,
        List.mem_singleton]
      cases (reckonJoinAll asked).value with
      | none => exact iff_of_true rfl (Or.inl rfl)
      | some joined =>
          cases rect with
          | none => exact iff_of_true rfl (Or.inr rfl)
          | some rect => exact iff_of_false (fun whole => by cases whole) (by simp)

namespace RequestQueue

variable {queue : RequestQueue} {waiting : List (WidgetId × Option Rect)}

/-- The two stores hold requests: for each widget all of its requests as one, and the widgets in the
order of their first ones. -/
structure Accounts (queue : RequestQueue) (waiting : List (WidgetId × Option Rect)) : Prop where
  order : FirstPlaces queue.order (waiting.map (·.1))
  joined : ∀ id, queue.requests[id]? =
    if askedOf id waiting = [] then none else some (reckonJoinAll (askedOf id waiting)).value

namespace Accounts

theorem empty : Accounts {} [] := ⟨.nil, fun _ => Std.HashMap.getElem?_empty⟩

theorem mem_requests_iff (accounts : queue.Accounts waiting) {id : WidgetId} :
    id ∈ queue.requests ↔ id ∈ queue.order := by
  rw [Std.HashMap.mem_iff_isSome_getElem?, accounts.joined, accounts.order.mem_iff]
  by_cases unasked : askedOf id waiting = []
  · simp only [unasked, if_true, Option.isSome_none, Bool.false_eq_true, false_iff]
    exact askedOf_eq_nil_iff.mp unasked
  · simp only [unasked, if_false, Option.isSome_some, true_iff]
    exact not_not.mp fun absent => unasked (askedOf_eq_nil_iff.mpr absent)

/-- A request is joined with those of its widget, or is the first of them. -/
theorem request (accounts : queue.Accounts waiting) (id : WidgetId) (rect : Option Rect) :
    (queue.request id rect).value.Accounts (waiting ++ [(id, rect)]) := by
  have others : ∀ {other}, ¬id = other → askedOf other (waiting ++ [(id, rect)]) =
      askedOf other waiting := by
    intro other apart
    simp [askedOf, apart]
  have own : askedOf id (waiting ++ [(id, rect)]) = askedOf id waiting ++ [rect] := by
    simp [askedOf]
  have held := accounts.joined id
  cases found : queue.requests[id]? with
  | some earlier =>
      have asked : askedOf id waiting ≠ [] := fun none => by simp [none, found] at held
      rw [found, if_neg asked, Option.some_inj] at held
      have known : id ∈ queue.order :=
        accounts.mem_requests_iff.mp (Std.HashMap.mem_iff_isSome_getElem?.mpr (by simp [found]))
      simp only [RequestQueue.request, found]
      refine ⟨?_, fun other => ?_⟩
      · rw [List.map_append]
        exact accounts.order.again known
      · simp only [Reckoned.value_bind, Reckoned.value_pure, Std.HashMap.getElem?_insert,
          beq_iff_eq]
        by_cases same : id = other
        · subst same
          rw [if_pos rfl, own, if_neg (by simp), reckonJoinAll_append, held]
          rfl
        · rw [if_neg same, others same, accounts.joined]
  | none =>
      have unasked : askedOf id waiting = [] := by
        by_contra asked
        rw [found, if_neg asked] at held
        cases held
      have isNew : id ∉ queue.order := by
        rw [← accounts.mem_requests_iff, Std.HashMap.mem_iff_isSome_getElem?, found]
        exact Bool.false_ne_true
      simp only [RequestQueue.request, found]
      refine ⟨?_, fun other => ?_⟩
      · rw [List.map_append]
        exact accounts.order.push isNew
      · simp only [Reckoned.value_pure, Std.HashMap.getElem?_insert, beq_iff_eq]
        by_cases same : id = other
        · subst same
          rw [if_pos rfl, own, unasked, if_neg (by simp), List.nil_append,
            reckonJoinAll_singleton]
          rfl
        · rw [if_neg same, others same, accounts.joined]

/-- A widget that is dropped is dropped from both stores. -/
theorem forget (accounts : queue.Accounts waiting) (id : WidgetId) :
    (queue.forget id).Accounts (waiting.filter fun request => decide (request.1 ≠ id)) := by
  have order : FirstPlaces (queue.order.filter fun other => decide (other ≠ id))
      ((waiting.filter fun request => decide (request.1 ≠ id)).map (·.1)) := by
    have kept := accounts.order.filter fun other => decide (other ≠ id)
    rwa [List.filter_map] at kept
  have joined : ∀ other, (queue.requests.erase id)[other]? =
      if askedOf other (waiting.filter fun request => decide (request.1 ≠ id)) = [] then none
      else some (reckonJoinAll
        (askedOf other (waiting.filter fun request => decide (request.1 ≠ id)))).value := by
    intro other
    rw [Std.HashMap.getElem?_erase, askedOf_drop]
    by_cases same : other = id
    · simp [same]
    · simp [same, Ne.symm same, accounts.joined other]
  rw [RequestQueue.forget]
  split
  case isTrue => exact ⟨order, joined⟩
  case isFalse absent =>
    -- The order is not searched here: what is missing in the table is missing in it, too.
    have missing : id ∉ queue.requests := fun member =>
      absent (Std.HashMap.contains_iff_mem.mpr member)
    refine ⟨?_, fun other => ?_⟩
    · have whole : queue.order.filter (fun other => decide (other ≠ id)) = queue.order := by
        rw [List.filter_eq_self]
        intro other member
        refine decide_eq_true ?_
        rintro rfl
        exact missing (accounts.mem_requests_iff.mpr member)
      rwa [whole] at order
    · rw [← joined, Std.HashMap.getElem?_erase]
      by_cases same : id = other
      · subst same
        simp [Std.HashMap.getElem?_eq_none missing]
      · simp [same]

end Accounts

/-! ### Draining the stores -/

/-- Draining hands on each widget of an order that is in the table, with what is asked of it, and
leaves the others. -/
theorem drain_eq {β : Type} (handOn : β → WidgetId → Option Rect → β) (order : List WidgetId) :
    ∀ (requests : Std.HashMap WidgetId (Option Rect)) (state : β), order.Nodup →
      (drain handOn order requests state).1 =
          (entries ⟨requests, order⟩).foldl (fun state request => handOn state request.1 request.2)
            state ∧
        ∀ id, (drain handOn order requests state).2[id]? =
          if id ∈ order then none else requests[id]? := by
  induction order with
  | nil => exact fun _ _ _ => ⟨rfl, fun _ => rfl⟩
  | cons first later inductionHypothesis =>
      intro requests state once
      obtain ⟨isNew, once⟩ := List.nodup_cons.mp once
      cases found : requests[first]? with
      | none =>
          obtain ⟨handed, left⟩ := inductionHypothesis requests state once
          refine ⟨?_, fun id => ?_⟩
          · simp only [drain, found, entries, List.filterMap_cons, Option.map_none]
            exact handed
          · simp only [drain, found, left, List.mem_cons]
            by_cases same : id = first
            · simp [same, isNew, found]
            · simp [same]
      | some rect =>
          obtain ⟨handed, left⟩ :=
            inductionHypothesis (requests.erase first) (handOn state first rect) once
          -- No widget stands twice in the order, so taking one out hides nothing from the others.
          have others : entries ⟨requests.erase first, later⟩ = entries ⟨requests, later⟩ := by
            refine List.filterMap_congr fun id member => ?_
            have apart : first ≠ id := by
              rintro rfl
              exact isNew member
            simp only [Std.HashMap.getElem?_erase, beq_iff_eq, apart, if_false]
          refine ⟨?_, fun id => ?_⟩
          · rw [others] at handed
            simp only [drain, found, entries, List.filterMap_cons, Option.map_some,
              List.foldl_cons]
            exact handed
          · simp only [drain, found, left, List.mem_cons, Std.HashMap.getElem?_erase, beq_iff_eq]
            by_cases same : id = first
            · simp [same]
            · simp [same, Ne.symm same]

/-- Nothing that waits is lost, and no widget is handed on twice. -/
structure LosesNothing (queue : RequestQueue) (waiting : List (WidgetId × Option Rect)) : Prop where
  /-- The order has no widget twice, and it has exactly those of the table. -/
  once : queue.order.Nodup
  keys : ∀ id, id ∈ queue.order ↔ id ∈ queue.requests
  /-- The widgets stand in the order of their first requests among those that wait. -/
  first : FirstPlaces queue.order (waiting.map (·.1))
  /-- All of a widget is to be repainted if any of its requests asks for that. -/
  whole : ∀ id, queue.requests[id]? = some none ↔ (id, none) ∈ waiting
  /-- Otherwise the rectangle has all the rectangles that were asked for, unless joining them has
  overflowed. -/
  covers : ∀ id rect part, queue.requests[id]? = some (some rect) → (id, some part) ∈ waiting →
    (reckonJoinAll (askedOf id waiting)).overflowed = false → rect.containsRect part = true
  /-- What is handed on are the widgets of the order, each with what is asked of it. -/
  handed : queue.entries.map (·.1) = queue.order
  rects : ∀ request ∈ queue.entries, queue.requests[request.1]? = some request.2
  /-- Draining hands this on, whatever is done with it, and leaves nothing in the table. -/
  drained : ∀ {β : Type} (handOn : β → WidgetId → Option Rect → β) (state : β),
    (drain handOn queue.order queue.requests state).1 =
        queue.entries.foldl (fun state request => handOn state request.1 request.2) state ∧
      (drain handOn queue.order queue.requests state).2.isEmpty = true

theorem Accounts.losesNothing (accounts : queue.Accounts waiting) : queue.LosesNothing waiting where
  once := accounts.order.nodup
  keys _ := accounts.mem_requests_iff.symm
  first := accounts.order
  whole id := by
    rw [accounts.joined, ← mem_askedOf, ← value_reckonJoinAll_eq_none_iff]
    by_cases unasked : askedOf id waiting = []
    · simp [unasked, reckonJoinAll]
    · simp [unasked]
  covers id rect part found member fits := by
    have asked := mem_askedOf.mpr member
    rw [accounts.joined, if_neg (List.ne_nil_of_mem asked), reckonJoinAll_yields _ fits,
      Option.some_inj] at found
    exact containsRect_of_joinAll found asked
  handed := by
    have all : ∀ order : List WidgetId, (∀ id ∈ order, id ∈ queue.requests) →
        (entries ⟨queue.requests, order⟩).map (·.1) = order := by
      intro order
      induction order with
      | nil => exact fun _ => rfl
      | cons first later inductionHypothesis =>
          intro inTable
          obtain ⟨here, further⟩ := List.forall_mem_cons.mp inTable
          obtain ⟨rect, found⟩ := Option.isSome_iff_exists.mp
            (Std.HashMap.mem_iff_isSome_getElem?.mp here)
          have rest := inductionHypothesis further
          simp only [entries] at rest
          simp only [entries, List.filterMap_cons, found, Option.map_some, List.map_cons, rest]
    exact all queue.order fun _ member => accounts.mem_requests_iff.mpr member
  rects request member := by
    obtain ⟨id, -, isRequest⟩ := List.mem_filterMap.mp member
    obtain ⟨rect, found, rfl⟩ := Option.map_eq_some_iff.mp isRequest
    exact found
  drained handOn state := by
    obtain ⟨handed, left⟩ := drain_eq handOn queue.order queue.requests state accounts.order.nodup
    refine ⟨handed, Std.HashMap.isEmpty_iff_forall_not_mem.mpr fun id member => ?_⟩
    rw [Std.HashMap.mem_iff_isSome_getElem?, left] at member
    split at member
    case isTrue => cases member
    case isFalse absent =>
      exact absent (accounts.mem_requests_iff.mp (Std.HashMap.mem_iff_isSome_getElem?.mpr member))

end RequestQueue

/-! ### The two stores and the table of requests -/

/-- A table that has every key once is made of its keys and what is found for them. -/
theorem Table.entries_eq_filterMap {κ α : Type} [DecidableEq κ] {table : Table κ α}
    (once : table.keys.Nodup) : table.entries =
      table.keys.filterMap fun key => (table.find? key).map fun value => (key, value) := by
  obtain ⟨entries⟩ := table
  induction entries with
  | nil => rfl
  | cons entry rest inductionHypothesis =>
      obtain ⟨key, value⟩ := entry
      obtain ⟨isNew, once⟩ := List.nodup_cons.mp once
      have others : ∀ other ∈ (Table.mk rest).keys,
          (Table.mk ((key, value) :: rest)).find? other = (Table.mk rest).find? other := by
        intro other member
        refine if_neg ?_
        rintro rfl
        exact isNew member
      have here : (Table.mk ((key, value) :: rest)).find? key = some value := if_pos rfl
      have keys : (Table.mk ((key, value) :: rest)).keys = key :: (Table.mk rest).keys := rfl
      rw [keys, List.filterMap_cons, here, Option.map_some,
        List.filterMap_congr fun other member => by rw [others other member],
        ← inductionHypothesis once]

namespace QueuedDamage

variable {state : QueuedDamage} {damage : Damage}

/-- The two stores hold what a table of requests holds, and all else is the same. -/
structure Mirrors (state : QueuedDamage) (damage : Damage) : Prop where
  base : state.base = { damage with pending := ∅ }
  keys : state.queue.order = damage.pending.keys
  found : ∀ id, state.queue.requests[id]? = damage.pending.find? id

/-- Two computations overflow alike, and what they give is mirrored. -/
structure MirrorsReckoned (state : Reckoned QueuedDamage) (damage : Reckoned Damage) : Prop where
  overflowed : state.overflowed = damage.overflowed
  value : state.value.Mirrors damage.value

namespace Mirrors

theorem requestUpdate (mirrors : state.Mirrors damage) (id : WidgetId) (rect : Option Rect) :
    MirrorsReckoned (state.call (.request id rect)) (damage.call (.request id rect)) := by
  have keys := damage.pending.keys_insert id
  cases known : damage.pending.find? id with
  | some earlier =>
      have present : id ∈ damage.pending.keys := Table.mem_keys_iff.mpr ⟨earlier, known⟩
      have found := (mirrors.found id).trans known
      simp only [call, RequestQueue.request, found, Damage.call, Damage.reckonRequestUpdate, known]
      generalize Damage.reckonJoin earlier rect = joined
      refine ⟨?_, mirrors.base, ?_, fun other => ?_⟩
      · simp only [Reckoned.overflowed_bind, Reckoned.overflowed_pure, Bool.or_false]
      · simp only [Reckoned.value_bind, Reckoned.value_pure, keys, present, if_true]
        exact mirrors.keys
      · simp only [Reckoned.value_bind, Reckoned.value_pure, Table.find?_insert,
          Std.HashMap.getElem?_insert, beq_iff_eq, mirrors.found]
  | none =>
      have absent : id ∉ damage.pending.keys := fun member => by
        obtain ⟨earlier, held⟩ := Table.mem_keys_iff.mp member
        cases known.symm.trans held
      have found := (mirrors.found id).trans known
      simp only [call, RequestQueue.request, found, Damage.call, Damage.reckonRequestUpdate, known,
        pure_bind]
      refine ⟨rfl, mirrors.base, ?_, fun other => ?_⟩
      · simp only [Reckoned.value_pure, keys, absent, if_false, mirrors.keys]
      · simp only [Reckoned.value_pure, Table.find?_insert, Std.HashMap.getElem?_insert,
          beq_iff_eq, mirrors.found]

theorem forget (mirrors : state.Mirrors damage) (id : WidgetId) :
    MirrorsReckoned (state.call (.forget id)) (damage.call (.forget id)) := by
  have erased : (damage.pending.erase id).keys =
      damage.pending.keys.filter fun other => decide (other ≠ id) := by
    rw [Table.keys, Table.keys, List.filter_map]
    rfl
  have base : state.base.forget id = { damage.forget id with pending := ∅ } := by
    rw [mirrors.base]
    rfl
  simp only [call, Damage.call]
  cases known : state.queue.requests.contains id with
  | true =>
      refine ⟨rfl, base, ?_, fun other => ?_⟩
      · simp only [Reckoned.value_pure, RequestQueue.forget, known, if_true, Damage.forget, erased,
          mirrors.keys]
      · simp only [Reckoned.value_pure, RequestQueue.forget, known, if_true, Damage.forget,
          Std.HashMap.getElem?_erase, beq_iff_eq, Table.find?_erase, mirrors.found,
          eq_comm (a := id)]
  | false =>
      have missing : damage.pending.find? id = none := by
        rw [← mirrors.found, Std.HashMap.getElem?_eq_none]
        exact fun member => Bool.false_ne_true
          (known.symm.trans (Std.HashMap.contains_iff_mem.mpr member))
      refine ⟨rfl, base, ?_, fun other => ?_⟩
      · simp only [Reckoned.value_pure, RequestQueue.forget, known, Bool.false_eq_true, if_false,
          Damage.forget, erased, mirrors.keys]
        refine (List.filter_eq_self.mpr fun other member => decide_eq_true ?_).symm
        rintro rfl
        obtain ⟨rect, held⟩ := Table.mem_keys_iff.mp member
        cases missing.symm.trans held
      · simp only [Reckoned.value_pure, RequestQueue.forget, known, Bool.false_eq_true, if_false,
          Damage.forget, Table.find?_erase, mirrors.found]
        split
        case isTrue same => rw [same, missing]
        case isFalse => rfl

theorem clear (mirrors : state.Mirrors damage) :
    MirrorsReckoned (state.call .clear) (damage.call .clear) :=
  ⟨rfl, congrArg Damage.clear mirrors.base, mirrors.keys, mirrors.found⟩

/-- What has been drained is what the table lists. -/
theorem entries (mirrors : state.Mirrors damage) (once : state.queue.order.Nodup) :
    damage.pending.entries = state.queue.entries := by
  rw [Table.entries_eq_filterMap (mirrors.keys ▸ once), RequestQueue.entries, mirrors.keys]
  simp only [mirrors.found]

theorem compute (mirrors : state.Mirrors damage) (once : state.queue.order.Nodup)
    (forest : Forest) (settings : RepaintSettings) :
    MirrorsReckoned (state.call (.compute forest settings))
      (damage.call (.compute forest settings)) := by
  have handed := (RequestQueue.drain_eq
    (fun damage id rect => do (← damage).reckonProcess forest settings id rect) state.queue.order
    state.queue.requests (pure state.base) once).1
  have computed : state.call (.compute forest settings) =
      damage.call (.compute forest settings) >>= fun base => pure { base := base } := by
    rw [Damage.call, Damage.reckonCompute, mirrors.entries once, ← mirrors.base,
      List.foldlM_eq_foldl, ← handed]
    rfl
  have none : (damage.call (.compute forest settings)).value.pending = ∅ :=
    Damage.reckonCompute_pending
  rw [computed]
  refine ⟨?_, ?_, ?_, fun id => ?_⟩
  · rw [Reckoned.overflowed_bind, Reckoned.overflowed_pure, Bool.or_false]
  · rw [Reckoned.value_bind, Reckoned.value_pure, ← none]
  · rw [none]
    rfl
  · rw [none]
    exact Std.HashMap.getElem?_empty

end Mirrors

/-- After any calls the stores hold the requests that wait, and the damage is the one with a table
of requests. -/
theorem accounts_and_mirrors (root : WidgetId) (calls : List Damage.Call) :
    (after root calls).value.queue.Accounts (Damage.waiting calls) ∧
      MirrorsReckoned (after root calls) (Damage.after root calls) := by
  induction calls using List.reverseRecOn with
  | nil => exact ⟨.empty, rfl, rfl, rfl, fun _ => Std.HashMap.getElem?_empty⟩
  | append_singleton calls last inductionHypothesis =>
      obtain ⟨accounts, alike, mirrors⟩ := inductionHypothesis
      rw [after_append, Damage.after_append, Damage.waiting_append]
      have step : (((after root calls).value.call last).value.queue.Accounts
          (((Damage.waiting calls).filter fun request => !last.ends request.1) ++ last.asks)) ∧
          MirrorsReckoned ((after root calls).value.call last)
            ((Damage.after root calls).value.call last) := by
        cases last with
        | request id rect =>
            refine ⟨?_, mirrors.requestUpdate id rect⟩
            simp only [call, Reckoned.value_bind, Reckoned.value_pure]
            simpa [Damage.Call.ends, Damage.Call.asks] using accounts.request id rect
        | forget id =>
            refine ⟨?_, mirrors.forget id⟩
            simpa [call, Damage.Call.ends, Damage.Call.asks, eq_comm] using accounts.forget id
        | clear =>
            refine ⟨?_, mirrors.clear⟩
            simpa [call, Damage.Call.ends, Damage.Call.asks] using accounts
        | compute forest settings =>
            refine ⟨?_, mirrors.compute accounts.order.nodup forest settings⟩
            simp only [call, compute, Reckoned.value_bind, Reckoned.value_pure]
            simpa [Damage.Call.ends, Damage.Call.asks] using RequestQueue.Accounts.empty
      refine ⟨step.1, ?_, step.2.value⟩
      rw [Reckoned.overflowed_bind, Reckoned.overflowed_bind, alike, step.2.overflowed]

/-- After any calls, and whatever has overflowed in them, the two stores of requests have lost
nothing and would hand on nothing twice; a computation empties both; and the damage is the one that
keeps its requests in a table. -/
theorem queue_exact (root : WidgetId) (calls : List Damage.Call) :
    (after root calls).value.queue.LosesNothing (Damage.waiting calls) ∧
      (∀ forest settings,
        let computed := ((after root calls).value.compute forest settings).value
        computed.queue.order = [] ∧ computed.queue.requests.isEmpty = true) ∧
      Damage.after root calls =
        after root calls >>= fun state =>
          pure { state.base with pending := ⟨state.queue.entries⟩ } := by
  obtain ⟨accounts, alike, mirrors⟩ := accounts_and_mirrors root calls
  refine ⟨accounts.losesNothing, fun _ _ => ⟨rfl, rfl⟩, ?_⟩
  apply Reckoned.ext
  · rw [Reckoned.value_bind, Reckoned.value_pure, mirrors.base,
      ← mirrors.entries accounts.order.nodup]
  · rw [Reckoned.overflowed_bind, Reckoned.overflowed_pure, Bool.or_false, alike]

/-- Requests for the wide strips of one widget. -/
def wideCalls : List Damage.Call :=
  Damage.wideStrips.map fun strip => .request ⟨0⟩ (some strip)

/-- Where the width of what is joined overflows, the widget is handed on with a rectangle that
misses the first strip. -/
theorem covers_wideCalls :
    (⟨0⟩, some ⟨-2000000000, 0, 2000000010, 10⟩) ∈ Damage.waiting wideCalls ∧
      (after ⟨0⟩ wideCalls).value.queue.requests[(⟨0⟩ : WidgetId)]? = some (some ⟨20, 0, 1, 1⟩) ∧
      Rect.containsRect ⟨20, 0, 1, 1⟩ ⟨-2000000000, 0, 2000000010, 10⟩ = false ∧
      (after ⟨0⟩ wideCalls).overflowed = true := by
  obtain ⟨accounts, alike, -⟩ := accounts_and_mirrors ⟨0⟩ wideCalls
  refine ⟨by decide, ?_, by decide, ?_⟩
  · rw [accounts.joined]
    decide
  · rw [alike]
    decide

end QueuedDamage

end StyledWidgets
