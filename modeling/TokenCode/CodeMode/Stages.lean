/-
The stages of a code-mode cell.

Whatever runs beside the actor, a cell is in one of six stages (`Stage`): it is active, on the way to
its ending, its completion is committed or has been claimed, its last event is being handed over, or
it is done. Until a terminal event is handed over, the output that was handed over, the items that
are kept and those that are still on their way make up what the runtime has emitted; from then on
nothing is added. Every step leads from a stage to a stage (`stage_step`).
-/
import TokenCode.CodeMode.CellActor

namespace TokenCode.CodeMode

open List CellState

variable {Item Value : Type}

/-! ### What was handed over -/

abbrev Handed (Item : Type) := List (Receiver × Response Item)

/-- The terminal event in a response. -/
def terminalOf : Response Item → Option (CellEvent Item)
  | .ok event => if event.isTerminal then some event else none
  | .error _ => none

def terminals (handed : Handed Item) : List (CellEvent Item) :=
  handed.filterMap fun delivery => terminalOf delivery.2

/-- The output that is handed over with a response; `seen` says that it came with a terminal event
before. -/
def outputOf (seen : Bool) : Response Item → List Item
  | .ok event => if event.isTerminal && seen then [] else event.contentItems
  | .error _ => []

/-- The output that was handed over, where terminal events count once. -/
def observed (handed : Handed Item) : List Item :=
  (handed.foldl (fun (items, seen) delivery =>
    (items ++ outputOf seen delivery.2, seen || (terminalOf delivery.2).isSome)) ([], false)).1

variable (handed : Handed Item)

lemma foldl_observed_snd (items : List Item) (seen : Bool) :
    (handed.foldl (fun (items, seen) delivery =>
      (items ++ outputOf seen delivery.2, seen || (terminalOf delivery.2).isSome))
        (items, seen)).2 = (seen || !(terminals handed).isEmpty) := by
  induction handed generalizing items seen with
  | nil => simp [terminals]
  | cons delivery handed ih =>
    rw [foldl_cons, ih]
    cases hterminal : terminalOf delivery.2 with
    | none | some event => simp [terminals, hterminal]

variable (receiver : Receiver) (response : Response Item)

lemma observed_append : observed (handed ++ [(receiver, response)]) =
      observed handed ++ outputOf (!(terminals handed).isEmpty) response := by
  have hseen := foldl_observed_snd handed [] false
  rw [Bool.false_or] at hseen
  rw [observed, foldl_append, ← hseen]
  rfl

lemma terminals_append :
    terminals (handed ++ [(receiver, response)]) = terminals handed ++ (terminalOf response).toList := by
  cases h : terminalOf response <;> simp [terminals, h]

@[simp]
lemma terminals_error (error : CellError) :
    terminals (handed ++ [(receiver, .error error)]) = terminals handed := by
  simp [terminals_append, terminalOf]

@[simp]
lemma observed_error (error : CellError) :
    observed (handed ++ [(receiver, .error error)]) = observed handed := by
  simp [observed_append, outputOf]

variable {event : CellEvent Item}

lemma terminals_of_not_terminal (h : event.isTerminal = false)
    (handed : Handed Item) (receiver : Receiver) :
    terminals (handed ++ [(receiver, .ok event)]) = terminals handed := by
  simp [terminals_append, terminalOf, h]

lemma observed_of_not_terminal (h : event.isTerminal = false)
    (handed : Handed Item) (receiver : Receiver) :
    observed (handed ++ [(receiver, .ok event)]) = observed handed ++ event.contentItems := by
  simp [observed_append, outputOf, h]

lemma terminals_of_terminal (h : event.isTerminal = true)
    (handed : Handed Item) (receiver : Receiver) :
    terminals (handed ++ [(receiver, .ok event)]) = terminals handed ++ [event] := by
  simp [terminals_append, terminalOf, h]

/-- The first terminal event brings its output. -/
lemma observed_of_first {handed : Handed Item} (h : terminals handed = []) (receiver : Receiver)
    (event : CellEvent Item) :
    observed (handed ++ [(receiver, .ok event)]) = observed handed ++ event.contentItems := by
  simp [observed_append, outputOf, h]

/-! ### Stages -/

/-- What the stages speak about. -/
structure View (Item Value : Type) where
  phase : CellPhase Item
  control : Control Item Value
  runtimeClosed : Bool
  observer : Option Observer
  contentItems : List Item
  terminals : List (CellEvent Item)
  observed : List Item
  merged : List (StoredValueWrites Value)
  emitted : List Item
  events : List (RuntimeEvent Item Value)
  runtime : Runtime Value

def System.view (system : System Item Value) : View Item Value where
  phase := system.cell.phase
  control := system.control
  runtimeClosed := system.actor.runtimeClosed
  observer := system.actor.observer
  contentItems := system.actor.contentItems
  terminals := CodeMode.terminals system.cell.channels.handed
  observed := CodeMode.observed system.cell.channels.handed
  merged := system.merged
  emitted := system.emitted
  events := system.events
  runtime := system.runtime

/-- The cell has no outcome yet. -/
def CellPhase.isOpen : CellPhase Item → Bool
  | running | terminating _ => true
  | completed _ _ | completionClaimed _ | tombstone => false

/-- The actor is in its loop. -/
def Control.inLoop : Control Item Value → Bool
  | select | routing _ _ => true
  | completing _ _ | delivering _ | finishing _ _ | handing _ _ | closing | closed => false

/-- The output among the events that wait for the actor. -/
def itemsOf (events : List (RuntimeEvent Item Value)) : List Item :=
  events.filterMap fun
    | .contentItem item => some item
    | _ => none

def RuntimeEvent.isResult : RuntimeEvent Item Value → Bool
  | .result _ _ => true
  | _ => false

/-- A result is on its way, with no output behind it, or the runtime has none. -/
def Orderly (runtime : Runtime Value) (events : List (RuntimeEvent Item Value)) : Prop :=
  (runtime.result = none ∧ ∀ event ∈ events, event.isResult = false) ∨
    ∃ before writes errorText after, events = before ++ .result writes errorText :: after ∧
      runtime.result = some writes ∧ (∀ event ∈ before, event.isResult = false) ∧
      ∀ event ∈ after, event = .threadPanicked

/-- The writes that were merged fit the outcome. -/
def Fits (view : View Item Value) (event : CellEvent Item) : Prop :=
  event.isTerminal = true ∧
    view.merged = if event.isCompleted then [view.runtime.result.getD ∅] else []

variable {runtime : Runtime Value} {event : RuntimeEvent Item Value}
  {rest : List (RuntimeEvent Item Value)}

lemma Orderly.tail (h : Orderly runtime (event :: rest))
    (hevent : event.isResult = false) : Orderly runtime rest := by
  rcases h with ⟨hnone, hall⟩ | ⟨before, writes, errorText, after, hevents, hsome, hbefore, hafter⟩
  · exact .inl ⟨hnone, (forall_mem_cons.1 hall).2⟩
  · cases before with
    | nil =>
      obtain ⟨rfl, -⟩ := cons.inj hevents
      cases hevent
    | cons first before =>
      obtain ⟨-, rfl⟩ := cons.inj hevents
      exact .inr ⟨before, writes, errorText, after, rfl, hsome,
        (forall_mem_cons.1 hbefore).2, hafter⟩

variable {writes : StoredValueWrites Value} {errorText : Option Text}

lemma Orderly.result (h : Orderly runtime (.result writes errorText :: rest)) :
    runtime.result = some writes ∧ itemsOf rest = [] := by
  rcases h with ⟨-, hall⟩ | ⟨before, writes', errorText', after, hevents, hsome, hbefore, hafter⟩
  · exact absurd (hall _ mem_cons_self) nofun
  · cases before with
    | nil =>
      obtain ⟨heq, rfl⟩ := cons.inj hevents
      obtain ⟨rfl, -⟩ := RuntimeEvent.result.inj heq
      refine ⟨hsome, filterMap_eq_nil_iff.2 fun event hevent => ?_⟩
      rw [hafter event hevent]
    | cons first before =>
      obtain ⟨rfl, -⟩ := cons.inj hevents
      exact absurd (hbefore _ mem_cons_self) nofun

lemma Orderly.emit {events : List (RuntimeEvent Item Value)} (h : Orderly runtime events)
    (hevent : event.isResult = false) (hresult : runtime.result.isSome → event = .threadPanicked) :
    Orderly runtime (events ++ [event]) := by
  rcases h with ⟨hnone, hall⟩ | ⟨before, writes, errorText, after, rfl, hsome, hbefore, hafter⟩
  · refine .inl ⟨hnone, fun other hother => ?_⟩
    rcases mem_append.1 hother with hold | hnew
    · exact hall other hold
    · rwa [mem_singleton.1 hnew]
  · refine .inr ⟨before, writes, errorText, after ++ [event], by simp, hsome, hbefore,
      fun other hother => ?_⟩
    rcases mem_append.1 hother with hold | hnew
    · exact hafter other hold
    · rw [mem_singleton.1 hnew]
      exact hresult (by rw [hsome]; rfl)

structure Active (view : View Item Value) : Prop where
  phase : view.phase.isOpen = true
  control : view.control.inLoop = true
  closed : view.runtimeClosed = false
  terminals : view.terminals = []
  merged : view.merged = []
  items : view.emitted = view.observed ++ view.contentItems ++ itemsOf view.events
  orderly : Orderly view.runtime view.events

/-- Where the items are on the way to an ending. -/
def Holds (view : View Item Value) (items : List Item) : Prop :=
  (∃ errorText, view.control = .completing (view.runtime.result.getD ∅) errorText ∧
      view.contentItems = items) ∨
    (∃ errorText, view.control = .delivering (some (.completed items errorText))) ∨
    ∃ observerTx, view.control = .finishing observerTx items

structure Stopping (view : View Item Value) : Prop where
  phase : view.phase.isOpen = true
  closed : view.runtimeClosed = true
  terminals : view.terminals = []
  merged : view.merged = []
  items : ∃ items, Holds view items ∧ view.emitted = view.observed ++ items
  ended : view.runtime.ended = true

/-- Where the actor may stand after the commit. -/
def Waits (view : View Item Value) : Prop :=
  view.control = .delivering none ∨ (view.control.inLoop = true ∧ view.observer = none) ∨
    ∃ observerTx items, view.control = .finishing observerTx items

structure Committed (view : View Item Value) : Prop where
  phase : ∃ event, view.phase = .completed none event ∧ event.isCompleted = true ∧
    Fits view event ∧ view.emitted = view.observed ++ event.contentItems
  control : Waits view
  closed : view.runtimeClosed = true
  terminals : view.terminals = []
  ended : view.runtime.ended = true

structure Claimed (view : View Item Value) : Prop where
  phase : ∃ event, view.phase = .completionClaimed event ∧ Fits view event ∧
    ∀ other ∈ view.terminals, other = event
  control : Waits view
  closed : view.runtimeClosed = true
  terminals : view.terminals ≠ []
  items : view.emitted = view.observed
  ended : view.runtime.ended = true

structure Handing (view : View Item Value) : Prop where
  phase : view.phase = .tombstone
  control : ∃ observerTx event, view.control = .handing observerTx event ∧ Fits view event ∧
    (∀ other ∈ view.terminals, other = event) ∧
    view.emitted = view.observed ++ outputOf (!(view.terminals).isEmpty) (.ok event)
  ended : view.runtime.ended = true

structure Done (view : View Item Value) : Prop where
  phase : view.phase = .tombstone
  control : view.control = .closing ∨ view.control = .closed
  outcome : ∃ event, ∀ other ∈ view.terminals, other = event ∧ Fits view other
  items : view.observed <+: view.emitted
  all : view.terminals ≠ [] → view.emitted = view.observed
  ended : view.runtime.ended = true

inductive Stage (view : View Item Value) : Prop
  | active (h : Active view)
  | stopping (h : Stopping view)
  | committed (h : Committed view)
  | claimed (h : Claimed view)
  | handing (h : Handing view)
  | done (h : Done view)

variable {view : View Item Value}

section

variable (h : Stage view)
include h

/-- In the loop, the cell is active or has its outcome. -/
lemma Stage.of_inLoop (hcontrol : view.control.inLoop = true) :
    Active view ∨ ((Committed view ∨ Claimed view) ∧ view.observer = none) := by
  have hobserver : Waits view → view.observer = none := by
    rintro (hwaits | ⟨-, hnone⟩ | ⟨observerTx, items, hwaits⟩)
    · rw [hwaits] at hcontrol
      cases hcontrol
    · exact hnone
    · rw [hwaits] at hcontrol
      cases hcontrol
  cases h with
  | active h => exact .inl h
  | stopping h =>
    obtain ⟨items, ⟨errorText, hholds, -⟩ | ⟨errorText, hholds⟩ | ⟨observerTx, hholds⟩, -⟩ := h.items
    all_goals
      rw [hholds] at hcontrol
      cases hcontrol
  | committed h => exact .inr ⟨.inl h, hobserver h.control⟩
  | claimed h => exact .inr ⟨.inr h, hobserver h.control⟩
  | handing h =>
    obtain ⟨observerTx, event, hhanding, -⟩ := h.control
    rw [hhanding] at hcontrol
    cases hcontrol
  | done h =>
    rcases h.control with hclosing | hclosing
    all_goals
      rw [hclosing] at hcontrol
      cases hcontrol

/-- While the runtime is not closed the loop belongs to an active cell. -/
lemma Stage.active_of_inLoop
    (hcontrol : view.control.inLoop = true) (hclosed : view.runtimeClosed = false) :
    Active view := by
  rcases h.of_inLoop hcontrol with hactive | ⟨hcommitted | hclaimed, -⟩
  · exact hactive
  · cases hclosed.symm.trans hcommitted.closed
  · cases hclosed.symm.trans hclaimed.closed

/-- Outside of the loop, the control tells the stage. -/
lemma Stage.of_not_inLoop (hcontrol : view.control.inLoop = false) :
    (Stopping view ∧ ∃ items, Holds view items ∧ view.emitted = view.observed ++ items) ∨
    ((Committed view ∨ Claimed view) ∧ (view.control = .delivering none ∨
      ∃ observerTx items, view.control = .finishing observerTx items)) ∨
    (Handing view ∧ ∃ observerTx event, view.control = .handing observerTx event) ∨
    (Done view ∧ (view.control = .closing ∨ view.control = .closed)) := by
  have hwaits : Waits view → view.control = .delivering none ∨
      ∃ observerTx items, view.control = .finishing observerTx items := by
    rintro (hwaits | ⟨hloop, -⟩ | hwaits)
    · exact .inl hwaits
    · cases hcontrol.symm.trans hloop
    · exact .inr hwaits
  cases h with
  | active h => cases hcontrol.symm.trans h.control
  | stopping h => exact .inl ⟨h, h.items⟩
  | committed h => exact .inr (.inl ⟨.inl h, hwaits h.control⟩)
  | claimed h => exact .inr (.inl ⟨.inr h, hwaits h.control⟩)
  | handing h =>
    obtain ⟨observerTx, event, hhanding, -⟩ := h.control
    exact .inr (.inr (.inl ⟨h, observerTx, event, hhanding⟩))
  | done h => exact .inr (.inr (.inr ⟨h, h.control⟩))

lemma Stage.of_completing (hcontrol : view.control = .completing writes errorText) :
    Stopping view ∧ writes = view.runtime.result.getD ∅ ∧
      view.emitted = view.observed ++ view.contentItems := by
  simpa [Holds, hcontrol] using h.of_not_inLoop (by rw [hcontrol]; rfl)

variable {rejected : Option (CellEvent Item)}

lemma Stage.of_delivering (hcontrol : view.control = .delivering rejected) :
    (Stopping view ∧ ∃ items errorText, rejected = some (.completed items errorText) ∧
      view.emitted = view.observed ++ items) ∨
    (rejected = none ∧ (Committed view ∨ Claimed view)) := by
  have hinversion := h.of_not_inLoop (by rw [hcontrol]; rfl)
  simp [Holds, hcontrol] at hinversion
  rcases hinversion with ⟨hstopping, items, ⟨errorText, hrejected⟩, hitems⟩ | ⟨hstage, hnone⟩
  · exact .inl ⟨hstopping, items, errorText, hrejected, hitems⟩
  · exact .inr ⟨hnone, hstage⟩

variable {items : List Item}

lemma Stage.of_finishing {observerTx : Option ℕ}
    (hcontrol : view.control = .finishing observerTx items) :
    (Stopping view ∧ view.emitted = view.observed ++ items) ∨ Committed view ∨ Claimed view := by
  simpa [Holds, hcontrol] using h.of_not_inLoop (by rw [hcontrol]; rfl)

lemma Stage.of_handing {observerTx : ℕ}
    {event : CellEvent Item} (hcontrol : view.control = .handing observerTx event) :
    Handing view := by
  simpa [Holds, hcontrol] using h.of_not_inLoop (by rw [hcontrol]; rfl)

lemma Stage.of_closing (hcontrol : view.control = .closing) : Done view := by
  simpa [Holds, hcontrol] using h.of_not_inLoop (by rw [hcontrol]; rfl)

/-- The actor moves within its loop. -/
lemma Stage.setControl (hcontrol : view.control.inLoop = true) {control : Control Item Value}
    (hnext : control.inLoop = true) : Stage { view with control } := by
  rcases h.of_inLoop hcontrol with h | ⟨h | h, hobserver⟩
  · exact .active ⟨h.phase, hnext, h.closed, h.terminals, h.merged, h.items, h.orderly⟩
  · exact .committed ⟨h.phase, .inr (.inl ⟨hnext, hobserver⟩), h.closed, h.terminals, h.ended⟩
  · exact .claimed
      ⟨h.phase, .inr (.inl ⟨hnext, hobserver⟩), h.closed, h.terminals, h.items, h.ended⟩

end

/-! ### Steps -/

lemma Active.emitted {system : System Item Value} (h : Active system.view) :
    system.emitted = observed system.cell.channels.handed ++ system.actor.contentItems ++
      itemsOf system.events :=
  h.items

lemma Channels.send_eq (channels : Channels Item) (receiver : Receiver) (response : Response Item) :
    channels.send receiver response = (true, channels.reply receiver response) ∨
      (channels.send receiver response = (false, channels) ∧ receiver ∈ channels.dropped) := by
  unfold Channels.send
  split_ifs with h
  · exact .inr ⟨rfl, h⟩
  · exact .inl rfl

namespace System

variable {system next : System Item Value}

lemma view_reply_error (system : System Item Value) (receiver : Receiver) (error : CellError) :
    (system.setChannels (system.cell.channels.reply receiver (.error error))).view =
      system.view := by
  simp [view, setChannels, Channels.reply]

lemma view_send_error (system : System Item Value) (receiver : Receiver) (error : CellError) :
    (system.setChannels (system.cell.channels.send receiver (.error error)).2).view =
      system.view := by
  rcases system.cell.channels.send_eq receiver (.error error) with h | ⟨h, -⟩
  · rw [h]
    exact view_reply_error system receiver error
  · rw [h]
    rfl

section

variable (h : Active system.view)
include h

/-- Variables that do not matter change. -/
lemma active_setActor {actor : Actor Item}
    (hclosed : actor.runtimeClosed = system.actor.runtimeClosed)
    (hcontent : actor.contentItems = system.actor.contentItems) :
    Active (system.setActor actor).view := by
  refine ⟨h.phase, h.control, hclosed.trans h.closed, h.terminals, h.merged, ?_, h.orderly⟩
  change _ = _ ++ actor.contentItems ++ _
  rw [hcontent]
  exact h.items

/-- An observer gets the collected items, or they are kept. -/
lemma active_offer (event : CellEvent Item)
    (hevent : event.isTerminal = false) (hitems : event.contentItems = system.actor.contentItems)
    (responseTx : ℕ) (actor : Actor Item) (hclosed : actor.runtimeClosed = false)
    (hcontent : actor.contentItems =
      if (system.cell.channels.send (.observer responseTx) (.ok event)).1 then []
      else system.actor.contentItems) : Active ((system.setChannels
      (system.cell.channels.send (.observer responseTx) (.ok event)).2).setActor actor).view := by
  rcases system.cell.channels.send_eq (.observer responseTx) (.ok event) with hsend | ⟨hsend, -⟩
  · rw [hsend] at hcontent ⊢
    have hemitted := h.items
    refine ⟨h.phase, h.control, hclosed, ?_, h.merged, ?_, h.orderly⟩
    · exact (terminals_of_not_terminal hevent _ _).trans h.terminals
    · change _ = observed (_ ++ [_]) ++ actor.contentItems ++ _
      rw [hcontent, observed_of_not_terminal hevent, hitems, if_pos rfl, append_nil]
      exact hemitted
  · rw [hsend] at hcontent ⊢
    exact active_setActor h (hclosed.trans h.closed.symm) hcontent

lemma active_offerYield : Active system.offerYield.view := by
  unfold offerYield
  split
  · exact active_setActor h rfl rfl
  · next observer _ =>
    have hoffer := active_offer h (.yielded system.actor.contentItems) rfl rfl observer.responseTx
    split
    all_goals
      next hsend =>
      rw [hsend] at hoffer
      exact hoffer _ h.closed rfl

lemma active_offerPending (responseTx : ℕ) : Active (system.offerPending responseTx).view := by
  have hoffer := active_offer h (.pending system.actor.contentItems
    system.actor.pendingToolCallIds) rfl rfl responseTx
  unfold offerPending
  split
  all_goals
    next hsend =>
    rw [hsend] at hoffer
    exact hoffer _ h.closed rfl

lemma active_startObservation (mode : ObserveMode) (responseTx : ℕ) :
    Active (system.startObservation mode responseTx).view := by
  have hforget : system.forgetObserver.runtimeClosed = system.actor.runtimeClosed ∧
      system.forgetObserver.contentItems = system.actor.contentItems := by
    unfold forgetObserver
    split_ifs
    all_goals exact ⟨rfl, rfl⟩
  have hactive := active_setActor h hforget.1 hforget.2
  unfold startObservation
  dsimp only
  split_ifs
  · exact view_send_error (system.setActor system.forgetObserver) _ _ ▸ hactive
  · exact active_offerPending hactive responseTx
  all_goals exact active_setActor h hforget.1 hforget.2

end

/-- The runtime has ended and everything it has emitted has come. -/
lemma stopping_onRuntimeEnd (hphase : system.cell.phase.isOpen = true)
    (hterminals : terminals system.cell.channels.handed = []) (hmerged : system.merged = [])
    (hitems : system.emitted = observed system.cell.channels.handed ++ system.actor.contentItems)
    (hended : system.runtime.ended = true) (errorText : Option Text) :
    Stopping (system.onRuntimeEnd (system.runtime.result.getD ∅) errorText).view := by
  unfold onRuntimeEnd
  split_ifs
  · exact ⟨hphase, rfl, hterminals, hmerged, ⟨_, .inr (.inr ⟨_, rfl⟩), hitems⟩, hended⟩
  · exact ⟨hphase, rfl, hterminals, hmerged, ⟨_, .inl ⟨errorText, rfl, rfl⟩, hitems⟩, hended⟩

section

variable (h : Active system.view)
include h

/-- An event that neither is output nor ends the runtime. -/
lemma active_onEvent (hresult : event.isResult = false) (hitems : itemsOf [event] = []) :
    Active (system.onEvent event).view := by
  cases event with
  | started => exact active_setActor h rfl rfl
  | pending =>
    dsimp only [onEvent]
    split
    · refine active_offerPending (active_setActor h ?_ ?_) _
      · rfl
      · rfl
    · exact active_setActor h rfl rfl
  | contentItem item => cases hitems
  | yieldRequested =>
    dsimp only [onEvent]
    split_ifs
    · exact active_offerYield h
    · exact h
  | toolCall id => exact active_setActor h rfl rfl
  | notify | threadPanicked => exact h
  | result writes errorText => cases hresult

lemma stage_onEvent (hevents : system.events = event :: rest) :
    Stage ({ system with events := rest }.onEvent event).view := by
  have hitems := h.emitted
  have horderly : Orderly system.runtime system.events := h.orderly
  have hsplit : itemsOf (event :: rest) = itemsOf [event] ++ itemsOf rest :=
    filterMap_append (l := [event])
  rw [hevents] at hitems horderly
  rw [hsplit] at hitems
  set shorter := { system with events := rest }
  by_cases hresult : event.isResult = true
  · cases event with
    | result writes errorText =>
      obtain ⟨hsome, hnil⟩ := horderly.result
      rw [hnil] at hitems
      have hwrites : writes = system.runtime.result.getD ∅ := by rw [hsome, Option.getD_some]
      rw [hwrites]
      refine .stopping (stopping_onRuntimeEnd ?_ ?_ ?_ ?_ ?_ errorText)
      · exact h.phase
      · exact h.terminals
      · exact h.merged
      · exact hitems.trans (append_nil _)
      · simp [shorter, Runtime.ended, setActor, hsome]
    | _ => cases hresult
  · rw [Bool.not_eq_true] at hresult
    refine .active ?_
    by_cases hnil : itemsOf [event] = []
    · rw [hnil] at hitems
      have hshorter : Active shorter.view :=
        ⟨h.phase, h.control, h.closed, h.terminals, h.merged, hitems, horderly.tail hresult⟩
      exact active_onEvent hshorter hresult hnil
    · cases event with
      | contentItem item =>
        refine ⟨h.phase, h.control, h.closed, h.terminals, h.merged, ?_, horderly.tail rfl⟩
        rw [← List.append_assoc, List.append_assoc (observed _)] at hitems
        exact hitems
      | _ => exact absurd rfl hnil

lemma stage_exited (hevents : system.events = [])
    (hexited : system.runtime.exited = true) (errorText : Option Text) :
    Stage (system.onRuntimeEnd ∅ errorText).view := by
  have hitems := h.emitted
  have hresult : system.runtime.result = none := by
    rcases h.orderly with ⟨hnone, -⟩ | ⟨before, writes, error, after, hsplit, -⟩
    · exact hnone
    · exact absurd (hevents.symm.trans hsplit) (by simp)
  have hwrites : (∅ : StoredValueWrites Value) = system.runtime.result.getD ∅ := by rw [hresult]; rfl
  rw [hwrites]
  refine .stopping (stopping_onRuntimeEnd h.phase h.terminals h.merged ?_ ?_ errorText)
  · rw [hitems, hevents]
    exact append_nil _
  · simp [Runtime.ended, hexited]

end

lemma stage_onCancelled (h : Stage system.view) (hcontrol : system.control.inLoop = true) :
    Stage system.onCancelled.view := by
  unfold onCancelled
  split_ifs with hclosed
  · rcases h.of_inLoop hcontrol with hactive | ⟨hcommitted | hclaimed, -⟩
    · cases hclosed.symm.trans hactive.closed
    · exact .committed ⟨hcommitted.phase, .inr (.inr ⟨_, _, rfl⟩), hclosed, hcommitted.terminals,
        hcommitted.ended⟩
    · exact .claimed ⟨hclaimed.phase, .inr (.inr ⟨_, _, rfl⟩), hclosed, hclaimed.terminals,
        hclaimed.items, hclaimed.ended⟩
  · have hactive := h.active_of_inLoop hcontrol (Bool.not_eq_true _ ▸ hclosed)
    exact .active ⟨hactive.phase, hactive.control, hactive.closed, hactive.terminals, hactive.merged,
      hactive.items, hactive.orderly⟩

lemma stage_timer (h : Stage system.view) (hcontrol : system.control.inLoop = true) :
    Stage system.offerYield.view := by
  rcases h.of_inLoop hcontrol with hactive | ⟨hended, hobserver⟩
  · exact .active (active_offerYield hactive)
  · have hnone : system.actor.observer = none := hobserver
    have hsame : system.offerYield.view = system.view := by
      unfold offerYield
      rw [hnone]
      simp [view, setActor, hnone]
    rw [hsame]
    exact h

/-- The terminal event of a completed cell is handed over. -/
lemma done_of_handed {next : View Item Value} (h : Committed view) {event : CellEvent Item}
    (hphase : view.phase = .completed none event) (hnext : next.phase = .tombstone)
    (hcontrol : next.control = .closing ∨ next.control = .closed)
    (hterminals : next.terminals = view.terminals ++ [event])
    (hobserved : next.observed = view.observed ++ event.contentItems)
    (hmerged : next.merged = view.merged) (hemitted : next.emitted = view.emitted)
    (hruntime : next.runtime = view.runtime) : Done next := by
  obtain ⟨other, hother, -, hfits, hitems⟩ := h.phase
  obtain ⟨-, rfl⟩ := CellPhase.completed.inj (hphase.symm.trans hother)
  have hall : next.emitted = next.observed := by rw [hemitted, hitems, hobserved]
  rw [h.terminals, nil_append] at hterminals
  refine ⟨hnext, hcontrol, ⟨event, ?_⟩, hall ▸ prefix_refl _, fun _ => hall, hruntime ▸ h.ended⟩
  rw [hterminals]
  intro terminal hterminal
  obtain rfl := mem_singleton.1 hterminal
  exact ⟨rfl, hfits.1, by rw [hmerged, hruntime]; exact hfits.2⟩

section

variable (h : Stage system.view)
include h

lemma stage_onCommand (hcontrol : system.control.inLoop = true)
    (mode : ObserveMode) (responseTx : ℕ) : Stage (system.onCommand mode responseTx).view := by
  unfold onCommand
  split_ifs with hdropped
  · exact h
  · exact h.setControl hcontrol rfl

lemma stage_route (hcontrol : system.control.inLoop = true)
    (mode : ObserveMode) (responseTx : ℕ) : Stage (system.route mode responseTx).view := by
  have hselect : Stage { system with control := .select }.view := h.setControl hcontrol rfl
  -- A cell that is ending answers that it is closed.
  have hclosed : system.cell.routeObservation mode responseTx = (.closed, { system.cell with
      channels := (system.cell.channels.send (.observer responseTx) (.error .closed)).2 }) →
      Stage (system.route mode responseTx).view := fun hroute => by
    rw [route, hroute]
    exact view_send_error { system with control := .select } (.observer responseTx) .closed ▸ hselect
  rcases h.of_inLoop hcontrol with hactive | ⟨hcommitted | hclaimed, -⟩
  · have hopen : system.cell.phase.isOpen = true := hactive.phase
    cases hphase : system.cell.phase with
    | running =>
      have hroute : system.cell.routeObservation mode responseTx =
          (.running responseTx, system.cell) := by
        rw [routeObservation, hphase]
      rw [route, hroute]
      refine .active (active_startObservation ?_ mode responseTx)
      exact ⟨hactive.phase, rfl, hactive.closed, hactive.terminals, hactive.merged, hactive.items,
        hactive.orderly⟩
    | terminating waiting => exact hclosed (by simp [routeObservation, hphase])
    | completed _ _ | completionClaimed _ | tombstone => rw [hphase] at hopen; cases hopen
  · obtain ⟨event, hphase, hcompleted, hfits, -⟩ := hcommitted.phase
    rw [route, routeObservation_of_completed hphase]
    split_ifs
    · exact hselect
    · exact .done (done_of_handed hcommitted hphase rfl (.inl rfl)
        (terminals_of_terminal hfits.1 _ _) (observed_of_first hcommitted.terminals _ _) rfl rfl rfl)
  · obtain ⟨event, hphase, -⟩ := hclaimed.phase
    have hclaimedPhase : system.cell.phase = .completionClaimed event := hphase
    exact hclosed (by simp [routeObservation, hclaimedPhase])

lemma stage_complete (hcontrol : system.control = .completing writes errorText) :
    Stage (system.complete writes errorText).view := by
  obtain ⟨hstopping, rfl, hitems⟩ := h.of_completing hcontrol
  have hopen : system.cell.phase.isOpen = true := hstopping.phase
  have hrejected : hostCommitCompletion system.cell
      (.completed system.actor.contentItems errorText) =
        (.rejected (.completed system.actor.contentItems errorText), system.cell) →
      Stage (system.complete (system.runtime.result.getD ∅) errorText).view := fun hcommit => by
    rw [complete, hcommit]
    exact .stopping ⟨hstopping.phase, hstopping.closed, hstopping.terminals, hstopping.merged,
      ⟨_, .inr (.inl ⟨errorText, rfl⟩), hitems⟩, hstopping.ended⟩
  by_cases hcancelled : system.cell.cancelled = true
  · exact hrejected (by rw [hostCommitCompletion, if_pos hcancelled])
  · cases hphase : system.cell.phase with
    | running =>
      have hcommit : hostCommitCompletion system.cell
          (.completed system.actor.contentItems errorText) = (.committed, { system.cell with
            phase := .completed none (.completed system.actor.contentItems errorText) }) := by
        simp [hostCommitCompletion, commitCompletion, hcancelled, hphase]
      rw [complete, hcommit]
      have hmerged : system.merged = [] := hstopping.merged
      refine .committed ⟨⟨_, rfl, rfl, ⟨rfl, ?_⟩, hitems⟩, .inl rfl, hstopping.closed,
        hstopping.terminals, hstopping.ended⟩
      rw [hmerged, nil_append]
      rfl
    | terminating waiting =>
      refine hrejected ?_
      simp [hostCommitCompletion, commitCompletion, hcancelled, hphase]
    | completed _ _ | completionClaimed _ | tombstone => rw [hphase] at hopen; cases hopen

lemma stage_deliver
    (hcontrol : system.control = .delivering rejected) : Stage (system.deliver rejected).view := by
  rcases h.of_delivering hcontrol with
    ⟨hstopping, items, errorText, rfl, hitems⟩ | ⟨rfl, hcommitted | hclaimed⟩
  · have hopen : system.cell.phase.isOpen = true := hstopping.phase
    have hnot : ∀ items event, system.cell.phase ≠ .completed items event := by
      intro items event hphase
      rw [hphase] at hopen
      cases hopen
    rw [deliver, deliverCompletion_rejected hnot]
    exact .stopping ⟨hstopping.phase, hstopping.closed, hstopping.terminals, hstopping.merged,
      ⟨items, .inr (.inr ⟨_, rfl⟩), hitems⟩, hstopping.ended⟩
  · obtain ⟨event, hphase, hcompleted, hfits, hitems⟩ := hcommitted.phase
    have hbuffered : Stage { system.setActor { system.actor with observer := none } with
        control := .select }.view :=
      .committed ⟨hcommitted.phase, .inr (.inl ⟨rfl, rfl⟩), hcommitted.closed, hcommitted.terminals,
        hcommitted.ended⟩
    unfold deliver
    cases hobserver : system.actor.observer with
    | none =>
      have hnone : system.cell.deliverCompletion none = (.buffered, system.cell) := by
        unfold deliverCompletion
        rw [show system.cell.phase = .completed none event from hphase]
      rw [Option.map_none, hnone]
      exact hbuffered
    | some observer =>
      rw [Option.map_some, deliverCompletion_of_completed hphase]
      split_ifs
      · exact hbuffered
      · exact .done (done_of_handed hcommitted hphase rfl (.inl rfl)
          (terminals_of_terminal hfits.1 _ _) (observed_of_first hcommitted.terminals _ _)
          rfl rfl rfl)
  · obtain ⟨event, hphase, -⟩ := hclaimed.phase
    have hnot : ∀ items event, system.cell.phase ≠ .completed items event := fun _ _ h => by
      cases hphase.symm.trans h
    rw [deliver, deliverCompletion_rejected hnot]
    exact .claimed ⟨hclaimed.phase, .inr (.inr ⟨_, _, rfl⟩), hclaimed.closed, hclaimed.terminals,
      hclaimed.items, hclaimed.ended⟩

end

/-- After `finish_termination` the observer is told, or the cell is done. -/
lemma stage_finished {channels : Channels Item} {event : CellEvent Item}
    (hfinish : system.cell.finishTermination (.terminated items) =
      (some event, ⟨.tombstone, true, channels⟩))
    (hfits : Fits system.view event) (hall : ∀ other ∈ terminals channels.handed, other = event)
    (hitems : system.emitted =
      observed channels.handed ++ outputOf (!(terminals channels.handed).isEmpty) (.ok event))
    (hended : system.runtime.ended = true) (observerTx : Option ℕ) :
    Stage (system.finish observerTx items).view := by
  unfold finish
  rw [hfinish]
  cases observerTx with
  | some observerTx =>
    exact .handing ⟨rfl, ⟨observerTx, event, rfl, hfits, hall, hitems⟩, hended⟩
  | none =>
    refine .done ⟨rfl, .inl rfl, ⟨event, fun other hother => ?_⟩, ⟨_, hitems.symm⟩,
      fun hterminals => ?_, hended⟩
    · obtain rfl := hall other hother
      exact ⟨rfl, hfits⟩
    · have hseen : terminals channels.handed ≠ [] := hterminals
      refine hitems.trans ?_
      simp [outputOf, hfits.1, hseen, view]

section

variable (h : Stage system.view)
include h

lemma stage_finish {observerTx : Option ℕ}
    (hcontrol : system.control = .finishing observerTx items) :
    Stage (system.finish observerTx items).view := by
  rcases h.of_finishing hcontrol with ⟨hstopping, hemitted⟩ | hcommitted | hclaimed
  · have hopen : system.cell.phase.isOpen = true := hstopping.phase
    have hterminals : terminals system.cell.channels.handed = [] := hstopping.terminals
    have hitems : system.emitted = observed system.cell.channels.handed ++ items := hemitted
    have hfits : Fits system.view (.terminated items) := ⟨rfl, hstopping.merged⟩
    -- Nobody has called `terminate`, or they are gone.
    have hsilent : system.cell.finishTermination (.terminated items) =
        (some (.terminated items), ⟨.tombstone, true, system.cell.channels⟩) →
          Stage (system.finish observerTx items).view := fun hfinish =>
      stage_finished hfinish hfits (by simp [hterminals])
        (by simpa [hterminals, outputOf, CellEvent.contentItems] using hitems) hstopping.ended _
    cases hphase : system.cell.phase with
    | running => exact hsilent (by rw [finishTermination, hphase])
    | terminating waiting =>
      have hfinish : system.cell.finishTermination (.terminated items) = (some (.terminated items),
          ⟨.tombstone, true, (system.cell.channels.send (.terminator waiting)
            (.ok (.terminated items))).2⟩) := by
        rw [finishTermination, hphase]
      rcases system.cell.channels.send_eq (.terminator waiting) (.ok (.terminated items)) with
        hsend | ⟨hsend, -⟩
      · rw [hsend] at hfinish
        refine stage_finished hfinish hfits ?_ ?_ hstopping.ended observerTx
        · simp [Channels.reply, terminals_append, hterminals, terminalOf, CellEvent.isTerminal]
        · simp [Channels.reply, terminals_append, observed_append, hterminals, outputOf, terminalOf,
            CellEvent.isTerminal, CellEvent.contentItems, hitems]
      · rw [hsend] at hfinish
        exact hsilent hfinish
    | completed _ _ | completionClaimed _ | tombstone => rw [hphase] at hopen; cases hopen
  · obtain ⟨event, hcompleted, -, hfits, hemitted⟩ := hcommitted.phase
    have hitems : system.emitted = observed system.cell.channels.handed ++ event.contentItems :=
      hemitted
    have hphase : system.cell.phase = .completed none event := hcompleted
    have hterminals : terminals system.cell.channels.handed = [] := hcommitted.terminals
    refine stage_finished (by rw [finishTermination, hphase]; rfl) hfits ?_ ?_
      hcommitted.ended observerTx
    · simp [hterminals]
    · simpa [hterminals, outputOf] using hitems
  · obtain ⟨event, hclaimedPhase, hfits, hall⟩ := hclaimed.phase
    have hphase : system.cell.phase = .completionClaimed event := hclaimedPhase
    have hterminals : terminals system.cell.channels.handed ≠ [] := hclaimed.terminals
    have hitems : system.emitted = observed system.cell.channels.handed := hclaimed.items
    refine stage_finished (by rw [finishTermination, hphase]) hfits hall ?_
      hclaimed.ended observerTx
    simp [hterminals, outputOf, hfits.1, hitems]

lemma stage_hand {observerTx : ℕ} {event : CellEvent Item}
    (hcontrol : system.control = .handing observerTx event) :
    Stage (system.hand observerTx event).view := by
  have hhanding := h.of_handing hcontrol
  obtain ⟨tx, other, hsame, hfits, hall, hemitted⟩ := hhanding.control
  obtain ⟨rfl, rfl⟩ := Control.handing.inj (hcontrol.symm.trans hsame)
  have hitems : system.emitted = observed system.cell.channels.handed ++
      outputOf (!(terminals system.cell.channels.handed).isEmpty) (.ok event) := hemitted
  have hphase : system.cell.phase = .tombstone := hhanding.phase
  unfold hand
  rcases system.cell.channels.send_eq (.observer observerTx) (.ok event) with hsend | ⟨hsend, -⟩
  · rw [hsend]
    have hoverall : system.emitted =
        observed (system.cell.channels.handed ++ [(.observer observerTx, .ok event)]) := by
      rw [observed_append, hitems]
    refine .done ⟨hphase, .inl rfl, ⟨event, fun terminal hterminal => ?_⟩, ?_, fun _ => hoverall,
      hhanding.ended⟩
    · have hmem : terminal ∈ terminals (system.cell.channels.handed ++
          [(.observer observerTx, .ok event)]) := hterminal
      rw [terminals_of_terminal hfits.1] at hmem
      rcases mem_append.1 hmem with hold | hnew
      · obtain rfl := hall terminal hold
        exact ⟨rfl, hfits⟩
      · obtain rfl := mem_singleton.1 hnew
        exact ⟨rfl, hfits⟩
    · exact ⟨[], (append_nil _).trans hoverall.symm⟩
  · rw [hsend]
    refine .done ⟨hphase, .inl rfl, ⟨event, fun terminal hterminal => ?_⟩, ⟨_, hitems.symm⟩,
      fun hterminals => ?_, hhanding.ended⟩
    · obtain rfl := hall terminal hterminal
      exact ⟨rfl, hfits⟩
    · have hseen : terminals system.cell.channels.handed ≠ [] := hterminals
      refine hitems.trans ?_
      simp [outputOf, hfits.1, hseen, view, setChannels]

lemma stage_close (hcontrol : system.control = .closing) : Stage system.close.view := by
  have hdone := h.of_closing hcontrol
  exact .done ⟨rfl, .inr rfl, hdone.outcome, hdone.items, hdone.all, hdone.ended⟩

lemma stage_terminate : Stage system.terminate.view := by
  have hreply : ∀ error, system.cell.requestTermination system.terminators = { system.cell with
      channels := system.cell.channels.reply (.terminator system.terminators) (.error error) } →
      Stage system.terminate.view := fun error hrequest => by
    have hview : system.terminate.view = system.view := by
      rw [← view_reply_error system (.terminator system.terminators) error]
      unfold terminate
      rw [hrequest]
      rfl
    rw [hview]
    exact h
  -- A cell without outcome is told to terminate, unless it was told before.
  have hopened : (∀ phase : CellPhase Item, phase.isOpen = true →
      Stage { system.view with phase }) → system.cell.phase.isOpen = true →
      Stage system.terminate.view := fun hphases hopen => by
    cases hphase : system.cell.phase with
    | running =>
      have hview : system.terminate.view =
          { system.view with phase := .terminating system.terminators } := by
        simp [terminate, requestTermination, hphase, view]
      rw [hview]
      exact hphases _ rfl
    | terminating _ =>
      exact hreply .alreadyTerminating (by simp [requestTermination, hphase])
    | completed _ _ | completionClaimed _ | tombstone => rw [hphase] at hopen; cases hopen
  have hburied : system.cell.phase = .tombstone → Stage system.terminate.view := fun hphase =>
    hreply .closed (by simp [requestTermination, hphase])
  cases h with
  | active h =>
    exact hopened (fun phase hphase => .active ⟨hphase, h.control, h.closed, h.terminals, h.merged,
      h.items, h.orderly⟩) h.phase
  | stopping h =>
    exact hopened (fun phase hphase => .stopping ⟨hphase, h.closed, h.terminals, h.merged, h.items,
      h.ended⟩) h.phase
  | committed h =>
    obtain ⟨event, hcompleted, hkind, hfits, hemitted⟩ := h.phase
    have hphase : system.cell.phase = .completed none event := hcompleted
    have hterminals : terminals system.cell.channels.handed = [] := h.terminals
    have hitems : system.emitted = observed system.cell.channels.handed ++ event.contentItems :=
      hemitted
    have hview : system.terminate.view = { system.view with
        phase := .completionClaimed event
        terminals := [event]
        observed := system.emitted } := by
      simp [terminate, requestTermination, hphase, view, Channels.reply,
        CellEvent.prependInitialYield, terminals_of_terminal hfits.1, hterminals,
        observed_of_first hterminals, hitems]
    rw [hview]
    exact .claimed ⟨⟨event, rfl, hfits, by simp⟩, h.control, h.closed, by simp, rfl, h.ended⟩
  | claimed h =>
    obtain ⟨event, hclaimed, -⟩ := h.phase
    have hphase : system.cell.phase = .completionClaimed event := hclaimed
    exact hreply .alreadyTerminating (by simp [requestTermination, hphase])
  | handing h | done h => exact hburied h.phase

end

lemma active_emit (h : Active system.view)
    (hresult : system.runtime.result.isSome → event = .threadPanicked) :
    Active (system.emit event).view := by
  have hitems := h.emitted
  have hsplit : itemsOf (system.events ++ [event]) = itemsOf system.events ++ itemsOf [event] :=
    filterMap_append
  refine ⟨h.phase, h.control, h.closed, h.terminals, h.merged, ?_, ?_⟩
  · change _ = _ ++ _ ++ itemsOf (system.events ++ [event])
    rw [hsplit, ← List.append_assoc]
    change _ = observed system.cell.channels.handed ++ system.actor.contentItems ++
      itemsOf system.events ++ itemsOf [event]
    rw [← hitems]
    cases event with
    | contentItem item => rfl
    | _ => exact (append_nil _).symm
  · cases event with
    | result writes errorText =>
      rcases h.orderly with ⟨-, hall⟩ | ⟨_, old, _, _, -, hsome, -⟩
      · exact .inr ⟨system.events, writes, errorText, [], rfl, rfl, hall, by simp⟩
      · have hisSome : system.runtime.result = some old := hsome
        cases hresult (by rw [hisSome]; rfl)
    | _ => exact h.orderly.emit rfl hresult

section

variable (h : Stage system.view)
include h

lemma stage_emit (hrunning : system.runtime.exited = false)
    (hresult : system.runtime.result.isSome → event = .threadPanicked) :
    Stage (system.emit event).view := by
  have hquiet : system.runtime.ended = true → event = .threadPanicked := fun hended => by
    simp only [Runtime.ended, hrunning, Bool.or_false] at hended
    exact hresult hended
  cases h with
  | active h => exact .active (active_emit h hresult)
  | stopping h =>
    obtain rfl := hquiet h.ended
    exact .stopping ⟨h.phase, h.closed, h.terminals, h.merged, h.items, h.ended⟩
  | committed h =>
    obtain rfl := hquiet h.ended
    exact .committed ⟨h.phase, h.control, h.closed, h.terminals, h.ended⟩
  | claimed h =>
    obtain rfl := hquiet h.ended
    exact .claimed ⟨h.phase, h.control, h.closed, h.terminals, h.items, h.ended⟩
  | handing h =>
    obtain rfl := hquiet h.ended
    exact .handing ⟨h.phase, h.control, h.ended⟩
  | done h =>
    obtain rfl := hquiet h.ended
    exact .done ⟨h.phase, h.control, h.outcome, h.items, h.all, h.ended⟩

lemma stage_exit :
    Stage { system with runtime := { system.runtime with exited := true } }.view := by
  have hended : ({ system.runtime with exited := true } : Runtime Value).ended = true :=
    Bool.or_true _
  cases h with
  | active h =>
    exact .active ⟨h.phase, h.control, h.closed, h.terminals, h.merged, h.items, h.orderly⟩
  | stopping h => exact .stopping ⟨h.phase, h.closed, h.terminals, h.merged, h.items, hended⟩
  | committed h => exact .committed ⟨h.phase, h.control, h.closed, h.terminals, hended⟩
  | claimed h => exact .claimed ⟨h.phase, h.control, h.closed, h.terminals, h.items, hended⟩
  | handing h => exact .handing ⟨h.phase, h.control, hended⟩
  | done h => exact .done ⟨h.phase, h.control, h.outcome, h.items, h.all, hended⟩

variable (mode : ObserveMode)

lemma stage_beginObserve : Stage (system.beginObserve mode).view := by
  unfold beginObserve
  split_ifs
  · exact h
  · exact view_reply_error system (.observer system.observers) .closed ▸ h

lemma stage_sendObserve (responseTx : ℕ) : Stage (system.sendObserve mode responseTx).view := by
  unfold sendObserve
  split_ifs
  · exact h
  · exact view_reply_error system (.observer responseTx) .closed ▸ h

lemma stage_step (hstep : Step system next) : Stage next.view := by
  cases hstep with
  | terminate => exact stage_terminate h
  | beginObserve mode => exact stage_beginObserve h mode
  | sendObserve before after mode responseTx _ =>
    refine stage_sendObserve ?_ mode responseTx
    exact h
  | shutdown | drop receiver => exact h
  | emit event hrunning hresult => exact stage_emit h hrunning hresult
  | exit => exact stage_exit h
  | cancelled hcontrol _ _ => exact stage_onCancelled h (congrArg Control.inLoop hcontrol)
  | command mode responseTx rest hcontrol _ _ =>
    refine stage_onCommand ?_ ?_ mode responseTx
    · exact h
    · exact congrArg Control.inLoop hcontrol
  | route mode responseTx hcontrol =>
    exact stage_route h (congrArg Control.inLoop hcontrol) mode responseTx
  | noCommands _ _ _ => exact h
  | timer hcontrol _ => exact stage_timer h (congrArg Control.inLoop hcontrol)
  | event event rest hcontrol hopen hevents =>
    exact stage_onEvent (h.active_of_inLoop (congrArg Control.inLoop hcontrol) hopen) hevents
  | exited hcontrol hopen hevents hexited =>
    exact stage_exited (h.active_of_inLoop (congrArg Control.inLoop hcontrol) hopen) hevents hexited _
  | complete writes errorText hcontrol => exact stage_complete h hcontrol
  | deliver rejectedEvent hcontrol => exact stage_deliver h hcontrol
  | finish observerTx contentItems hcontrol => exact stage_finish h hcontrol
  | hand observerTx event hcontrol => exact stage_hand h hcontrol
  | close hcontrol => exact stage_close h hcontrol

end

lemma Reachable.stage (h : Reachable system) : Stage system.view := by
  induction h with
  | start mode => exact .active ⟨rfl, rfl, rfl, rfl, rfl, rfl, .inl ⟨rfl, by simp [view, System.start]⟩⟩
  | step _ hstep ih => exact stage_step ih hstep

end System

end TokenCode.CodeMode
