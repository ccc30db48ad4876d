/-
The phase of a code-mode cell (`code-mode/src/cell_actor/types.rs`).

A cell runs until it completes or is terminated. Its phase is shared between the actor of the cell,
the callers of `terminate` and the observers, and every operation on it is atomic. Answers go out on
channels that carry one response each; a response is handed over unless the receiver has been dropped.
-/
import TokenCode.Lib.Text

namespace TokenCode.CodeMode

variable {Item : Type}

/-! ### Events and their receivers -/

inductive ObserveMode where
  | yieldAfter (duration : ℕ)
  | pendingFrontier
deriving DecidableEq, Repr

inductive CellEvent (Item : Type) where
  | yielded (contentItems : List Item)
  | pending (contentItems : List Item) (pendingToolCallIds : List Text)
  | completed (contentItems : List Item) (errorText : Option Text)
  | terminated (contentItems : List Item)
deriving DecidableEq, Repr

namespace CellEvent

def contentItems : CellEvent Item → List Item
  | yielded items | pending items _ | completed items _ | terminated items => items

/-- The event ends the cell. -/
def isTerminal : CellEvent Item → Bool
  | yielded _ | pending _ _ => false
  | completed _ _ | terminated _ => true

def isCompleted : CellEvent Item → Bool
  | completed _ _ => true
  | yielded _ | pending _ _ | terminated _ => false

/-- `prepend_initial_yield`. -/
def prependInitialYield (event : CellEvent Item) : Option (List Item) → CellEvent Item
  | none => event
  | some first =>
    match event with
    | yielded items => yielded (first ++ items)
    | pending items ids => pending (first ++ items) ids
    | completed items errorText => completed (first ++ items) errorText
    | terminated items => terminated (first ++ items)

end CellEvent

inductive CellError where
  | busy
  | alreadyTerminating
  | closed
deriving DecidableEq, Repr

abbrev Response (Item : Type) := Except CellError (CellEvent Item)

/-- Who waits for a response: observers, and callers of `terminate`. -/
inductive Receiver where
  | observer (id : ℕ)
  | terminator (id : ℕ)
deriving DecidableEq, Repr

/-- The channels: which receivers have been dropped, and what was handed to whom. -/
structure Channels (Item : Type) where
  dropped : List Receiver
  handed : List (Receiver × Response Item)

namespace Channels

/-- The response is there at once. -/
def reply (channels : Channels Item) (receiver : Receiver) (response : Response Item) :
    Channels Item :=
  { channels with handed := channels.handed ++ [(receiver, response)] }

/-- `oneshot::Sender::send`: whether the response was handed over. -/
def send (channels : Channels Item) (receiver : Receiver) (response : Response Item) :
    Bool × Channels Item :=
  if receiver ∈ channels.dropped then (false, channels)
  else (true, channels.reply receiver response)

end Channels

/-! ### The phase -/

inductive CellPhase (Item : Type) where
  | running
  | terminating (responseTx : ℕ)
  | completed (pendingInitialYieldItems : Option (List Item)) (event : CellEvent Item)
  | completionClaimed (event : CellEvent Item)
  | tombstone

/-- `CellState`, with the channels on which it answers. -/
structure CellState (Item : Type) where
  phase : CellPhase Item
  cancelled : Bool
  channels : Channels Item

/-- `CompletionDelivery`. Senders to observers are given by the ids of their receivers. -/
inductive CompletionDelivery where
  | delivered
  | buffered
  | rejected (responseTx : Option ℕ)

inductive CompletionCommit (Item : Type) where
  | committed
  | rejected (event : CellEvent Item)

inductive ObservationDelivery where
  | running (responseTx : ℕ)
  | delivered
  | buffered
  | closed

namespace CellState

def acceptingObservations (state : CellState Item) : Bool :=
  let acceptingPhase :=
    match state.phase with
    | .running | .completed _ _ => true
    | .terminating _ | .completionClaimed _ | .tombstone => false
  acceptingPhase && !state.cancelled

/-- `request_termination` for the caller with this id. -/
def requestTermination (state : CellState Item) (id : ℕ) : CellState Item :=
  match state.phase with
  | .running => { state with phase := .terminating id, cancelled := true }
  | .terminating _ | .completionClaimed _ =>
    { state with channels := state.channels.reply (.terminator id) (.error .alreadyTerminating) }
  | .completed pendingInitialYieldItems event =>
    { phase := .completionClaimed (event.prependInitialYield pendingInitialYieldItems)
      cancelled := true
      channels := state.channels.reply (.terminator id)
        (.ok (event.prependInitialYield pendingInitialYieldItems)) }
  | .tombstone => { state with channels := state.channels.reply (.terminator id) (.error .closed) }

/-- `commit_completion`; the writes are merged just in case it returns `committed`. -/
def commitCompletion (state : CellState Item) (event : CellEvent Item)
    (pendingInitialYieldItems : Option (List Item)) : CompletionCommit Item × CellState Item :=
  match state.phase with
  | .running =>
    if state.cancelled then (.rejected event, state)
    else (.committed, { state with phase := .completed pendingInitialYieldItems event })
  | _ => (.rejected event, state)

/-- `deliver_completion`. -/
def deliverCompletion (state : CellState Item) (responseTx : Option ℕ) :
    CompletionDelivery × CellState Item :=
  match state.phase with
  | .completed _ event =>
    match responseTx with
    | none => (.buffered, state)
    | some responseTx =>
      match state.channels.send (.observer responseTx) (.ok event) with
      | (true, channels) => (.delivered, ⟨.tombstone, true, channels⟩)
      | (false, channels) => (.buffered, { state with channels })
  | _ => (.rejected responseTx, state)

/-- An observation of a completed cell gets the terminal event. -/
def observeCompleted (state : CellState Item) (pendingInitialYieldItems : Option (List Item))
    (event : CellEvent Item) (responseTx : ℕ) : ObservationDelivery × CellState Item :=
  match state.channels.send (.observer responseTx)
      (.ok (event.prependInitialYield pendingInitialYieldItems)) with
  | (true, channels) => (.delivered, ⟨.tombstone, true, channels⟩)
  | (false, channels) => (.buffered, { state with channels })

/-- `route_observation`. -/
def routeObservation (state : CellState Item) (mode : ObserveMode) (responseTx : ℕ) :
    ObservationDelivery × CellState Item :=
  match state.phase with
  | .running => (.running responseTx, state)
  | .completed (some items) event =>
    match mode with
    | .yieldAfter _ =>
      match state.channels.send (.observer responseTx) (.ok (.yielded items)) with
      | (true, channels) => (.buffered, { state with phase := .completed none event, channels })
      | (false, channels) => (.buffered, { state with channels })
    | .pendingFrontier => state.observeCompleted (some items) event responseTx
  | .completed none event => state.observeCompleted none event responseTx
  | .terminating _ | .completionClaimed _ | .tombstone =>
    (.closed, { state with
      channels := (state.channels.send (.observer responseTx) (.error .closed)).2 })

/-- `CellState::finish_termination`. -/
def finishTermination (state : CellState Item) (event : CellEvent Item) :
    Option (CellEvent Item) × CellState Item :=
  match state.phase with
  | .running => (some event, ⟨.tombstone, true, state.channels⟩)
  | .terminating responseTx =>
    (some event, ⟨.tombstone, true, (state.channels.send (.terminator responseTx) (.ok event)).2⟩)
  | .completed pendingInitialYieldItems completed =>
    (some (completed.prependInitialYield pendingInitialYieldItems),
      ⟨.tombstone, true, state.channels⟩)
  | .completionClaimed completed => (some completed, ⟨.tombstone, true, state.channels⟩)
  | .tombstone => (none, ⟨.tombstone, true, state.channels⟩)

/-- `tombstone`. -/
def tombstone (state : CellState Item) : CellState Item :=
  { state with phase := .tombstone, cancelled := true }

/-! What the operations do in the phases of a cell without a pending first yield. -/

variable {state : CellState Item} {event : CellEvent Item}

lemma deliverCompletion_rejected (h : ∀ items event, state.phase ≠ .completed items event)
    (responseTx : Option ℕ) : state.deliverCompletion responseTx = (.rejected responseTx, state) := by
  unfold deliverCompletion
  split
  · next hphase => exact absurd hphase (h _ _)
  · rfl

variable (h : state.phase = .completed none event)
include h

lemma deliverCompletion_of_completed (responseTx : ℕ) : state.deliverCompletion (some responseTx) =
      if Receiver.observer responseTx ∈ state.channels.dropped then (.buffered, state)
      else (.delivered, ⟨.tombstone, true, state.channels.reply (.observer responseTx) (.ok event)⟩) := by
  obtain ⟨phase, cancelled, channels⟩ := state
  subst h
  dsimp only [deliverCompletion, Channels.send]
  split_ifs <;> rfl

lemma routeObservation_of_completed (mode : ObserveMode)
    (responseTx : ℕ) : state.routeObservation mode responseTx =
      if Receiver.observer responseTx ∈ state.channels.dropped then (.buffered, state)
      else (.delivered, ⟨.tombstone, true, state.channels.reply (.observer responseTx) (.ok event)⟩) := by
  obtain ⟨phase, cancelled, channels⟩ := state
  subst h
  dsimp only [routeObservation, observeCompleted, Channels.send]
  split_ifs <;> rfl

end CellState

end TokenCode.CodeMode
