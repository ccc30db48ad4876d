/-
The actor of a code-mode cell (`code-mode/src/cell_actor/mod.rs`) and everything that runs beside it.

The actor collects what the runtime emits and hands it to observers. Between the critical sections
of its ending (callbacks are finished, the completion is committed, delivered, or the termination is
finished) callers of `terminate`, observers and the session may step in: where it stands is its
control. In its loop any branch that is ready may be taken.

Tasks for tools and notifications and what is sent to the runtime are left out: the runtime may emit
anything until it has sent its result or its thread has ended.
-/
import TokenCode.CodeMode.CellState

namespace TokenCode.CodeMode

variable {Item Value : Type}

/-- `HashMap<String, JsonValue>`. -/
abbrev StoredValueWrites (Value : Type) := AList fun _ : Text => Value

inductive RuntimeEvent (Item Value : Type) where
  | started
  | pending
  | contentItem (item : Item)
  | yieldRequested
  | toolCall (id : Text)
  | notify
  | result (storedValueWrites : StoredValueWrites Value) (errorText : Option Text)
  | threadPanicked

structure Observer where
  mode : ObserveMode
  responseTx : ℕ
deriving DecidableEq, Repr

/-- The variables of `run_cell`. -/
structure Actor (Item : Type) where
  contentItems : List Item
  pendingToolCallIds : List Text
  pendingFrontierReady : Bool
  observer : Option Observer
  termination : Bool
  runtimeClosed : Bool
  runtimePaused : Bool
  /-- There is a timer; it may elapse at any moment. -/
  yieldTimer : Bool
  /-- The command channel is still there. -/
  commandRx : Bool

/-- Where `run_cell` stands. -/
inductive Control (Item Value : Type) where
  /-- In the loop. -/
  | select
  /-- An observe command whose receiver was there. -/
  | routing (mode : ObserveMode) (responseTx : ℕ)
  /-- Callbacks are finished, then the completion is committed. -/
  | completing (storedValueWrites : StoredValueWrites Value) (errorText : Option Text)
  /-- The completion is delivered; it may have been rejected. -/
  | delivering (rejectedEvent : Option (CellEvent Item))
  /-- Callbacks are finished, then `finish_termination` for the observer with these items. -/
  | finishing (observerTx : Option ℕ) (contentItems : List Item)
  /-- `finish_termination` sends the event to the observer. -/
  | handing (observerTx : ℕ) (event : CellEvent Item)
  /-- The loop has ended. -/
  | closing
  | closed

/-- What the runtime has done: its result, and whether its thread has ended. -/
structure Runtime (Value : Type) where
  result : Option (StoredValueWrites Value)
  exited : Bool

/-- The runtime emits no more output. -/
def Runtime.ended (runtime : Runtime Value) : Bool := runtime.result.isSome || runtime.exited

/-- A cell with everything that runs beside it. `admitted` are the calls of `observe` that were
found acceptable and have not sent their commands yet; `emitted` is all output of the runtime and
`merged` are the writes that have been merged into the session. -/
structure System (Item Value : Type) where
  cell : CellState Item
  actor : Actor Item
  control : Control Item Value
  commands : List (ObserveMode × ℕ)
  admitted : List (ObserveMode × ℕ)
  observers : ℕ
  terminators : ℕ
  events : List (RuntimeEvent Item Value)
  runtime : Runtime Value
  emitted : List Item
  merged : List (StoredValueWrites Value)

def ObserveMode.hasTimer : ObserveMode → Bool
  | yieldAfter _ => true
  | pendingFrontier => false

/-- `observer_timer`, for an observer that may be missing. -/
def observerTimer (observer : Option Observer) : Bool := observer.any fun o => o.mode.hasTimer

namespace System

/-- A new cell with its first observer. -/
def start (mode : ObserveMode) : System Item Value where
  cell := ⟨.running, false, ⟨[], []⟩⟩
  actor := ⟨[], [], false, some ⟨mode, 0⟩, false, false, false, false, true⟩
  control := .select
  commands := []
  admitted := []
  observers := 1
  terminators := 0
  events := []
  runtime := ⟨none, false⟩
  emitted := []
  merged := []

def setActor (system : System Item Value) (actor : Actor Item) : System Item Value :=
  { system with actor }

def setChannels (system : System Item Value) (channels : Channels Item) : System Item Value :=
  { system with cell := { system.cell with channels } }

/-! ### The loop -/

/-- What the observer and the collected items become in `finish_termination`. -/
def beginFinish (system : System Item Value) : System Item Value :=
  { system with
    actor := { system.actor with observer := none, contentItems := [] }
    control := .finishing (system.actor.observer.map Observer.responseTx)
      system.actor.contentItems }

/-- The branch of the cancellation token. -/
def onCancelled (system : System Item Value) : System Item Value :=
  let stopped : System Item Value :=
    { system with
      actor := { system.actor with termination := true, yieldTimer := false, commandRx := false }
      commands := [] }
  if system.actor.runtimeClosed then stopped.beginFinish else stopped

/-- The collected items are offered to an observer as a pending frontier, and kept if it is gone. -/
def offerPending (system : System Item Value) (responseTx : ℕ) : System Item Value :=
  match system.cell.channels.send (.observer responseTx)
      (.ok (.pending system.actor.contentItems system.actor.pendingToolCallIds)) with
  | (true, channels) =>
    (system.setChannels channels).setActor
      { system.actor with
        contentItems := []
        pendingToolCallIds := []
        pendingFrontierReady := false }
  | (false, channels) =>
    (system.setChannels channels).setActor { system.actor with pendingFrontierReady := true }

/-- The collected items are offered to the observer, and kept if there is none or it is gone
(`restore_undelivered_yield`). -/
def offerYield (system : System Item Value) : System Item Value :=
  let actor := { system.actor with observer := none, yieldTimer := false }
  match system.actor.observer with
  | none => system.setActor actor
  | some observer =>
    match system.cell.channels.send (.observer observer.responseTx)
        (.ok (.yielded system.actor.contentItems)) with
    | (true, channels) => (system.setChannels channels).setActor { actor with contentItems := [] }
    | (false, channels) => (system.setChannels channels).setActor actor

/-- An observer that is gone is forgotten. -/
def forgetObserver (system : System Item Value) : Actor Item :=
  if system.actor.observer.any fun o => Receiver.observer o.responseTx ∈ system.cell.channels.dropped
  then { system.actor with observer := none, yieldTimer := false }
  else system.actor

/-- The observation of a cell that runs. -/
def startObservation (system : System Item Value) (mode : ObserveMode) (responseTx : ℕ) :
    System Item Value :=
  let actor := system.forgetObserver
  if actor.observer.isSome || actor.termination then
    (system.setActor actor).setChannels
      (system.cell.channels.send (.observer responseTx) (.error .busy)).2
  else if mode = .pendingFrontier ∧ actor.pendingFrontierReady then
    (system.setActor actor).offerPending responseTx
  else
    let fresh := actor.runtimePaused && mode.hasTimer
    system.setActor
      { actor with
        observer := some ⟨mode, responseTx⟩
        yieldTimer := mode.hasTimer
        pendingFrontierReady := if fresh then false else actor.pendingFrontierReady
        pendingToolCallIds := if fresh then [] else actor.pendingToolCallIds
        runtimePaused := false }

/-- The branch of the commands: one whose receiver is gone is passed over. -/
def onCommand (system : System Item Value) (mode : ObserveMode) (responseTx : ℕ) :
    System Item Value :=
  if Receiver.observer responseTx ∈ system.cell.channels.dropped then system
  else { system with control := .routing mode responseTx }

/-- The rest of that branch. -/
def route (system : System Item Value) (mode : ObserveMode) (responseTx : ℕ) : System Item Value :=
  match system.cell.routeObservation mode responseTx with
  | (.running responseTx, cell) =>
    { system with cell, control := .select }.startObservation mode responseTx
  | (.delivered, cell) => { system with cell, control := .closing }
  | (.buffered, cell) | (.closed, cell) => { system with cell, control := .select }

/-- The runtime has ended. -/
def onRuntimeEnd (system : System Item Value) (storedValueWrites : StoredValueWrites Value)
    (errorText : Option Text) : System Item Value :=
  let ended := system.setActor { system.actor with runtimeClosed := true }
  if system.actor.termination || system.cell.cancelled then ended.beginFinish
  else { ended with control := .completing storedValueWrites errorText }

def runtimeEndedError : Text := "exec runtime ended unexpectedly".toList

/-- The branch of the runtime, for an event. -/
def onEvent (system : System Item Value) : RuntimeEvent Item Value → System Item Value
  | .started =>
    system.setActor { system.actor with yieldTimer := observerTimer system.actor.observer }
  | .pending =>
    match system.actor.observer with
    | some ⟨.pendingFrontier, responseTx⟩ =>
      (system.setActor { system.actor with
        runtimePaused := true, yieldTimer := false, observer := none }).offerPending responseTx
    | _ => system.setActor { system.actor with pendingToolCallIds := [], runtimePaused := false }
  | .contentItem item =>
    system.setActor { system.actor with contentItems := system.actor.contentItems ++ [item] }
  | .yieldRequested => if observerTimer system.actor.observer then system.offerYield else system
  | .toolCall id =>
    system.setActor { system.actor with
      pendingToolCallIds := system.actor.pendingToolCallIds ++ [id] }
  | .notify | .threadPanicked => system
  | .result storedValueWrites errorText =>
    (system.setActor { system.actor with yieldTimer := false }).onRuntimeEnd storedValueWrites
      errorText

/-! ### The ending -/

/-- `RuntimeCellHost::commit_completion`: a cancelled cell is rejected before its turn. -/
def hostCommitCompletion (cell : CellState Item) (event : CellEvent Item) :
    CompletionCommit Item × CellState Item :=
  if cell.cancelled then (.rejected event, cell) else cell.commitCompletion event none

def complete (system : System Item Value) (storedValueWrites : StoredValueWrites Value)
    (errorText : Option Text) : System Item Value :=
  let taken := system.setActor { system.actor with contentItems := [] }
  match hostCommitCompletion system.cell (.completed system.actor.contentItems errorText) with
  | (.committed, cell) =>
    { taken with
      cell
      merged := system.merged ++ [storedValueWrites]
      control := .delivering none }
  | (.rejected event, cell) => { taken with cell, control := .delivering (some event) }

/-- `rejected_completion_content`. -/
def rejectedCompletionContent : Option (CellEvent Item) → List Item
  | some event => event.contentItems
  | none => []

def deliver (system : System Item Value) (rejectedEvent : Option (CellEvent Item)) :
    System Item Value :=
  let taken := system.setActor { system.actor with observer := none }
  match system.cell.deliverCompletion (system.actor.observer.map Observer.responseTx) with
  | (.delivered, cell) => { taken with cell, control := .closing }
  | (.buffered, cell) => { taken with cell, control := .select }
  | (.rejected responseTx, cell) =>
    { taken with
      cell
      control := .finishing responseTx (rejectedCompletionContent rejectedEvent) }

/-- The critical section of `finish_termination`. -/
def finish (system : System Item Value) (observerTx : Option ℕ) (contentItems : List Item) :
    System Item Value :=
  match system.cell.finishTermination (.terminated contentItems), observerTx with
  | (some event, cell), some observerTx => { system with cell, control := .handing observerTx event }
  | (_, cell), _ => { system with cell, control := .closing }

def hand (system : System Item Value) (observerTx : ℕ) (event : CellEvent Item) :
    System Item Value :=
  { system.setChannels (system.cell.channels.send (.observer observerTx) (.ok event)).2 with
    control := .closing }

def close (system : System Item Value) : System Item Value :=
  { system with
    cell := system.cell.tombstone
    actor := { system.actor with commandRx := false }
    commands := []
    control := .closed }

/-! ### The others -/

/-- A caller of `terminate`. -/
def terminate (system : System Item Value) : System Item Value :=
  { system with
    cell := system.cell.requestTermination system.terminators
    terminators := system.terminators + 1 }

/-- `CellHandle::observe` asks whether observations are accepted. -/
def beginObserve (system : System Item Value) (mode : ObserveMode) : System Item Value :=
  let called := { system with observers := system.observers + 1 }
  if system.cell.acceptingObservations then
    { called with admitted := system.admitted ++ [(mode, system.observers)] }
  else
    called.setChannels
      (system.cell.channels.reply (.observer system.observers) (.error .closed))

/-- `CellHandle::observe` sends its command. -/
def sendObserve (system : System Item Value) (mode : ObserveMode) (responseTx : ℕ) :
    System Item Value :=
  if system.actor.commandRx then { system with commands := system.commands ++ [(mode, responseTx)] }
  else system.setChannels (system.cell.channels.reply (.observer responseTx) (.error .closed))

/-- The runtime emits an event. After its result only the supervisor of its thread does. -/
def emit (system : System Item Value) (event : RuntimeEvent Item Value) : System Item Value :=
  { system with
    events := system.events ++ [event]
    runtime :=
      match event with
      | .result writes _ => { system.runtime with result := some writes }
      | _ => system.runtime
    emitted :=
      match event with
      | .contentItem item => system.emitted ++ [item]
      | _ => system.emitted }

inductive Step : System Item Value → System Item Value → Prop
  | terminate (system : System Item Value) : Step system system.terminate
  | beginObserve (system : System Item Value) (mode : ObserveMode) :
      Step system (system.beginObserve mode)
  | sendObserve (system : System Item Value) (before after : List (ObserveMode × ℕ))
      (mode : ObserveMode) (responseTx : ℕ)
      (hadmitted : system.admitted = before ++ (mode, responseTx) :: after) :
      Step system ({ system with admitted := before ++ after }.sendObserve mode responseTx)
  | shutdown (system : System Item Value) :
      Step system { system with cell := { system.cell with cancelled := true } }
  | drop (system : System Item Value) (receiver : Receiver) :
      Step system (system.setChannels
        { system.cell.channels with dropped := receiver :: system.cell.channels.dropped })
  | emit (system : System Item Value) (event : RuntimeEvent Item Value)
      (hrunning : system.runtime.exited = false)
      (hresult : system.runtime.result.isSome → event = .threadPanicked) :
      Step system (system.emit event)
  | exit (system : System Item Value) :
      Step system { system with runtime := { system.runtime with exited := true } }
  | cancelled (system : System Item Value) (hcontrol : system.control = .select)
      (hcancelled : system.cell.cancelled = true) (htermination : system.actor.termination = false) :
      Step system system.onCancelled
  | command (system : System Item Value) (mode : ObserveMode) (responseTx : ℕ)
      (rest : List (ObserveMode × ℕ)) (hcontrol : system.control = .select)
      (hopen : system.actor.commandRx = true)
      (hcommands : system.commands = (mode, responseTx) :: rest) :
      Step system ({ system with commands := rest }.onCommand mode responseTx)
  | route (system : System Item Value) (mode : ObserveMode) (responseTx : ℕ)
      (hcontrol : system.control = .routing mode responseTx) :
      Step system (system.route mode responseTx)
  | noCommands (system : System Item Value) (hcontrol : system.control = .select)
      (hopen : system.actor.commandRx = true) (hcommands : system.commands = []) :
      Step system { system with cell := { system.cell with cancelled := true } }
  | timer (system : System Item Value) (hcontrol : system.control = .select)
      (htimer : system.actor.yieldTimer = true) : Step system system.offerYield
  | event (system : System Item Value) (event : RuntimeEvent Item Value)
      (rest : List (RuntimeEvent Item Value)) (hcontrol : system.control = .select)
      (hopen : system.actor.runtimeClosed = false) (hevents : system.events = event :: rest) :
      Step system ({ system with events := rest }.onEvent event)
  | exited (system : System Item Value) (hcontrol : system.control = .select)
      (hopen : system.actor.runtimeClosed = false) (hevents : system.events = [])
      (hexited : system.runtime.exited = true) :
      Step system (system.onRuntimeEnd ∅ (some runtimeEndedError))
  | complete (system : System Item Value) (writes : StoredValueWrites Value)
      (errorText : Option Text) (hcontrol : system.control = .completing writes errorText) :
      Step system (system.complete writes errorText)
  | deliver (system : System Item Value) (rejectedEvent : Option (CellEvent Item))
      (hcontrol : system.control = .delivering rejectedEvent) :
      Step system (system.deliver rejectedEvent)
  | finish (system : System Item Value) (observerTx : Option ℕ) (contentItems : List Item)
      (hcontrol : system.control = .finishing observerTx contentItems) :
      Step system (system.finish observerTx contentItems)
  | hand (system : System Item Value) (observerTx : ℕ) (event : CellEvent Item)
      (hcontrol : system.control = .handing observerTx event) :
      Step system (system.hand observerTx event)
  | close (system : System Item Value) (hcontrol : system.control = .closing) :
      Step system system.close

inductive Reachable : System Item Value → Prop
  | start (mode : ObserveMode) : Reachable (start mode)
  | step {system next : System Item Value} : Reachable system → Step system next → Reachable next

end System

end TokenCode.CodeMode
