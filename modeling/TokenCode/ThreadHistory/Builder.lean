/-
The builder of a thread's history (`app-server-protocol/src/protocol/thread_history.rs`).

The builder takes the items of a rollout one after the other and keeps the turns that are finished and
the turn that is open. Most events make an item and put it into the open turn or into the turn that
they name. While changes are tracked, every item and every turn that is changed is recorded; recording
does nothing while they are not.
-/
import TokenCode.ThreadHistory.Items
import TokenCode.Lib.Keyed

namespace TokenCode.ThreadHistory

open Text Rollout Keyed

inductive TurnStatus where
  | completed
  | interrupted
  | failed
  | inProgress
deriving DecidableEq, Repr

structure TurnError where
  message : Text
  codexErrorInfo : Option CodexErrorInfo
deriving DecidableEq, Repr

structure Turn where
  id : Text
  items : List ThreadItem
  error : Option TurnError
  status : TurnStatus
  startedAt : Option ℤ
  completedAt : Option ℤ
  durationMs : Option ℤ
deriving DecidableEq, Repr

structure PendingTurn extends Turn where
  openedExplicitly : Bool
  sawCompaction : Bool
  rolloutStartIndex : ℕ
deriving DecidableEq, Repr

/-! ### Changes -/

structure ThreadHistoryItemChange where
  turnId : Text
  item : ThreadItem
deriving DecidableEq, Repr

structure ThreadHistoryTurnChange where
  turnId : Text
  status : TurnStatus
  error : Option TurnError
  startedAt : Option ℤ
  completedAt : Option ℤ
  durationMs : Option ℤ
deriving DecidableEq, Repr

structure ThreadHistoryChangeSet where
  changedItems : List ThreadHistoryItemChange := []
  changedTurns : List ThreadHistoryTurnChange := []
  removedTurnIds : List Text := []
deriving DecidableEq, Repr

/-- `ThreadHistoryTurnChange::from_turn`, and `from_pending_turn`. -/
def Turn.change (turn : Turn) : ThreadHistoryTurnChange :=
  ⟨turn.id, turn.status, turn.error, turn.startedAt, turn.completedAt, turn.durationMs⟩

/-! ### The builder -/

structure ThreadHistoryBuilder where
  turns : List Turn
  currentTurn : Option PendingTurn
  nextItemIndex : ℕ
  currentRolloutIndex : ℕ
  nextRolloutIndex : ℕ
  activeChangeSet : Option ThreadHistoryChangeSet
deriving DecidableEq, Repr

/-- `upsert_turn_item`. -/
def upsertTurnItem (items : List ThreadItem) (item : ThreadItem) : List ThreadItem :=
  upsert ThreadItem.id items item

/-- A turn with an item that is put among its items. -/
def Turn.withItem (item : ThreadItem) (turn : Turn) : Turn :=
  { turn with items := upsertTurnItem turn.items item }

/-- The first turn with the id is changed. -/
def updateTurns (turnId : Text) (f : Turn → Turn) (turns : List Turn) : List Turn :=
  updateFirst (fun turn => turn.id == turnId) f turns

/-- The id of an item that has none of its own. -/
def itemId (index : ℕ) : Text := "item-".toList ++ Nat.toDigits 10 index

/-- The id of a turn that was not started. -/
def rolloutTurnId (index : ℕ) : Text := "rollout-".toList ++ Nat.toDigits 10 index

namespace ThreadHistoryBuilder

def new : ThreadHistoryBuilder where
  turns := []
  currentTurn := none
  nextItemIndex := 1
  currentRolloutIndex := 0
  nextRolloutIndex := 0
  activeChangeSet := none

variable (rendering : Rendering)

/-- `record_changed_item`. -/
def recordChangedItem (b : ThreadHistoryBuilder) (turnId : Text) (item : ThreadItem) :
    ThreadHistoryBuilder :=
  { b with activeChangeSet := b.activeChangeSet.map fun changes =>
      { changes with changedItems := changes.changedItems ++ [⟨turnId, item⟩] } }

/-- `record_changed_turn`. -/
def recordChangedTurn (b : ThreadHistoryBuilder) (turn : ThreadHistoryTurnChange) :
    ThreadHistoryBuilder :=
  { b with activeChangeSet := b.activeChangeSet.map fun changes =>
      { changes with changedTurns := changes.changedTurns ++ [turn] } }

/-- `record_removed_turn_ids`. -/
def recordRemovedTurnIds (b : ThreadHistoryBuilder) (removedTurnIds : List Text) :
    ThreadHistoryBuilder :=
  { b with activeChangeSet := b.activeChangeSet.map fun changes =>
      { changes with removedTurnIds := changes.removedTurnIds ++ removedTurnIds } }

/-- Whether `finish_current_turn` keeps a turn. -/
def isKept (turn : PendingTurn) : Bool :=
  !(turn.items.isEmpty && !turn.openedExplicitly && !turn.sawCompaction)

/-- `finish_current_turn`. -/
def finishCurrentTurn (b : ThreadHistoryBuilder) : ThreadHistoryBuilder :=
  match b.currentTurn with
  | some turn =>
    if isKept turn then { b with currentTurn := none, turns := b.turns ++ [turn.toTurn] }
    else { b with currentTurn := none }
  | none => b

/-- `finish`. -/
def finish (b : ThreadHistoryBuilder) : List Turn := b.finishCurrentTurn.turns

/-- `new_turn`. -/
def newTurn (b : ThreadHistoryBuilder) (id : Option Text) : PendingTurn where
  id := id.getD (if b.nextRolloutIndex = 0 then rendering.newUuid b.currentRolloutIndex
    else rolloutTurnId b.currentRolloutIndex)
  items := []
  error := none
  status := .completed
  startedAt := none
  completedAt := none
  durationMs := none
  openedExplicitly := false
  sawCompaction := false
  rolloutStartIndex := b.currentRolloutIndex

/-- A new open turn. -/
def openTurn (b : ThreadHistoryBuilder) (turn : PendingTurn) : ThreadHistoryBuilder :=
  { b.recordChangedTurn turn.change with currentTurn := some turn }

/-- `ensure_turn`: the open turn, and the builder that has it. -/
def ensureTurn (b : ThreadHistoryBuilder) : PendingTurn × ThreadHistoryBuilder :=
  match b.currentTurn with
  | some turn => (turn, b)
  | none =>
    let turn := newTurn rendering b none
    (turn, b.openTurn turn)

/-- The open turn with other items, of which one is recorded. -/
def setItems (b : ThreadHistoryBuilder) (turn : PendingTurn) (items : List ThreadItem)
    (item : ThreadItem) : ThreadHistoryBuilder :=
  recordChangedItem { b with currentTurn := some { turn with items := items } } turn.id item

/-- `push_item_in_current_turn`. -/
def pushItemInCurrentTurn (b : ThreadHistoryBuilder) (item : ThreadItem) : ThreadHistoryBuilder :=
  let (turn, b) := ensureTurn rendering b
  b.setItems turn (turn.items ++ [item]) item

/-- `upsert_item_in_current_turn`. -/
def upsertItemInCurrentTurn (b : ThreadHistoryBuilder) (item : ThreadItem) : ThreadHistoryBuilder :=
  let (turn, b) := ensureTurn rendering b
  b.setItems turn (upsertTurnItem turn.items item) item

/-- A finished turn with this id. -/
def hasTurn (b : ThreadHistoryBuilder) (turnId : Text) : Bool :=
  b.turns.any fun turn => turn.id == turnId

/-- The open turn, if it has this id. -/
def currentWithId (b : ThreadHistoryBuilder) (turnId : Text) : Option PendingTurn :=
  b.currentTurn.filter fun turn => turn.id == turnId

/-- `upsert_item_in_turn_id`. -/
def upsertItemInTurnId (b : ThreadHistoryBuilder) (turnId : Text) (item : ThreadItem) :
    ThreadHistoryBuilder :=
  match b.currentWithId turnId with
  | some turn => b.setItems turn (upsertTurnItem turn.items item) item
  | none =>
    if b.hasTurn turnId then
      recordChangedItem { b with turns := updateTurns turnId (Turn.withItem item) b.turns } turnId
        item
    -- an item for an unknown turn is dropped
    else b

/-- `next_item_id`: the id, and the builder with the next one. -/
def nextItemId (b : ThreadHistoryBuilder) : Text × ThreadHistoryBuilder :=
  (itemId b.nextItemIndex, { b with nextItemIndex := b.nextItemIndex + 1 })

/-- Push an item with the next id. -/
def pushNewItem (b : ThreadHistoryBuilder) (item : Text → ThreadItem) : ThreadHistoryBuilder :=
  let (id, b) := b.nextItemId
  pushItemInCurrentTurn rendering b (item id)

/-- The common form of the handlers of events that may name their turn. -/
def upsertItem (b : ThreadHistoryBuilder) (turnId : Text) (item : ThreadItem) :
    ThreadHistoryBuilder :=
  if turnId.isEmpty then upsertItemInCurrentTurn rendering b item
  else b.upsertItemInTurnId turnId item

/-! ### Messages -/

/-- `handle_response_item`. -/
def handleResponseItem (b : ThreadHistoryBuilder) : ResponseItem → ThreadHistoryBuilder
  | .message id role content _ _ =>
    if role == "user".toList then
      match parseHookPromptMessage rendering b.currentRolloutIndex id content with
      | some hookPrompt => pushItemInCurrentTurn rendering b hookPrompt
      | none => b
    else b
  | _ => b

/-- `build_user_inputs`. -/
def buildUserInputs (payload : UserMessageEvent) : List UserInput :=
  (if (trim payload.message).isEmpty then []
    else [.text payload.message payload.textElements]) ++
  ((payload.images.getD []).zipIdx.map fun image =>
    .image image.1 (payload.imageDetails[image.2]?).join) ++
  payload.localImages.zipIdx.map fun path =>
    .localImage path.1 (payload.localImageDetails[path.2]?).join

/-- A turn that was not started ends before the next user message, unless it is only there because
of a compaction. -/
def finishImplicitTurn (b : ThreadHistoryBuilder) : ThreadHistoryBuilder :=
  match b.currentTurn with
  | some turn =>
    if !turn.openedExplicitly && !(turn.sawCompaction && turn.items.isEmpty) then
      b.finishCurrentTurn
    else b
  | none => b

/-- `handle_user_message`. -/
def handleUserMessage (b : ThreadHistoryBuilder) (payload : UserMessageEvent) :
    ThreadHistoryBuilder :=
  pushNewItem rendering b.finishImplicitTurn fun id =>
    .userMessage id payload.clientId (buildUserInputs payload)

/-- `handle_agent_message`. -/
def handleAgentMessage (b : ThreadHistoryBuilder) (payload : AgentMessageEvent) :
    ThreadHistoryBuilder :=
  if payload.message.isEmpty then b
  else pushNewItem rendering b fun id =>
    .agentMessage id payload.message payload.phase payload.memoryCitation

/-- The common form of the handlers of reasoning: the last item is extended if it is reasoning. -/
def handleReasoning (b : ThreadHistoryBuilder) (summary content : List Text) :
    ThreadHistoryBuilder :=
  let (turn, b) := ensureTurn rendering b
  match turn.items.getLast? with
  | some (.reasoning id oldSummary oldContent) =>
    let item := .reasoning id (oldSummary ++ summary) (oldContent ++ content)
    b.setItems turn (turn.items.dropLast ++ [item]) item
  | _ => pushNewItem rendering b fun id => .reasoning id summary content

/-- `handle_agent_reasoning`. -/
def handleAgentReasoning (b : ThreadHistoryBuilder) (text : Text) : ThreadHistoryBuilder :=
  if text.isEmpty then b else handleReasoning rendering b [text] []

/-- `handle_agent_reasoning_raw_content`. -/
def handleAgentReasoningRawContent (b : ThreadHistoryBuilder) (text : Text) :
    ThreadHistoryBuilder :=
  if text.isEmpty then b else handleReasoning rendering b [] [text]

/-- `handle_materialized_item_lifecycle`. -/
def handleMaterializedItemLifecycle (b : ThreadHistoryBuilder) (turnId : Text) (item : TurnItem) :
    ThreadHistoryBuilder :=
  match fromTurnItem rendering item with
  | some item => b.upsertItemInTurnId turnId item
  | none => b

/-! ### Tools -/

/-- `handle_web_search_begin`. -/
def handleWebSearchBegin (b : ThreadHistoryBuilder) (callId : Text) : ThreadHistoryBuilder :=
  upsertItemInCurrentTurn rendering b (.webSearch callId [] none)

/-- `handle_web_search_end`. -/
def handleWebSearchEnd (b : ThreadHistoryBuilder) (callId query action : Text) :
    ThreadHistoryBuilder :=
  upsertItemInCurrentTurn rendering b (.webSearch callId query (some action))

/-- `handle_exec_command_begin`. -/
def handleExecCommandBegin (b : ThreadHistoryBuilder) (payload : ExecCommandBeginEvent) :
    ThreadHistoryBuilder :=
  b.upsertItemInTurnId payload.turnId (buildCommandExecutionBeginItem rendering payload)

/-- `handle_exec_command_end`. -/
def handleExecCommandEnd (b : ThreadHistoryBuilder) (payload : ExecCommandEndEvent) :
    ThreadHistoryBuilder :=
  b.upsertItemInTurnId payload.turnId (buildCommandExecutionEndItem rendering payload)

/-- The status of a command that a guardian has assessed; an approved command goes on. -/
def guardianStatus : GuardianAssessmentStatus → Option CommandExecutionStatus
  | .inProgress => some .inProgress
  | .denied => some .declined
  | .aborted => some .declined
  | .timedOut => some .failed
  | .approved => none

/-- `handle_guardian_assessment`. -/
def handleGuardianAssessment (b : ThreadHistoryBuilder) (payload : GuardianAssessmentEvent) :
    ThreadHistoryBuilder :=
  match (guardianStatus payload.status).bind (buildItemFromGuardianEvent rendering payload) with
  | some item => upsertItem rendering b payload.turnId item
  | none => b

/-- `handle_patch_apply_begin`, and `handle_apply_patch_approval_request`. -/
def handlePatchApplyBegin (b : ThreadHistoryBuilder) (payload : PatchApplyBeginEvent) :
    ThreadHistoryBuilder :=
  upsertItem rendering b payload.turnId (buildFileChangeBeginItem payload)

/-- `handle_patch_apply_end`. -/
def handlePatchApplyEnd (b : ThreadHistoryBuilder) (payload : PatchApplyEndEvent) :
    ThreadHistoryBuilder :=
  upsertItem rendering b payload.turnId (buildFileChangeEndItem payload)

/-- `handle_dynamic_tool_call_request`. -/
def handleDynamicToolCallRequest (b : ThreadHistoryBuilder) (payload : DynamicToolCallRequest) :
    ThreadHistoryBuilder :=
  upsertItem rendering b payload.turnId (.dynamicToolCall payload.callId payload.namespace
    payload.tool payload.arguments .inProgress none none none)

/-- `handle_dynamic_tool_call_response`. -/
def handleDynamicToolCallResponse (b : ThreadHistoryBuilder)
    (payload : DynamicToolCallResponseEvent) : ThreadHistoryBuilder :=
  upsertItem rendering b payload.turnId (.dynamicToolCall payload.callId payload.namespace
    payload.tool payload.arguments (if payload.success then .completed else .failed)
    (some payload.contentItems) (some payload.success) (durationOk payload.duration))

/-- The call of an MCP tool, with what is known of its result. -/
def mcpToolCallItem (payload : McpToolCallBeginEvent) (status : McpToolCallStatus)
    (result : Option McpToolCallResult) (error : Option Text) (durationMs : Option ℤ) :
    ThreadItem :=
  .mcpToolCall payload.callId payload.invocation.server payload.invocation.tool status
    (payload.invocation.arguments.getD "null".toList)
    (payload.connectorId.map fun connectorId => ⟨connectorId, payload.linkId,
      payload.mcpAppResourceUri, payload.appName, payload.templateId, payload.actionName⟩)
    payload.mcpAppResourceUri payload.pluginId result error durationMs

/-- `handle_mcp_tool_call_begin`. -/
def handleMcpToolCallBegin (b : ThreadHistoryBuilder) (payload : McpToolCallBeginEvent) :
    ThreadHistoryBuilder :=
  upsertItemInCurrentTurn rendering b (mcpToolCallItem payload .inProgress none none none)

/-- `McpToolCallEndEvent::is_success`. -/
def isSuccess (payload : McpToolCallEndEvent) : Bool :=
  match payload.result with
  | .inl result => !result.isError.getD false
  | .inr _ => false

/-- `handle_mcp_tool_call_end`. -/
def handleMcpToolCallEnd (b : ThreadHistoryBuilder) (payload : McpToolCallEndEvent) :
    ThreadHistoryBuilder :=
  let status := if isSuccess payload then .completed else .failed
  let (result, error) := match payload.result with
    | .inl value =>
      (some ⟨value.content, value.structuredContent, value.meta⟩, none)
    | .inr message => (none, some message)
  upsertItemInCurrentTurn rendering b (mcpToolCallItem payload.toMcpToolCallBeginEvent status
    result error (durationOk payload.duration))

/-- `handle_view_image_tool_call`. -/
def handleViewImageToolCall (b : ThreadHistoryBuilder) (callId path : Text) :
    ThreadHistoryBuilder :=
  upsertItemInCurrentTurn rendering b (.imageView callId path)

/-- `handle_image_generation_begin`. -/
def handleImageGenerationBegin (b : ThreadHistoryBuilder) (callId : Text) : ThreadHistoryBuilder :=
  upsertItemInCurrentTurn rendering b (.imageGeneration callId [] none [] none)

/-- `handle_image_generation_end`. -/
def handleImageGenerationEnd (b : ThreadHistoryBuilder) (payload : ImageGenerationEndEvent) :
    ThreadHistoryBuilder :=
  upsertItemInCurrentTurn rendering b (.imageGeneration payload.callId payload.status
    payload.revisedPrompt payload.result payload.savedPath)

/-! ### Other agents -/

/-- The status of a call that ends with this status of the agent. -/
def collabStatus (status : AgentStatus) : CollabAgentToolCallStatus :=
  if AgentStatus.isFailure status then .failed else .completed

/-- `handle_collab_agent_spawn_begin`. -/
def handleCollabAgentSpawnBegin (b : ThreadHistoryBuilder) (payload : CollabAgentSpawnBeginEvent) :
    ThreadHistoryBuilder :=
  upsertItemInCurrentTurn rendering b (.collabAgentToolCall payload.callId .spawnAgent .inProgress
    payload.senderThreadId [] (some payload.prompt) (some payload.model)
    (some payload.reasoningEffort) [])

/-- `handle_collab_agent_spawn_end`. -/
def handleCollabAgentSpawnEnd (b : ThreadHistoryBuilder) (payload : CollabAgentSpawnEndEvent) :
    ThreadHistoryBuilder :=
  let status := if AgentStatus.isFailure payload.status then .failed
    else if payload.newThreadId.isSome then .completed else .failed
  upsertItemInCurrentTurn rendering b (.collabAgentToolCall payload.callId .spawnAgent status
    payload.senderThreadId payload.newThreadId.toList (some payload.prompt) (some payload.model)
    (some payload.reasoningEffort)
    (payload.newThreadId.toList.map fun id => (id, collabAgentState payload.status)))

/-- The common form of the calls to one other agent. -/
def handleCollabCall (b : ThreadHistoryBuilder) (tool : CollabAgentTool) (call : CollabAgentCall)
    (prompt : Option Text) (status : Option AgentStatus) : ThreadHistoryBuilder :=
  upsertItemInCurrentTurn rendering b (.collabAgentToolCall call.callId tool
    ((status.map collabStatus).getD .inProgress) call.senderThreadId [call.receiverThreadId] prompt
    none none (status.toList.map fun status => (call.receiverThreadId, collabAgentState status)))

/-- `handle_collab_agent_interaction_begin`. -/
def handleCollabAgentInteractionBegin (b : ThreadHistoryBuilder) (call : CollabAgentCall)
    (prompt : Text) : ThreadHistoryBuilder :=
  handleCollabCall rendering b .sendInput call (some prompt) none

/-- `handle_collab_agent_interaction_end`. -/
def handleCollabAgentInteractionEnd (b : ThreadHistoryBuilder) (call : CollabAgentCall)
    (prompt : Text) (status : AgentStatus) : ThreadHistoryBuilder :=
  handleCollabCall rendering b .sendInput call (some prompt) (some status)

/-- `handle_sub_agent_activity`. -/
def handleSubAgentActivity (b : ThreadHistoryBuilder) (payload : SubAgentActivityEvent) :
    ThreadHistoryBuilder :=
  upsertItemInCurrentTurn rendering b (.subAgentActivity payload.eventId payload.kind
    payload.agentThreadId payload.agentPath)

/-- `handle_collab_waiting_begin`. -/
def handleCollabWaitingBegin (b : ThreadHistoryBuilder) (payload : CollabWaitingBeginEvent) :
    ThreadHistoryBuilder :=
  upsertItemInCurrentTurn rendering b (.collabAgentToolCall payload.callId .wait .inProgress
    payload.senderThreadId payload.receiverThreadIds none none none [])

/-- `handle_collab_waiting_end`. -/
def handleCollabWaitingEnd (b : ThreadHistoryBuilder) (payload : CollabWaitingEndEvent) :
    ThreadHistoryBuilder :=
  let status := if payload.statuses.any fun entry => AgentStatus.isFailure entry.2 then .failed
    else .completed
  upsertItemInCurrentTurn rendering b (.collabAgentToolCall payload.callId .wait status
    payload.senderThreadId
    ((payload.statuses.map Prod.fst).mergeSort fun a b => !decide (b < a)) none none none
    (payload.statuses.map fun entry => (entry.1, collabAgentState entry.2)))

/-- `handle_collab_close_begin`. -/
def handleCollabCloseBegin (b : ThreadHistoryBuilder) (call : CollabAgentCall) :
    ThreadHistoryBuilder :=
  handleCollabCall rendering b .closeAgent call none none

/-- `handle_collab_close_end`. -/
def handleCollabCloseEnd (b : ThreadHistoryBuilder) (call : CollabAgentCall)
    (status : AgentStatus) : ThreadHistoryBuilder :=
  handleCollabCall rendering b .closeAgent call none (some status)

/-- `handle_collab_resume_begin`. -/
def handleCollabResumeBegin (b : ThreadHistoryBuilder) (call : CollabAgentCall) :
    ThreadHistoryBuilder :=
  handleCollabCall rendering b .resumeAgent call none none

/-- `handle_collab_resume_end`. -/
def handleCollabResumeEnd (b : ThreadHistoryBuilder) (call : CollabAgentCall)
    (status : AgentStatus) : ThreadHistoryBuilder :=
  handleCollabCall rendering b .resumeAgent call none (some status)

/-! ### Compaction and review -/

/-- `handle_context_compacted`. -/
def handleContextCompacted (b : ThreadHistoryBuilder) : ThreadHistoryBuilder :=
  pushNewItem rendering b .contextCompaction

/-- `handle_entered_review_mode`. -/
def handleEnteredReviewMode (b : ThreadHistoryBuilder) (userFacingHint : Option Text) :
    ThreadHistoryBuilder :=
  pushNewItem rendering b fun id =>
    .enteredReviewMode id (userFacingHint.getD "Review requested.".toList)

/-- `REVIEW_FALLBACK_MESSAGE`. -/
def reviewFallbackMessage : Text := "Reviewer failed to output a response.".toList

/-- `render_review_output_text`. -/
def renderReviewOutputText (overallExplanation : Text) : Text :=
  let explanation := trim overallExplanation
  if explanation.isEmpty then reviewFallbackMessage else explanation

/-- `handle_exited_review_mode`. -/
def handleExitedReviewMode (b : ThreadHistoryBuilder) (overallExplanation : Option Text) :
    ThreadHistoryBuilder :=
  pushNewItem rendering b fun id =>
    .exitedReviewMode id ((overallExplanation.map renderReviewOutputText).getD reviewFallbackMessage)

/-- `handle_compacted`. -/
def handleCompacted (b : ThreadHistoryBuilder) : ThreadHistoryBuilder :=
  let (turn, b) := ensureTurn rendering b
  { b with currentTurn := some { turn with sawCompaction := true } }

/-! ### Turns -/

/-- The open turn with another status, which is recorded. -/
def updateCurrent (b : ThreadHistoryBuilder) (turn : PendingTurn) (f : Turn → Turn) :
    ThreadHistoryBuilder :=
  recordChangedTurn { b with currentTurn := some { turn with toTurn := f turn.toTurn } }
    (f turn.toTurn).change

/-- The first finished turn with the id with another status, which is recorded. -/
def updateTurn (b : ThreadHistoryBuilder) (turnId : Text) (f : Turn → Turn) :
    ThreadHistoryBuilder :=
  match b.turns.find? fun turn => turn.id == turnId with
  | some turn => recordChangedTurn
      { b with turns := updateTurns turnId f b.turns } (f turn).change
  | none => b

/-- `CodexErrorInfo::affects_turn_status`. -/
def affectsTurnStatus : CodexErrorInfo → Bool
  | .threadRollbackFailed => false
  | .activeTurnNotSteerable _ => false
  | .other _ => true

/-- `handle_error`. -/
def handleError (b : ThreadHistoryBuilder) (message : Text)
    (codexErrorInfo : Option CodexErrorInfo) : ThreadHistoryBuilder :=
  if codexErrorInfo.all affectsTurnStatus then
    match b.currentTurn with
    | some turn => b.updateCurrent turn fun turn =>
        { turn with status := .failed, error := some ⟨message, codexErrorInfo⟩ }
    | none => b
  else b

/-- What `handle_turn_aborted` does to a turn. -/
def applyAbort (completedAt durationMs : Option ℤ) (turn : Turn) : Turn :=
  { turn with status := .interrupted, completedAt := completedAt, durationMs := durationMs }

/-- `handle_turn_aborted`. -/
def handleTurnAborted (b : ThreadHistoryBuilder) (turnId : Option Text)
    (completedAt durationMs : Option ℤ) : ThreadHistoryBuilder :=
  match turnId.bind b.currentWithId with
  | some turn => b.updateCurrent turn (applyAbort completedAt durationMs)
  | none =>
    match turnId.filter b.hasTurn with
    | some turnId => b.updateTurn turnId (applyAbort completedAt durationMs)
    -- without an id, or for an unknown turn, the open turn is meant
    | none => match b.currentTurn with
      | some turn => b.updateCurrent turn (applyAbort completedAt durationMs)
      | none => b

/-- `handle_turn_started`. -/
def handleTurnStarted (b : ThreadHistoryBuilder) (turnId : Text) (startedAt : Option ℤ) :
    ThreadHistoryBuilder :=
  let b := b.finishCurrentTurn
  b.openTurn { newTurn rendering b (some turnId) with
    status := .inProgress, startedAt := startedAt, openedExplicitly := true }

/-- What `handle_turn_complete` does to a turn. -/
def markCompleted (completedAt durationMs : Option ℤ) (turn : Turn) : Turn :=
  { turn with
    status := if turn.status = .completed ∨ turn.status = .inProgress then .completed
      else turn.status
    completedAt := completedAt
    durationMs := durationMs }

/-- `handle_turn_complete`. -/
def handleTurnComplete (b : ThreadHistoryBuilder) (turnId : Text)
    (completedAt durationMs : Option ℤ) : ThreadHistoryBuilder :=
  match b.currentWithId turnId with
  | some turn => (b.updateCurrent turn (markCompleted completedAt durationMs)).finishCurrentTurn
  | none =>
    if b.hasTurn turnId then b.updateTurn turnId (markCompleted completedAt durationMs)
    else match b.currentTurn with
      | some turn => (b.updateCurrent turn (markCompleted completedAt durationMs)).finishCurrentTurn
      | none => b

/-- `handle_thread_rollback`. -/
def handleThreadRollback (b : ThreadHistoryBuilder) (n : ℕ) : ThreadHistoryBuilder :=
  let b := b.finishCurrentTurn
  let turns := b.turns.take (b.turns.length - n)
  let b := b.recordRemovedTurnIds ((b.turns.drop (b.turns.length - n)).map Turn.id)
  { b with
    turns := turns
    nextItemIndex := (turns.map fun turn => turn.items.length).sum + 1 }

/-! ### The rollout -/

/-- `handle_event`. -/
def handleEvent (b : ThreadHistoryBuilder) : EventMsg → ThreadHistoryBuilder
  | .userMessage payload => handleUserMessage rendering b payload
  | .agentMessage payload => handleAgentMessage rendering b payload
  | .agentReasoning text => handleAgentReasoning rendering b text
  | .agentReasoningRawContent text => handleAgentReasoningRawContent rendering b text
  | .webSearchBegin callId => handleWebSearchBegin rendering b callId
  | .webSearchEnd callId query action => handleWebSearchEnd rendering b callId query action
  | .execCommandBegin payload => handleExecCommandBegin rendering b payload
  | .execCommandEnd payload => handleExecCommandEnd rendering b payload
  | .guardianAssessment payload => handleGuardianAssessment rendering b payload
  | .applyPatchApprovalRequest payload => handlePatchApplyBegin rendering b payload
  | .patchApplyBegin payload => handlePatchApplyBegin rendering b payload
  | .patchApplyEnd payload => handlePatchApplyEnd rendering b payload
  | .dynamicToolCallRequest payload => handleDynamicToolCallRequest rendering b payload
  | .dynamicToolCallResponse payload => handleDynamicToolCallResponse rendering b payload
  | .mcpToolCallBegin payload => handleMcpToolCallBegin rendering b payload
  | .mcpToolCallEnd payload => handleMcpToolCallEnd rendering b payload
  | .viewImageToolCall callId path => handleViewImageToolCall rendering b callId path
  | .imageGenerationBegin callId => handleImageGenerationBegin rendering b callId
  | .imageGenerationEnd payload => handleImageGenerationEnd rendering b payload
  | .collabAgentSpawnBegin payload => handleCollabAgentSpawnBegin rendering b payload
  | .collabAgentSpawnEnd payload => handleCollabAgentSpawnEnd rendering b payload
  | .collabAgentInteractionBegin call prompt =>
    handleCollabAgentInteractionBegin rendering b call prompt
  | .collabAgentInteractionEnd call prompt status =>
    handleCollabAgentInteractionEnd rendering b call prompt status
  | .subAgentActivity payload => handleSubAgentActivity rendering b payload
  | .collabWaitingBegin payload => handleCollabWaitingBegin rendering b payload
  | .collabWaitingEnd payload => handleCollabWaitingEnd rendering b payload
  | .collabCloseBegin call => handleCollabCloseBegin rendering b call
  | .collabCloseEnd call status => handleCollabCloseEnd rendering b call status
  | .collabResumeBegin call => handleCollabResumeBegin rendering b call
  | .collabResumeEnd call status => handleCollabResumeEnd rendering b call status
  | .contextCompacted => handleContextCompacted rendering b
  | .enteredReviewMode userFacingHint => handleEnteredReviewMode rendering b userFacingHint
  | .exitedReviewMode overallExplanation => handleExitedReviewMode rendering b overallExplanation
  | .itemStarted turnId item => handleMaterializedItemLifecycle rendering b turnId item
  | .itemCompleted turnId item => handleMaterializedItemLifecycle rendering b turnId item
  | .error message codexErrorInfo => b.handleError message codexErrorInfo
  | .threadRolledBack numTurns => b.handleThreadRollback numTurns
  | .turnAborted turnId completedAt durationMs => b.handleTurnAborted turnId completedAt durationMs
  | .turnStarted turnId startedAt => handleTurnStarted rendering b turnId startedAt
  | .turnComplete turnId completedAt durationMs =>
    b.handleTurnComplete turnId completedAt durationMs
  | .other _ => b

/-- The builder at the next item of the rollout. -/
def advance (b : ThreadHistoryBuilder) : ThreadHistoryBuilder :=
  { b with
    currentRolloutIndex := b.nextRolloutIndex
    nextRolloutIndex := b.nextRolloutIndex + 1 }

/-- `handle_rollout_item`. -/
def handleRolloutItem (b : ThreadHistoryBuilder) (item : RolloutItem) : ThreadHistoryBuilder :=
  match item with
  | .eventMsg event => handleEvent rendering b.advance event
  | .compacted _ => handleCompacted rendering b.advance
  | .responseItem item => handleResponseItem rendering b.advance item
  | _ => b.advance

/-- `handle_rollout_item_with_changes`: the builder, and what has changed. -/
def handleRolloutItemWithChanges (b : ThreadHistoryBuilder) (item : RolloutItem) :
    ThreadHistoryBuilder × ThreadHistoryChangeSet :=
  let b := handleRolloutItem rendering { b with activeChangeSet := some {} } item
  ({ b with activeChangeSet := none }, b.activeChangeSet.getD {})

end ThreadHistoryBuilder

/-- `build_turns_from_rollout_items`. -/
def buildTurnsFromRolloutItems (rendering : Rendering) (items : List RolloutItem) : List Turn :=
  (items.foldl (ThreadHistoryBuilder.handleRolloutItem rendering) .new).finish

/-! ### Rollouts to try things on -/

/-- A rendering that finds no hook prompts and no commands. -/
def Rendering.plain : Rendering where
  hookPromptXml _ := none
  newUuid := rolloutTurnId
  shlexJoin := List.flatten
  parseCommand _ := []
  nativeCwd := some
  joinPath a b := a ++ b

/-- A user message. -/
def userMessageItem (message : Text) : RolloutItem :=
  .eventMsg (.userMessage ⟨none, message, none, [], [], [], []⟩)

end TokenCode.ThreadHistory
