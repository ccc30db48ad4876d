/-
What an item of a rollout makes the builder do.

The many events come down to a few actions on the builder (`actionOf`, `handleRolloutItem_eq`), so that
what holds of every step is proved for the actions. Whether changes are recorded makes no difference
to anything else (`forget_perform`).
-/
import TokenCode.ThreadHistory.Changes

namespace TokenCode.ThreadHistory

open Option Text Rollout Keyed

/-- What the builder is asked to do. -/
inductive Action where
  | nothing
  /-- Push an item that has its id. -/
  | push (item : ThreadItem)
  /-- Push an item with the next id. -/
  | pushNew (item : Text → ThreadItem)
  /-- Push an item with the next id, after ending a turn that was not started. -/
  | pushUser (item : Text → ThreadItem)
  | reasoning (summary content : List Text)
  | upsert (item : ThreadItem)
  | upsertIn (turnId : Text) (item : ThreadItem)
  | compacted
  | fail (error : TurnError)
  | rollback (numTurns : ℕ)
  | start (turnId : Text) (startedAt : Option ℤ)
  | complete (turnId : Text) (completedAt durationMs : Option ℤ)
  | abort (turnId : Option Text) (completedAt durationMs : Option ℤ)

namespace Action

/-- Put an item into the turn that is named, if one is. -/
def upsertAt (turnId : Text) (item : ThreadItem) : Action :=
  if turnId.isEmpty then .upsert item else .upsertIn turnId item

/-- Put an item into a turn, if there is one. -/
def upsertIn? (turnId : Text) : Option ThreadItem → Action
  | some item => .upsertIn turnId item
  | none => .nothing

def upsertAt? (turnId : Text) : Option ThreadItem → Action
  | some item => upsertAt turnId item
  | none => .nothing

end Action

open ThreadHistoryBuilder in
/-- What an event makes the builder do. -/
def eventAction (rendering : Rendering) : EventMsg → Action
  | .userMessage payload =>
    .pushUser fun id => .userMessage id payload.clientId (buildUserInputs payload)
  | .agentMessage payload =>
    if payload.message.isEmpty then .nothing
    else .pushNew fun id => .agentMessage id payload.message payload.phase payload.memoryCitation
  | .agentReasoning text => if text.isEmpty then .nothing else .reasoning [text] []
  | .agentReasoningRawContent text => if text.isEmpty then .nothing else .reasoning [] [text]
  | .webSearchBegin callId => .upsert (.webSearch callId [] none)
  | .webSearchEnd callId query action => .upsert (.webSearch callId query (some action))
  | .execCommandBegin payload =>
    .upsertIn payload.turnId (buildCommandExecutionBeginItem rendering payload)
  | .execCommandEnd payload =>
    .upsertIn payload.turnId (buildCommandExecutionEndItem rendering payload)
  | .guardianAssessment payload => .upsertAt? payload.turnId
      ((guardianStatus payload.status).bind (buildItemFromGuardianEvent rendering payload))
  | .applyPatchApprovalRequest payload =>
    .upsertAt payload.turnId (buildFileChangeBeginItem payload)
  | .patchApplyBegin payload => .upsertAt payload.turnId (buildFileChangeBeginItem payload)
  | .patchApplyEnd payload => .upsertAt payload.turnId (buildFileChangeEndItem payload)
  | .dynamicToolCallRequest payload => .upsertAt payload.turnId (.dynamicToolCall payload.callId
      payload.namespace payload.tool payload.arguments .inProgress none none none)
  | .dynamicToolCallResponse payload => .upsertAt payload.turnId (.dynamicToolCall payload.callId
      payload.namespace payload.tool payload.arguments
      (if payload.success then .completed else .failed) (some payload.contentItems)
      (some payload.success) (durationOk payload.duration))
  | .mcpToolCallBegin payload => .upsert (mcpToolCallItem payload .inProgress none none none)
  | .mcpToolCallEnd payload => .upsert (mcpToolCallItem payload.toMcpToolCallBeginEvent
      (if isSuccess payload then .completed else .failed)
      (payload.result.elim (fun value => some ⟨value.content, value.structuredContent, value.meta⟩)
        fun _ => none)
      (payload.result.elim (fun _ => none) some) (durationOk payload.duration))
  | .viewImageToolCall callId path => .upsert (.imageView callId path)
  | .imageGenerationBegin callId => .upsert (.imageGeneration callId [] none [] none)
  | .imageGenerationEnd payload => .upsert (.imageGeneration payload.callId payload.status
      payload.revisedPrompt payload.result payload.savedPath)
  | .collabAgentSpawnBegin payload => .upsert (.collabAgentToolCall payload.callId .spawnAgent
      .inProgress payload.senderThreadId [] (some payload.prompt) (some payload.model)
      (some payload.reasoningEffort) [])
  | .collabAgentSpawnEnd payload => .upsert (.collabAgentToolCall payload.callId .spawnAgent
      (if AgentStatus.isFailure payload.status then .failed
        else if payload.newThreadId.isSome then .completed else .failed)
      payload.senderThreadId payload.newThreadId.toList (some payload.prompt) (some payload.model)
      (some payload.reasoningEffort)
      (payload.newThreadId.toList.map fun id => (id, collabAgentState payload.status)))
  | .collabAgentInteractionBegin call prompt => .upsert (callItem .sendInput call (some prompt) none)
  | .collabAgentInteractionEnd call prompt status =>
    .upsert (callItem .sendInput call (some prompt) (some status))
  | .subAgentActivity payload => .upsert (.subAgentActivity payload.eventId payload.kind
      payload.agentThreadId payload.agentPath)
  | .collabWaitingBegin payload => .upsert (.collabAgentToolCall payload.callId .wait .inProgress
      payload.senderThreadId payload.receiverThreadIds none none none [])
  | .collabWaitingEnd payload => .upsert (.collabAgentToolCall payload.callId .wait
      (if payload.statuses.any fun entry => AgentStatus.isFailure entry.2 then .failed
        else .completed) payload.senderThreadId
      ((payload.statuses.map Prod.fst).mergeSort fun a b => !decide (b < a)) none none none
      (payload.statuses.map fun entry => (entry.1, collabAgentState entry.2)))
  | .collabCloseBegin call => .upsert (callItem .closeAgent call none none)
  | .collabCloseEnd call status => .upsert (callItem .closeAgent call none (some status))
  | .collabResumeBegin call => .upsert (callItem .resumeAgent call none none)
  | .collabResumeEnd call status => .upsert (callItem .resumeAgent call none (some status))
  | .contextCompacted => .pushNew .contextCompaction
  | .enteredReviewMode userFacingHint =>
    .pushNew fun id => .enteredReviewMode id (userFacingHint.getD "Review requested.".toList)
  | .exitedReviewMode overallExplanation =>
    .pushNew fun id => .exitedReviewMode id
      ((overallExplanation.map renderReviewOutputText).getD reviewFallbackMessage)
  | .itemStarted turnId item => .upsertIn? turnId (fromTurnItem rendering item)
  | .itemCompleted turnId item => .upsertIn? turnId (fromTurnItem rendering item)
  | .error message codexErrorInfo =>
    if codexErrorInfo.all affectsTurnStatus then .fail ⟨message, codexErrorInfo⟩ else .nothing
  | .threadRolledBack numTurns => .rollback numTurns
  | .turnAborted turnId completedAt durationMs => .abort turnId completedAt durationMs
  | .turnStarted turnId startedAt => .start turnId startedAt
  | .turnComplete turnId completedAt durationMs => .complete turnId completedAt durationMs
  | .other _ => .nothing
where
  callItem (tool : CollabAgentTool) (call : CollabAgentCall) (prompt : Option Text)
      (status : Option AgentStatus) : ThreadItem :=
    .collabAgentToolCall call.callId tool
      ((status.map ThreadHistoryBuilder.collabStatus).getD .inProgress) call.senderThreadId
      [call.receiverThreadId] prompt none none
      (status.toList.map fun status => (call.receiverThreadId, collabAgentState status))

/-- What an item of a rollout makes the builder do; `index` is its index. -/
def actionOf (rendering : Rendering) (index : ℕ) : RolloutItem → Action
  | .eventMsg event => eventAction rendering event
  | .compacted _ => .compacted
  | .responseItem (.message id role content _ _) =>
    if role == "user".toList then
      match parseHookPromptMessage rendering index id content with
      | some hookPrompt => .push hookPrompt
      | none => .nothing
    else .nothing
  | _ => .nothing

/-! ### What items ask for -/

/-- A user message. -/
def ThreadItem.isUserMessage : ThreadItem → Bool
  | .userMessage _ _ _ => true
  | _ => false

/-- What an item of a rollout asks for: turns begin, end and are taken back only where the rollout says
so, a user message is pushed only for a user message, and an item that is pushed with the next id has
that id. -/
def Action.Answers (item : RolloutItem) : Action → Prop
  | .nothing => True
  | .push threadItem => threadItem.isUserMessage = false
  | .pushNew threadItem => ∀ id, (threadItem id).id = id ∧ (threadItem id).isUserMessage = false
  | .pushUser threadItem => ∃ payload, item = .eventMsg (.userMessage payload) ∧
      threadItem = fun id =>
        .userMessage id payload.clientId (ThreadHistoryBuilder.buildUserInputs payload)
  | .reasoning _ _ => True
  | .upsert threadItem => threadItem.isUserMessage = false
  | .upsertIn _ threadItem => threadItem.isUserMessage = false
  | .compacted => ∃ compacted, item = .compacted compacted
  | .fail _ => True
  | .rollback numTurns => item = .eventMsg (.threadRolledBack numTurns)
  | .start turnId startedAt => item = .eventMsg (.turnStarted turnId startedAt)
  | .complete turnId completedAt durationMs =>
    item = .eventMsg (.turnComplete turnId completedAt durationMs)
  | .abort turnId completedAt durationMs =>
    item = .eventMsg (.turnAborted turnId completedAt durationMs)

variable {threadItem : ThreadItem}

section

variable {rendering : Rendering} {item : RolloutItem}

lemma answers_upsertAt (turnId : Text)
    (h : threadItem.isUserMessage = false) : (Action.upsertAt turnId threadItem).Answers item := by
  unfold Action.upsertAt
  split <;> exact h

lemma isUserMessage_of_fromTurnItem {turnItem : TurnItem}
    (h : fromTurnItem rendering turnItem = some threadItem) : threadItem.isUserMessage = false := by
  cases turnItem with
  | plan id text =>
    simp only [fromTurnItem] at h
    split at h
    · cases h
    · cases h
      rfl
  | _ => cases h <;> rfl

lemma isUserMessage_of_buildItemFromGuardianEvent {payload : GuardianAssessmentEvent}
    {status : CommandExecutionStatus}
    (h : buildItemFromGuardianEvent rendering payload status = some threadItem) :
    threadItem.isUserMessage = false := by
  unfold buildItemFromGuardianEvent at h
  split at h
  case h_1 =>
    obtain ⟨id, -, rfl⟩ := map_eq_some_iff.1 h
    rfl
  case h_2 =>
    obtain ⟨id, -, rfl⟩ := map_eq_some_iff.1 h
    rfl
  all_goals cases h

variable (rendering)

lemma answers_eventAction (event : EventMsg) :
    (eventAction rendering event).Answers (.eventMsg event) := by
  cases event with
  | turnStarted | turnComplete | turnAborted | threadRolledBack => exact rfl
  | userMessage payload => exact ⟨payload, rfl, rfl⟩
  | contextCompacted | enteredReviewMode | exitedReviewMode => exact fun id => ⟨rfl, rfl⟩
  | agentMessage payload =>
    simp only [eventAction]
    split
    · exact trivial
    · exact fun id => ⟨rfl, rfl⟩
  | agentReasoning | agentReasoningRawContent | error =>
    simp only [eventAction]
    split <;> exact trivial
  | applyPatchApprovalRequest | patchApplyBegin | patchApplyEnd | dynamicToolCallRequest
  | dynamicToolCallResponse => exact answers_upsertAt _ rfl
  | guardianAssessment payload =>
    simp only [eventAction, Action.upsertAt?]
    split
    · next threadItem hitem =>
      obtain ⟨status, -, hbuild⟩ := bind_eq_some_iff.1 hitem
      exact answers_upsertAt _ (isUserMessage_of_buildItemFromGuardianEvent hbuild)
    · exact trivial
  | itemStarted | itemCompleted =>
    simp only [eventAction, Action.upsertIn?]
    split
    · next threadItem hitem => exact isUserMessage_of_fromTurnItem hitem
    · exact trivial
  | other fields => exact trivial
  | _ => exact rfl

/-- **An item of a rollout gets what it asks for.** -/
theorem answers_actionOf (index : ℕ) (item : RolloutItem) :
    (actionOf rendering index item).Answers item := by
  cases item with
  | eventMsg event => exact answers_eventAction rendering event
  | compacted compacted => exact ⟨compacted, rfl⟩
  | responseItem item =>
    cases item with
    | message id role content phase metadata =>
      simp only [actionOf]
      split
      · split
        · next hookPrompt hparse =>
          simp only [parseHookPromptMessage, bind_eq_bind, bind_eq_some_iff] at hparse
          obtain ⟨fragments, -, hprompt⟩ := hparse
          split at hprompt
          · cases hprompt
          · cases hprompt
            rfl
        · exact trivial
      · exact trivial
    | _ => exact trivial
  | _ => exact trivial

end

variable (turn : PendingTurn)

namespace ThreadHistoryBuilder

variable {rendering : Rendering}

/-- An action is done. -/
def perform (rendering : Rendering) (b : ThreadHistoryBuilder) : Action → ThreadHistoryBuilder
  | .nothing => b
  | .push item => pushItemInCurrentTurn rendering b item
  | .pushNew item => pushNewItem rendering b item
  | .pushUser item => pushNewItem rendering b.finishImplicitTurn item
  | .reasoning summary content => handleReasoning rendering b summary content
  | .upsert item => upsertItemInCurrentTurn rendering b item
  | .upsertIn turnId item => b.upsertItemInTurnId turnId item
  | .compacted => handleCompacted rendering b
  | .fail error => match b.currentTurn with
    | some turn => b.updateCurrent turn fun turn =>
        { turn with status := .failed, error := some error }
    | none => b
  | .rollback numTurns => b.handleThreadRollback numTurns
  | .start turnId startedAt => handleTurnStarted rendering b turnId startedAt
  | .complete turnId completedAt durationMs => b.handleTurnComplete turnId completedAt durationMs
  | .abort turnId completedAt durationMs => b.handleTurnAborted turnId completedAt durationMs

variable (b : ThreadHistoryBuilder)

lemma perform_upsertAt (turnId : Text) (item : ThreadItem) :
    perform rendering b (.upsertAt turnId item) = upsertItem rendering b turnId item := by
  unfold Action.upsertAt upsertItem
  split <;> rfl

lemma handleEvent_eq (event : EventMsg) :
    handleEvent rendering b event = perform rendering b (eventAction rendering event) := by
  cases event with
  | agentMessage payload =>
    simp only [handleEvent, handleAgentMessage, eventAction]
    split <;> rfl
  | agentReasoning text =>
    simp only [handleEvent, handleAgentReasoning, eventAction]
    split <;> rfl
  | agentReasoningRawContent text =>
    simp only [handleEvent, handleAgentReasoningRawContent, eventAction]
    split <;> rfl
  | guardianAssessment payload =>
    simp only [handleEvent, handleGuardianAssessment, eventAction]
    cases (guardianStatus payload.status).bind (buildItemFromGuardianEvent rendering payload) with
    | none => rfl
    | some item => exact (perform_upsertAt b _ item).symm
  | applyPatchApprovalRequest | patchApplyBegin | patchApplyEnd | dynamicToolCallRequest
  | dynamicToolCallResponse => exact (perform_upsertAt b _ _).symm
  | mcpToolCallEnd payload =>
    simp only [handleEvent, handleMcpToolCallEnd, eventAction]
    rcases payload.result with result | message <;> rfl
  | itemStarted turnId item | itemCompleted turnId item =>
    simp only [handleEvent, handleMaterializedItemLifecycle, eventAction]
    cases fromTurnItem rendering item <;> rfl
  | error message codexErrorInfo =>
    simp only [handleEvent, handleError, eventAction]
    split <;> rfl
  | _ => rfl

/-- **An item of a rollout is one action.** -/
theorem handleRolloutItem_eq (item : RolloutItem) : handleRolloutItem rendering b item =
      perform rendering b.advance (actionOf rendering b.nextRolloutIndex item) := by
  cases item with
  | eventMsg event => exact handleEvent_eq b.advance event
  | responseItem item =>
    cases item with
    | message id role content phase metadata =>
      simp only [handleRolloutItem, handleResponseItem, actionOf]
      split
      · simp only [advance]
        cases parseHookPromptMessage rendering b.nextRolloutIndex id content <;> rfl
      · rfl
    | _ => rfl
  | _ => rfl

/-! ### The end of a turn -/

section

variable {b : ThreadHistoryBuilder} {P : ThreadHistoryBuilder → Prop} {turn : PendingTurn}
  {turnId : Text} {completedAt durationMs : Option ℤ}

lemma eq_some_of_currentWithId (h : b.currentWithId turnId = some turn) :
    b.currentTurn = some turn :=
  (filter_eq_some_iff.1 h).1

/-- A completion is of the open turn or of a finished one. -/
lemma handleTurnComplete_cases (hcurrent : ∀ turn, b.currentTurn = some turn →
      P (b.updateCurrent turn (markCompleted completedAt durationMs)).finishCurrentTurn)
    (hupdate : P (b.updateTurn turnId (markCompleted completedAt durationMs))) (hnone : P b) :
    P (b.handleTurnComplete turnId completedAt durationMs) := by
  unfold handleTurnComplete
  split
  · next turn hturn => exact hcurrent turn (eq_some_of_currentWithId hturn)
  · split
    · exact hupdate
    · split
      · next turn hturn => exact hcurrent turn hturn
      · exact hnone

lemma handleTurnAborted_cases {turnId : Option Text} (hcurrent : ∀ turn, b.currentTurn = some turn →
      P (b.updateCurrent turn (applyAbort completedAt durationMs)))
    (hupdate : ∀ id, P (b.updateTurn id (applyAbort completedAt durationMs))) (hnone : P b) :
    P (b.handleTurnAborted turnId completedAt durationMs) := by
  unfold handleTurnAborted
  split
  · next turn hturn =>
    obtain ⟨id, -, hid⟩ := bind_eq_some_iff.1 hturn
    exact hcurrent turn (eq_some_of_currentWithId hid)
  · split
    · exact hupdate _
    · split
      · next turn hturn => exact hcurrent turn hturn
      · exact hnone

end

/-! ### The index -/

section

variable (b : ThreadHistoryBuilder)

@[simp] lemma nextRolloutIndex_finishCurrentTurn :
    b.finishCurrentTurn.nextRolloutIndex = b.nextRolloutIndex := by
  unfold finishCurrentTurn
  split
  · split <;> rfl
  · rfl

@[simp] lemma nextRolloutIndex_finishImplicitTurn :
    b.finishImplicitTurn.nextRolloutIndex = b.nextRolloutIndex := by
  unfold finishImplicitTurn
  split
  · split
    · exact b.nextRolloutIndex_finishCurrentTurn
    · rfl
  · rfl

@[simp] lemma nextRolloutIndex_ensureTurn :
    (ensureTurn rendering b).2.nextRolloutIndex = b.nextRolloutIndex := by
  unfold ensureTurn
  split <;> rfl

@[simp] lemma nextRolloutIndex_pushItemInCurrentTurn (item : ThreadItem) :
    (pushItemInCurrentTurn rendering b item).nextRolloutIndex = b.nextRolloutIndex :=
  nextRolloutIndex_ensureTurn b

@[simp] lemma nextRolloutIndex_pushNewItem (item : Text → ThreadItem) :
    (pushNewItem rendering b item).nextRolloutIndex = b.nextRolloutIndex :=
  nextRolloutIndex_pushItemInCurrentTurn _ _

@[simp] lemma nextRolloutIndex_updateCurrent (f : Turn → Turn) :
    (b.updateCurrent turn f).nextRolloutIndex = b.nextRolloutIndex := rfl

@[simp] lemma nextRolloutIndex_updateTurn (turnId : Text) (f : Turn → Turn) :
    (b.updateTurn turnId f).nextRolloutIndex = b.nextRolloutIndex := by
  unfold updateTurn
  split <;> rfl

/-- An action does not go on in the rollout. -/
lemma nextRolloutIndex_perform (action : Action) :
    (perform rendering b action).nextRolloutIndex = b.nextRolloutIndex := by
  cases action with
  | nothing => rfl
  | push item => exact nextRolloutIndex_pushItemInCurrentTurn b item
  | pushNew item => exact nextRolloutIndex_pushNewItem b item
  | pushUser item => simp [perform]
  | reasoning summary content =>
    change (handleReasoning rendering b summary content).nextRolloutIndex = _
    unfold handleReasoning
    simp only
    split
    · exact nextRolloutIndex_ensureTurn b
    · simp
  | upsert item => exact nextRolloutIndex_ensureTurn b
  | upsertIn turnId item =>
    change (b.upsertItemInTurnId turnId item).nextRolloutIndex = _
    unfold upsertItemInTurnId
    split
    · rfl
    · split <;> rfl
  | compacted => exact nextRolloutIndex_ensureTurn b
  | fail error =>
    simp only [perform]
    split <;> rfl
  | rollback | start => exact nextRolloutIndex_finishCurrentTurn b
  | complete turnId completedAt durationMs =>
    exact handleTurnComplete_cases (P := fun b' => b'.nextRolloutIndex = b.nextRolloutIndex)
      (by simp) (by simp) rfl
  | abort turnId completedAt durationMs =>
    exact handleTurnAborted_cases (P := fun b' => b'.nextRolloutIndex = b.nextRolloutIndex)
      (by simp) (by simp) rfl

end

/-! ### Recording -/

/-- The builder without the changes that are recorded. -/
def forget (b : ThreadHistoryBuilder) : ThreadHistoryBuilder := { b with activeChangeSet := none }

section

variable (b : ThreadHistoryBuilder)

@[simp] lemma forget_forget : b.forget.forget = b.forget := rfl

@[simp] lemma forget_advance : b.advance.forget = b.forget.advance := rfl

@[simp] lemma forget_setItems (items : List ThreadItem) (item : ThreadItem) :
    (b.setItems turn items item).forget = b.forget.setItems turn items item := rfl

@[simp] lemma forget_openTurn : (b.openTurn turn).forget = b.forget.openTurn turn := rfl

@[simp] lemma forget_updateCurrent (f : Turn → Turn) :
    (b.updateCurrent turn f).forget = b.forget.updateCurrent turn f := rfl

@[simp] lemma forget_finishCurrentTurn :
    b.finishCurrentTurn.forget = b.forget.finishCurrentTurn := by
  have hcurrent : b.forget.currentTurn = b.currentTurn := rfl
  unfold finishCurrentTurn
  rw [hcurrent]
  split
  · split <;> rfl
  · rfl

@[simp] lemma forget_finishImplicitTurn :
    b.finishImplicitTurn.forget = b.forget.finishImplicitTurn := by
  have hcurrent : b.forget.currentTurn = b.currentTurn := rfl
  unfold finishImplicitTurn
  rw [hcurrent]
  split
  · split
    · exact b.forget_finishCurrentTurn
    · rfl
  · rfl

lemma forget_ensureTurn : ensureTurn rendering b.forget =
    ((ensureTurn rendering b).1, (ensureTurn rendering b).2.forget) := by
  have hcurrent : b.forget.currentTurn = b.currentTurn := rfl
  unfold ensureTurn
  rw [hcurrent]
  split <;> rfl

lemma forget_pushItemInCurrentTurn (item : ThreadItem) :
    (pushItemInCurrentTurn rendering b item).forget =
      pushItemInCurrentTurn rendering b.forget item := by
  simp only [pushItemInCurrentTurn, forget_ensureTurn]
  rfl

lemma forget_pushNewItem (item : Text → ThreadItem) :
    (pushNewItem rendering b item).forget = pushNewItem rendering b.forget item :=
  forget_pushItemInCurrentTurn _ _

lemma forget_updateTurn (turnId : Text) (f : Turn → Turn) :
    (b.updateTurn turnId f).forget = b.forget.updateTurn turnId f := by
  have hturns : b.forget.turns = b.turns := rfl
  unfold updateTurn
  rw [hturns]
  split <;> rfl

lemma forget_handleReasoning (summary content : List Text) :
    (handleReasoning rendering b summary content).forget =
      handleReasoning rendering b.forget summary content := by
  simp only [handleReasoning, forget_ensureTurn]
  split
  · rfl
  · exact forget_pushNewItem _ _

lemma forget_upsertItemInTurnId (turnId : Text) (item : ThreadItem) :
    (b.upsertItemInTurnId turnId item).forget = b.forget.upsertItemInTurnId turnId item := by
  have hcurrent : b.forget.currentWithId turnId = b.currentWithId turnId := rfl
  have hturn : b.forget.hasTurn turnId = b.hasTurn turnId := rfl
  unfold upsertItemInTurnId
  rw [hcurrent, hturn]
  split
  · rfl
  · split <;> rfl

/-- **Whether changes are recorded makes no difference to the turns.** -/
theorem forget_perform (action : Action) :
    (perform rendering b action).forget = perform rendering b.forget action := by
  have hcurrent : b.forget.currentTurn = b.currentTurn := rfl
  have hwithId : b.forget.currentWithId = b.currentWithId := rfl
  have hhas : b.forget.hasTurn = b.hasTurn := rfl
  cases action with
  | nothing => rfl
  | push item => exact forget_pushItemInCurrentTurn b item
  | pushNew item => exact forget_pushNewItem b item
  | pushUser item =>
    simp [perform, forget_pushNewItem]
  | reasoning summary content => exact forget_handleReasoning b summary content
  | upsert item =>
    simp only [perform, upsertItemInCurrentTurn, forget_ensureTurn]
    rfl
  | upsertIn turnId item => exact forget_upsertItemInTurnId b turnId item
  | compacted =>
    simp only [perform, handleCompacted, forget_ensureTurn]
    rfl
  | fail error =>
    simp only [perform, hcurrent]
    split <;> rfl
  | rollback numTurns =>
    simp only [perform, handleThreadRollback, ← forget_finishCurrentTurn]
    rfl
  | start turnId startedAt =>
    simp only [perform, handleTurnStarted, ← forget_finishCurrentTurn]
    rfl
  | complete turnId completedAt durationMs =>
    simp only [perform, handleTurnComplete, hwithId, hhas, hcurrent]
    split
    · simp
    · split
      · exact forget_updateTurn b turnId _
      · split
        · simp
        · rfl
  | abort turnId completedAt durationMs =>
    change (b.handleTurnAborted _ _ _).forget = b.forget.handleTurnAborted _ _ _
    unfold handleTurnAborted
    rw [hwithId, hhas, hcurrent]
    split
    · rfl
    · split
      · exact forget_updateTurn b _ _
      · split <;> rfl

lemma forget_handleRolloutItem (item : RolloutItem) :
    (handleRolloutItem rendering b item).forget = handleRolloutItem rendering b.forget item := by
  rw [handleRolloutItem_eq, handleRolloutItem_eq, forget_perform]
  rfl

end

end ThreadHistoryBuilder

end TokenCode.ThreadHistory
