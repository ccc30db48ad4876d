/-
The events of a rollout (`protocol/src/protocol.rs`, `protocol/src/items.rs`).

An event carries what one of its readers uses: the reconstruction of a session, which reads the
boundaries of turns and the rollbacks, or the history of a thread, which reads almost all of it.
Paths, ids of threads and JSON values are texts, and a map is the list of its entries.
-/
import TokenCode.Lib.Text

namespace TokenCode.Rollout

open Text

/-- A JSON value, as its text. -/
abbrev Value := Text

/-! ### Messages -/

structure UserMessageEvent where
  clientId : Option Text
  message : Text
  images : Option (List Text)
  imageDetails : List (Option Text)
  localImages : List Text
  localImageDetails : List (Option Text)
  textElements : List Text
deriving DecidableEq, Repr

structure AgentMessageEvent where
  message : Text
  phase : Option Text
  memoryCitation : Option Text
deriving DecidableEq, Repr

/-! ### Commands and patches -/

inductive ParsedCommand where
  | read (cmd name path : Text)
  | listFiles (cmd : Text) (path : Option Text)
  | search (cmd : Text) (query path : Option Text)
  | unknown (cmd : Text)
deriving DecidableEq, Repr

inductive ExecCommandSource where
  | agent
  | userShell
  | unifiedExecStartup
  | unifiedExecInteraction
deriving DecidableEq, Repr

inductive ExecCommandStatus where
  | completed
  | failed
  | declined
deriving DecidableEq, Repr

structure ExecCommandBeginEvent where
  callId : Text
  processId : Option Text
  turnId : Text
  command : List Text
  cwd : Text
  parsedCmd : List ParsedCommand
  source : ExecCommandSource
deriving DecidableEq, Repr

structure ExecCommandEndEvent where
  callId : Text
  processId : Option Text
  turnId : Text
  command : List Text
  cwd : Text
  parsedCmd : List ParsedCommand
  source : ExecCommandSource
  aggregatedOutput : Text
  exitCode : ℤ
  /-- In milliseconds. -/
  duration : ℕ
  status : ExecCommandStatus
deriving DecidableEq, Repr

inductive GuardianAssessmentStatus where
  | inProgress
  | approved
  | denied
  | timedOut
  | aborted
deriving DecidableEq, Repr

inductive GuardianAssessmentAction where
  | command (command cwd : Text)
  | execve (program : Text) (argv : List Text) (cwd : Text)
  | applyPatch (fields : Text)
  | networkAccess (fields : Text)
  | mcpToolCall (fields : Text)
  | requestPermissions (fields : Text)
deriving DecidableEq, Repr

structure GuardianAssessmentEvent where
  targetItemId : Option Text
  turnId : Text
  status : GuardianAssessmentStatus
  action : GuardianAssessmentAction
deriving DecidableEq, Repr

inductive FileChange where
  | add (content : Text)
  | delete (content : Text)
  | update (unifiedDiff : Text) (movePath : Option Text)
deriving DecidableEq, Repr

inductive PatchApplyStatus where
  | completed
  | failed
  | declined
deriving DecidableEq, Repr

/-- What `ApplyPatchApprovalRequestEvent` and `PatchApplyBeginEvent` have in common. -/
structure PatchApplyBeginEvent where
  callId : Text
  turnId : Text
  changes : List (Text × FileChange)
deriving DecidableEq, Repr

structure PatchApplyEndEvent where
  callId : Text
  turnId : Text
  changes : List (Text × FileChange)
  status : PatchApplyStatus
deriving DecidableEq, Repr

/-! ### Tools -/

inductive DynamicToolCallOutputContentItem where
  | inputText (text : Text)
  | inputImage (imageUrl : Text)
deriving DecidableEq, Repr

structure DynamicToolCallRequest where
  callId : Text
  turnId : Text
  «namespace» : Option Text
  tool : Text
  arguments : Value
deriving DecidableEq, Repr

structure DynamicToolCallResponseEvent where
  callId : Text
  turnId : Text
  «namespace» : Option Text
  tool : Text
  arguments : Value
  contentItems : List DynamicToolCallOutputContentItem
  success : Bool
  /-- In milliseconds. -/
  duration : ℕ
deriving DecidableEq, Repr

structure McpInvocation where
  server : Text
  tool : Text
  arguments : Option Value
deriving DecidableEq, Repr

structure McpToolCallBeginEvent where
  callId : Text
  invocation : McpInvocation
  connectorId : Option Text
  mcpAppResourceUri : Option Text
  linkId : Option Text
  appName : Option Text
  templateId : Option Text
  actionName : Option Text
  pluginId : Option Text
deriving DecidableEq, Repr

structure CallToolResult where
  content : List Value
  structuredContent : Option Value
  isError : Option Bool
  «meta» : Option Value
deriving DecidableEq, Repr

structure McpToolCallEndEvent extends McpToolCallBeginEvent where
  /-- In milliseconds. -/
  duration : ℕ
  /-- The result, or the message of an error. -/
  result : CallToolResult ⊕ Text
deriving DecidableEq, Repr

structure ImageGenerationEndEvent where
  callId : Text
  status : Text
  revisedPrompt : Option Text
  result : Text
  savedPath : Option Text
deriving DecidableEq, Repr

/-! ### Other agents -/

inductive AgentStatus where
  | pendingInit
  | running
  | interrupted
  | completed (message : Option Text)
  | errored (message : Text)
  | shutdown
  | notFound
deriving DecidableEq, Repr

structure CollabAgentSpawnBeginEvent where
  callId : Text
  senderThreadId : Text
  prompt : Text
  model : Text
  reasoningEffort : Text
deriving DecidableEq, Repr

structure CollabAgentSpawnEndEvent extends CollabAgentSpawnBeginEvent where
  newThreadId : Option Text
  status : AgentStatus
deriving DecidableEq, Repr

/-- What the beginnings of an interaction, of closing and of resuming an agent have in common. -/
structure CollabAgentCall where
  callId : Text
  senderThreadId : Text
  receiverThreadId : Text
deriving DecidableEq, Repr

structure CollabWaitingBeginEvent where
  callId : Text
  senderThreadId : Text
  receiverThreadIds : List Text
deriving DecidableEq, Repr

structure CollabWaitingEndEvent where
  callId : Text
  senderThreadId : Text
  statuses : List (Text × AgentStatus)
deriving DecidableEq, Repr

structure SubAgentActivityEvent where
  eventId : Text
  kind : Text
  agentThreadId : Text
  agentPath : Text
deriving DecidableEq, Repr

/-! ### Items of turns -/

inductive CommandExecutionStatus where
  | inProgress
  | completed
  | failed
  | declined
deriving DecidableEq, Repr

structure CommandExecutionItem where
  id : Text
  processId : Option Text
  command : List Text
  cwd : Text
  parsedCmd : List ParsedCommand
  source : ExecCommandSource
  status : CommandExecutionStatus
  aggregatedOutput : Option Text
  exitCode : Option ℤ
  /-- In milliseconds. -/
  duration : Option ℕ
deriving DecidableEq, Repr

inductive DynamicToolCallStatus where
  | inProgress
  | completed
  | failed
deriving DecidableEq, Repr

structure DynamicToolCallItem where
  id : Text
  «namespace» : Option Text
  tool : Text
  arguments : Value
  status : DynamicToolCallStatus
  contentItems : Option (List DynamicToolCallOutputContentItem)
  success : Option Bool
  /-- In milliseconds. -/
  duration : Option ℕ
deriving DecidableEq, Repr

inductive CollabAgentTool where
  | spawnAgent
  | sendInput
  | resumeAgent
  | wait
  | closeAgent
deriving DecidableEq, Repr

inductive CollabAgentToolCallStatus where
  | inProgress
  | completed
  | failed
deriving DecidableEq, Repr

structure CollabAgentToolCallItem where
  id : Text
  tool : CollabAgentTool
  status : CollabAgentToolCallStatus
  senderThreadId : Text
  receiverThreadIds : List Text
  prompt : Option Text
  model : Option Text
  reasoningEffort : Option Text
  agentsStates : List (Text × AgentStatus)
deriving DecidableEq, Repr

/-- `TurnItem`; of the items that the history of a thread does not take from their lifecycle only
the id. -/
inductive TurnItem where
  | plan (id text : Text)
  | sleep (id : Text) (durationMs : ℕ)
  | commandExecution (item : CommandExecutionItem)
  | dynamicToolCall (item : DynamicToolCallItem)
  | collabAgentToolCall (item : CollabAgentToolCallItem)
  | subAgentActivity (item : SubAgentActivityEvent)
  | userMessage (id : Text)
  | hookPrompt (id : Text)
  | agentMessage (id : Text)
  | reasoning (id : Text)
  | webSearch (id : Text)
  | imageView (id : Text)
  | imageGeneration (id : Text)
  | fileChange (id : Text)
  | mcpToolCall (id : Text)
  | contextCompaction (id : Text)
deriving DecidableEq, Repr

/-! ### Events -/

inductive CodexErrorInfo where
  | threadRollbackFailed
  | activeTurnNotSteerable (fields : Text)
  | other (fields : Text)
deriving DecidableEq, Repr

/-- `EventMsg`. -/
inductive EventMsg where
  | threadRolledBack (numTurns : ℕ)
  | turnStarted (turnId : Text) (startedAt : Option ℤ)
  | turnComplete (turnId : Text) (completedAt durationMs : Option ℤ)
  | turnAborted (turnId : Option Text) (completedAt durationMs : Option ℤ)
  | userMessage (payload : UserMessageEvent)
  | agentMessage (payload : AgentMessageEvent)
  | agentReasoning (text : Text)
  | agentReasoningRawContent (text : Text)
  | webSearchBegin (callId : Text)
  | webSearchEnd (callId query : Text) (action : Text)
  | execCommandBegin (payload : ExecCommandBeginEvent)
  | execCommandEnd (payload : ExecCommandEndEvent)
  | guardianAssessment (payload : GuardianAssessmentEvent)
  | applyPatchApprovalRequest (payload : PatchApplyBeginEvent)
  | patchApplyBegin (payload : PatchApplyBeginEvent)
  | patchApplyEnd (payload : PatchApplyEndEvent)
  | dynamicToolCallRequest (payload : DynamicToolCallRequest)
  | dynamicToolCallResponse (payload : DynamicToolCallResponseEvent)
  | mcpToolCallBegin (payload : McpToolCallBeginEvent)
  | mcpToolCallEnd (payload : McpToolCallEndEvent)
  | viewImageToolCall (callId path : Text)
  | imageGenerationBegin (callId : Text)
  | imageGenerationEnd (payload : ImageGenerationEndEvent)
  | collabAgentSpawnBegin (payload : CollabAgentSpawnBeginEvent)
  | collabAgentSpawnEnd (payload : CollabAgentSpawnEndEvent)
  | collabAgentInteractionBegin (call : CollabAgentCall) (prompt : Text)
  | collabAgentInteractionEnd (call : CollabAgentCall) (prompt : Text) (status : AgentStatus)
  | subAgentActivity (payload : SubAgentActivityEvent)
  | collabWaitingBegin (payload : CollabWaitingBeginEvent)
  | collabWaitingEnd (payload : CollabWaitingEndEvent)
  | collabCloseBegin (call : CollabAgentCall)
  | collabCloseEnd (call : CollabAgentCall) (status : AgentStatus)
  | collabResumeBegin (call : CollabAgentCall)
  | collabResumeEnd (call : CollabAgentCall) (status : AgentStatus)
  | contextCompacted
  | enteredReviewMode (userFacingHint : Option Text)
  /-- The explanation of the review, if it has an output. -/
  | exitedReviewMode (overallExplanation : Option Text)
  | itemStarted (turnId : Text) (item : TurnItem)
  | itemCompleted (turnId : Text) (item : TurnItem)
  | error (message : Text) (codexErrorInfo : Option CodexErrorInfo)
  /-- An event that none of the readers looks at. -/
  | other (fields : Text)
deriving DecidableEq, Repr

end TokenCode.Rollout
