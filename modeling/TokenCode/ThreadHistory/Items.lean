/-
The items of a thread as a client sees them (`app-server-protocol/src/protocol/v2/item.rs`), and how
they are built from events (`app-server-protocol/src/protocol/item_builders.rs`).

What other crates make of a text (joining and parsing commands, paths, XML, new UUIDs) is the
parameter `Rendering`. A conversion between two enumerations with the same members is left out.
-/
import TokenCode.Rollout.Items

namespace TokenCode.ThreadHistory

open Text Rollout

/-! ### Items -/

inductive UserInput where
  | text (text : Text) (textElements : List Text)
  | image (url : Text) (detail : Option Text)
  | localImage (path : Text) (detail : Option Text)
deriving DecidableEq, Repr

structure HookPromptFragment where
  text : Text
  hookRunId : Text
deriving DecidableEq, Repr

inductive CommandAction where
  | read (command name path : Text)
  | listFiles (command : Text) (path : Option Text)
  | search (command : Text) (query path : Option Text)
  | unknown (command : Text)
deriving DecidableEq, Repr

inductive PatchChangeKind where
  | add
  | delete
  | update (movePath : Option Text)
deriving DecidableEq, Repr

structure FileUpdateChange where
  path : Text
  kind : PatchChangeKind
  diff : Text
deriving DecidableEq, Repr

/-- `PatchApplyStatus` of the client. -/
inductive FileChangeStatus where
  | inProgress
  | completed
  | failed
  | declined
deriving DecidableEq, Repr

inductive McpToolCallStatus where
  | inProgress
  | completed
  | failed
deriving DecidableEq, Repr

structure McpToolCallAppContext where
  connectorId : Text
  linkId : Option Text
  resourceUri : Option Text
  appName : Option Text
  templateId : Option Text
  actionName : Option Text
deriving DecidableEq, Repr

structure McpToolCallResult where
  content : List Value
  structuredContent : Option Value
  «meta» : Option Value
deriving DecidableEq, Repr

inductive CollabAgentStatus where
  | pendingInit
  | running
  | interrupted
  | completed
  | errored
  | shutdown
  | notFound
deriving DecidableEq, Repr

structure CollabAgentState where
  status : CollabAgentStatus
  message : Option Text
deriving DecidableEq, Repr

inductive ThreadItem where
  | userMessage (id : Text) (clientId : Option Text) (content : List UserInput)
  | hookPrompt (id : Text) (fragments : List HookPromptFragment)
  | agentMessage (id text : Text) (phase memoryCitation : Option Text)
  | plan (id text : Text)
  | reasoning (id : Text) (summary content : List Text)
  | commandExecution (id command cwd : Text) (processId : Option Text) (source : ExecCommandSource)
      (status : CommandExecutionStatus) (commandActions : List CommandAction)
      (aggregatedOutput : Option Text) (exitCode durationMs : Option ℤ)
  | fileChange (id : Text) (changes : List FileUpdateChange) (status : FileChangeStatus)
  | mcpToolCall (id server tool : Text) (status : McpToolCallStatus) (arguments : Value)
      (appContext : Option McpToolCallAppContext) (mcpAppResourceUri pluginId : Option Text)
      (result : Option McpToolCallResult) (error : Option Text) (durationMs : Option ℤ)
  | dynamicToolCall (id : Text) («namespace» : Option Text) (tool : Text) (arguments : Value)
      (status : DynamicToolCallStatus)
      (contentItems : Option (List DynamicToolCallOutputContentItem)) (success : Option Bool)
      (durationMs : Option ℤ)
  | collabAgentToolCall (id : Text) (tool : CollabAgentTool) (status : CollabAgentToolCallStatus)
      (senderThreadId : Text) (receiverThreadIds : List Text)
      (prompt model reasoningEffort : Option Text) (agentsStates : List (Text × CollabAgentState))
  | subAgentActivity (id kind agentThreadId agentPath : Text)
  | webSearch (id query : Text) (action : Option Text)
  | imageView (id path : Text)
  | sleep (id : Text) (durationMs : ℕ)
  | imageGeneration (id status : Text) (revisedPrompt : Option Text) (result : Text)
      (savedPath : Option Text)
  | enteredReviewMode (id review : Text)
  | exitedReviewMode (id review : Text)
  | contextCompaction (id : Text)
deriving DecidableEq, Repr

/-- `ThreadItem::id`. -/
def ThreadItem.id : ThreadItem → Text
  | userMessage id .. => id
  | hookPrompt id .. => id
  | agentMessage id .. => id
  | plan id .. => id
  | reasoning id .. => id
  | commandExecution id .. => id
  | fileChange id .. => id
  | mcpToolCall id .. => id
  | dynamicToolCall id .. => id
  | collabAgentToolCall id .. => id
  | subAgentActivity id .. => id
  | webSearch id .. => id
  | imageView id .. => id
  | sleep id .. => id
  | imageGeneration id .. => id
  | enteredReviewMode id .. => id
  | exitedReviewMode id .. => id
  | contextCompaction id => id

/-- What other crates make of texts. -/
structure Rendering where
  /-- `from_xml_str::<HookPromptXml>`. -/
  hookPromptXml : Text → Option HookPromptFragment
  /-- The UUID that is drawn while the item with this index is handled. -/
  newUuid : ℕ → Text
  /-- `shlex_join`. -/
  shlexJoin : List Text → Text
  /-- `parse_command`. -/
  parseCommand : List Text → List ParsedCommand
  /-- The absolute path of a working directory, if it is one of the host. -/
  nativeCwd : Text → Option Text
  /-- `AbsolutePathBuf::join`. -/
  joinPath : Text → Text → Text

variable (rendering : Rendering)

/-! ### Milliseconds -/

/-- `i64::try_from(duration.as_millis()).ok()`. -/
def durationOk (duration : ℕ) : Option ℤ :=
  if duration < 2 ^ 63 then some duration else none

/-- `i64::try_from(duration.as_millis()).unwrap_or(i64::MAX)`. -/
def durationOrMax (duration : ℕ) : ℤ := ((min duration (2 ^ 63 - 1) : ℕ) : ℤ)

/-! ### Commands -/

/-- `CommandAction::from_core_with_cwd`. -/
def fromCoreWithCwd (cwd : Text) : ParsedCommand → CommandAction
  | .read cmd name path => .read cmd name (rendering.joinPath cwd path)
  | .listFiles cmd path => .listFiles cmd path
  | .search cmd query path => .search cmd query path
  | .unknown cmd => .unknown cmd

/-- `command_actions_for_path_uri`. -/
def commandActionsForPathUri (parsedCmd : List ParsedCommand) (cwd : Text) : List CommandAction :=
  parsedCmd.filterMap fun
    | .read cmd name path =>
      (rendering.nativeCwd cwd).map fun nativeCwd =>
        .read cmd name (rendering.joinPath nativeCwd path)
    | .listFiles cmd path => some (.listFiles cmd path)
    | .search cmd query path => some (.search cmd query path)
    | .unknown cmd => some (.unknown cmd)

/-- `build_command_execution_begin_item`. -/
def buildCommandExecutionBeginItem (payload : ExecCommandBeginEvent) : ThreadItem :=
  .commandExecution payload.callId (rendering.shlexJoin payload.command) payload.cwd
    payload.processId payload.source .inProgress
    (commandActionsForPathUri rendering payload.parsedCmd payload.cwd) none none none

/-- `CommandExecutionStatus::from`. -/
def commandExecutionStatus : ExecCommandStatus → CommandExecutionStatus
  | .completed => .completed
  | .failed => .failed
  | .declined => .declined

/-- `build_command_execution_end_item`. -/
def buildCommandExecutionEndItem (payload : ExecCommandEndEvent) : ThreadItem :=
  .commandExecution payload.callId (rendering.shlexJoin payload.command) payload.cwd
    payload.processId payload.source (commandExecutionStatus payload.status)
    (commandActionsForPathUri rendering payload.parsedCmd payload.cwd)
    (if payload.aggregatedOutput.isEmpty then none else some payload.aggregatedOutput)
    (some payload.exitCode) (some (durationOrMax payload.duration))

/-- `build_item_from_guardian_event`. -/
def buildItemFromGuardianEvent (assessment : GuardianAssessmentEvent)
    (status : CommandExecutionStatus) : Option ThreadItem :=
  match assessment.action with
  | .command command cwd =>
    assessment.targetItemId.map fun id =>
      .commandExecution id command cwd none .agent status [.unknown command] none none none
  | .execve program argv cwd =>
    assessment.targetItemId.map fun id =>
      let argv := if argv.isEmpty then [program] else program :: argv.drop 1
      let command := rendering.shlexJoin argv
      let parsedCmd := rendering.parseCommand argv
      let commandActions := if parsedCmd.isEmpty then [.unknown command]
        else parsedCmd.map (fromCoreWithCwd rendering cwd)
      .commandExecution id command cwd none .agent status commandActions none none none
  | .applyPatch _ => none
  | .networkAccess _ => none
  | .mcpToolCall _ => none
  | .requestPermissions _ => none

/-! ### Patches -/

/-- `map_patch_change_kind`. -/
def mapPatchChangeKind : FileChange → PatchChangeKind
  | .add _ => .add
  | .delete _ => .delete
  | .update _ movePath => .update movePath

/-- `format_file_change_diff`. -/
def formatFileChangeDiff : FileChange → Text
  | .add content => content
  | .delete content => content
  | .update unifiedDiff (some path) => unifiedDiff ++ "\n\nMoved to: ".toList ++ path
  | .update unifiedDiff none => unifiedDiff

/-- `convert_patch_changes`. -/
def convertPatchChanges (changes : List (Text × FileChange)) : List FileUpdateChange :=
  (changes.map fun change =>
    (⟨change.1, mapPatchChangeKind change.2, formatFileChangeDiff change.2⟩ :
      FileUpdateChange)).mergeSort fun a b => !decide (b.path < a.path)

/-- `build_file_change_begin_item`, and `build_file_change_approval_request_item`. -/
def buildFileChangeBeginItem (payload : PatchApplyBeginEvent) : ThreadItem :=
  .fileChange payload.callId (convertPatchChanges payload.changes) .inProgress

/-- `PatchApplyStatus::from`. -/
def fileChangeStatus : PatchApplyStatus → FileChangeStatus
  | .completed => .completed
  | .failed => .failed
  | .declined => .declined

/-- `build_file_change_end_item`. -/
def buildFileChangeEndItem (payload : PatchApplyEndEvent) : ThreadItem :=
  .fileChange payload.callId (convertPatchChanges payload.changes) (fileChangeStatus payload.status)

/-! ### Other agents -/

/-- `CollabAgentState::from`. -/
def collabAgentState : AgentStatus → CollabAgentState
  | .pendingInit => ⟨.pendingInit, none⟩
  | .running => ⟨.running, none⟩
  | .interrupted => ⟨.interrupted, none⟩
  | .completed message => ⟨.completed, message⟩
  | .errored message => ⟨.errored, some message⟩
  | .shutdown => ⟨.shutdown, none⟩
  | .notFound => ⟨.notFound, none⟩

/-- The status of an agent that has failed. -/
def AgentStatus.isFailure : AgentStatus → Bool
  | .errored _ => true
  | .notFound => true
  | _ => false

/-! ### Items of turns -/

/-- `ThreadItem::from`, for the items whose lifecycle makes an item of the thread. -/
def fromTurnItem : TurnItem → Option ThreadItem
  | .plan id text => if text.isEmpty then none else some (.plan id text)
  | .sleep id durationMs => some (.sleep id durationMs)
  | .commandExecution item => some (.commandExecution item.id (rendering.shlexJoin item.command)
      item.cwd item.processId item.source item.status
      (commandActionsForPathUri rendering item.parsedCmd item.cwd)
      (item.aggregatedOutput.filter fun output => !output.isEmpty) item.exitCode
      (item.duration.bind durationOk))
  | .dynamicToolCall item => some (.dynamicToolCall item.id item.namespace item.tool item.arguments
      item.status item.contentItems item.success (item.duration.bind durationOk))
  | .collabAgentToolCall item => some (.collabAgentToolCall item.id item.tool item.status
      item.senderThreadId item.receiverThreadIds item.prompt item.model item.reasoningEffort
      (item.agentsStates.map fun entry => (entry.1, collabAgentState entry.2)))
  | .subAgentActivity item => some (.subAgentActivity item.eventId item.kind item.agentThreadId
      item.agentPath)
  | .userMessage _ => none
  | .hookPrompt _ => none
  | .agentMessage _ => none
  | .reasoning _ => none
  | .webSearch _ => none
  | .imageView _ => none
  | .imageGeneration _ => none
  | .fileChange _ => none
  | .mcpToolCall _ => none
  | .contextCompaction _ => none

/-- `parse_hook_prompt_fragment`. -/
def parseHookPromptFragment (text : Text) : Option HookPromptFragment :=
  (rendering.hookPromptXml (trim text)).filter fun fragment => !(trim fragment.hookRunId).isEmpty

/-- `parse_hook_prompt_message`; an id is drawn if the message has none. -/
def parseHookPromptMessage (index : ℕ) (id : Option Text) (content : List ContentItem) :
    Option ThreadItem := do
  let fragments ← content.mapM fun
    | .inputText text => parseHookPromptFragment rendering text
    | _ => none
  if fragments.isEmpty then none
  else some (.hookPrompt (id.getD (rendering.newUuid index)) fragments)

end TokenCode.ThreadHistory
