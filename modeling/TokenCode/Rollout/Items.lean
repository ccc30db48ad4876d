/-
The items of a rollout (`protocol/src/models.rs`, `protocol/src/protocol.rs`), and what the session
reads off a message (`core/src/event_mapping.rs`).

Fields that the reconstruction of a session only passes on are kept together as one text, `fields`.
What other crates decide about a text (is it JSON of a certain shape, a hook prompt, a UUID) is the
parameter `Reading`.
-/
import TokenCode.Rollout.Events
import TokenCode.Context.WorldState

namespace TokenCode.Rollout

open Text

inductive ContentItem where
  | inputText (text : Text)
  | inputImage (fields : Text)
  | outputText (text : Text)
deriving DecidableEq, Repr

inductive AgentMessageInputContent where
  | inputText (text : Text)
  | encryptedContent (encryptedContent : Text)
deriving DecidableEq, Repr

inductive FunctionCallOutputContentItem where
  | inputText (text : Text)
  | inputImage (fields : Text)
  | encryptedContent (encryptedContent : Text)
deriving DecidableEq, Repr

inductive FunctionCallOutputBody where
  | text (content : Text)
  | contentItems (items : List FunctionCallOutputContentItem)
deriving DecidableEq, Repr

structure FunctionCallOutputPayload where
  body : FunctionCallOutputBody
  success : Option Bool
deriving DecidableEq, Repr

inductive ResponseItem where
  | additionalTools (fields : Text)
  | message (id : Option Text) (role : Text) (content : List ContentItem)
      (phase metadata : Option Text)
  | agentMessage (id : Option Text) (author recipient : Text)
      (content : List AgentMessageInputContent) (metadata : Option Text)
  | reasoning (fields : Text)
  | localShellCall (id callId : Option Text) (fields : Text)
  | functionCall (id : Option Text) (callId : Text) (fields : Text)
  | toolSearchCall (id callId : Option Text) (fields : Text)
  | functionCallOutput (id : Option Text) (callId : Text) (output : FunctionCallOutputPayload)
      (metadata : Option Text)
  | customToolCall (id : Option Text) (callId : Text) (fields : Text)
  | customToolCallOutput (id : Option Text) (callId : Text) (name : Option Text)
      (output : FunctionCallOutputPayload) (metadata : Option Text)
  | toolSearchOutput (id callId : Option Text) (status execution : Text) (tools : List Text)
      (metadata : Option Text)
  | webSearchCall (fields : Text)
  | imageGenerationCall (fields result : Text)
  | compaction (fields : Text)
  | compactionTrigger
  | contextCompaction (fields : Text)
  | other
deriving DecidableEq, Repr

abbrev Uuid := Text

structure InterAgentCommunication where
  id : Option Text
  author : Text
  recipient : Text
  content : Text
  encryptedContent : Option Text
  metadata : Option Text
  triggerTurn : Bool
deriving DecidableEq, Repr

/-- `to_model_input_item`. -/
def InterAgentCommunication.toModelInputItem (c : InterAgentCommunication) : ResponseItem :=
  let content := match c.encryptedContent with
    | some encryptedContent =>
      let messageType := if c.triggerTurn then "NEW_TASK".toList else "MESSAGE".toList
      [AgentMessageInputContent.inputText
        ("Message Type: ".toList ++ messageType ++ "\nTask name: ".toList ++ c.recipient ++
          "\nSender: ".toList ++ c.author ++ "\nPayload:\n".toList),
        .encryptedContent encryptedContent]
    | none => [.inputText c.content]
  .agentMessage c.id c.author c.recipient content c.metadata

structure CompactedItem where
  message : Text
  replacementHistory : Option (List ResponseItem)
  windowNumber : Option ℕ
  firstWindowId : Option Text
  previousWindowId : Option Text
  windowId : Option Text
deriving DecidableEq, Repr

structure TurnContextItem where
  turnId : Option Text
  model : Text
  compHash : Option Text
  realtimeActive : Option Bool
  fields : Text
deriving DecidableEq, Repr

structure WorldStateItem where
  full : Bool
  state : Json
deriving DecidableEq, Repr

inductive RolloutItem where
  /-- The session's metadata, with the id of its context window. -/
  | sessionMeta (contextWindow : Option Text)
  | responseItem (item : ResponseItem)
  | interAgentCommunication (communication : InterAgentCommunication)
  | interAgentCommunicationMetadata (triggerTurn : Bool)
  | compacted (item : CompactedItem)
  | turnContext (item : TurnContextItem)
  | worldState (item : WorldStateItem)
  | eventMsg (event : EventMsg)
deriving DecidableEq, Repr

/-- What is read off texts by other parts of the program. -/
structure Reading where
  /-- `is_contextual_user_fragment`, of an input text. -/
  isContextualUserText : Text → Bool
  /-- Whether `serde_json` reads an `InterAgentCommunication` from the text. -/
  isInterAgentCommunication : Text → Bool
  /-- `parse_turn_item` for a user message, and the text of what it returns. -/
  userMessage : List ContentItem → Option Text
  /-- `SUMMARY_PREFIX`. -/
  summaryLead : Text
  approxTokenCount : Text → ℕ
  /-- `truncate_text` with `TruncationPolicy::Tokens`. -/
  truncateTokens : Text → ℕ → Text
  /-- `truncate_text` with the policy for tool outputs. -/
  truncateText : Text → Text
  /-- `truncate_function_output_items_with_policy`, likewise. -/
  truncateItems : List FunctionCallOutputContentItem → List FunctionCallOutputContentItem
  /-- `parse_uuid_v7`. -/
  parseUuidV7 : Text → Option Uuid

/-! ### Contextual messages -/

/-- `is_contextual_user_fragment`. -/
def isContextualUserFragment (reading : Reading) : ContentItem → Bool
  | .inputText text => reading.isContextualUserText text
  | _ => false

def isContextualUserMessageContent (reading : Reading) (message : List ContentItem) : Bool :=
  message.any (isContextualUserFragment reading)

/-- `CONTEXTUAL_DEVELOPER_PREFIXES`. -/
def contextualDeveloperLeads : List Text :=
  ["<permissions instructions>", "<model_switch>", "<collaboration_mode>", "<multi_agent_mode>",
    "<realtime_conversation>", "<skills_instructions>", "<personality_spec>", "<token_budget>",
    "<context_window>", "<context_window_guidance>", "<rollout_budget>"].map (·.toList)

/-- `is_contextual_dev_fragment`: the text starts with one of the tags, in any case. -/
def isContextualDevFragment : ContentItem → Bool
  | .inputText text =>
    let trimmed := trimStart text
    contextualDeveloperLeads.any fun lead =>
      (trimmed.take lead.length).map Char.toLower == lead.map Char.toLower
  | _ => false

def isContextualDevMessageContent (message : List ContentItem) : Bool :=
  message.any isContextualDevFragment

def hasNonContextualDevMessageContent (message : List ContentItem) : Bool :=
  message.any fun item => !isContextualDevFragment item

/-- `InterAgentCommunication::is_message_content`. -/
def isInterAgentInstructionContent (reading : Reading) : List ContentItem → Bool
  | [.inputText text] => reading.isInterAgentCommunication text
  | [.outputText text] => reading.isInterAgentCommunication text
  | _ => false

end TokenCode.Rollout
