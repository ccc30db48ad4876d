/-
The translation of a request for two wire protocols (`codex-api/src/endpoint/chat_adapter.rs` and
`codex-api/src/endpoint/anthropic_adapter.rs`).

Both go through the items of the input and look at the last message only: Chat Completions puts
neighbouring tool calls into one assistant message, Anthropic Messages puts all neighbouring items
of one role into one message. How `serde_json` reads the arguments of a tool is the parameter
`parse`.
-/
import TokenCode.ModelApi.Items

namespace TokenCode.ModelApi

open Text

/-! ### Chat Completions -/

/-- A part of a multimodal message content. -/
inductive ChatContentPart where
  | text (text : Text)
  | imageUrl (url : Text) (detail : Option Text)
deriving DecidableEq, Repr

/-- The content of a chat message: a string, or an array of parts. -/
inductive ChatContent where
  | string (text : Text)
  | array (parts : List ChatContentPart)
deriving DecidableEq, Repr

/-- `ChatToolCall`; its type is always `function`. -/
structure ChatToolCall where
  id : Text
  name : Text
  arguments : Text
deriving DecidableEq, Repr

/-- `ChatMessage`; its name is never set. -/
structure ChatMessage where
  role : Text
  content : Option ChatContent
  toolCallId : Option Text
  toolCalls : Option (List ChatToolCall)
deriving DecidableEq, Repr

structure ChatStreamOptions where
  includeUsage : Bool
deriving DecidableEq, Repr

structure ChatApiRequest where
  model : Text
  messages : List ChatMessage
  tools : Option (List JsonTree)
  toolChoice : Option JsonTree
  parallelToolCalls : Bool
  reasoningEffort : Option Text
  serviceTier : Option Text
  responseFormat : Option JsonTree
  maxTokens : Option ℕ
  streamOptions : Option ChatStreamOptions
  stream : Bool

/-- `image_detail_str`. -/
def imageDetailStr : ImageDetail → Text
  | .auto => "auto".toList
  | .low => "low".toList
  | .high => "high".toList
  | .original => "auto".toList

/-- The text of a content item that is text. -/
def ContentItem.text? : ContentItem → Option Text
  | .inputText text | .outputText text => some text
  | .inputImage _ _ => none

def ContentItem.isImage : ContentItem → Bool
  | .inputImage _ _ => true
  | .inputText _ | .outputText _ => false

/-- The part of a multimodal content. -/
def ContentItem.chatPart : ContentItem → ChatContentPart
  | .inputText text | .outputText text => .text text
  | .inputImage imageUrl detail => .imageUrl imageUrl (detail.map imageDetailStr)

/-- `message_content_to_value`. -/
def messageContentToValue (content : List ContentItem) : Option ChatContent :=
  if content.any ContentItem.isImage then
    let parts := content.map ContentItem.chatPart
    if parts = [] then none else some (.array parts)
  else
    let text := (content.filterMap ContentItem.text?).flatten
    if text = [] then none else some (.string text)

/-- `normalize_chat_role`. -/
def normalizeChatRole (role : Text) : Text :=
  if role = "developer".toList then "system".toList else role

/-- `push_tool_call`. -/
def pushToolCall (messages : List ChatMessage) (callId name arguments : Text) : List ChatMessage :=
  match messages.getLast? with
  | some ⟨role, content, toolCallId, some toolCalls⟩ =>
    if role = "assistant".toList then
      messages.dropLast ++ [⟨role, content, toolCallId, some (toolCalls ++ [⟨callId, name, arguments⟩])⟩]
    else messages ++ [⟨"assistant".toList, none, none, some [⟨callId, name, arguments⟩]⟩]
  | _ => messages ++ [⟨"assistant".toList, none, none, some [⟨callId, name, arguments⟩]⟩]

/-- `push_tool_output`. -/
def pushToolOutput (messages : List ChatMessage) (callId : Text) (text : Option Text) :
    List ChatMessage :=
  messages ++ [⟨"tool".toList, some (.string (text.getD [])), some callId, none⟩]

/-- `translate_item` of the chat adapter. -/
def translateChatItem (messages : List ChatMessage) : ResponseItem → List ChatMessage
  | .message role content =>
    match messageContentToValue content with
    | none => messages
    | some chatContent => messages ++ [⟨normalizeChatRole role, some chatContent, none, none⟩]
  | .functionCall name arguments callId => pushToolCall messages callId name arguments
  | .customToolCall callId name input => pushToolCall messages callId name input
  | .functionCallOutput callId output => pushToolOutput messages callId output.body.toText
  | .customToolCallOutput callId output => pushToolOutput messages callId output.body.toText
  | .reasoning | .agentMessage | .localShellCall | .toolSearchCall | .toolSearchOutput
  | .webSearchCall | .imageGenerationCall | .compaction | .contextCompaction | .compactionTrigger
  | .additionalTools | .other => messages

/-- `responses_tool_to_chat`. -/
def responsesToolToChat (tool : JsonTree) : Option JsonTree := do
  let obj ← tool.asObject
  guard (toolKind tool = "function".toList)
  let keys := ["description".toList, "name".toList, "parameters".toList, "strict".toList]
  let function := keys.filterMap fun key =>
    (obj.dlookup key).map fun value => (⟨key, value⟩ : (_ : Text) × JsonTree)
  return .object [⟨"function".toList, .object function⟩, ⟨"type".toList, .string "function".toList⟩]

/-- `tool_choice_to_value`. -/
def toolChoiceToValue (toolChoice : Text) : Option JsonTree :=
  if toolChoice = [] then none else some (.string toolChoice)

/-- The response format with the schema of the request. -/
def chatResponseFormat (format : UnifiedTextFormat) : JsonTree :=
  .object [⟨"json_schema".toList, .object [⟨"name".toList, .string format.name⟩,
    ⟨"schema".toList, format.schema⟩, ⟨"strict".toList, .bool format.strict⟩]⟩,
    ⟨"type".toList, .string "json_schema".toList⟩]

/-- The instructions in front of the messages. -/
def chatInstructions (instructions : Text) : List ChatMessage :=
  if instructions = [] then []
  else [⟨"system".toList, some (.string instructions), none, none⟩]

/-- `From<UnifiedRequest> for ChatApiRequest`. -/
def chatApiRequest (req : UnifiedRequest) : ChatApiRequest where
  model := req.model
  messages := req.input.foldl translateChatItem (chatInstructions req.instructions)
  tools := (req.tools.map (·.filterMap responsesToolToChat)).filter (· ≠ [])
  toolChoice := toolChoiceToValue req.toolChoice
  parallelToolCalls := req.parallelToolCalls
  reasoningEffort := req.reasoningEffort
  serviceTier := req.serviceTier
  responseFormat := req.textFormat.map chatResponseFormat
  maxTokens := none
  streamOptions := if req.stream then some ⟨true⟩ else none
  stream := req.stream

/-! ### Anthropic Messages -/

inductive AnthropicImageSource where
  | base64 (mediaType data : Text)
  | url (url : Text)
deriving DecidableEq, Repr

inductive AnthropicContentBlock where
  | text (text : Text)
  | image (source : AnthropicImageSource)
  | toolUse (id name : Text) (input : JsonTree)
  | toolResult (toolUseId content : Text) (isError : Option Bool)
deriving DecidableEq

structure AnthropicMessage where
  role : Text
  content : List AnthropicContentBlock
deriving DecidableEq

structure AnthropicTool where
  name : Text
  description : Option Text
  inputSchema : JsonTree
deriving DecidableEq

structure AnthropicToolChoice where
  type : Text
  name : Option Text
  disableParallelToolUse : Option Bool
deriving DecidableEq

structure AnthropicApiRequest where
  model : Text
  maxTokens : ℕ
  messages : List AnthropicMessage
  /-- The texts of the system blocks. -/
  system : Option (List Text)
  tools : Option (List AnthropicTool)
  toolChoice : Option AnthropicToolChoice
  stream : Bool

def anthropicDefaultMaxTokens : ℕ := 4096

/-- `append_blocks`. -/
def appendBlocks (messages : List AnthropicMessage) (role : Text)
    (newBlocks : List AnthropicContentBlock) : List AnthropicMessage :=
  if newBlocks = [] then messages
  else match messages.getLast? with
    | some last =>
      if last.role = role then messages.dropLast ++ [⟨last.role, last.content ++ newBlocks⟩]
      else messages ++ [⟨role, newBlocks⟩]
    | none => messages ++ [⟨role, newBlocks⟩]

/-- `parse_tool_input`. -/
def parseToolInput (parse : Text → Option JsonTree) (arguments : Text) : JsonTree :=
  match parse arguments with
  | some (.object fields) => .object fields
  | _ => .object []

/-- `anthropic_image_source`. -/
def anthropicImageSource (imageUrl : Text) : AnthropicImageSource :=
  match imageUrl.dropPrefix? "data:".toList with
  | some rest =>
    if ',' ∈ rest then
      .base64 ((rest.takeWhile (· ≠ ',')).takeWhile (· ≠ ';'))
        (rest.dropWhile (· ≠ ',')).tail
    else .url imageUrl
  | none => .url imageUrl

/-- The block of a content item; an empty text has none. -/
def ContentItem.block? : ContentItem → Option AnthropicContentBlock
  | .inputText text | .outputText text => if text = [] then none else some (.text text)
  | .inputImage imageUrl _ => some (.image (anthropicImageSource imageUrl))

/-- `message_content_to_blocks`. -/
def messageContentToBlocks (content : List ContentItem) : List AnthropicContentBlock :=
  content.filterMap ContentItem.block?

/-- `normalize_role`. -/
def normalizeRole (role : Text) : Option Text :=
  if role = "user".toList ∨ role = "assistant".toList then some role else none

/-- `push_tool_use`. -/
def pushToolUse (parse : Text → Option JsonTree) (messages : List AnthropicMessage)
    (id name arguments : Text) : List AnthropicMessage :=
  appendBlocks messages "assistant".toList [.toolUse id name (parseToolInput parse arguments)]

/-- `push_tool_result`. -/
def pushToolResult (messages : List AnthropicMessage) (callId : Text) (text : Option Text)
    (success : Option Bool) : List AnthropicMessage :=
  appendBlocks messages "user".toList [.toolResult callId (text.getD []) (success.map (!·))]

/-- `translate_item` of the Anthropic adapter. -/
def translateAnthropicItem (parse : Text → Option JsonTree) (messages : List AnthropicMessage) :
    ResponseItem → List AnthropicMessage
  | .message role content =>
    match normalizeRole role with
    | none => messages
    | some role => appendBlocks messages role (messageContentToBlocks content)
  | .functionCall name arguments callId => pushToolUse parse messages callId name arguments
  | .customToolCall callId name input => pushToolUse parse messages callId name input
  | .functionCallOutput callId output =>
    pushToolResult messages callId output.body.toText output.success
  | .customToolCallOutput callId output =>
    pushToolResult messages callId output.body.toText output.success
  | .reasoning | .agentMessage | .localShellCall | .toolSearchCall | .toolSearchOutput
  | .webSearchCall | .imageGenerationCall | .compaction | .contextCompaction | .compactionTrigger
  | .additionalTools | .other => messages

/-- `responses_tool_to_anthropic`. -/
def responsesToolToAnthropic (tool : JsonTree) : Option AnthropicTool := do
  let obj ← tool.asObject
  guard (toolKind tool = "function".toList)
  let name ← (obj.dlookup "name".toList).bind asStr
  let description := (obj.dlookup "description".toList).bind asStr
  let inputSchema := match obj.dlookup "parameters".toList with
    | some (.object fields) => .object fields
    | _ => .object []
  return ⟨name, description, inputSchema⟩

/-- `tool_choice_to_anthropic`. -/
def toolChoiceToAnthropic (toolChoice : Text) (parallelToolCalls : Bool) :
    Option AnthropicToolChoice :=
  let disableParallel := if parallelToolCalls then none else some true
  if toolChoice = [] then none
  else if toolChoice = "none".toList then some ⟨"none".toList, none, none⟩
  else if toolChoice = "auto".toList then some ⟨"auto".toList, none, disableParallel⟩
  else if toolChoice = "required".toList then some ⟨"any".toList, none, disableParallel⟩
  else some ⟨"tool".toList, some toolChoice, disableParallel⟩

/-- `From<UnifiedRequest> for AnthropicApiRequest`. -/
def anthropicApiRequest (parse : Text → Option JsonTree) (req : UnifiedRequest) :
    AnthropicApiRequest :=
  let tools := (req.tools.map (·.filterMap responsesToolToAnthropic)).filter (· ≠ [])
  { model := req.model
    maxTokens := anthropicDefaultMaxTokens
    messages := req.input.foldl (translateAnthropicItem parse) []
    system := if req.instructions = [] then none else some [req.instructions]
    tools := tools
    toolChoice := tools.bind fun _ => toolChoiceToAnthropic req.toolChoice req.parallelToolCalls
    stream := req.stream }

end TokenCode.ModelApi
