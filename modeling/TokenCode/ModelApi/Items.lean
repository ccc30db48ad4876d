/-
What the model API exchanges with the rest of the program (`protocol/src/models.rs`,
`codex-language-model/src/request.rs`, `codex-api/src/common.rs`).

A `ResponseItem` has here the fields that the adapters for the wire protocols read and that the
stream parsers set. The other fields of a message or a call (its own id, phase, namespace and
metadata) are never read by an adapter, and a stream parser sets them to `None`.
-/
import TokenCode.Lib.Json

namespace TokenCode.ModelApi

open Text

inductive ImageDetail where
  | auto
  | low
  | high
  | original
deriving DecidableEq, Repr

inductive ContentItem where
  | inputText (text : Text)
  | inputImage (imageUrl : Text) (detail : Option ImageDetail)
  | outputText (text : Text)
deriving DecidableEq, Repr

inductive FunctionCallOutputContentItem where
  | inputText (text : Text)
  | inputImage (imageUrl : Text) (detail : Option ImageDetail)
  | encryptedContent (encryptedContent : Text)
deriving DecidableEq, Repr

/-- `function_call_output_content_items_to_text`. -/
def functionCallOutputContentItemsToText (contentItems : List FunctionCallOutputContentItem) :
    Option Text :=
  let textSegments := contentItems.filterMap fun
    | .inputText text => if trim text = [] then none else some text
    | .inputImage _ _ | .encryptedContent _ => none
  if textSegments = [] then none else some (joinNewline textSegments)

inductive FunctionCallOutputBody where
  | text (content : Text)
  | contentItems (items : List FunctionCallOutputContentItem)
deriving DecidableEq, Repr

/-- `to_text`. -/
def FunctionCallOutputBody.toText : FunctionCallOutputBody → Option Text
  | .text content => some content
  | .contentItems items => functionCallOutputContentItemsToText items

structure FunctionCallOutputPayload where
  body : FunctionCallOutputBody
  success : Option Bool
deriving DecidableEq, Repr

inductive ResponseItem where
  | message (role : Text) (content : List ContentItem)
  | functionCall (name arguments callId : Text)
  | customToolCall (callId name input : Text)
  | functionCallOutput (callId : Text) (output : FunctionCallOutputPayload)
  | customToolCallOutput (callId : Text) (output : FunctionCallOutputPayload)
  | reasoning
  | agentMessage
  | localShellCall
  | toolSearchCall
  | toolSearchOutput
  | webSearchCall
  | imageGenerationCall
  | compaction
  | contextCompaction
  | compactionTrigger
  | additionalTools
  | other
deriving DecidableEq, Repr

structure TokenUsage where
  inputTokens : ℤ
  cachedInputTokens : ℤ
  outputTokens : ℤ
  reasoningOutputTokens : ℤ
  totalTokens : ℤ
deriving DecidableEq, Repr

/-- `ResponseEvent`, as far as the parsers of the chat protocols send it. -/
inductive ResponseEvent where
  | created
  | outputItemDone (item : ResponseItem)
  | outputItemAdded (item : ResponseItem)
  | serverModel (model : Text)
  | completed (responseId : Text) (tokenUsage : Option TokenUsage) (endTurn : Option Bool)
  | outputTextDelta (delta : Text)
  | reasoningContentDelta (delta : Text) (contentIndex : ℤ)
deriving DecidableEq, Repr

/-- `ApiError::Stream`, the only error that a parser sends. -/
structure ApiError where
  message : Text
deriving DecidableEq, Repr

/-- What polling the server-sent events gives: the data of an event, an error of the transport, the
end of the stream, or no event within the idle timeout. -/
inductive Poll where
  | data (text : Text)
  | failed (message : Text)
  | ended
  | idle
deriving DecidableEq, Repr

/-- The events with which a response ends: finished items and `Completed`. -/
def isFinal : Except ApiError ResponseEvent → Bool
  | .ok (.outputItemDone _) | .ok (.completed _ _ _) => true
  | _ => false

/-- `format!("call_{}", index)`. -/
def fallbackCallId (index : ℤ) : Text :=
  "call_".toList ++ (if index < 0 then "-".toList else []) ++ Nat.toDigits 10 index.natAbs

lemma fallbackCallId_ne_nil (index : ℤ) : fallbackCallId index ≠ [] := by
  have hprefix : "call_".toList ≠ [] := by decide
  exact List.append_ne_nil_of_left_ne_nil (List.append_ne_nil_of_left_ne_nil hprefix _) _

/-! ### Requests -/

/-- `UnifiedTextFormat`. -/
structure UnifiedTextFormat where
  name : Text
  strict : Bool
  schema : JsonTree
deriving DecidableEq

/-- `UnifiedRequest`, with the fields that the adapters read. -/
structure UnifiedRequest where
  model : Text
  instructions : Text
  input : List ResponseItem
  tools : Option (List JsonTree)
  toolChoice : Text
  parallelToolCalls : Bool
  /-- The effort of `reasoning`, printed. -/
  reasoningEffort : Option Text
  stream : Bool
  serviceTier : Option Text
  /-- The format of `text`. -/
  textFormat : Option UnifiedTextFormat

/-- A field of a JSON object. -/
def field? (value : JsonTree) (key : Text) : Option JsonTree :=
  value.asObject.bind (List.dlookup key)

/-- `as_str`. -/
def asStr : JsonTree → Option Text
  | .string value => some value
  | _ => none

/-- The `type` of a tool description, empty if there is none. -/
def toolKind (tool : JsonTree) : Text := ((field? tool "type".toList).bind asStr).getD []

end TokenCode.ModelApi
