/-
The parser of Chat Completions streams (`codex-api/src/sse/chat.rs`).

The server sends text and tool calls in fragments. The parser collects them, the calls by their
index, and hands out the finished items when the stream ends. A receiver that goes away sees the
first events only, so the functions below return the events that are sent as long as it listens.
What `serde_json` makes of the data of an event is the parameter `parse`.
-/
import TokenCode.ModelApi.Items

namespace TokenCode.ModelApi

open List Option Text SortedMap

/-! ### The chunks of a stream -/

structure ChatDeltaToolCallFunction where
  name : Option Text
  arguments : Option Text
deriving DecidableEq, Repr

structure ChatDeltaToolCall where
  index : ℤ
  id : Option Text
  function : Option ChatDeltaToolCallFunction
deriving DecidableEq, Repr

namespace ChatDeltaToolCall

def name? (tc : ChatDeltaToolCall) : Option Text := tc.function.bind (·.name)

def arguments? (tc : ChatDeltaToolCall) : Option Text := tc.function.bind (·.arguments)

end ChatDeltaToolCall

structure ChatDelta where
  content : Option Text
  reasoningContent : Option Text
  toolCalls : Option (List ChatDeltaToolCall)
deriving DecidableEq, Repr

structure ChatChoice where
  delta : ChatDelta
  finishReason : Option Text
deriving DecidableEq, Repr

structure ChatUsage where
  promptTokens : ℤ
  completionTokens : ℤ
  totalTokens : ℤ
deriving DecidableEq, Repr

/-- `From<ChatUsage>`. -/
def ChatUsage.toTokenUsage (usage : ChatUsage) : TokenUsage :=
  ⟨usage.promptTokens, 0, usage.completionTokens, 0, usage.totalTokens⟩

structure ChatStreamError where
  message : Option Text
deriving DecidableEq, Repr

structure ChatStreamChunk where
  id : Option Text
  model : Option Text
  choices : List ChatChoice
  usage : Option ChatUsage
  error : Option ChatStreamError
deriving DecidableEq, Repr

/-! ### The parser -/

structure ToolCallAccumulator where
  id : Text
  name : Text
  arguments : Text
deriving DecidableEq, Repr

/-- The finished call. -/
def ToolCallAccumulator.item (tc : ToolCallAccumulator) : ResponseItem :=
  .functionCall tc.name tc.arguments tc.id

structure ChatStreamState where
  createdEmitted : Bool := false
  messageItemAdded : Bool := false
  assistantText : Text := []
  reasoningContent : Text := []
  toolCalls : List ((_ : ℤ) × ToolCallAccumulator) := []
  responseId : Option Text := none
  serverModel : Option Text := none
  finishReason : Option Text := none
  usage : Option TokenUsage := none
deriving Repr

namespace ChatStreamState

/-- What a fragment makes of the call at its index. An id that is missing in the first fragment
is made up; a later fragment only replaces an empty id or name. -/
def extendToolCall (tc : ChatDeltaToolCall) (entry : Option ToolCallAccumulator) :
    ToolCallAccumulator :=
  let entry : ToolCallAccumulator := match entry with
    | none => ⟨tc.id.getD (fallbackCallId tc.index), tc.name?.getD [], []⟩
    | some entry =>
      { entry with
        name := if entry.name = [] then tc.name?.getD entry.name else entry.name
        id := if entry.id = [] then tc.id.getD entry.id else entry.id }
  { entry with arguments := entry.arguments ++ tc.arguments?.getD [] }

/-- The body of the loop over the tool calls of a delta. -/
def processToolCall (state : ChatStreamState) (tc : ChatDeltaToolCall) :
    ChatStreamState × List ResponseEvent :=
  let entry := state.toolCalls.dlookup tc.index
  let placeholder := ResponseItem.functionCall (tc.name?.getD []) []
    (tc.id.getD (fallbackCallId tc.index))
  ({ state with
      toolCalls := SortedMap.insertEntry tc.index (extendToolCall tc entry) state.toolCalls },
    if entry.isNone then [.outputItemAdded placeholder] else [])

/-- `ensure_message_item`. -/
def ensureMessageItem (state : ChatStreamState) : ChatStreamState × List ResponseEvent :=
  if state.messageItemAdded then (state, [])
  else ({ state with messageItemAdded := true },
    [.outputItemAdded (.message "assistant".toList [])])

/-- The text of a delta. -/
def processContent (state : ChatStreamState) (content : Option Text) :
    ChatStreamState × List ResponseEvent :=
  match content with
  | none | some [] => (state, [])
  | some content =>
    let ensured := state.ensureMessageItem
    ({ ensured.1 with assistantText := ensured.1.assistantText ++ content },
      ensured.2 ++ [.outputTextDelta content])

/-- The reasoning of a delta, which is only forwarded behind text. -/
def processReasoning (state : ChatStreamState) (reasoning : Option Text) :
    ChatStreamState × List ResponseEvent :=
  match reasoning with
  | none | some [] => (state, [])
  | some reasoning =>
    if state.messageItemAdded then
      ({ state with reasoningContent := state.reasoningContent ++ reasoning },
        [.reasoningContentDelta reasoning 0])
    else (state, [])

/-- A list of inputs, each processed in turn. -/
def each {α : Type} (process : ChatStreamState → α → ChatStreamState × List ResponseEvent) :
    ChatStreamState → List α → ChatStreamState × List ResponseEvent
  | state, [] => (state, [])
  | state, a :: as =>
    let first := process state a
    let rest := each process first.1 as
    (rest.1, first.2 ++ rest.2)

/-- The body of the loop over the choices of a chunk. -/
def processChoice (state : ChatStreamState) (choice : ChatChoice) :
    ChatStreamState × List ResponseEvent :=
  let finished := { state with finishReason := choice.finishReason.or state.finishReason }
  let spoken := finished.processContent choice.delta.content
  let reasoned := spoken.1.processReasoning choice.delta.reasoningContent
  let called := each processToolCall reasoned.1 (choice.delta.toolCalls.getD [])
  (called.1, spoken.2 ++ reasoned.2 ++ called.2)

/-- The events in front of the choices: `Created` once, and a model that changes. -/
def processModel (state : ChatStreamState) (chunk : ChatStreamChunk) :
    ChatStreamState × List ResponseEvent :=
  let created := if state.createdEmitted then [] else [ResponseEvent.created]
  let started := { state with createdEmitted := true }
  match chunk.model with
  | some model =>
    if state.serverModel = some model then (started, created)
    else ({ started with serverModel := some model }, created ++ [.serverModel model])
  | none => (started, created)

/-- `process_chunk`. -/
def processChunk (state : ChatStreamState) (chunk : ChatStreamChunk) :
    ChatStreamState × List ResponseEvent :=
  let modelled := state.processModel chunk
  let described := { modelled.1 with
    responseId := modelled.1.responseId.or chunk.id
    usage := (chunk.usage.map ChatUsage.toTokenUsage).or modelled.1.usage }
  let chosen := each processChoice described chunk.choices
  (chosen.1, modelled.2 ++ chosen.2)

/-- `flush`. -/
def flush (state : ChatStreamState) : List ResponseEvent :=
  let message := if state.messageItemAdded ∧ state.assistantText ≠ [] then
    [ResponseEvent.outputItemDone (.message "assistant".toList [.outputText state.assistantText])]
    else []
  let calls := state.toolCalls.filterMap fun entry =>
    if entry.2.name = [] ∧ entry.2.arguments = [] then none
    else some (ResponseEvent.outputItemDone entry.2.item)
  message ++ calls ++ [.completed (state.responseId.getD []) state.usage
    (some (state.finishReason = some "stop".toList))]

end ChatStreamState

def doneMarker : Text := "[DONE]".toList

/-- The message of an error frame. -/
def ChatStreamError.text (err : ChatStreamError) : Text :=
  match err.message with
  | some message => if trim message = [] then "chat stream error".toList else message
  | none => "chat stream error".toList

/-- `process_chat_sse`, on what polling the stream gives. -/
def processChatSse (parse : Text → Option ChatStreamChunk) :
    ChatStreamState → List Poll → List (Except ApiError ResponseEvent)
  | _, [] => []
  | _, .failed message :: _ => [.error ⟨message⟩]
  | state, .ended :: _ => state.flush.map .ok
  | _, .idle :: _ => [.error ⟨"idle timeout waiting for Chat SSE".toList⟩]
  | state, .data text :: polls =>
    if trim text = doneMarker then state.flush.map .ok
    else match parse text with
      | none => processChatSse parse state polls
      | some chunk =>
        match chunk.error with
        | some err => [.error ⟨err.text⟩]
        | none =>
          let processed := state.processChunk chunk
          processed.2.map .ok ++ processChatSse parse processed.1 polls

/-! ### What a stream says -/

namespace ChatStreamChunk

/-- The text of the chunk. -/
def text (chunk : ChatStreamChunk) : Text := chunk.choices.flatMap (·.delta.content.getD [])

/-- The fragments of tool calls in the chunk. -/
def fragments (chunk : ChatStreamChunk) : List ChatDeltaToolCall :=
  chunk.choices.flatMap (·.delta.toolCalls.getD [])

/-- The last finish reason of the chunk. -/
def finishReason? (chunk : ChatStreamChunk) : Option Text :=
  chunk.choices.reverse.findSome? (·.finishReason)

end ChatStreamChunk

/-- What the server says in one response. -/
structure ChatTurn where
  text : Text
  /-- The tool calls by their index, in the order of the indices. -/
  calls : List ((_ : ℤ) × ToolCallAccumulator)
  responseId : Option Text
  usage : Option ChatUsage
  finishReason : Option Text
deriving Repr

/-- The events with which a response has to end: the message, if there is text, then the calls, then
`Completed`. -/
def ChatTurn.finalEvents (turn : ChatTurn) : List ResponseEvent :=
  (if turn.text = [] then []
    else [.outputItemDone (.message "assistant".toList [.outputText turn.text])]) ++
  turn.calls.map (fun entry => .outputItemDone entry.2.item) ++
  [.completed (turn.responseId.getD []) (turn.usage.map ChatUsage.toTokenUsage)
    (some (turn.finishReason = some "stop".toList))]

/-- **The chunks are a cutting of the turn.**  The text and the arguments of each call are what
their fragments join to, and some fragment of each call carries its id and some fragment carries
its name. -/
structure Cuts (chunks : List ChatStreamChunk) (turn : ChatTurn) : Prop where
  sorted : SortedMap.Sorted turn.calls
  text : chunks.flatMap (·.text) = turn.text
  /-- Every fragment belongs to a call. -/
  known : ∀ fragment ∈ chunks.flatMap (·.fragments), fragment.index ∈ turn.calls.keys
  arguments : ∀ entry ∈ turn.calls,
    ((chunks.flatMap (·.fragments)).filter (·.index = entry.1)).flatMap (·.arguments?.getD []) =
      entry.2.arguments
  id_sent : ∀ entry ∈ turn.calls, ∃ fragment ∈ chunks.flatMap (·.fragments),
    fragment.index = entry.1 ∧ fragment.id = some entry.2.id
  id_only : ∀ entry ∈ turn.calls, ∀ fragment ∈ chunks.flatMap (·.fragments),
    fragment.index = entry.1 → ∀ id, fragment.id = some id → id = entry.2.id
  name_sent : ∀ entry ∈ turn.calls, ∃ fragment ∈ chunks.flatMap (·.fragments),
    fragment.index = entry.1 ∧ fragment.name? = some entry.2.name
  name_only : ∀ entry ∈ turn.calls, ∀ fragment ∈ chunks.flatMap (·.fragments),
    fragment.index = entry.1 → ∀ name, fragment.name? = some name → name = entry.2.name
  responseId : chunks.findSome? (·.id) = turn.responseId
  usage : chunks.reverse.findSome? (·.usage) = turn.usage
  finishReason : chunks.reverse.findSome? (·.finishReason?) = turn.finishReason

/-! ### The state behind the chunks -/

variable {fragments : List ChatDeltaToolCall}

namespace ChatStreamState

variable {state : ChatStreamState}

lemma forall_each {α : Type} {process : ChatStreamState → α → ChatStreamState × List ResponseEvent}
    {P : ResponseEvent → Prop} (h : ∀ state a, ∀ event ∈ (process state a).2, P event)
    (state : ChatStreamState) (as : List α) : ∀ event ∈ (each process state as).2, P event := by
  induction as generalizing state with
  | nil => simp [each]
  | cons a as ih =>
    intro event hevent
    rcases mem_append.1 hevent with hevent | hevent
    · exact h state a event hevent
    · exact ih _ event hevent

/-- The tool calls that fragments make. -/
def collect (toolCalls : List ((_ : ℤ) × ToolCallAccumulator)) (fragments : List ChatDeltaToolCall) :
    List ((_ : ℤ) × ToolCallAccumulator) :=
  SortedMap.updateAll (·.index) (fun tc entry => some (extendToolCall tc entry)) toolCalls fragments

/-- The fragments of a delta only touch the tool calls. -/
lemma each_processToolCall (state : ChatStreamState) (fragments : List ChatDeltaToolCall) :
    (each processToolCall state fragments).1 =
      { state with toolCalls := collect state.toolCalls fragments } := by
  induction fragments generalizing state with
  | nil => rfl
  | cons tc fragments ih => exact ih _

/-- What a part of a stream has added to the state. -/
structure Advances (state next : ChatStreamState) (said : Text)
    (fragments : List ChatDeltaToolCall) (finish : Option Text) : Prop where
  text : next.assistantText = state.assistantText ++ said
  added : next.messageItemAdded = (state.messageItemAdded || decide (said ≠ []))
  toolCalls : next.toolCalls = collect state.toolCalls fragments
  finishReason : next.finishReason = finish.or state.finishReason

lemma Advances.trans {mid next : ChatStreamState} {said said' : Text}
    {fragments' : List ChatDeltaToolCall} {finish finish' : Option Text}
    (h : Advances state mid said fragments finish)
    (h' : Advances mid next said' fragments' finish') :
    Advances state next (said ++ said') (fragments ++ fragments') (finish'.or finish) := by
  refine ⟨?_, ?_, ?_, ?_⟩
  · rw [h'.text, h.text, List.append_assoc]
  · rw [h'.added, h.added, Bool.or_assoc]
    simp
  · rw [h'.toolCalls, h.toolCalls, collect, collect, collect, updateAll_append]
  · rw [h'.finishReason, h.finishReason, Option.or_assoc]

section

variable (state : ChatStreamState)

lemma processContent_eq (content : Option Text) : (state.processContent content).1 = { state with
        assistantText := state.assistantText ++ content.getD []
        messageItemAdded := state.messageItemAdded || decide (content.getD [] ≠ []) } := by
  rcases content with _ | _ | ⟨c, content⟩
  · simp [processContent]
  · simp [processContent]
  · cases hadded : state.messageItemAdded <;> simp [processContent, ensureMessageItem, hadded]

/-- Reasoning only touches the reasoning. -/
lemma processReasoning_eq (reasoning : Option Text) :
    ∃ reasoningContent, (state.processReasoning reasoning).1 =
      { state with reasoningContent := reasoningContent } := by
  unfold processReasoning
  split
  · exact ⟨_, rfl⟩
  · exact ⟨_, rfl⟩
  · split
    all_goals exact ⟨_, rfl⟩

/-- The state behind a choice. -/
lemma processChoice_eq (choice : ChatChoice) : ∃ reasoningContent, (state.processChoice choice).1 =
      { state with
        reasoningContent := reasoningContent
        assistantText := state.assistantText ++ choice.delta.content.getD []
        messageItemAdded := state.messageItemAdded || decide (choice.delta.content.getD [] ≠ [])
        toolCalls := collect state.toolCalls (choice.delta.toolCalls.getD [])
        finishReason := choice.finishReason.or state.finishReason } := by
  obtain ⟨reasoningContent, hreasoned⟩ := processReasoning_eq
    ({ state with finishReason := choice.finishReason.or state.finishReason }.processContent
      choice.delta.content).1 choice.delta.reasoningContent
  refine ⟨reasoningContent, ?_⟩
  simp only [processContent_eq] at hreasoned
  simp only [processChoice, each_processToolCall, processContent_eq, hreasoned]

lemma advances_each_processChoice (choices : List ChatChoice) :
    Advances state (each processChoice state choices).1
        (choices.flatMap (·.delta.content.getD [])) (choices.flatMap (·.delta.toolCalls.getD []))
        (choices.reverse.findSome? (·.finishReason)) ∧
      (each processChoice state choices).1.responseId = state.responseId ∧
      (each processChoice state choices).1.usage = state.usage := by
  induction choices generalizing state with
  | nil => exact ⟨⟨by simp [each], by simp [each], rfl, rfl⟩, rfl, rfl⟩
  | cons choice choices ih =>
    obtain ⟨reasoningContent, hchoice⟩ := processChoice_eq state choice
    obtain ⟨hrest, hid, husage⟩ := ih (state.processChoice choice).1
    have hfirst : Advances state (state.processChoice choice).1 (choice.delta.content.getD [])
        (choice.delta.toolCalls.getD []) choice.finishReason := by
      rw [hchoice]
      exact ⟨rfl, rfl, rfl, rfl⟩
    have hall := hfirst.trans hrest
    rw [reverse_cons, findSome?_append, findSome?_singleton]
    refine ⟨hall, hid.trans ?_, husage.trans ?_⟩
    all_goals rw [hchoice]

variable (chunk : ChatStreamChunk)

lemma processModel_eq : ∃ serverModel, (state.processModel chunk).1 =
      { state with createdEmitted := true, serverModel := serverModel } := by
  cases hmodel : chunk.model with
  | none => exact ⟨state.serverModel, by simp [processModel, hmodel]⟩
  | some model =>
    by_cases hsame : state.serverModel = some model
    · exact ⟨state.serverModel, by simp [processModel, hmodel, hsame]⟩
    · exact ⟨some model, by simp [processModel, hmodel, hsame]⟩

/-- **One chunk.** -/
lemma advances_processChunk :
    Advances state (state.processChunk chunk).1 chunk.text chunk.fragments chunk.finishReason? ∧
      (state.processChunk chunk).1.responseId = state.responseId.or chunk.id ∧
      (state.processChunk chunk).1.usage =
        (chunk.usage.map ChatUsage.toTokenUsage).or state.usage := by
  obtain ⟨serverModel, hmodel⟩ := processModel_eq state chunk
  obtain ⟨hall, hid, husage⟩ := advances_each_processChoice
    { (state.processModel chunk).1 with
      responseId := (state.processModel chunk).1.responseId.or chunk.id
      usage := (chunk.usage.map ChatUsage.toTokenUsage).or (state.processModel chunk).1.usage }
    chunk.choices
  refine ⟨⟨hall.text.trans ?_, hall.added.trans ?_, hall.toolCalls.trans ?_,
    hall.finishReason.trans ?_⟩, hid.trans ?_, husage.trans ?_⟩
  all_goals simp [hmodel, ChatStreamChunk.text, ChatStreamChunk.fragments,
    ChatStreamChunk.finishReason?]

/-- **All the chunks**, from the first state on. -/
lemma advances_foldl (chunks : List ChatStreamChunk) :
    let final := chunks.foldl (fun state chunk => (state.processChunk chunk).1) state
    Advances state final (chunks.flatMap (·.text)) (chunks.flatMap (·.fragments))
        (chunks.reverse.findSome? (·.finishReason?)) ∧
      final.responseId = state.responseId.or (chunks.findSome? (·.id)) ∧
      final.usage =
        ((chunks.reverse.findSome? (·.usage)).map ChatUsage.toTokenUsage).or state.usage := by
  induction chunks generalizing state with
  | nil => exact ⟨⟨by simp, by simp, rfl, rfl⟩, by simp, rfl⟩
  | cons chunk chunks ih =>
    obtain ⟨hfirst, hid, husage⟩ := advances_processChunk state chunk
    obtain ⟨hrest, hid', husage'⟩ := ih (state.processChunk chunk).1
    refine ⟨?_, ?_, ?_⟩
    · rw [reverse_cons, findSome?_append, findSome?_singleton]
      exact hfirst.trans hrest
    · rw [foldl_cons, hid', hid, Option.or_assoc, findSome?_cons]
      cases chunk.id <;> rfl
    · rw [foldl_cons, husage', husage, reverse_cons, findSome?_append,
        findSome?_singleton, map_or, Option.or_assoc]

end

/-! ### The events of a run -/

/-- None of the events ends the response. -/
def Running (events : List ResponseEvent) : Prop := ∀ event ∈ events, isFinal (.ok event) = false

section

variable (state : ChatStreamState)

lemma running_processToolCall (tc : ChatDeltaToolCall) : Running (state.processToolCall tc).2 := by
  simp only [processToolCall]
  split <;> simp [Running, isFinal]

lemma running_processContent (content : Option Text) :
    Running (state.processContent content).2 := by
  rcases content with _ | _ | ⟨c, content⟩
  · simp [processContent, Running]
  · simp [processContent, Running]
  · cases hadded : state.messageItemAdded <;>
      simp [processContent, ensureMessageItem, hadded, Running, isFinal]

lemma running_processReasoning (reasoning : Option Text) :
    Running (state.processReasoning reasoning).2 := by
  rcases reasoning with _ | _ | ⟨c, reasoning⟩
  · simp [processReasoning, Running]
  · simp [processReasoning, Running]
  · cases hadded : state.messageItemAdded <;> simp [processReasoning, hadded, Running, isFinal]

lemma running_processChoice (choice : ChatChoice) : Running (state.processChoice choice).2 := by
  intro event hevent
  simp only [processChoice, mem_append] at hevent
  rcases hevent with (hevent | hevent) | hevent
  · exact running_processContent _ _ event hevent
  · exact running_processReasoning _ _ event hevent
  · exact forall_each running_processToolCall _ _ event hevent

variable (chunk : ChatStreamChunk)

lemma running_processModel : Running (state.processModel chunk).2 := by
  cases hmodel : chunk.model with
  | none =>
    cases hcreated : state.createdEmitted <;> simp [processModel, hmodel, hcreated, Running, isFinal]
  | some model =>
    by_cases hsame : state.serverModel = some model <;> cases hcreated : state.createdEmitted <;>
      simp [processModel, hmodel, hsame, hcreated, Running, isFinal]

/-- Until the end no event is final. -/
lemma running_processChunk : Running (state.processChunk chunk).2 := by
  intro event hevent
  rcases mem_append.1 hevent with hevent | hevent
  · exact running_processModel state chunk event hevent
  · exact forall_each running_processChoice _ _ event hevent

lemma isFinal_flush : ∀ event ∈ state.flush, isFinal (.ok event) = true := by
  intro event hevent
  simp only [flush, mem_append, mem_filterMap, mem_singleton] at hevent
  rcases hevent with (hevent | ⟨entry, -, hevent⟩) | rfl
  · split at hevent
    · rw [mem_singleton.1 hevent]
      rfl
    · cases hevent
  · split at hevent
    · cases hevent
    · rw [← some.inj hevent]
      rfl
  · rfl

end

end ChatStreamState

/-- **A run up to the end marker** hands out, as its final events, what the state behind the chunks
is flushed to. -/
lemma filter_isFinal_processChatSse {parse : Text → Option ChatStreamChunk} {datas : List Text}
    {done : Text} (hdatas : ∀ text ∈ datas, trim text ≠ doneMarker)
    (herrors : ∀ chunk ∈ datas.filterMap parse, chunk.error = none)
    (hdone : trim done = doneMarker) (state : ChatStreamState) (rest : List Poll) :
    (processChatSse parse state (datas.map .data ++ .data done :: rest)).filter isFinal =
      ((datas.filterMap parse).foldl (fun state chunk => (state.processChunk chunk).1)
        state).flush.map .ok := by
  induction datas generalizing state with
  | nil =>
    simp only [map_nil, nil_append, processChatSse, hdone, if_true]
    refine filter_eq_self.2 fun event hevent => ?_
    obtain ⟨event, hmem, rfl⟩ := List.mem_map.1 hevent
    exact state.isFinal_flush event hmem
  | cons text datas ih =>
    have hrest := (forall_mem_cons.1 hdatas).2
    simp only [map_cons, cons_append, processChatSse, if_neg (hdatas text mem_cons_self)]
    cases hparse : parse text with
    | none =>
      rw [filterMap_cons_none hparse] at herrors ⊢
      exact ih hrest herrors state
    | some chunk =>
      rw [filterMap_cons_some hparse] at herrors ⊢
      simp only [herrors chunk mem_cons_self, filter_append, foldl_cons]
      rw [ih hrest (forall_mem_cons.1 herrors).2, filter_eq_nil_iff.2, nil_append]
      intro event hevent
      obtain ⟨event, hmem, rfl⟩ := List.mem_map.1 hevent
      simp [state.running_processChunk chunk event hmem]

/-! ### The calls that fragments join to -/

namespace ChatStreamState

/-- The fragments of one call, after its first one. -/
lemma foldl_extendToolCall {id name : Text}
    (hid : ∀ tc ∈ fragments, ∀ sent, tc.id = some sent → sent = id)
    (hname : ∀ tc ∈ fragments, ∀ sent, tc.name? = some sent → sent = name)
    (entry : ToolCallAccumulator) (hentry : entry.id ≠ [] ∨ entry.id = id)
    (hentryName : entry.name = name ∨ (entry.name = [] ∧ ∃ tc ∈ fragments, tc.name? = some name)) :
    fragments.foldl (fun entry tc => (some (extendToolCall tc entry)).or entry) (some entry) =
      some ⟨entry.id, name, entry.arguments ++ fragments.flatMap (·.arguments?.getD [])⟩ := by
  induction fragments generalizing entry with
  | nil =>
    have hsame : entry.name = name := hentryName.resolve_right (by simp)
    simp [← hsame]
  | cons tc fragments ih =>
    have hkept : (extendToolCall tc (some entry)).id = entry.id := by
      by_cases hempty : entry.id = []
      · cases hsent : tc.id with
        | none => simp [extendToolCall, hempty, hsent]
        | some sent =>
          have hsame : entry.id = id := hentry.resolve_left (by simp [hempty])
          have hsent' := hid tc mem_cons_self sent hsent
          simp [extendToolCall, hempty, hsent, hsent', ← hsame]
      · simp [extendToolCall, hempty]
    have hnamed : (extendToolCall tc (some entry)).name = name ∨
        ((extendToolCall tc (some entry)).name = [] ∧ ∃ tc ∈ fragments, tc.name? = some name) := by
      by_cases hempty : entry.name = []
      · cases hsent : tc.name? with
        | none =>
          have hunset : (extendToolCall tc (some entry)).name = [] := by
            simp [extendToolCall, hempty, hsent]
          rcases hentryName with hsame | ⟨-, other, hother, hcarries⟩
          · exact .inl (hunset.trans (hempty.symm.trans hsame))
          · refine .inr ⟨hunset, other, (mem_cons.1 hother).resolve_left ?_, hcarries⟩
            rintro rfl
            simp [hsent] at hcarries
        | some sent =>
          have hsent' := hname tc mem_cons_self sent hsent
          exact .inl (by simp [extendToolCall, hempty, hsent, hsent'])
      · exact .inl (by
          rw [← hentryName.resolve_right (fun h => hempty h.1)]
          simp [extendToolCall, hempty])
    rw [foldl_cons, some_or,
      ih (forall_mem_cons.1 hid).2 (forall_mem_cons.1 hname).2 _ (by rw [hkept]; exact hentry) hnamed,
      hkept]
    simp [extendToolCall]

/-- The id under which a call is handed out: the server's, if the first fragment carries it. -/
def assignedId (fragments : List ChatDeltaToolCall) (index : ℤ) (id : Text) : Text :=
  match fragments.find? (·.index = index) with
  | some first => if first.id.isSome then id else fallbackCallId index
  | none => id

end ChatStreamState

variable {chunks : List ChatStreamChunk} {turn : ChatTurn}

open ChatStreamState in
section

variable (h : Cuts chunks turn)
include h

/-- **The calls behind the chunks** are those of the turn, up to the id. -/
lemma collect_of_cuts :
    collect [] (chunks.flatMap (·.fragments)) = turn.calls.map fun entry => ⟨entry.1, { entry.2 with
        id := assignedId (chunks.flatMap (·.fragments)) entry.1 entry.2.id }⟩ := by
  refine eq_of_dlookup_eq (sorted_nil.updateAll _) (h.sorted.mapValues _) ?_
  intro index
  rw [dlookup_updateAll, dlookup_mapValues]
  cases hlookup : turn.calls.dlookup index with
  | none =>
    have hnone : (chunks.flatMap (·.fragments)).filter (·.index = index) = [] := by
      refine filter_eq_nil_iff.2 fun tc htc => ?_
      have hknown := h.known tc htc
      simp only [decide_eq_true_eq]
      rintro rfl
      exact dlookup_eq_none.1 hlookup hknown
    rw [hnone]
    rfl
  | some call =>
    have hentry : (⟨index, call⟩ : (_ : ℤ) × ToolCallAccumulator) ∈ turn.calls :=
      of_mem_dlookup hlookup
    have harguments := h.arguments _ hentry
    have hfind : ((chunks.flatMap (·.fragments)).filter (·.index = index)).head? =
        (chunks.flatMap (·.fragments)).find? (·.index = index) := head?_filter ..
    have hmem : ∀ tc, tc ∈ (chunks.flatMap (·.fragments)).filter (·.index = index) ↔
        tc ∈ chunks.flatMap (·.fragments) ∧ tc.index = index := by simp
    generalize (chunks.flatMap (·.fragments)).filter (·.index = index) = fragments at *
    have hid : ∀ tc ∈ fragments, ∀ sent, tc.id = some sent → sent = call.id := fun tc htc =>
      h.id_only _ hentry tc ((hmem tc).1 htc).1 ((hmem tc).1 htc).2
    have hname : ∀ tc ∈ fragments, ∀ sent, tc.name? = some sent → sent = call.name := fun tc htc =>
      h.name_only _ hentry tc ((hmem tc).1 htc).1 ((hmem tc).1 htc).2
    obtain ⟨carrier, hcarrier, hcarrierIndex, hcarries⟩ := h.name_sent _ hentry
    have hsends : carrier ∈ fragments := (hmem carrier).2 ⟨hcarrier, hcarrierIndex⟩
    cases fragments with
    | nil => cases hsends
    | cons first rest =>
      have hindex : first.index = index := ((hmem first).1 mem_cons_self).2
      have hassigned : first.id.getD (fallbackCallId index) =
          assignedId (chunks.flatMap (·.fragments)) index call.id := by
        rw [assignedId, ← hfind]
        cases hsent : first.id with
        | none => simp [hsent]
        | some sent => simp [hsent, hid first mem_cons_self sent hsent]
      rw [foldl_cons, some_or,
        foldl_extendToolCall (forall_mem_cons.1 hid).2 (forall_mem_cons.1 hname).2]
      · have hnil : List.dlookup index ([] : List ((_ : ℤ) × ToolCallAccumulator)) = none := rfl
        simp only [flatMap_cons] at harguments
        simp [extendToolCall, hindex, hnil, hassigned, harguments]
      · cases hsent : first.id with
        | none => exact .inl (by simp [extendToolCall, hsent, fallbackCallId_ne_nil])
        | some sent =>
          exact .inr (by simp [extendToolCall, hsent, hid first mem_cons_self sent hsent])
      · cases hsent : first.name? with
        | none =>
          refine .inr ⟨by simp [extendToolCall, hsent], carrier, ?_, hcarries⟩
          refine (mem_cons.1 hsends).resolve_left ?_
          rintro rfl
          simp [hsent] at hcarries
        | some sent =>
          exact .inl (by simp [extendToolCall, hsent, hname first mem_cons_self sent hsent])

/-! ### The end of a response -/

/-- The first fragment of a call carries the call's id. -/
def FirstCarriesId (chunks : List ChatStreamChunk) (index : ℤ) : Prop :=
  ∃ first, (chunks.flatMap (·.fragments)).find? (·.index = index) = some first ∧ first.id.isSome

lemma ChatStreamState.assignedId_eq_iff {entry : (_ : ℤ) × ToolCallAccumulator}
    (hentry : entry ∈ turn.calls) :
    assignedId (chunks.flatMap (·.fragments)) entry.1 entry.2.id = entry.2.id ↔
      FirstCarriesId chunks entry.1 ∨ entry.2.id = fallbackCallId entry.1 := by
  obtain ⟨carrier, hcarrier, hindex, -⟩ := h.id_sent entry hentry
  have hsome : ((chunks.flatMap (·.fragments)).find? (·.index = entry.1)).isSome :=
    find?_isSome.2 ⟨carrier, hcarrier, by simpa using hindex⟩
  obtain ⟨first, hfirst⟩ := isSome_iff_exists.1 hsome
  simp only [assignedId, FirstCarriesId, hfirst, some.injEq, exists_eq_left']
  split_ifs with hid
  · simp [hid]
  · simp [hid, eq_comm]

/-- The state behind the chunks is flushed to the end of the turn. -/
lemma ChatStreamState.flush_eq_iff : (chunks.foldl (fun state chunk => (state.processChunk chunk).1)
        ({} : ChatStreamState)).flush = turn.finalEvents ↔
      ∀ entry ∈ turn.calls, (entry.2.name ≠ [] ∨ entry.2.arguments ≠ []) ∧
        (FirstCarriesId chunks entry.1 ∨ entry.2.id = fallbackCallId entry.1) := by
  obtain ⟨hadvances, hid, husage⟩ := advances_foldl {} chunks
  set final := chunks.foldl (fun state chunk => (state.processChunk chunk).1)
    ({} : ChatStreamState) with hfinal
  have htext : final.assistantText = turn.text := by
    rw [hadvances.text, ← h.text]
    rfl
  have hadded : final.messageItemAdded = decide (turn.text ≠ []) := by
    rw [hadvances.added, h.text]
    rfl
  have hcalls := hadvances.toolCalls.trans (collect_of_cuts h)
  have hfinish : final.finishReason = turn.finishReason := by
    rw [hadvances.finishReason, h.finishReason, or_none]
  have hresponse : final.responseId = turn.responseId := by
    rw [hid, h.responseId]
    rfl
  have husage' : final.usage = turn.usage.map ChatUsage.toTokenUsage := by
    rw [husage, h.usage, or_none]
  have hmessage : (if final.messageItemAdded = true ∧ final.assistantText ≠ [] then
      [ResponseEvent.outputItemDone (.message "assistant".toList [.outputText final.assistantText])]
      else []) = if turn.text = [] then [] else
        [.outputItemDone (.message "assistant".toList [.outputText turn.text])] := by
    rw [hadded, htext]
    by_cases hempty : turn.text = [] <;> simp [hempty]
  rw [flush, ChatTurn.finalEvents, hmessage, hcalls, hresponse, husage', hfinish,
    append_cancel_right_eq, append_cancel_left_eq, filterMap_map,
    filterMap_eq_map_iff_forall_eq_some]
  refine forall₂_congr fun entry hentry => ?_
  rw [← assignedId_eq_iff h hentry]
  simp only [Function.comp_apply, ToolCallAccumulator.item]
  split_ifs with hskipped
  · simp [hskipped]
  · rw [not_and_or] at hskipped
    simp [hskipped]

end

/-- **The end of a response does not depend on the cutting** exactly if the first fragment of every
call carries its id (or the id is the one that is made up) and no call is without both name and
arguments. -/
theorem processChatSse_cut_iff {parse : Text → Option ChatStreamChunk} {datas : List Text}
    {done : Text} {turn : ChatTurn} (hdatas : ∀ text ∈ datas, trim text ≠ doneMarker)
    (herrors : ∀ chunk ∈ datas.filterMap parse, chunk.error = none)
    (hdone : trim done = doneMarker) (h : Cuts (datas.filterMap parse) turn) (rest : List Poll) :
    (processChatSse parse {} (datas.map .data ++ .data done :: rest)).filter isFinal =
        turn.finalEvents.map .ok ↔
      ∀ entry ∈ turn.calls, (entry.2.name ≠ [] ∨ entry.2.arguments ≠ []) ∧
        (FirstCarriesId (datas.filterMap parse) entry.1 ∨ entry.2.id = fallbackCallId entry.1) := by
  rw [filter_isFinal_processChatSse hdatas herrors hdone, ← ChatStreamState.flush_eq_iff h]
  exact (map_injective_iff.2 fun _ _ heq => Except.ok.inj heq).eq_iff

/-! ### Two cuttings of one call -/

/-- A chunk with one fragment of the call `f` at index 0. -/
def callChunk (id : Option Text) (arguments : Text) : ChatStreamChunk :=
  ⟨none, none, [⟨⟨none, none, some [⟨0, id, some ⟨some "f".toList, some arguments⟩⟩]⟩, none⟩],
    none, none⟩

/-- The text of such a chunk. -/
def callData (id : Option Text) (arguments : Text) : Text :=
  "\x7b\"choices\":[\x7b\"delta\":\x7b\"tool_calls\":[\x7b\"index\":0,".toList ++
    (id.elim [] fun id => "\"id\":\"".toList ++ id ++ "\",".toList) ++
    "\"function\":\x7b\"name\":\"f\",\"arguments\":\"".toList ++ arguments ++
    "\"\x7d\x7d]\x7d\x7d]\x7d".toList

/-- The parser on these texts, with the id `abc` or none and the arguments `1` or `2`. -/
def parseCall (data : Text) : Option ChatStreamChunk :=
  ([(none, "1".toList), (none, "2".toList), (some "abc".toList, "1".toList),
    (some "abc".toList, "2".toList)].find? fun call => callData call.1 call.2 = data).map
      fun call => callChunk call.1 call.2

/-- The data of the two fragments, with these ids. -/
def callDatas (first second : Option Text) : List Text :=
  [callData first "1".toList, callData second "2".toList]

/-- The turn with the call `f` whose id is `abc`. -/
def callTurn : ChatTurn :=
  ⟨[], [⟨0, ⟨"abc".toList, "f".toList, "12".toList⟩⟩], none, none, none⟩

lemma callChunk_cuts {first second : Option Text}
    (hsent : first = some "abc".toList ∨ second = some "abc".toList)
    (hfirst : ∀ id, first = some id → id = "abc".toList)
    (hsecond : ∀ id, second = some id → id = "abc".toList) :
    Cuts [callChunk first "1".toList, callChunk second "2".toList] callTurn where
  sorted := by decide
  text := rfl
  known := by
    intro tc htc
    simp [callChunk, ChatStreamChunk.fragments] at htc
    rcases htc with rfl | rfl <;> simp [callTurn]
  arguments := by
    intro entry hentry
    obtain rfl := mem_singleton.1 hentry
    rfl
  id_sent := by
    intro entry hentry
    obtain rfl := mem_singleton.1 hentry
    rcases hsent with rfl | rfl <;> simp [callChunk, ChatStreamChunk.fragments]
  id_only := by
    intro entry hentry tc htc _ id hid
    obtain rfl := mem_singleton.1 hentry
    simp [callChunk, ChatStreamChunk.fragments] at htc
    rcases htc with rfl | rfl
    · exact hfirst id hid
    · exact hsecond id hid
  name_sent := by
    intro entry hentry
    obtain rfl := mem_singleton.1 hentry
    simp [callChunk, ChatStreamChunk.fragments, ChatDeltaToolCall.name?]
  name_only := by
    intro entry hentry tc htc _ name hname
    obtain rfl := mem_singleton.1 hentry
    simp [callChunk, ChatStreamChunk.fragments] at htc
    rcases htc with rfl | rfl <;> exact (some.inj hname).symm
  responseId := rfl
  usage := rfl
  finishReason := rfl

/-- The cutting with the id in the first fragment. -/
theorem processChatSse_cut_iff_early_id :
    (processChatSse parseCall {}
        ((callDatas (some "abc".toList) none).map .data ++ [.data doneMarker])).filter isFinal =
        callTurn.finalEvents.map .ok ↔
      ∀ entry ∈ callTurn.calls, (entry.2.name ≠ [] ∨ entry.2.arguments ≠ []) ∧
        (FirstCarriesId ((callDatas (some "abc".toList) none).filterMap parseCall) entry.1 ∨
          entry.2.id = fallbackCallId entry.1) := by
  have hcuts : Cuts ((callDatas (some "abc".toList) none).filterMap parseCall) callTurn :=
    callChunk_cuts (.inl rfl) (fun _ h => (some.inj h).symm) (by simp)
  exact processChatSse_cut_iff (by decide +kernel) (by decide +kernel) (by decide +kernel) hcuts []

/-- **A late id is lost.**  When the id comes with the second fragment, the call is handed out
under a made-up id. -/
theorem late_id_lost :
    Cuts ((callDatas none (some "abc".toList)).filterMap parseCall) callTurn ∧
    (processChatSse parseCall {}
        ((callDatas none (some "abc".toList)).map .data ++ [.data doneMarker])).filter isFinal =
      [.ok (.outputItemDone (.functionCall "f".toList "12".toList "call_0".toList)),
        .ok (.completed [] none (some false))] ∧ callTurn.finalEvents =
      [.outputItemDone (.functionCall "f".toList "12".toList "abc".toList),
        .completed [] none (some false)] :=
  ⟨callChunk_cuts (.inr rfl) (by simp) (fun _ h => (some.inj h).symm), by decide +kernel, by decide⟩

end TokenCode.ModelApi
