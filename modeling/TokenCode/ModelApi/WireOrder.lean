/-
Tool calls and their outputs on the wire.

Both protocols want the outputs of a message's tool calls right behind the message. The adapters
keep the order of the input, in which the session records other messages between a call and its
output. Whether the translated history is accepted therefore depends on what stands between a call
and its output, among the items that reach the wire.
-/
import TokenCode.Lib.Runs
import TokenCode.ModelApi.Adapters

namespace TokenCode.ModelApi

open List hiding beq_eq_decide
open Option Text ChatMessage Move

/-! ### Paired inputs -/

inductive ToolKind where
  | function
  | custom
deriving DecidableEq, Repr

namespace ResponseItem

/-- The kind and the id of a tool call. -/
def call? : ResponseItem → Option (ToolKind × Text)
  | .functionCall _ _ callId => some (.function, callId)
  | .customToolCall callId _ _ => some (.custom, callId)
  | _ => none

/-- The kind and the id of a tool output. -/
def output? : ResponseItem → Option (ToolKind × Text)
  | .functionCallOutput callId _ => some (.function, callId)
  | .customToolCallOutput callId _ => some (.custom, callId)
  | _ => none

end ResponseItem

/-- **The input is paired**: no call id is used twice, every call has exactly one output of its
kind, and every output stands behind its call. -/
structure Paired (input : List ResponseItem) : Prop where
  distinct : ((input.filterMap ResponseItem.call?).map Prod.snd).Nodup
  outputs : (input.filterMap ResponseItem.call?).Perm (input.filterMap ResponseItem.output?)
  later : ∀ before after, input = before ++ after →
    ∀ key ∈ before.filterMap ResponseItem.output?, key ∈ before.filterMap ResponseItem.call?

open ResponseItem (call?)

lemma paired_iff (input : List ResponseItem) :
    Paired input ↔ ((input.filterMap call?).map Prod.snd).Nodup ∧
      (input.filterMap call?).Perm (input.filterMap ResponseItem.output?) ∧
      ∀ n ∈ List.range (input.length + 1), ∀ key ∈ (input.take n).filterMap ResponseItem.output?,
          key ∈ (input.take n).filterMap call? := by
  constructor
  · intro h
    exact ⟨h.distinct, h.outputs, fun n _ =>
      h.later _ (input.drop n) (take_append_drop n input).symm⟩
  · rintro ⟨hdistinct, houtputs, hlater⟩
    refine ⟨hdistinct, houtputs, ?_⟩
    rintro before after rfl key hkey
    have htake := hlater before.length (by simp) key
    rw [take_left] at htake
    exact htake hkey

instance (input : List ResponseItem) : Decidable (Paired input) :=
  decidable_of_iff' _ (paired_iff input)

/-- What an item is for an adapter that shows a message on the side of the tool calls if `onLeft`
holds of its role. -/
def moveOf (onLeft : Text → Bool) : ResponseItem → Move Text
  | .functionCall _ _ callId => .call callId
  | .customToolCall callId _ _ => .call callId
  | .functionCallOutput callId _ => .answer callId
  | .customToolCallOutput callId _ => .answer callId
  | .message role _ => if onLeft role then .left else .right
  | _ => .right

variable {visible : ResponseItem → Bool} (item : ResponseItem) (items : List ResponseItem)

section

variable {onLeft : Text → Bool} {input : List ResponseItem}

lemma callAt_moveOf : callAt (moveOf onLeft) item = item.call?.map Prod.snd := by
  unfold callAt
  cases item with
  | message role content =>
    cases h : onLeft role <;> simp [moveOf, h, callKey, call?]
  | _ => rfl

lemma answerAt_moveOf : answerAt (moveOf onLeft) item = item.output?.map Prod.snd := by
  unfold answerAt
  cases item with
  | message role content =>
    cases h : onLeft role <;> simp [moveOf, h, answerKey, ResponseItem.output?]
  | _ => rfl

lemma filterMap_callAt :
    items.filterMap (callAt (moveOf onLeft)) = (items.filterMap call?).map Prod.snd := by
  rw [map_filterMap]
  exact filterMap_congr fun item _ => callAt_moveOf item

lemma filterMap_answerAt : items.filterMap (answerAt (moveOf onLeft)) =
      (items.filterMap ResponseItem.output?).map Prod.snd := by
  rw [map_filterMap]
  exact filterMap_congr fun item _ => answerAt_moveOf item

lemma filterMap_filter_of_imp {α β : Type} {f : α → Option β} {p : α → Bool}
    (h : ∀ a, (f a).isSome → p a = true) (as : List α) :
    (as.filter p).filterMap f = as.filterMap f := by
  rw [filterMap_filter]
  refine filterMap_congr fun a _ => ?_
  by_cases hp : p a = true
  · simp [hp]
  · have hnone : f a = none := by
      by_contra hsome
      exact hp (h a (isSome_iff_ne_none.2 hsome))
    simp [hp, hnone]

/-- An adapter that shows all calls and outputs sees a paired input as an exchange in which every
call has its answer. -/
lemma Paired.answered (h : Paired input)
    (hcall : ∀ item, (call? item).isSome → visible item = true)
    (houtput : ∀ item, (ResponseItem.output? item).isSome → visible item = true) :
    Answered (moveOf onLeft) (input.filter visible) where
  distinct := by
    rw [filterMap_callAt, filterMap_filter_of_imp hcall]
    exact h.distinct
  answers := by
    rw [filterMap_callAt, filterMap_answerAt, filterMap_filter_of_imp hcall,
      filterMap_filter_of_imp houtput]
    exact h.outputs.map _
  later := by
    intro before after hsplit key hkey
    obtain ⟨before, after, hinput, rfl, -⟩ := filter_eq_append_iff.1 hsplit
    rw [filterMap_answerAt, filterMap_filter_of_imp houtput] at hkey
    rw [filterMap_callAt, filterMap_filter_of_imp hcall]
    obtain ⟨pair, hpair, rfl⟩ := List.mem_map.1 hkey
    exact List.mem_map.2 ⟨pair, h.later before after hinput pair hpair, rfl⟩

end

/-! ### Chat Completions -/

/-- The items of which the chat adapter makes a message. -/
def chatVisible : ResponseItem → Bool
  | .message _ content => (messageContentToValue content).isSome
  | .functionCall _ _ _ | .customToolCall _ _ _ => true
  | .functionCallOutput _ _ | .customToolCallOutput _ _ => true
  | _ => false

/-- For the chat adapter, messages stand between calls and outputs whatever their role. -/
def chatMove : ResponseItem → Move Text := moveOf fun _ => false

/-- Neighbouring calls share a message. -/
def ChatTogether (x y : ResponseItem) : Prop :=
  leftAt chatMove x = true ∧ leftAt chatMove y = true

lemma chatTogether_keepsLeft : KeepsLeft chatMove ChatTogether := fun _ _ _ => Iff.rfl

/-- The tool call of an item. -/
def ResponseItem.chatToolCall? : ResponseItem → Option ChatToolCall
  | .functionCall name arguments callId => some ⟨callId, name, arguments⟩
  | .customToolCall callId name input => some ⟨callId, name, input⟩
  | _ => none

/-- The message of a run of items. -/
def chatGroup (run : List ResponseItem) : ChatMessage :=
  match run.head? with
  | some (.message role content) =>
    ⟨normalizeChatRole role, messageContentToValue content, none, none⟩
  | some (.functionCallOutput callId output) =>
    ⟨"tool".toList, some (.string (output.body.toText.getD [])), some callId, none⟩
  | some (.customToolCallOutput callId output) =>
    ⟨"tool".toList, some (.string (output.body.toText.getD [])), some callId, none⟩
  | _ => ⟨"assistant".toList, none, none, some (run.filterMap ResponseItem.chatToolCall?)⟩

variable (messages : List ChatMessage) (instructions : Text)

section

variable {run : List ResponseItem} {item : ResponseItem}

lemma chatGroup_of_left (h : ∀ x ∈ run, leftAt chatMove x = true) : chatGroup run =
      ⟨"assistant".toList, none, none, some (run.filterMap ResponseItem.chatToolCall?)⟩ := by
  cases run with
  | nil => rfl
  | cons x run =>
    have hx := h x mem_cons_self
    cases x with
    | functionCall | customToolCall => simp [chatGroup]
    | _ => cases hx

lemma chatGroup_of_not_left (hvisible : chatVisible item = true)
    (h : leftAt chatMove item = false) (run : List ResponseItem) :
    (chatGroup (item :: run)).toolCalls = none := by
  cases item with
  | functionCall | customToolCall => cases h
  | message | functionCallOutput | customToolCallOutput => rfl
  | _ => cases hvisible

lemma translateChatItem_of_not_visible
    (h : ¬ chatVisible item = true) : translateChatItem messages item = messages := by
  cases item with
  | message role content =>
    have hnone : messageContentToValue content = none := by simpa [chatVisible] using h
    simp [translateChatItem, hnone]
  | functionCall | customToolCall | functionCallOutput | customToolCallOutput => cases h rfl
  | _ => rfl

lemma foldl_filter_of_not_visible {β : Type} {step : β → ResponseItem → β}
    (h : ∀ b item, ¬ visible item = true → step b item = b) (input : List ResponseItem) (b : β) :
    input.foldl step b = (input.filter visible).foldl step b := by
  rw [List.foldl_filter]
  congr 1
  funext b item
  split_ifs with hvisible
  · rfl
  · exact h b item hvisible

/-- A tool call is added to a message of tool calls. -/
lemma translateChatItem_call {content : Option ChatContent}
    {toolCallId : Option Text} (calls : List ChatToolCall) (hleft : leftAt chatMove item = true) :
    translateChatItem (messages ++ [⟨"assistant".toList, content, toolCallId, some calls⟩]) item =
      messages ++ [⟨"assistant".toList, content, toolCallId,
        some (calls ++ [item].filterMap ResponseItem.chatToolCall?)⟩] := by
  cases item with
  | functionCall | customToolCall =>
    simp [translateChatItem, pushToolCall, ResponseItem.chatToolCall?]
  | _ => cases hleft

/-- Any other item, and a tool call behind any other message, becomes a new message. -/
lemma translateChatItem_new (hvisible : chatVisible item = true)
    (hlast : leftAt chatMove item = true → ∀ m ∈ messages.getLast?, m.toolCalls = none) :
    translateChatItem messages item = messages ++ [chatGroup [item]] := by
  have hpush : ∀ callId name arguments,
      (∀ m ∈ messages.getLast?, ChatMessage.toolCalls m = none) →
      pushToolCall messages callId name arguments =
        messages ++ [⟨"assistant".toList, none, none, some [⟨callId, name, arguments⟩]⟩] := by
    intro callId name arguments hnone
    unfold pushToolCall
    split
    · rename_i hsome
      exact absurd (hnone _ hsome) (some_ne_none _)
    · rfl
  cases item with
  | message role content =>
    obtain ⟨chatContent, hcontent⟩ := isSome_iff_exists.1 hvisible
    simp [translateChatItem, hcontent, chatGroup]
  | functionCall name arguments callId =>
    exact hpush callId name arguments (hlast rfl)
  | customToolCall callId name input =>
    exact hpush callId name input (hlast rfl)
  | functionCallOutput callId output | customToolCallOutput callId output => rfl
  | _ => simp [chatVisible] at hvisible

lemma chatInstructions_toolCalls :
    ∀ m ∈ chatInstructions instructions, m.toolCalls = none ∧ m.toolCallId = none := by
  unfold chatInstructions
  split_ifs <;> simp

/-- **The chat messages are the instructions and the runs of the visible items.** -/
lemma exists_chat_runs (input : List ResponseItem) :
    ∃ runs, Runs ChatTogether runs ∧ runs.flatten = input.filter chatVisible ∧
      input.foldl translateChatItem (chatInstructions instructions) =
        chatInstructions instructions ++ runs.map chatGroup := by
  rw [foldl_filter_of_not_visible fun b item => translateChatItem_of_not_visible b]
  refine exists_runs_foldl (P := fun item => chatVisible item = true) ?_ ?_ (by simp)
  · intro runs run x a hruns hx hrel _ _
    have hxmem : x ∈ run := mem_of_getLast? hx
    have hleft := (hruns.leftAt_run chatTogether_keepsLeft hxmem hrel.1).1
    have hleft' : ∀ y ∈ run ++ [a], leftAt chatMove y = true := by
      intro y hy
      rcases mem_append.1 hy with hy | hy
      · exact hleft y hy
      · exact mem_singleton.1 hy ▸ hrel.2
    rw [map_append, map_append, map_singleton, map_singleton,
      chatGroup_of_left hleft, chatGroup_of_left hleft', ← List.append_assoc, ← List.append_assoc,
      translateChatItem_call _ _ hrel.2, filterMap_append]
  · intro runs a hruns hnew hvisible ha
    rw [map_append, map_singleton, ← List.append_assoc]
    refine translateChatItem_new _ ha fun hleft m hm => ?_
    rcases eq_nil_or_concat' runs with rfl | ⟨front, run, rfl⟩
    · rw [map_nil, append_nil] at hm
      exact (chatInstructions_toolCalls instructions m (mem_of_getLast? hm)).1
    · have hrun : run ≠ [] := fun hnil => hruns.ne_nil (by simp [hnil])
      obtain ⟨first, others, rfl⟩ := exists_cons_of_ne_nil hrun
      rw [map_append, map_singleton, ← List.append_assoc, getLast?_concat, mem_some_iff] at hm
      subst hm
      refine chatGroup_of_not_left (hvisible first (by simp)) ?_ others
      -- were the last run one of tool calls, the new call would belong to it
      by_contra hfirst
      have hall := (hruns.leftAt_run chatTogether_keepsLeft mem_cons_self (by simpa using hfirst)).1
      refine hnew ((first :: others).getLast hrun) ?_ ⟨hall _ (getLast_mem hrun), hleft⟩
      rw [flatten_append, flatten_singleton, getLast?_append_of_ne_nil _ hrun]
      exact getLast?_eq_some_getLast hrun

/-- A tool message on the wire. -/
def ChatMessage.isTool (m : ChatMessage) : Bool := m.toolCallId.isSome

/-- **Chat Completions accepts the messages**: every assistant message with tool calls is followed,
before any message that is not a tool message, by exactly one tool message for each of its calls. -/
def ChatWireValid (messages : List ChatMessage) : Prop :=
  ∀ before m after calls, messages = before ++ m :: after → m.role = "assistant".toList →
    m.toolCalls = some calls → ∀ call ∈ calls,
      (after.takeWhile ChatMessage.isTool).countP (·.toolCallId = some call.id) = 1

variable {runs after : List (List ResponseItem)}

/-- The tool messages behind a message are the outputs at the head of what follows. -/
lemma filterMap_toolCallId_takeWhile (hruns : Runs ChatTogether after)
    (hvisible : ∀ item ∈ after.flatten, chatVisible item = true) :
    ((after.map chatGroup).takeWhile isTool).filterMap ChatMessage.toolCallId =
      answersAhead chatMove after := by
  unfold answersAhead
  induction after with
  | nil => rfl
  | cons run after ih =>
    have hrun : run ≠ [] := fun hnil => hruns.ne_nil (by simp [hnil])
    obtain ⟨first, others, rfl⟩ := exists_cons_of_ne_nil hrun
    have ih := ih hruns.tail fun item hitem => hvisible item (by
      exact mem_append_right _ hitem)
    have hfirst := hvisible first (by simp)
    cases hleft : leftAt chatMove first with
    | true =>
      have hruns' : Runs ChatTogether ([] ++ (first :: others) :: after) := hruns
      have hall := (hruns'.leftAt_run chatTogether_keepsLeft mem_cons_self hleft).1
      have hnot : answersAt chatMove first = false := by
        cases first <;> first | rfl | cases hleft
      rw [map_cons, chatGroup_of_left hall, takeWhile_cons_of_neg (by
        simp [isTool]), flatten_cons, cons_append,
        takeWhile_cons_of_neg (by simp [hnot])]
      rfl
    | false =>
      have hsingle : others = [] := by
        cases others with
        | nil => rfl
        | cons second others =>
          have hchain := hruns.inside _ mem_cons_self
          have hrel := (isChain_cons.1 hchain).1 second (by simp)
          rw [hrel.1] at hleft
          cases hleft
      subst hsingle
      rw [map_cons, flatten_cons, singleton_append]
      cases first with
      | functionCallOutput callId output | customToolCallOutput callId output =>
        exact congrArg (callId :: ·) ih
      | message role content =>
        rfl
      | functionCall | customToolCall => cases hleft
      | _ => cases hfirst

/-- What the protocol wants, run by run. -/
lemma chatWireValid_iff (hruns : Runs ChatTogether runs)
    (hvisible : ∀ item ∈ runs.flatten, chatVisible item = true) :
    ChatWireValid (chatInstructions instructions ++ runs.map chatGroup) ↔
      ∀ before run after, runs = before ++ run :: after →
        ∀ id ∈ run.filterMap (callAt chatMove), (answersAhead chatMove after).count id = 1 := by
  have hcount : ∀ {before : List (List ResponseItem)} {run : List ResponseItem}
      {after : List (List ResponseItem)} (id : Text), runs = before ++ run :: after →
      ((after.map chatGroup).takeWhile isTool).countP (·.toolCallId = some id) =
        (answersAhead chatMove after).count id := by
    rintro before run after id rfl
    rw [← filterMap_toolCallId_takeWhile hruns.of_append.tail (by
      intro item hitem
      exact hvisible item (by
        simp [hitem])), count_filterMap]
    congr 1
    funext m
    simp [beq_eq_decide]
  have hids : ∀ run : List ResponseItem, run.filterMap (callAt chatMove) =
      (run.filterMap ResponseItem.chatToolCall?).map ChatToolCall.id := by
    intro run
    rw [map_filterMap]
    refine filterMap_congr fun item _ => ?_
    cases item <;> rfl
  constructor
  · intro hvalid before run after hsplit id hid
    obtain ⟨x, hx, hcall⟩ := mem_filterMap.1 hid
    have hleft := (Runs.leftAt_run (hsplit ▸ hruns) chatTogether_keepsLeft hx
      (isLeft_of_callKey hcall)).1
    rw [hids] at hid
    obtain ⟨call, hmem, rfl⟩ := List.mem_map.1 hid
    rw [← hcount call.id hsplit]
    refine hvalid (chatInstructions instructions ++ before.map chatGroup) (chatGroup run)
      (after.map chatGroup) _ ?_ ?_ ?_ call hmem
    · simp [hsplit]
    all_goals rw [chatGroup_of_left hleft]
  · intro hall before m after calls hsplit _ hcalls call hmem
    -- the message is one of a run, since the instructions call nothing
    have hgroups : ∃ front, runs.map chatGroup = front ++ m :: after := by
      rcases append_eq_append_iff.1 hsplit with ⟨front, -, hfront⟩ | ⟨front, hfront, hrest⟩
      · exact ⟨front, hfront⟩
      · cases front with
        | nil => exact ⟨[], hrest.symm⟩
        | cons m' front =>
          obtain rfl : m = m' := (cons.inj hrest).1
          have hnone := (chatInstructions_toolCalls instructions m (by simp [hfront])).1
          rw [hnone] at hcalls
          cases hcalls
    obtain ⟨front, hfront⟩ := hgroups
    obtain ⟨before', tail, hruns', -, htail⟩ := map_eq_append_iff.1 hfront
    obtain ⟨run, after', rfl, rfl, rfl⟩ := map_eq_cons_iff.1 htail
    have hne : run ≠ [] := fun hnil => hruns.ne_nil (by simp [hruns', hnil])
    obtain ⟨first, others, rfl⟩ := exists_cons_of_ne_nil hne
    have hleft : leftAt chatMove first = true := by
      by_contra hnot
      rw [chatGroup_of_not_left (hvisible first (by simp [hruns'])) (by simpa using hnot)] at hcalls
      cases hcalls
    have hallLeft := (Runs.leftAt_run (hruns' ▸ hruns) chatTogether_keepsLeft mem_cons_self hleft).1
    rw [chatGroup_of_left hallLeft, some.injEq] at hcalls
    rw [hcount call.id hruns']
    refine hall before' _ after' hruns' call.id ?_
    rw [hids, hcalls]
    exact List.mem_map_of_mem hmem

/-- **The chat history is accepted** exactly if between a call and its output only calls, and then
outputs, reach the wire. -/
lemma chatWireValid_iff_prompt {req : UnifiedRequest} (h : Paired req.input) :
    ChatWireValid (chatApiRequest req).messages ↔
      Prompt chatMove (req.input.filter chatVisible) := by
  obtain ⟨runs, hruns, hflatten, hmessages⟩ := exists_chat_runs req.instructions req.input
  have hvisible : ∀ item ∈ runs.flatten, chatVisible item = true := by
    rw [hflatten]
    simp
  have hanswered : Answered chatMove (req.input.filter chatVisible) := by
    refine h.answered ?_ ?_
    all_goals
      intro item hitem
      cases item <;> first | rfl | cases hitem
  rw [← hflatten] at hanswered ⊢
  have hnodup : ∀ {before : List (List ResponseItem)} {run : List ResponseItem}
      {after : List (List ResponseItem)}, runs = before ++ run :: after →
      (answersAhead chatMove after).Nodup := by
    rintro before run after rfl
    have hall := hanswered.nodup_answers
    rw [flatten_append, flatten_cons, ← List.append_assoc, filterMap_append] at hall
    exact hall.of_append_right.sublist (answersAhead_sublist after)
  change ChatWireValid (req.input.foldl translateChatItem (chatInstructions req.instructions)) ↔ _
  rw [hmessages, chatWireValid_iff req.instructions hruns hvisible,
    ← hruns.forall_mem_answersAhead_iff chatTogether_keepsLeft hanswered]
  constructor
  · intro hall before run after hsplit id hid
    exact count_pos_iff.1 (by rw [hall before run after hsplit id hid]; exact one_pos)
  · intro hall before run after hsplit id hid
    exact count_eq_one_of_mem (hnodup hsplit) (hall before run after hsplit id hid)

end

/-! ### Anthropic Messages -/

/-- The items of which the Anthropic adapter makes content blocks. -/
def anthropicVisible : ResponseItem → Bool
  | .message role content => (normalizeRole role).isSome && messageContentToBlocks content ≠ []
  | .functionCall _ _ _ | .customToolCall _ _ _ => true
  | .functionCallOutput _ _ | .customToolCallOutput _ _ => true
  | _ => false

/-- For the Anthropic adapter, the assistant's messages go together with the calls. -/
def anthropicMove : ResponseItem → Move Text := moveOf fun role => role = "assistant".toList

/-- Neighbouring items of one side share a message. -/
def AnthropicTogether (x y : ResponseItem) : Prop :=
  leftAt anthropicMove x = leftAt anthropicMove y

lemma anthropicTogether_keepsLeft : KeepsLeft anthropicMove AnthropicTogether := by
  intro x y
  unfold AnthropicTogether
  cases leftAt anthropicMove x <;> cases leftAt anthropicMove y <;> simp

/-- The role under which an item is sent. -/
def anthropicRole (item : ResponseItem) : Text :=
  if leftAt anthropicMove item then "assistant".toList else "user".toList

/-- The content blocks of an item. -/
def anthropicBlocks (parse : Text → Option JsonTree) : ResponseItem → List AnthropicContentBlock
  | .message _ content => messageContentToBlocks content
  | .functionCall name arguments callId => [.toolUse callId name (parseToolInput parse arguments)]
  | .customToolCall callId name input => [.toolUse callId name (parseToolInput parse input)]
  | .functionCallOutput callId output =>
    [.toolResult callId (output.body.toText.getD []) (output.success.map (!·))]
  | .customToolCallOutput callId output =>
    [.toolResult callId (output.body.toText.getD []) (output.success.map (!·))]
  | _ => []

namespace AnthropicContentBlock

def toolUseId? : AnthropicContentBlock → Option Text
  | .toolUse id _ _ => some id
  | .text _ | .image _ | .toolResult _ _ _ => none

def toolResultId? : AnthropicContentBlock → Option Text
  | .toolResult toolUseId _ _ => some toolUseId
  | .text _ | .image _ | .toolUse _ _ _ => none

def isToolResult (block : AnthropicContentBlock) : Bool := block.toolResultId?.isSome

end AnthropicContentBlock

open AnthropicContentBlock

/-- The tool uses of a message. -/
def AnthropicMessage.toolUses (m : AnthropicMessage) : List Text := m.content.filterMap toolUseId?

/-- The tool results with which a message begins. -/
def AnthropicMessage.leadingResults (m : AnthropicMessage) : List Text :=
  (m.content.takeWhile isToolResult).filterMap toolResultId?

/-- **Anthropic Messages accepts the messages**: the two roles alternate, no message is empty, and
an assistant message with tool uses is followed by a user message that begins with exactly one
result for each of them. -/
structure AnthropicWireValid (messages : List AnthropicMessage) : Prop where
  roles : ∀ m ∈ messages, m.role = "user".toList ∨ m.role = "assistant".toList
  alternate : messages.IsChain fun a b => a.role ≠ b.role
  nonempty : ∀ m ∈ messages, m.content ≠ []
  results : ∀ before m after, messages = before ++ m :: after → m.role = "assistant".toList →
    m.toolUses ≠ [] → ∃ next rest, after = next :: rest ∧ next.role = "user".toList ∧
      next.leadingResults.Perm m.toolUses

/-- The message of a run of items. -/
def anthropicGroup (parse : Text → Option JsonTree) (run : List ResponseItem) : AnthropicMessage :=
  ⟨(run.head?.map anthropicRole).getD [], run.flatMap (anthropicBlocks parse)⟩

section

variable {parse : Text → Option JsonTree} {run : List ResponseItem} {item x y : ResponseItem}
  {runs after : List (List ResponseItem)}

lemma anthropicRole_eq_iff : anthropicRole x = anthropicRole y ↔ AnthropicTogether x y := by
  unfold anthropicRole AnthropicTogether
  cases leftAt anthropicMove x <;> cases leftAt anthropicMove y <;> simp

lemma anthropicBlocks_ne_nil (h : anthropicVisible item = true) :
    anthropicBlocks parse item ≠ [] := by
  cases item with
  | message => simp_all [anthropicVisible, anthropicBlocks]
  | functionCall | customToolCall | functionCallOutput | customToolCallOutput => exact nofun
  | _ => cases h

variable (messages : List AnthropicMessage)

/-- A visible item is appended under its role. -/
lemma translateAnthropicItem_eq (h : anthropicVisible item = true) :
    translateAnthropicItem parse messages item =
      appendBlocks messages (anthropicRole item) (anthropicBlocks parse item) := by
  cases item with
  | message role content =>
    have hrole : role = "user".toList ∨ role = "assistant".toList := by
      by_contra hnot
      rw [anthropicVisible, normalizeRole, if_neg hnot] at h
      exact Bool.false_ne_true h
    have hnormal : normalizeRole role = some role := if_pos hrole
    have hsent : anthropicRole (.message role content) = role := by
      rcases hrole with rfl | rfl <;> rfl
    simp only [translateAnthropicItem, hnormal, hsent, anthropicBlocks]
  | functionCall | customToolCall | functionCallOutput | customToolCallOutput => rfl
  | _ => simp [anthropicVisible] at h

lemma translateAnthropicItem_of_not_visible
    (h : ¬ anthropicVisible item = true) : translateAnthropicItem parse messages item = messages := by
  cases item with
  | message role content =>
    cases hrole : normalizeRole role with
    | none => simp only [translateAnthropicItem, hrole]
    | some known =>
      have hempty : messageContentToBlocks content = [] := by
        simpa [anthropicVisible, hrole] using h
      simp [translateAnthropicItem, hrole, hempty, appendBlocks]
  | _ => simp_all [anthropicVisible, translateAnthropicItem]

/-- The items of a run have the role of its first item. -/
lemma anthropicRole_of_mem (hrun : run.IsChain AnthropicTogether) (hx : x ∈ run) (hy : y ∈ run) :
    anthropicRole x = anthropicRole y := by
  rw [anthropicRole_eq_iff]
  rcases anthropicTogether_keepsLeft.forall_leftAt hrun with hall | hall
  all_goals rw [AnthropicTogether, hall x hx, hall y hy]

lemma anthropicGroup_role (hrun : run.IsChain AnthropicTogether) (hx : x ∈ run) :
    (anthropicGroup parse run).role = anthropicRole x := by
  obtain ⟨first, others, rfl⟩ := exists_cons_of_ne_nil (ne_nil_of_mem hx)
  exact anthropicRole_of_mem hrun mem_cons_self hx

/-- **The Anthropic messages are the runs of the visible items.** -/
lemma exists_anthropic_runs (parse : Text → Option JsonTree) (input : List ResponseItem) :
    ∃ runs, Runs AnthropicTogether runs ∧ runs.flatten = input.filter anthropicVisible ∧
      input.foldl (translateAnthropicItem parse) [] = runs.map (anthropicGroup parse) := by
  rw [foldl_filter_of_not_visible fun b item => translateAnthropicItem_of_not_visible b]
  refine exists_runs_foldl (P := fun item => anthropicVisible item = true) ?_ ?_ (by simp)
  · intro runs run x a hruns hx hrel _ ha
    have hchain := hruns.inside run (by simp)
    have hxmem : x ∈ run := mem_of_getLast? hx
    have hrole : (anthropicGroup parse run).role = anthropicRole a :=
      (anthropicGroup_role hchain hxmem).trans (anthropicRole_eq_iff.2 hrel)
    have hhead : (run ++ [a]).head? = run.head? :=
      head?_append_of_ne_nil _ (ne_nil_of_mem hxmem)
    rw [nil_append, nil_append, translateAnthropicItem_eq _ ha, appendBlocks,
      if_neg (anthropicBlocks_ne_nil ha), map_append, map_append, map_singleton,
      map_singleton, getLast?_concat]
    rw [← hrole]
    simp [anthropicGroup, hhead]
  · intro runs a hruns hnew _ ha
    have hlast : ∀ m ∈ (runs.map (anthropicGroup parse)).getLast?, m.role ≠ anthropicRole a := by
      intro m hm hrole
      rcases eq_nil_or_concat' runs with rfl | ⟨front, run, rfl⟩
      · simp at hm
      · have hrun : run ≠ [] := fun hnil => hruns.ne_nil (by simp [hnil])
        rw [map_append, map_singleton, getLast?_concat, mem_some_iff] at hm
        subst hm
        rw [anthropicGroup_role (hruns.inside run (by simp)) (getLast_mem hrun),
          anthropicRole_eq_iff] at hrole
        refine hnew (run.getLast hrun) ?_ hrole
        rw [flatten_append, flatten_singleton, getLast?_append_of_ne_nil _ hrun]
        exact getLast?_eq_some_getLast hrun
    rw [nil_append, nil_append, translateAnthropicItem_eq _ ha, appendBlocks,
      if_neg (anthropicBlocks_ne_nil ha), map_append, map_singleton]
    have hgroup : anthropicGroup parse [a] = ⟨anthropicRole a, anthropicBlocks parse a⟩ := by
      simp [anthropicGroup]
    cases hcase : (runs.map (anthropicGroup parse)).getLast? with
    | none => simp [hgroup]
    | some last => simp [hgroup, hlast last (by simp [hcase])]

/-! ### Validity, run by run -/

/-- The blocks of a message have nothing to do with tools. -/
lemma tool_of_block? {part : ContentItem} {block} (h : part.block? = some block) :
    toolUseId? block = none ∧ isToolResult block = false := by
  cases part <;> simp only [ContentItem.block?] at h
  · split_ifs at h
    exact some.inj h ▸ ⟨rfl, rfl⟩
  · exact some.inj h ▸ ⟨rfl, rfl⟩
  · split_ifs at h
    exact some.inj h ▸ ⟨rfl, rfl⟩

lemma filterMap_toolUseId?_blocks (item : ResponseItem) :
    (anthropicBlocks parse item).filterMap toolUseId? = (callAt anthropicMove item).toList := by
  cases item with
  | message role content =>
    have hnone : callAt anthropicMove (.message role content) = none := by
      rw [anthropicMove, callAt_moveOf]
      rfl
    rw [hnone, toList_none, filterMap_eq_nil_iff]
    intro block hblock
    obtain ⟨part, -, hpart⟩ := mem_filterMap.1 hblock
    exact (tool_of_block? hpart).1
  | _ => rfl

lemma toolUses_anthropicGroup (run : List ResponseItem) :
    (anthropicGroup parse run).toolUses = run.filterMap (callAt anthropicMove) := by
  change (run.flatMap (anthropicBlocks parse)).filterMap toolUseId? = _
  rw [filterMap_flatMap, filterMap_eq_flatMap_toList]
  exact flatMap_congr fun item _ => filterMap_toolUseId?_blocks item

/-- The first block of an item that is no output is no tool result. -/
lemma exists_block_of_not_answersAt (hvisible : anthropicVisible item = true)
    (h : answersAt anthropicMove item = false) :
    ∃ block blocks, anthropicBlocks parse item = block :: blocks ∧ isToolResult block = false := by
  cases item with
  | message role content =>
    obtain ⟨block, blocks, hblocks⟩ := exists_cons_of_ne_nil
      (@anthropicBlocks_ne_nil parse _ hvisible)
    refine ⟨block, blocks, hblocks, ?_⟩
    have hmem : block ∈ content.filterMap ContentItem.block? := by
      change block ∈ anthropicBlocks parse (.message role content)
      rw [hblocks]
      exact mem_cons_self
    obtain ⟨part, -, hpart⟩ := mem_filterMap.1 hmem
    exact (tool_of_block? hpart).2
  | functionCall name arguments callId | customToolCall callId name input => exact ⟨_, _, rfl, rfl⟩
  | functionCallOutput callId output | customToolCallOutput callId output => cases h
  | _ => simp [anthropicVisible] at hvisible

/-- The results with which the message of a run begins. -/
lemma leadingResults_anthropicGroup (hvisible : ∀ item ∈ run, anthropicVisible item = true) :
    (anthropicGroup parse run).leadingResults =
      (run.takeWhile (answersAt anthropicMove)).filterMap (answerAt anthropicMove) := by
  change ((run.flatMap (anthropicBlocks parse)).takeWhile isToolResult).filterMap toolResultId? = _
  induction run with
  | nil => rfl
  | cons item run ih =>
    have ih := ih (forall_mem_cons.1 hvisible).2
    cases hanswers : answersAt anthropicMove item with
    | false =>
      obtain ⟨block, blocks, hblocks, hblock⟩ :=
        @exists_block_of_not_answersAt parse _ (hvisible item mem_cons_self) hanswers
      rw [flatMap_cons, hblocks, cons_append, takeWhile_cons_of_neg (by simp [hblock]),
        takeWhile_cons_of_neg (by simp [hanswers])]
      rfl
    | true =>
      cases item with
      | functionCallOutput callId output => exact congrArg (callId :: ·) ih
      | customToolCallOutput callId output => exact congrArg (callId :: ·) ih
      | message role content =>
        have hnot : answersAt anthropicMove (.message role content) = false := by
          simp only [answersAt, anthropicMove, moveOf]
          split_ifs <;> rfl
        rw [hnot] at hanswers
        cases hanswers
      | _ => cases hanswers

/-- The outputs ahead end with the next message. -/
lemma answersAhead_cons (hruns : Runs AnthropicTogether (run :: after))
    (hleft : ∀ item ∈ run, leftAt anthropicMove item = false) :
    answersAhead anthropicMove (run :: after) =
      (run.takeWhile (answersAt anthropicMove)).filterMap (answerAt anthropicMove) := by
  have hnext : after.flatten.takeWhile (answersAt anthropicMove) = [] := by
    cases after with
    | nil => rfl
    | cons next after =>
      have hrun : run ≠ [] := fun hnil => hruns.ne_nil (by simp [hnil])
      have hne : next ≠ [] := fun hnil => hruns.ne_nil (by simp [hnil])
      obtain ⟨first, others, rfl⟩ := exists_cons_of_ne_nil hne
      have happart := (isChain_cons.1 hruns.between).1 _ rfl (run.getLast hrun)
        (getLast?_eq_some_getLast hrun) first rfl
      rw [AnthropicTogether, hleft _ (getLast_mem hrun)] at happart
      rw [flatten_cons, cons_append, takeWhile_cons_of_neg]
      intro hanswer
      exact happart (isLeft_of_isAnswer hanswer).symm
  rw [answersAhead, flatten_cons, takeWhile_append, hnext]
  split_ifs with hall
  · rw [append_nil, (List.takeWhile_prefix _).eq_of_length hall]
  · rfl

lemma anthropicGroup_role_of_leftAt (hruns : Runs AnthropicTogether runs) (hrun : run ∈ runs)
    (hx : x ∈ run) : (anthropicGroup parse run).role =
      if leftAt anthropicMove x then "assistant".toList else "user".toList :=
  anthropicGroup_role (hruns.inside run hrun) hx

/-- The runs' messages alternate, and none is empty: only the results can make them invalid. -/
lemma anthropicWireValid_iff (hruns : Runs AnthropicTogether runs)
    (hvisible : ∀ item ∈ runs.flatten, anthropicVisible item = true) :
    AnthropicWireValid (runs.map (anthropicGroup parse)) ↔
      ∀ before run after, runs = before ++ run :: after →
        run.filterMap (callAt anthropicMove) ≠ [] →
          (answersAhead anthropicMove after).Perm (run.filterMap (callAt anthropicMove)) := by
  have hne : ∀ run ∈ runs, run ≠ [] := fun run hrun hnil => hruns.ne_nil (hnil ▸ hrun)
  -- a run with a call is the assistant's, and the one behind it is the user's
  have hnext : ∀ {before run next after}, runs = before ++ run :: next :: after →
      run.filterMap (callAt anthropicMove) ≠ [] →
        (anthropicGroup parse next).role = "user".toList ∧
          (anthropicGroup parse next).leadingResults =
            answersAhead anthropicMove (next :: after) := by
    intro before run next after hsplit hcalls
    obtain ⟨key, hkey⟩ := exists_mem_of_ne_nil _ hcalls
    obtain ⟨x, hx, hcall⟩ := mem_filterMap.1 hkey
    have hmem : next ∈ runs := by simp [hsplit]
    obtain ⟨first, others, hfirst⟩ := exists_cons_of_ne_nil (hne next hmem)
    have hhead : leftAt anthropicMove first = false :=
      (Runs.leftAt_run (hsplit ▸ hruns) anthropicTogether_keepsLeft hx
        (isLeft_of_callKey hcall)).2 first (by simp [hfirst])
    have hall : ∀ y ∈ next, leftAt anthropicMove y = false := by
      refine (anthropicTogether_keepsLeft.forall_leftAt (hruns.inside next hmem)).resolve_left ?_
      intro hall
      rw [hall first (by simp [hfirst])] at hhead
      cases hhead
    have hrest : Runs AnthropicTogether (next :: after) := (hsplit ▸ hruns).of_append.tail
    refine ⟨?_, ?_⟩
    · rw [anthropicGroup_role_of_leftAt hruns hmem (x := first) (by simp [hfirst]), hhead]
      rfl
    · rw [answersAhead_cons hrest hall]
      exact leadingResults_anthropicGroup fun item hitem =>
        hvisible item (mem_flatten_of_mem hmem hitem)
  constructor
  · intro hvalid before run after hsplit hcalls
    have hrole : (anthropicGroup parse run).role = "assistant".toList := by
      obtain ⟨key, hkey⟩ := exists_mem_of_ne_nil _ hcalls
      obtain ⟨x, hx, hcall⟩ := mem_filterMap.1 hkey
      rw [anthropicGroup_role_of_leftAt hruns (by simp [hsplit]) hx]
      exact if_pos (isLeft_of_callKey hcall)
    obtain ⟨_, _, hafter, -, hperm⟩ := hvalid.results (before.map (anthropicGroup parse)) _
      (after.map (anthropicGroup parse)) (by simp [hsplit]) hrole
      (by rwa [toolUses_anthropicGroup])
    obtain ⟨next, rest, rfl, rfl, rfl⟩ := map_eq_cons_iff.1 hafter
    rwa [(hnext hsplit hcalls).2, toolUses_anthropicGroup] at hperm
  · intro hall
    refine ⟨?_, ?_, ?_, ?_⟩
    · intro m hm
      obtain ⟨run, hrun, rfl⟩ := List.mem_map.1 hm
      obtain ⟨first, others, hfirst⟩ := exists_cons_of_ne_nil (hne run hrun)
      rw [anthropicGroup_role_of_leftAt hruns hrun (x := first) (by simp [hfirst])]
      cases leftAt anthropicMove first
      · exact .inl rfl
      · exact .inr rfl
    · rw [isChain_map]
      refine hruns.between.imp_of_mem_imp fun a b ha hb happart hroles => ?_
      obtain ⟨first, others, hfirst⟩ := exists_cons_of_ne_nil (hne b hb)
      have hlast := getLast_mem (hne a ha)
      rw [anthropicGroup_role (hruns.inside a ha) hlast,
        anthropicGroup_role (hruns.inside b hb) (x := first) (by simp [hfirst]),
        anthropicRole_eq_iff] at hroles
      exact happart _ (getLast?_eq_some_getLast (hne a ha)) first (by simp [hfirst]) hroles
    · intro m hm hnil
      obtain ⟨run, hrun, rfl⟩ := List.mem_map.1 hm
      obtain ⟨first, others, hfirst⟩ := exists_cons_of_ne_nil (hne run hrun)
      have hmem : first ∈ run := by simp [hfirst]
      exact anthropicBlocks_ne_nil (hvisible first (mem_flatten_of_mem hrun hmem))
        (flatMap_eq_nil_iff.1 hnil first hmem)
    · intro before m after hsplit _ huses
      obtain ⟨front, back, rfl, rfl, hback⟩ := map_eq_append_iff.1 hsplit
      obtain ⟨run, rest, rfl, rfl, rfl⟩ := map_eq_cons_iff.1 hback
      rw [toolUses_anthropicGroup] at huses ⊢
      have hperm := hall front run rest rfl huses
      cases rest with
      | nil => exact absurd hperm.symm.eq_nil huses
      | cons next rest =>
        refine ⟨_, _, rfl, (hnext rfl huses).1, ?_⟩
        rwa [(hnext rfl huses).2]

/-- **A paired input makes valid Anthropic messages exactly if its outputs are prompt.** -/
lemma anthropicWireValid_iff_prompt {req : UnifiedRequest} (h : Paired req.input) :
    AnthropicWireValid (anthropicApiRequest parse req).messages ↔
      Prompt anthropicMove (req.input.filter anthropicVisible) := by
  obtain ⟨runs, hruns, hflatten, hmessages⟩ := exists_anthropic_runs parse req.input
  have hvisible : ∀ item ∈ runs.flatten, anthropicVisible item = true := by
    rw [hflatten]
    simp
  have hanswered : Answered anthropicMove (req.input.filter anthropicVisible) := by
    refine h.answered ?_ ?_
    all_goals
      intro item hitem
      cases item <;> first | rfl | cases hitem
  rw [← hflatten] at hanswered ⊢
  change AnthropicWireValid (req.input.foldl (translateAnthropicItem parse) []) ↔ _
  rw [hmessages, anthropicWireValid_iff hruns hvisible,
    hruns.forall_perm_answersAhead_iff anthropicTogether_keepsLeft hanswered]

end

/-! ### Both adapters -/

/-- A request with nothing but an input. -/
def inputRequest (input : List ResponseItem) : UnifiedRequest where
  model := []
  instructions := []
  input := input
  tools := none
  toolChoice := "auto".toList
  parallelToolCalls := true
  reasoningEffort := none
  stream := true
  serviceTier := none
  textFormat := none

/-- A parser that reads the empty object. -/
def parseEmptyObject (text : Text) : Option JsonTree :=
  if text = "\x7b\x7d".toList then some (.object []) else none

/-- A call with its output right behind it. -/
def answeredAtOnce : List ResponseItem :=
  [.functionCall "shell".toList "\x7b\x7d".toList "c1".toList,
    .functionCallOutput "c1".toList ⟨.text "done".toList, none⟩]

/-- **When the translated history is accepted.**  For every paired input, the chat messages are valid
exactly if no item that reaches the wire stands between a call and its output but further calls, then
outputs; and the Anthropic messages are valid exactly if none does but items of the assistant, then
outputs. -/
theorem wireValid_iff_prompt (parse : Text → Option JsonTree) (req : UnifiedRequest)
    (h : Paired req.input) : (ChatWireValid (chatApiRequest req).messages ↔
      Prompt chatMove (req.input.filter chatVisible)) ∧
    (AnthropicWireValid (anthropicApiRequest parse req).messages ↔
      Prompt anthropicMove (req.input.filter anthropicVisible)) :=
  ⟨chatWireValid_iff_prompt h, anthropicWireValid_iff_prompt h⟩

theorem wireValid_iff_prompt_at_once :
    Paired answeredAtOnce ∧ ChatWireValid (chatApiRequest (inputRequest answeredAtOnce)).messages ∧
      AnthropicWireValid
        (anthropicApiRequest parseEmptyObject (inputRequest answeredAtOnce)).messages := by
  have hpaired : Paired answeredAtOnce := by decide
  have hprompt : ∀ move : ResponseItem → Move Text, Prompt move answeredAtOnce := by
    intro move before x between y after key hsplit _ _
    obtain rfl : between = [] := by
      have hlength := congrArg List.length hsplit
      simp only [answeredAtOnce, length_cons, length_append, length_nil] at hlength
      exact eq_nil_of_length_eq_zero (by omega)
    exact ⟨[], [], rfl, by simp, by simp⟩
  have hiff := wireValid_iff_prompt parseEmptyObject (inputRequest answeredAtOnce) hpaired
  exact ⟨hpaired, hiff.1.2 (hprompt _), hiff.2.2 (hprompt _)⟩

/-- A call and its output, with a message recorded in between. -/
def interrupted (role : Text) : List ResponseItem :=
  [.functionCall "shell".toList "\x7b\x7d".toList "c1".toList,
    .message role [.inputText "stop".toList],
    .functionCallOutput "c1".toList ⟨.text "done".toList, none⟩]

/-- A hook's developer message between a call and its output makes the chat messages invalid, and a
user message the messages of both adapters. -/
theorem interrupted_not_wireValid : (Paired (interrupted "developer".toList) ∧
      ¬ ChatWireValid (chatApiRequest (inputRequest (interrupted "developer".toList))).messages) ∧
    (Paired (interrupted "user".toList) ∧
      ¬ ChatWireValid (chatApiRequest (inputRequest (interrupted "user".toList))).messages ∧
      ¬ AnthropicWireValid
        (anthropicApiRequest parseEmptyObject (inputRequest (interrupted "user".toList))).messages) := by
  have hchat : ∀ {messages : List ChatMessage} {m : ChatMessage} {after : List ChatMessage}
      {call : ChatToolCall}, messages = m :: after → m.role = "assistant".toList →
      m.toolCalls = some [call] → (after.takeWhile isTool) = [] →
      ¬ ChatWireValid messages := by
    rintro _ m after call rfl hrole hcalls hnone hvalid
    have hcount := hvalid [] m after _ rfl hrole hcalls call mem_cons_self
    rw [hnone] at hcount
    cases hcount
  have hanthropic : ∀ {messages : List AnthropicMessage} {m next : AnthropicMessage}
      {after : List AnthropicMessage}, messages = m :: next :: after →
      m.role = "assistant".toList → m.toolUses ≠ [] → next.leadingResults = [] →
      ¬ AnthropicWireValid messages := by
    rintro _ m next after rfl hrole huses hnone hvalid
    obtain ⟨_, _, hafter, -, hperm⟩ := hvalid.results [] m _ rfl hrole huses
    rw [← (cons.inj hafter).1, hnone] at hperm
    exact huses hperm.symm.eq_nil
  exact ⟨⟨by decide, hchat rfl rfl rfl (by decide)⟩, by decide,
    hchat rfl rfl rfl (by decide), hanthropic rfl rfl (by decide) (by decide)⟩

end TokenCode.ModelApi
