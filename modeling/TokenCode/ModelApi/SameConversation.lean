/-
The conversation that a model is shown under either adapter.

A translated request is flattened to entries: what each speaker says and shows, the tool calls and
the tool results. The chat messages flatten to what the items of the input say, one after another.
The Anthropic messages leave out the messages of every role but `user` and `assistant`, developer
messages among them, put neighbouring texts of one speaker into one message, and take what follows
the comma of a `data:` URL for base64.
-/
import TokenCode.Lib.Join
import TokenCode.ModelApi.WireOrder

namespace TokenCode.ModelApi

open Option hiding merge_eq_some_iff
open List Text

/-! ### Entries -/

/-- What a model is shown. An image is given by its URL, and the arguments of a call are read as a
JSON value. -/
inductive Entry where
  | text (speaker text : Text)
  | image (speaker url : Text)
  | toolCall (id name : Text) (arguments : Option JsonTree)
  | toolResult (id text : Text)
deriving DecidableEq

/-- Two texts of one speaker are one text. -/
def Entry.merge : Entry → Entry → Option Entry
  | .text speaker t, .text speaker' t' =>
    if speaker = speaker' then some (.text speaker (t ++ t')) else none
  | _, _ => none

/-- A text without characters says nothing. -/
def textEntry (speaker text : Text) : Option Entry :=
  if text = [] then none else some (.text speaker text)

section

variable (parse : Text → Option JsonTree)

def ChatContentPart.entry (speaker : Text) : ChatContentPart → Option Entry
  | .text t => textEntry speaker t
  | .imageUrl url _ => some (.image speaker url)

/-- The texts and images of a content. -/
def ChatContent.entries (speaker : Text) : ChatContent → List Entry
  | .string text => (textEntry speaker text).toList
  | .array parts => parts.filterMap (ChatContentPart.entry speaker)

/-- The text of a tool message. -/
def ChatContent.plainText : ChatContent → Text
  | .string text => text
  | .array parts => parts.flatMap fun
    | .text text => text
    | .imageUrl _ _ => []

def ChatToolCall.entry (call : ChatToolCall) : Entry :=
  .toolCall call.id call.name (parse call.arguments)

/-- The entries of a message; the adapter has renamed the developer to `system`. -/
def ChatMessage.entries (m : ChatMessage) : List Entry :=
  (match m.toolCallId with
    | some id => [.toolResult id ((m.content.map ChatContent.plainText).getD [])]
    | none => join Entry.merge ((m.content.map (ChatContent.entries m.role)).getD [])) ++
  (m.toolCalls.getD []).map (ChatToolCall.entry parse)

/-- **The conversation of a chat request.** -/
def ChatApiRequest.entries (req : ChatApiRequest) : List Entry :=
  req.messages.flatMap (ChatMessage.entries parse)

/-- The URL of an image: a base64 source is the image of a `data:` URL. -/
def AnthropicImageSource.imageUrl : AnthropicImageSource → Text
  | .base64 mediaType data => "data:".toList ++ (mediaType ++ (";base64,".toList ++ data))
  | .url link => link

def AnthropicContentBlock.entry (speaker : Text) : AnthropicContentBlock → Option Entry
  | .text t => textEntry speaker t
  | .image source => some (.image speaker source.imageUrl)
  | .toolUse id name input => some (.toolCall id name (some input))
  | .toolResult toolUseId content _ => some (.toolResult toolUseId content)

def AnthropicMessage.entries (m : AnthropicMessage) : List Entry :=
  join Entry.merge (m.content.filterMap (AnthropicContentBlock.entry m.role))

/-- **The conversation of an Anthropic request**, the system texts first. -/
def AnthropicApiRequest.entries (req : AnthropicApiRequest) : List Entry :=
  (req.system.getD []).filterMap (textEntry "system".toList) ++
    req.messages.flatMap AnthropicMessage.entries

/-- What a content item of a message says. -/
def ContentItem.entry (speaker : Text) : ContentItem → Option Entry
  | .inputText text | .outputText text => textEntry speaker text
  | .inputImage imageUrl _ => some (.image speaker imageUrl)

/-- What an item of the input says. -/
def ResponseItem.entries : ResponseItem → List Entry
  | .message role content =>
    join Entry.merge (content.filterMap (ContentItem.entry (normalizeChatRole role)))
  | .functionCall name arguments callId => [.toolCall callId name (parse arguments)]
  | .customToolCall callId name input => [.toolCall callId name (parse input)]
  | .functionCallOutput callId output => [.toolResult callId (output.body.toText.getD [])]
  | .customToolCallOutput callId output => [.toolResult callId (output.body.toText.getD [])]
  | _ => []

end

/-- The text with the arguments of a tool call. -/
def ResponseItem.arguments? : ResponseItem → Option Text
  | .functionCall _ arguments _ => some arguments
  | .customToolCall _ _ input => some input
  | _ => none

/-- The arguments of every tool call are a JSON object. -/
def ObjectArguments (parse : Text → Option JsonTree) (input : List ResponseItem) : Prop :=
  ∀ item ∈ input, ∀ arguments ∈ item.arguments?, ∃ fields, parse arguments = some (.object fields)

/-- Only the user and the assistant say something in a message. -/
def TwoSpeakers (input : List ResponseItem) : Prop :=
  ∀ role content, ResponseItem.message role content ∈ input →
    normalizeRole role = none → messageContentToBlocks content = []

/-- The URL of an image in a message. -/
def ContentItem.image? : ContentItem → Option Text
  | .inputImage imageUrl _ => some imageUrl
  | _ => none

/-- The images of an item. -/
def ResponseItem.images : ResponseItem → List Text
  | .message _ content => content.filterMap ContentItem.image?
  | _ => []

/-- A `data:` URL with a comma has the form `data:<media type>;base64,<data>`. -/
def PlainUrl (url : Text) : Prop :=
  ∀ rest, url = "data:".toList ++ rest → ',' ∈ rest →
    ∃ mediaType data, rest = mediaType ++ (";base64,".toList ++ data) ∧ ',' ∉ mediaType ∧ ';' ∉ mediaType

def PlainImages (input : List ResponseItem) : Prop :=
  ∀ item ∈ input, ∀ url ∈ item.images, PlainUrl url

/-- No two neighbours among the items that say something end and begin with a text of one
speaker. -/
def ApartTexts (parse : Text → Option JsonTree) (input : List ResponseItem) : Prop :=
  (input.filter (ResponseItem.entries parse · ≠ [])).IsChain fun x y =>
    ¬ Meet Entry.merge (x.entries parse) (y.entries parse)

/-! ### Joining texts -/

open Entry (merge)

lemma Entry.merge_eq_some_iff {a b c : Entry} :
    a.merge b = some c ↔ ∃ s t t', a = .text s t ∧ b = .text s t' ∧ c = .text s (t ++ t') := by
  constructor
  · intro h
    cases a <;> cases b <;> simp only [merge, reduceCtorEq] at h
    split_ifs at h with hspeaker
    exact ⟨_, _, _, rfl, by rw [hspeaker], (some.inj h).symm⟩
  · rintro ⟨s, t, t', rfl, rfl, rfl⟩
    exact if_pos rfl

/-- Only the speaker decides whether a text is joined. -/
lemma Entry.isSome_merge_text_left (s t t' : Text) (d : Entry) :
    (merge (.text s t) d).isSome = (merge (.text s t') d).isSome := by
  cases d with
  | text speaker t =>
    simp only [merge]
    split_ifs <;> rfl
  | _ => rfl

lemma Entry.isSome_merge_text_right (s t t' : Text) (d : Entry) :
    (merge d (.text s t)).isSome = (merge d (.text s t')).isSome := by
  cases d with
  | text speaker t =>
    simp only [merge]
    split_ifs <;> rfl
  | _ => rfl

open Entry

lemma entry_merging : Merging merge where
  assoc a b d := by
    ext c
    simp only [bind_eq_some_iff, merge_eq_some_iff]
    constructor
    · rintro ⟨_, ⟨s, t, t', rfl, rfl, rfl⟩, _, _, u, h, rfl, rfl⟩
      obtain ⟨rfl, rfl⟩ := Entry.text.inj h
      exact ⟨_, ⟨_, _, _, rfl, rfl, rfl⟩, _, _, _, rfl, rfl, by rw [List.append_assoc]⟩
    · rintro ⟨_, ⟨s, t, t', rfl, rfl, rfl⟩, _, u, _, rfl, h, rfl⟩
      obtain ⟨rfl, rfl⟩ := Entry.text.inj h
      exact ⟨_, ⟨_, _, _, rfl, rfl, rfl⟩, _, _, _, rfl, rfl, by rw [List.append_assoc]⟩
  last := by
    intro a b c d h
    obtain ⟨s, t, t', rfl, rfl, rfl⟩ := merge_eq_some_iff.1 h
    exact isSome_merge_text_left ..
  first := by
    intro a b c d h
    obtain ⟨s, t, t', rfl, rfl, rfl⟩ := merge_eq_some_iff.1 h
    exact isSome_merge_text_right ..

variable (speaker : Text) (messages : List ChatMessage) (req : UnifiedRequest) {role : Text}
  {content : List ContentItem} {run : List ResponseItem}

section

variable {parse : Text → Option JsonTree} {input : List ResponseItem} {item x y : ResponseItem}

/-- The texts of one speaker are joined to what they say together. -/
lemma join_texts (texts : List Text) : join merge (texts.filterMap (textEntry speaker)) =
      (textEntry speaker texts.flatten).toList := by
  induction texts with
  | nil => rfl
  | cons t texts ih =>
    by_cases ht : t = []
    · have hentry : textEntry speaker t = none := if_pos ht
      rw [filterMap_cons_none hentry, ih, flatten_cons, ht, nil_append]
    · have hentry : textEntry speaker t = some (.text speaker t) := if_neg ht
      rw [filterMap_cons_some hentry, join_cons, ih, flatten_cons]
      by_cases hrest : texts.flatten = []
      · rw [hrest, append_nil, hentry]
        rfl
      · have hboth : t ++ texts.flatten ≠ [] := by simp [ht]
        rw [textEntry, if_neg hrest, textEntry, if_neg hboth, toList_some]
        exact push_cons_of_some (if_pos rfl)

/-! ### The chat request -/

open ContentItem (entry isImage chatPart text? block?)

/-- A message says what its content items say, whichever form its content has on the wire. -/
lemma join_entries_messageContentToValue (content : List ContentItem) : join merge
        (((messageContentToValue content).map (ChatContent.entries speaker)).getD []) =
      join merge (content.filterMap (entry speaker)) := by
  unfold messageContentToValue
  by_cases hany : content.any isImage = true
  · have hne : content.map chatPart ≠ [] := by
      rintro hnil
      rw [map_eq_nil_iff.1 hnil] at hany
      cases hany
    simp only [hany, if_true, hne, if_false, map_some, getD_some,
      ChatContent.entries, filterMap_map]
    congr 1
    refine filterMap_congr fun part _ => ?_
    cases part <;> rfl
  · have htexts : content.filterMap (entry speaker) =
        (content.filterMap text?).filterMap (textEntry speaker) := by
      rw [filterMap_filterMap]
      refine filterMap_congr fun part hpart => ?_
      cases part with
      | inputImage imageUrl detail => exact absurd (List.any_eq_true.2 ⟨_, hpart, rfl⟩) hany
      | _ => rfl
    rw [htexts, join_texts]
    simp only [hany, Bool.false_eq_true, if_false]
    by_cases htext : (content.filterMap text?).flatten = []
    · simp [htext, textEntry]
    · simp [htext, textEntry, ChatContent.entries, push]

open ChatMessage (entries)

lemma entries_stringMessage (role text : Text) :
    entries parse ⟨role, some (.string text), none, none⟩ =
      (textEntry role text).toList := by
  by_cases h : text = []
  · simp [entries, ChatContent.entries, textEntry, h]
  · simp [entries, ChatContent.entries, textEntry, h, push]

lemma entries_callMessage (role : Text) (call : ChatToolCall) :
    entries parse ⟨role, none, none, some [call]⟩ = [call.entry parse] := rfl

lemma entries_toolMessage (role id text : Text) :
    entries parse ⟨role, some (.string text), some id, none⟩ =
      [.toolResult id text] := rfl

lemma entries_pushToolCall (callId name arguments : Text) :
    (pushToolCall messages callId name arguments).flatMap (entries parse) =
      messages.flatMap (entries parse) ++ [.toolCall callId name (parse arguments)] := by
  have hnew : (messages ++ [(⟨"assistant".toList, none, none, some [⟨callId, name, arguments⟩]⟩ :
      ChatMessage)]).flatMap (entries parse) =
      messages.flatMap (entries parse) ++ [.toolCall callId name (parse arguments)] := by
    rw [flatMap_append, flatMap_singleton, entries_callMessage]
    rfl
  unfold pushToolCall
  split
  · rename_i role content toolCallId toolCalls hlast
    split_ifs
    · obtain ⟨front, rfl⟩ := getLast?_eq_some_iff.1 hlast
      simp [entries, ChatToolCall.entry]
    · exact hnew
  · exact hnew

lemma entries_translateChatItem (item : ResponseItem) :
    (translateChatItem messages item).flatMap (entries parse) =
      messages.flatMap (entries parse) ++ item.entries parse := by
  cases item with
  | message role content =>
    have hsaid := join_entries_messageContentToValue (normalizeChatRole role) content
    simp only [translateChatItem, ResponseItem.entries, ← hsaid]
    cases messageContentToValue content with
    | none => simp
    | some chatContent => simp [entries]
  | functionCall | customToolCall => exact entries_pushToolCall ..
  | functionCallOutput callId output | customToolCallOutput callId output =>
    simp [translateChatItem, pushToolOutput, entries_toolMessage, ResponseItem.entries]
  | _ => simp [translateChatItem, ResponseItem.entries]

/-- What the instructions say. -/
def instructionEntries (instructions : Text) : List Entry :=
  (textEntry "system".toList instructions).toList

/-- **A chat request says what the instructions and the items say, in order.** -/
lemma entries_chatApiRequest : (chatApiRequest req).entries parse =
      instructionEntries req.instructions ++ req.input.flatMap (ResponseItem.entries parse) := by
  have hrun : ∀ messages : List ChatMessage,
      (req.input.foldl translateChatItem messages).flatMap (entries parse) =
        messages.flatMap (entries parse) ++
          req.input.flatMap (ResponseItem.entries parse) := by
    induction req.input with
    | nil => simp
    | cons item input ih =>
      intro messages
      rw [foldl_cons, ih, entries_translateChatItem, flatMap_cons, List.append_assoc]
  rw [ChatApiRequest.entries, chatApiRequest, hrun]
  unfold chatInstructions instructionEntries
  by_cases h : req.instructions = []
  · simp [h, textEntry]
  · rw [if_neg h, flatMap_singleton, entries_stringMessage]

/-! ### Images -/

/-- The Anthropic adapter reads a `data:` URL with a comma in two parts. -/
lemma anthropicImageSource_data {rest : Text} (h : ',' ∈ rest) :
    anthropicImageSource ("data:".toList ++ rest) =
      .base64 ((rest.takeWhile (· ≠ ',')).takeWhile (· ≠ ';')) (rest.dropWhile (· ≠ ',')).tail := by
  have hrest : ("data:".toList ++ rest).dropPrefix? "data:".toList = some rest := by
    simp [List.dropPrefix?]
  simp only [anthropicImageSource, hrest, if_pos h]

/-- A URL is shown to the model if and only if it is plain. -/
lemma imageUrl_anthropicImageSource_iff (url : Text) :
    (anthropicImageSource url).imageUrl = url ↔ PlainUrl url := by
  by_cases hdata : ∃ rest, url = "data:".toList ++ rest ∧ ',' ∈ rest
  · obtain ⟨rest, rfl, hcomma⟩ := hdata
    rw [anthropicImageSource_data hcomma, AnthropicImageSource.imageUrl, append_cancel_left_eq]
    constructor
    · rintro heq other hother -
      obtain rfl := append_cancel_left hother
      refine ⟨_, _, heq.symm, fun hmem => ?_, fun hmem => ?_⟩
      · simpa using mem_takeWhile_imp ((List.takeWhile_prefix _).subset hmem)
      · simpa using mem_takeWhile_imp hmem
    · intro hplain
      obtain ⟨mediaType, data, rfl, hnocomma, hnosemicolon⟩ := hplain rest rfl hcomma
      have hmeta : ∀ c ∈ mediaType ++ ";base64".toList, decide (c ≠ ',') = true := by
        intro c hc
        rcases mem_append.1 hc with hc | hc
        · exact decide_eq_true fun heq => hnocomma (heq ▸ hc)
        · have hall : ∀ d ∈ ";base64".toList, decide (d ≠ ',') = true := by simp
          exact hall c hc
      have hmedia : ∀ c ∈ mediaType, decide (c ≠ ';') = true := fun c hc =>
        decide_eq_true fun heq => hnosemicolon (heq ▸ hc)
      have hsplit : mediaType ++ (";base64,".toList ++ data) =
          (mediaType ++ ";base64".toList) ++ ',' :: data := by simp
      have hfront : ((mediaType ++ ";base64".toList) ++ ',' :: data).takeWhile
          (fun c => decide (c ≠ ',')) = mediaType ++ ";base64".toList := by
        rw [takeWhile_append_of_pos hmeta]
        simp
      have hback : ((mediaType ++ ";base64".toList) ++ ',' :: data).dropWhile
          (fun c => decide (c ≠ ',')) = ',' :: data := by
        rw [dropWhile_append_of_pos hmeta]
        simp
      have hfirst : (mediaType ++ ";base64".toList).takeWhile (fun c => decide (c ≠ ';')) =
          mediaType := by
        rw [takeWhile_append_of_pos hmedia]
        simp
      rw [hsplit, hfront, hback, hfirst, tail_cons, ← hsplit]
  · have hurl : anthropicImageSource url = .url url := by
      unfold anthropicImageSource
      split
      · next rest hrest =>
        obtain ⟨front, heq, hfront⟩ := dropPrefix?_eq_some_iff.1 hrest
        rw [beq_iff_eq] at hfront
        subst hfront
        rw [if_neg fun hcomma => hdata ⟨rest, heq, hcomma⟩]
      · rfl
    rw [hurl]
    exact iff_of_true rfl fun rest heq hcomma => absurd ⟨rest, heq, hcomma⟩ hdata

/-! ### The Anthropic request -/

/-- What the blocks of an item say, before neighbouring texts are joined. -/
def blockEntries (parse : Text → Option JsonTree) (item : ResponseItem) : List Entry :=
  (anthropicBlocks parse item).filterMap (AnthropicContentBlock.entry (anthropicRole item))

variable (content)

lemma filterMap_entry_messageContentToBlocks
    (himages : ∀ url ∈ content.filterMap ContentItem.image?, PlainUrl url) :
    (messageContentToBlocks content).filterMap (AnthropicContentBlock.entry speaker) =
      content.filterMap (entry speaker) := by
  rw [messageContentToBlocks, filterMap_filterMap]
  refine filterMap_congr fun part hpart => ?_
  have htext : ∀ t : Text, ((if t = [] then none else some (.text t)) :
      Option AnthropicContentBlock).bind (AnthropicContentBlock.entry speaker) =
        textEntry speaker t := by
    intro t
    by_cases ht : t = []
    · rw [if_pos ht, textEntry, if_pos ht]
      rfl
    · rw [if_neg ht]
      rfl
  cases part with
  | inputImage imageUrl detail =>
    have hplain := himages imageUrl (mem_filterMap.2 ⟨_, hpart, rfl⟩)
    exact congrArg (fun url => some (Entry.image speaker url))
      ((imageUrl_anthropicImageSource_iff imageUrl).2 hplain)
  | inputText t | outputText t => exact htext t

/-- Every block says something. -/
lemma filterMap_entry_ne_nil (h : messageContentToBlocks content ≠ []) :
    (messageContentToBlocks content).filterMap (AnthropicContentBlock.entry speaker) ≠ [] := by
  obtain ⟨block, hblock⟩ := exists_mem_of_ne_nil _ h
  obtain ⟨part, -, hpart⟩ := mem_filterMap.1 hblock
  obtain ⟨e, he⟩ : ∃ e, block.entry speaker = some e := by
    cases part with
    | inputImage imageUrl detail =>
      obtain rfl := some.inj hpart
      exact ⟨_, rfl⟩
    | inputText t | outputText t =>
      rw [block?] at hpart
      split_ifs at hpart with ht
      obtain rfl := some.inj hpart
      exact ⟨_, if_neg ht⟩
  exact ne_nil_of_mem (mem_filterMap.2 ⟨block, hblock, he⟩)

lemma filterMap_entry_eq_nil_iff :
    content.filterMap (entry speaker) = [] ↔ messageContentToBlocks content = [] := by
  rw [messageContentToBlocks, filterMap_eq_nil_iff, filterMap_eq_nil_iff]
  refine forall₂_congr fun part _ => ?_
  cases part <;> simp [entry, block?, textEntry]

variable {content}

lemma normalizeRole_eq_some_iff {role' : Text} : normalizeRole role = some role' ↔
    (role = "user".toList ∨ role = "assistant".toList) ∧ role = role' := by
  unfold normalizeRole
  split_ifs with h
  · rw [some_inj]
    exact ⟨fun heq => ⟨h, heq⟩, And.right⟩
  · exact ⟨fun heq => (by cases heq), fun heq => absurd heq.1 h⟩

section

variable (h : role = "user".toList ∨ role = "assistant".toList)
include h

lemma anthropicRole_message : anthropicRole (.message role content) = role := by
  rcases h with rfl | rfl
  · rfl
  · rfl

lemma normalizeChatRole_eq_self : normalizeChatRole role = role := by
  rcases h with rfl | rfl
  · rfl
  · rfl

/-- What the user or the assistant says in a message. -/
lemma blockEntries_message (himages : ∀ url ∈ content.filterMap ContentItem.image?, PlainUrl url) :
    blockEntries parse (.message role content) =
      content.filterMap (entry (normalizeChatRole role)) := by
  rw [blockEntries, anthropicRole_message h, normalizeChatRole_eq_self h]
  exact filterMap_entry_messageContentToBlocks role content himages

end

lemma visible_message_iff : anthropicVisible (.message role content) = true ↔
      (role = "user".toList ∨ role = "assistant".toList) ∧ messageContentToBlocks content ≠ [] := by
  rw [anthropicVisible, Bool.and_eq_true, isSome_iff_exists, decide_eq_true_iff]
  simp [normalizeRole_eq_some_iff]

/-- A visible item says the same on its own as in the input. -/
lemma join_blockEntries (hvisible : anthropicVisible item = true)
    (harguments : ∀ arguments ∈ item.arguments?, ∃ fields, parse arguments = some (.object fields))
    (himages : ∀ url ∈ item.images, PlainUrl url) :
    join merge (blockEntries parse item) = item.entries parse := by
  have hcall : ∀ {arguments : Text} (callId name : Text), item.arguments? = some arguments →
      Entry.toolCall callId name (some (parseToolInput parse arguments)) =
        .toolCall callId name (parse arguments) := by
    intro arguments callId name h
    obtain ⟨fields, hfields⟩ := harguments arguments h
    rw [parseToolInput, hfields]
  cases item with
  | message role content => rw [blockEntries_message (visible_message_iff.1 hvisible).1 himages]; rfl
  | functionCall name arguments callId => exact congrArg (fun e => [e]) (hcall callId name rfl)
  | customToolCall callId name input => exact congrArg (fun e => [e]) (hcall callId name rfl)
  | functionCallOutput callId output | customToolCallOutput callId output => rfl
  | _ => cases hvisible

lemma blockEntries_ne_nil (hvisible : anthropicVisible item = true) :
    blockEntries parse item ≠ [] := by
  cases item with
  | message role content =>
    exact filterMap_entry_ne_nil _ content (visible_message_iff.1 hvisible).2
  | functionCall name arguments callId => exact cons_ne_nil _ _
  | customToolCall callId name input => exact cons_ne_nil _ _
  | functionCallOutput callId output => exact cons_ne_nil _ _
  | customToolCallOutput callId output => exact cons_ne_nil _ _
  | _ => cases hvisible

variable {speaker : Text}

/-- What a message of the user or the assistant says stands under its role. -/
lemma speaker_of_mem_blockEntries {t : Text}
    (h : Entry.text speaker t ∈ blockEntries parse item) : speaker = anthropicRole item := by
  obtain ⟨block, -, hblock⟩ := mem_filterMap.1 h
  cases block with
  | text t' =>
    rw [AnthropicContentBlock.entry, textEntry] at hblock
    split_ifs at hblock
    exact (Entry.text.inj (some.inj hblock)).1.symm
  | _ => cases hblock

lemma entries_anthropicGroup (hrun : run.IsChain AnthropicTogether) :
    (anthropicGroup parse run).entries = join merge (run.flatMap (blockEntries parse)) := by
  change join merge ((run.flatMap (anthropicBlocks parse)).filterMap _) = _
  rw [filterMap_flatMap]
  congr 1
  refine flatMap_congr fun item hitem => ?_
  rw [anthropicGroup_role hrun hitem]
  rfl

/-- Neighbouring messages have different speakers, so no text continues in the next message. -/
lemma not_meet_of_roles {next : List ResponseItem} (hrun : run.IsChain AnthropicTogether)
    (hnext : next.IsChain AnthropicTogether)
    (happart : ∀ x ∈ run.getLast?, ∀ y ∈ next.head?, ¬ AnthropicTogether x y) :
    ¬ Meet merge (join merge (run.flatMap (blockEntries parse)))
      (join merge (next.flatMap (blockEntries parse))) := by
  -- every text of a run is the run's speaker's
  have hspeaker : ∀ {items : List ResponseItem} {x : ResponseItem},
      items.IsChain AnthropicTogether → x ∈ items →
      ∀ e ∈ join merge (items.flatMap (blockEntries parse)),
        ∀ s t, e = .text s t → s = anthropicRole x := by
    intro items x hitems hx
    refine forall_mem_join ?_ ?_
    · intro a b c h ha _ s t hc
      obtain ⟨s', t', t'', rfl, rfl, rfl⟩ := merge_eq_some_iff.1 h
      obtain ⟨rfl, -⟩ := Entry.text.inj hc
      exact ha _ _ rfl
    · rintro e he s t rfl
      obtain ⟨y, hy, hey⟩ := mem_flatMap.1 he
      rw [speaker_of_mem_blockEntries hey]
      exact anthropicRole_of_mem hitems hy hx
  rintro ⟨a, ha, b, hb, hab⟩
  obtain ⟨c, hc⟩ := isSome_iff_exists.1 hab
  obtain ⟨s, t, t', rfl, rfl, -⟩ := merge_eq_some_iff.1 hc
  have hmem := mem_of_getLast? ha
  have hmem' := mem_of_head? hb
  have hne : run ≠ [] := by
    rintro rfl
    cases hmem
  have hne' : next ≠ [] := by
    rintro rfl
    cases hmem'
  obtain ⟨first, others, rfl⟩ := exists_cons_of_ne_nil hne'
  refine happart (run.getLast hne) (getLast?_eq_some_getLast hne) first rfl ?_
  rw [← anthropicRole_eq_iff, ← hspeaker hrun (getLast_mem hne) _ hmem s t rfl,
    ← hspeaker hnext mem_cons_self _ hmem' s t' rfl]

/-- **An Anthropic request says what the instructions and the visible items say, texts of one
speaker joined.** -/
lemma entries_anthropicApiRequest :
    (anthropicApiRequest parse req).entries = instructionEntries req.instructions ++
      join merge ((req.input.filter anthropicVisible).flatMap (blockEntries parse)) := by
  obtain ⟨runs, hruns, hflatten, hmessages⟩ := exists_anthropic_runs parse req.input
  have hsystem : ((if req.instructions = [] then none else some [req.instructions] :
      Option (List Text)).getD []).filterMap (textEntry "system".toList) =
        instructionEntries req.instructions := by
    by_cases h : req.instructions = []
    · rw [if_pos h, instructionEntries, textEntry, if_pos h]
      rfl
    · have hentry : textEntry "system".toList req.instructions =
          some (.text "system".toList req.instructions) := if_neg h
      rw [if_neg h, instructionEntries, hentry, getD_some, filterMap_cons_some hentry]
      rfl
  have hne : ∀ run ∈ runs, run.flatMap (blockEntries parse) ≠ [] := by
    intro run hrun hnil
    obtain ⟨first, others, rfl⟩ := exists_cons_of_ne_nil
      (fun h => hruns.ne_nil (h ▸ hrun) : run ≠ [])
    have hvisible : first ∈ req.input.filter anthropicVisible :=
      hflatten ▸ mem_flatten_of_mem hrun mem_cons_self
    exact blockEntries_ne_nil (mem_filter.1 hvisible).2
      (flatMap_eq_nil_iff.1 hnil first mem_cons_self)
  change ((if req.instructions = [] then none else some [req.instructions] :
    Option (List Text)).getD []).filterMap (textEntry "system".toList) ++
      (req.input.foldl (translateAnthropicItem parse) []).flatMap AnthropicMessage.entries = _
  rw [hsystem, hmessages, flatMap_map, ← hflatten, flatten_eq_flatMap, flatMap_assoc]
  congr 1
  refine Eq.trans ?_ ((flatMap_join_eq_iff entry_merging hne).2 ?_)
  · exact flatMap_congr fun run hrun => entries_anthropicGroup (hruns.inside run hrun)
  · exact hruns.between.imp_of_mem_imp fun run next hrun hnext happart =>
      not_meet_of_roles (hruns.inside run hrun) (hruns.inside next hnext) happart

/-! ### Both adapters -/

variable (h : TwoSpeakers input)
include h

/-- If only the user and the assistant speak, what the Anthropic adapter leaves out says nothing. -/
lemma TwoSpeakers.entries_eq_nil (hmem : item ∈ input)
    (hvisible : anthropicVisible item = false) : item.entries parse = [] := by
  cases item with
  | message role content =>
    rw [ResponseItem.entries, join_eq_nil_iff, filterMap_entry_eq_nil_iff]
    by_contra hblocks
    cases hrole : normalizeRole role with
    | none => exact hblocks (h role content hmem hrole)
    | some role' =>
      rw [visible_message_iff.2 ⟨(normalizeRole_eq_some_iff.1 hrole).1, hblocks⟩] at hvisible
      cases hvisible
  | functionCall | customToolCall | functionCallOutput | customToolCallOutput => cases hvisible
  | _ => rfl

lemma flatMap_entries_of_twoSpeakers (harguments : ObjectArguments parse input)
    (himages : PlainImages input) :
    input.flatMap (ResponseItem.entries parse) = (input.filter anthropicVisible).flatMap
      fun item => join merge (blockEntries parse item) := by
  have hfilter : ∀ items : List ResponseItem, (∀ item ∈ items, item ∈ input) →
      items.flatMap (ResponseItem.entries parse) =
        (items.filter anthropicVisible).flatMap fun item =>
          join merge (blockEntries parse item) := by
    intro items
    induction items with
    | nil => intro _; rfl
    | cons item items ih =>
      intro hitems
      have ih := ih (forall_mem_cons.1 hitems).2
      have hmem := hitems item mem_cons_self
      cases hvisible : anthropicVisible item with
      | false =>
        rw [flatMap_cons, h.entries_eq_nil hmem hvisible, ih, nil_append,
          filter_cons_of_neg (by simp [hvisible])]
      | true =>
        rw [filter_cons_of_pos hvisible, flatMap_cons, flatMap_cons, ih,
          join_blockEntries hvisible (harguments item hmem) (himages item hmem)]
  exact hfilter input fun _ hitem => hitem

lemma filter_entries_of_twoSpeakers (harguments : ObjectArguments parse input)
    (himages : PlainImages input) :
    input.filter (ResponseItem.entries parse · ≠ []) = input.filter anthropicVisible := by
  refine filter_congr fun item hitem => ?_
  cases hvisible : anthropicVisible item with
  | false => simp [h.entries_eq_nil hitem hvisible]
  | true =>
    rw [← join_blockEntries hvisible (harguments item hitem) (himages item hitem), decide_eq_true_iff, Ne,
      join_eq_nil_iff]
    exact blockEntries_ne_nil hvisible

omit h

/-- The characters and images of one speaker. -/
def Entry.said (speaker : Text) : Entry → List (Char ⊕ Text)
  | .text speaker' t => if speaker' = speaker then t.map Sum.inl else []
  | .image speaker' url => if speaker' = speaker then [Sum.inr url] else []
  | .toolCall _ _ _ | .toolResult _ _ => []

lemma flatMap_said_join (entries : List Entry) :
    (join merge entries).flatMap (Entry.said speaker) =
      entries.flatMap (Entry.said speaker) := by
  refine flatMap_join ?_ entries
  intro a b c h
  obtain ⟨s, t, t', rfl, rfl, rfl⟩ := merge_eq_some_iff.1 h
  simp only [Entry.said]
  split_ifs
  · exact map_append
  · rfl

lemma said_of_mem_blockEntries {e : Entry} (h : e ∈ blockEntries parse item)
    (hspeaker : anthropicRole item ≠ speaker) : e.said speaker = [] := by
  obtain ⟨block, -, hblock⟩ := mem_filterMap.1 h
  cases block with
  | text t =>
    rw [AnthropicContentBlock.entry, textEntry] at hblock
    split_ifs at hblock
    rw [← some.inj hblock]
    exact if_neg hspeaker
  | image source =>
    rw [← some.inj hblock]
    exact if_neg hspeaker
  | toolUse id name input | toolResult id content isError => rw [← some.inj hblock]; rfl

lemma said_entry_ne_nil {part : ContentItem} {e : Entry}
    (h : part.entry speaker = some e) : e.said speaker ≠ [] := by
  have htext : ∀ t, textEntry speaker t = some e → e.said speaker ≠ [] := by
    intro t ht
    rw [textEntry] at ht
    split_ifs at ht with hne
    rw [← some.inj ht, Entry.said, if_pos rfl]
    simpa using hne
  cases part with
  | inputText t | outputText t => exact htext t h
  | inputImage imageUrl detail =>
    rw [← some.inj h, Entry.said, if_pos rfl]
    simp

lemma anthropicRole_ne_normalizeChatRole (h : normalizeRole role = none)
    (item : ResponseItem) : anthropicRole item ≠ normalizeChatRole role := by
  intro heq
  have hside : anthropicRole item = "user".toList ∨ anthropicRole item = "assistant".toList := by
    unfold anthropicRole
    cases leftAt anthropicMove item
    · exact .inl rfl
    · exact .inr rfl
  rw [heq] at hside
  by_cases hdeveloper : role = "developer".toList
  · rw [hdeveloper] at hside
    revert hside
    decide
  · rw [normalizeChatRole, if_neg hdeveloper] at hside
    rw [normalizeRole, if_pos hside] at h
    cases h

/-- The Anthropic request has nothing from another speaker than the user and the assistant but the
instructions. -/
lemma twoSpeakers_of_join_eq (h : join merge ((chatApiRequest req).entries parse) =
      join merge (anthropicApiRequest parse req).entries) : TwoSpeakers req.input := by
  intro role content hmem hrole
  have hsaid := congrArg (List.flatMap (Entry.said (normalizeChatRole role))) h
  rw [flatMap_said_join, flatMap_said_join, entries_chatApiRequest, entries_anthropicApiRequest,
    flatMap_append, flatMap_append, flatMap_said_join] at hsaid
  have hnone : ((req.input.filter anthropicVisible).flatMap (blockEntries parse)).flatMap
      (Entry.said (normalizeChatRole role)) = [] := by
    refine flatMap_eq_nil_iff.2 fun e he => ?_
    obtain ⟨item, -, hitem⟩ := mem_flatMap.1 he
    exact said_of_mem_blockEntries hitem (anthropicRole_ne_normalizeChatRole hrole item)
  rw [hnone] at hsaid
  have hall := flatMap_eq_nil_iff.1 (append_cancel_left hsaid)
  by_contra hblocks
  rw [← filterMap_entry_eq_nil_iff (normalizeChatRole role)] at hblocks
  obtain ⟨e, he⟩ := exists_mem_of_ne_nil _ hblocks
  obtain ⟨part, -, hpart⟩ := mem_filterMap.1 he
  -- the message's own entries say what its parts say
  have hitem : (ResponseItem.entries parse (.message role content)).flatMap
      (Entry.said (normalizeChatRole role)) = [] :=
    flatMap_eq_nil_iff.2 fun e he => hall e (mem_flatMap.2 ⟨_, hmem, he⟩)
  rw [ResponseItem.entries, flatMap_said_join] at hitem
  exact said_entry_ne_nil hpart (flatMap_eq_nil_iff.1 hitem e he)

/-- The images, whoever shows them. -/
def Entry.shown : Entry → List Text
  | .image _ url => [url]
  | _ => []

lemma flatMap_shown_join (entries : List Entry) :
    (join merge entries).flatMap Entry.shown = entries.flatMap Entry.shown := by
  refine flatMap_join ?_ entries
  intro a b c h
  obtain ⟨s, t, t', rfl, rfl, rfl⟩ := merge_eq_some_iff.1 h
  rfl

/-- A text shows no image. -/
lemma flatMap_shown_cons {part : ContentItem} {t : Text} (h : part.entry speaker = textEntry speaker t)
    (content : List ContentItem) : ((part :: content).filterMap (entry speaker)).flatMap Entry.shown =
      (content.filterMap (entry speaker)).flatMap Entry.shown := by
  rw [textEntry] at h
  split_ifs at h
  · rw [filterMap_cons_none h]
  · rw [filterMap_cons_some h]
    rfl

lemma shown_entries (item : ResponseItem) : (item.entries parse).flatMap Entry.shown = item.images := by
  cases item with
  | message role content =>
    rw [ResponseItem.entries, flatMap_shown_join, ResponseItem.images]
    induction content with
    | nil => rfl
    | cons part content ih =>
      cases part with
      | inputImage imageUrl detail => exact congrArg (imageUrl :: ·) ih
      | inputText t | outputText t =>
        rw [filterMap_cons_none (f := ContentItem.image?) rfl, ← ih]
        exact flatMap_shown_cons rfl content
  | _ => rfl

lemma shown_blockEntries (item : ResponseItem) : (blockEntries parse item).flatMap Entry.shown =
    item.images.map fun url => (anthropicImageSource url).imageUrl := by
  cases item with
  | message role content =>
    rw [blockEntries, anthropicBlocks, messageContentToBlocks, ResponseItem.images]
    induction content with
    | nil => rfl
    | cons part content ih =>
      cases part with
      | inputImage imageUrl detail => exact congrArg (_ :: ·) ih
      | inputText t | outputText t =>
        rw [filterMap_cons_none (f := ContentItem.image?) rfl, ← ih]
        simp only [filterMap_cons, block?]
        split_ifs with ht
        · rfl
        · have hentry : AnthropicContentBlock.entry (anthropicRole (.message role content)) (.text t) =
              some (.text (anthropicRole (.message role content)) t) := if_neg ht
          have hrole : ∀ more : List ContentItem, anthropicRole (.message role more) =
              anthropicRole (.message role content) := fun _ => rfl
          rw [hrole, filterMap_cons_some hentry]
          rfl
  | _ => rfl

/-- The Anthropic request shows the images that it has read. -/
lemma plainImages_of_join_eq (htwo : TwoSpeakers req.input)
    (h : join merge ((chatApiRequest req).entries parse) =
      join merge (anthropicApiRequest parse req).entries) : PlainImages req.input := by
  have hshown := congrArg (List.flatMap Entry.shown) h
  rw [flatMap_shown_join, flatMap_shown_join, entries_chatApiRequest, entries_anthropicApiRequest,
    flatMap_append, flatMap_append, flatMap_shown_join] at hshown
  have hshown := append_cancel_left hshown
  rw [flatMap_assoc, flatMap_assoc] at hshown
  simp only [shown_entries, shown_blockEntries] at hshown
  -- what is left out has no images
  have hvisible : ∀ items : List ResponseItem, (∀ item ∈ items, item ∈ req.input) →
      (items.filter anthropicVisible).flatMap ResponseItem.images =
        items.flatMap ResponseItem.images := by
    intro items hitems
    induction items with
    | nil => rfl
    | cons item items ih =>
      have ih := ih (forall_mem_cons.1 hitems).2
      cases hshow : anthropicVisible item with
      | true => rw [filter_cons_of_pos hshow, flatMap_cons, flatMap_cons, ih]
      | false =>
        have hnone : item.images = [] := by
          have hentries : item.entries parse = [] :=
            htwo.entries_eq_nil (hitems item mem_cons_self) hshow
          exact (shown_entries item).symm.trans (congrArg (List.flatMap Entry.shown) hentries)
        rw [filter_cons_of_neg (by simp [hshow]), flatMap_cons, hnone, nil_append, ih]
  rw [← map_flatMap, hvisible _ fun _ hitem => hitem] at hshown
  intro item hitem url hurl
  have hself := map_inj_left.1 ((map_id _).trans hshown) url (mem_flatMap.2 ⟨item, hitem, hurl⟩)
  exact (imageUrl_anthropicImageSource_iff url).1 hself.symm

/-- **When both adapters present the same conversation.**  A chat request says what the instructions
and the items of the input say, in order.  For tool arguments that are JSON objects, both requests
say the same, texts of one speaker joined, exactly if only the user and the assistant speak in the
messages of the input and `data:` URLs of images have base64 data; and they say it in the same
entries exactly if in addition no two neighbours in the input end and begin with a text of one
speaker. -/
theorem entries_eq_iff_twoSpeakers (parse : Text → Option JsonTree) (req : UnifiedRequest)
    (h : ObjectArguments parse req.input) : (chatApiRequest req).entries parse =
      instructionEntries req.instructions ++ req.input.flatMap (ResponseItem.entries parse) ∧
    (join Entry.merge ((chatApiRequest req).entries parse) =
      join Entry.merge (anthropicApiRequest parse req).entries ↔
        TwoSpeakers req.input ∧ PlainImages req.input) ∧
    ((chatApiRequest req).entries parse = (anthropicApiRequest parse req).entries ↔
      TwoSpeakers req.input ∧ PlainImages req.input ∧ ApartTexts parse req.input) := by
  have hboth : join merge ((chatApiRequest req).entries parse) =
      join merge (anthropicApiRequest parse req).entries →
        TwoSpeakers req.input ∧ PlainImages req.input := fun heq =>
    have htwo := twoSpeakers_of_join_eq req heq
    ⟨htwo, plainImages_of_join_eq req htwo heq⟩
  refine ⟨entries_chatApiRequest req, ⟨hboth, fun ⟨htwo, himages⟩ => ?_⟩, ?_⟩
  · rw [entries_chatApiRequest, entries_anthropicApiRequest,
      flatMap_entries_of_twoSpeakers htwo h himages,
      join_append_join entry_merging, join_append, join_flatMap_join entry_merging, ← join_append]
  · have hiff : TwoSpeakers req.input → PlainImages req.input →
        ((chatApiRequest req).entries parse = (anthropicApiRequest parse req).entries ↔
          ApartTexts parse req.input) := by
      intro htwo himages
      rw [entries_chatApiRequest, entries_anthropicApiRequest,
        flatMap_entries_of_twoSpeakers htwo h himages, append_cancel_left_eq,
        flatMap_join_eq_iff entry_merging fun item hitem =>
          blockEntries_ne_nil (mem_filter.1 hitem).2, ApartTexts,
        filter_entries_of_twoSpeakers htwo h himages]
      refine List.IsChain.iff_of_mem_imp fun x y hx hy => ?_
      obtain ⟨hx, hvisible⟩ := mem_filter.1 hx
      obtain ⟨hy, hvisible'⟩ := mem_filter.1 hy
      rw [join_blockEntries hvisible (h x hx) (himages x hx),
        join_blockEntries hvisible' (h y hy) (himages y hy)]
    constructor
    · intro heq
      obtain ⟨htwo, himages⟩ := hboth (congrArg (join merge) heq)
      exact ⟨htwo, himages, (hiff htwo himages).1 heq⟩
    · rintro ⟨htwo, himages, hapart⟩
      exact (hiff htwo himages).2 hapart

end

theorem entries_eq_iff_twoSpeakers_one_call :
    ObjectArguments parseEmptyObject answeredAtOnce ∧ TwoSpeakers answeredAtOnce ∧
      PlainImages answeredAtOnce ∧ ApartTexts parseEmptyObject answeredAtOnce := by
  have harguments : ObjectArguments parseEmptyObject answeredAtOnce := by
    intro item hitem arguments harguments
    rcases mem_pair.1 hitem with rfl | rfl
    · cases harguments
      exact ⟨[], rfl⟩
    · cases harguments
  exact ⟨harguments, (entries_eq_iff_twoSpeakers parseEmptyObject (inputRequest answeredAtOnce)
    harguments).2.2.1 (by decide)⟩

/-- A developer message is said under the chat adapter only. -/
theorem developer_message_left_out : ObjectArguments (fun _ => none)
      [.message "developer".toList [.inputText "ask first".toList]] ∧
    join Entry.merge ((chatApiRequest (inputRequest
      [.message "developer".toList [.inputText "ask first".toList]])).entries fun _ => none) =
        [.text "system".toList "ask first".toList] ∧
    (anthropicApiRequest (fun _ => none) (inputRequest
      [.message "developer".toList [.inputText "ask first".toList]])).entries = [] := by
  refine ⟨?_, by decide, by decide⟩
  intro item hitem arguments harguments
  rw [mem_singleton.1 hitem] at harguments
  cases harguments

end TokenCode.ModelApi
