/-
The history as it is sent to the model (`core/src/context_manager/normalize.rs`).

A call that needs an output gets one, an output without a call is left out, and images are replaced
if the model takes none. A violated expectation is logged (`error_or_panic` in a release build).
-/
import TokenCode.Rollout.ContextManager
import TokenCode.Lib.Pairing

namespace TokenCode.Rollout

open List Text ContextManager

inductive InputModality where
  | text
  | image
deriving DecidableEq, Repr

/-- `IMAGE_CONTENT_OMITTED_PLACEHOLDER`. -/
def imageContentOmittedPlaceholder : Text :=
  "image content omitted because you do not support image input".toList

/-- `synthetic_output_id`; `newV5` is `Uuid::new_v5` in the namespace of synthetic outputs. -/
def syntheticOutputId (newV5 : Text → Text) (kind : Text) (itemId : Option Text) : Option Text :=
  (itemId.filter fun id => !id.isEmpty).map fun sourceId =>
    kind ++ ['_'] ++ newV5 (kind ++ [':'] ++ sourceId)

/-- The output of a call that was aborted. -/
def abortedOutput : FunctionCallOutputPayload := ⟨.text "aborted".toList, none⟩

/-! ### Missing outputs -/

/-- `function_output_ids`. -/
def functionOutputIds (items : List ResponseItem) : List Text :=
  items.filterMap fun
    | .functionCallOutput _ callId _ _ => some callId
    | _ => none

/-- `tool_search_output_ids`. -/
def toolSearchOutputIds (items : List ResponseItem) : List Text :=
  items.filterMap fun
    | .toolSearchOutput _ (some callId) _ _ _ _ => some callId
    | _ => none

/-- `custom_tool_output_ids`. -/
def customToolOutputIds (items : List ResponseItem) : List Text :=
  items.filterMap fun
    | .customToolCallOutput _ callId _ _ _ => some callId
    | _ => none

/-- The output that is missing for a call. -/
def missingOutput (newV5 : Text → Text) (items : List ResponseItem) :
    ResponseItem → Option ResponseItem
  | .functionCall id callId _ =>
    if (functionOutputIds items).contains callId then none
    else some (.functionCallOutput (syntheticOutputId newV5 "fco".toList id) callId abortedOutput
      none)
  | .toolSearchCall id (some callId) _ =>
    if (toolSearchOutputIds items).contains callId then none
    else some (.toolSearchOutput (syntheticOutputId newV5 "tso".toList id) (some callId)
      "completed".toList "client".toList [] none)
  | .customToolCall id callId _ =>
    if (customToolOutputIds items).contains callId then none
    else some (.customToolCallOutput (syntheticOutputId newV5 "ctco".toList id) callId none
      abortedOutput none)
  | .localShellCall id (some callId) _ =>
    if (functionOutputIds items).contains callId then none
    else some (.functionCallOutput (syntheticOutputId newV5 "fco".toList id) callId abortedOutput
      none)
  | _ => none

/-- `ensure_call_outputs_present`. -/
def ensureCallOutputsPresent (newV5 : Text → Text) (items : List ResponseItem) :
    List ResponseItem :=
  let missingOutputsToInsert := items.zipIdx.filterMap fun indexed =>
    (missingOutput newV5 items indexed.1).map fun output => (indexed.2, output)
  missingOutputsToInsert.reverse.foldl
    (fun items entry => items.insertIdx (entry.1 + 1) entry.2) items

/-! ### Orphan outputs -/

/-- `function_call_ids`. -/
def functionCallIds (items : List ResponseItem) : List Text :=
  items.filterMap fun
    | .functionCall _ callId _ => some callId
    | _ => none

/-- `tool_search_call_ids`. -/
def toolSearchCallIds (items : List ResponseItem) : List Text :=
  items.filterMap fun
    | .toolSearchCall _ (some callId) _ => some callId
    | _ => none

/-- `local_shell_call_ids`. -/
def localShellCallIds (items : List ResponseItem) : List Text :=
  items.filterMap fun
    | .localShellCall _ (some callId) _ => some callId
    | _ => none

/-- `custom_tool_call_ids`. -/
def customToolCallIds (items : List ResponseItem) : List Text :=
  items.filterMap fun
    | .customToolCall _ callId _ => some callId
    | _ => none

/-- What `remove_orphan_outputs` retains. -/
def retained (items : List ResponseItem) : ResponseItem → Bool
  | .functionCallOutput _ callId _ _ =>
    (functionCallIds items).contains callId || (localShellCallIds items).contains callId
  | .customToolCallOutput _ callId _ _ _ => (customToolCallIds items).contains callId
  | .toolSearchOutput _ callId _ execution _ _ =>
    if execution == "server".toList then true
    else match callId with
      | some callId => (toolSearchCallIds items).contains callId
      | none => true
  | _ => true

/-- `remove_orphan_outputs`. -/
def removeOrphanOutputs (items : List ResponseItem) : List ResponseItem :=
  items.filter (retained items)

/-! ### Images -/

/-- What is left of an item without images. -/
def stripImages : ResponseItem → ResponseItem
  | .message id role content phase metadata =>
    .message id role (content.map fun
      | .inputImage _ => .inputText imageContentOmittedPlaceholder
      | item => item) phase metadata
  | .functionCallOutput id callId output metadata =>
    .functionCallOutput id callId (stripOutput output) metadata
  | .customToolCallOutput id callId name output metadata =>
    .customToolCallOutput id callId name (stripOutput output) metadata
  | .imageGenerationCall fields _ => .imageGenerationCall fields []
  | item => item
where
  stripOutput (output : FunctionCallOutputPayload) : FunctionCallOutputPayload :=
    match output.body with
    | .text _ => output
    | .contentItems items =>
      { output with body := .contentItems (items.map fun
        | .inputImage _ => .inputText imageContentOmittedPlaceholder
        | item => item) }

/-- `strip_images_when_unsupported`. -/
def stripImagesWhenUnsupported (inputModalities : List InputModality)
    (items : List ResponseItem) : List ResponseItem :=
  if inputModalities.contains .image then items else items.map stripImages

/-- `normalize_history`. -/
def normalizeHistory (newV5 : Text → Text) (inputModalities : List InputModality)
    (items : List ResponseItem) : List ResponseItem :=
  stripImagesWhenUnsupported inputModalities
    (removeOrphanOutputs (ensureCallOutputsPresent newV5 items))

/-- `for_prompt`. -/
def ContextManager.forPrompt (newV5 : Text → Text) (h : ContextManager)
    (inputModalities : List InputModality) : List ResponseItem :=
  normalizeHistory newV5 inputModalities h.items

/-! ### Calls and outputs -/

/-- The kinds of outputs; a local shell call has the output of a function call. -/
inductive OutputKind where
  | function
  | toolSearch
  | customTool
deriving DecidableEq, Repr

/-- The kind and the id of the output that a call needs. -/
def callKey : ResponseItem → Option (OutputKind × Text)
  | .functionCall _ callId _ => some (.function, callId)
  | .localShellCall _ (some callId) _ => some (.function, callId)
  | .toolSearchCall _ (some callId) _ => some (.toolSearch, callId)
  | .customToolCall _ callId _ => some (.customTool, callId)
  | _ => none

/-- The kind of an output and the id of its call. -/
def outputKey : ResponseItem → Option (OutputKind × Text)
  | .functionCallOutput _ callId _ _ => some (.function, callId)
  | .toolSearchOutput _ (some callId) _ _ _ _ => some (.toolSearch, callId)
  | .customToolCallOutput _ callId _ _ _ => some (.customTool, callId)
  | _ => none

/-- The output of a tool search that the server has made. -/
def isServerOutput : ResponseItem → Bool
  | .toolSearchOutput _ _ _ execution _ _ => execution == "server".toList
  | _ => false

/-- The output that is made up for a call. -/
def syntheticOutput (newV5 : Text → Text) : ResponseItem → ResponseItem
  | .functionCall id callId _ =>
    .functionCallOutput (syntheticOutputId newV5 "fco".toList id) callId abortedOutput none
  | .toolSearchCall id callId _ =>
    .toolSearchOutput (syntheticOutputId newV5 "tso".toList id) callId "completed".toList
      "client".toList [] none
  | .customToolCall id callId _ =>
    .customToolCallOutput (syntheticOutputId newV5 "ctco".toList id) callId none abortedOutput none
  | .localShellCall id (some callId) _ =>
    .functionCallOutput (syntheticOutputId newV5 "fco".toList id) callId abortedOutput none
  | item => item

variable {item : ResponseItem}

/-- The calls that need an output. -/
lemma callKey_cases (h : callKey item ≠ none) :
    (∃ id callId fields, item = .functionCall id callId fields) ∨
      (∃ id callId fields, item = .localShellCall id (some callId) fields) ∨
      (∃ id callId fields, item = .toolSearchCall id (some callId) fields) ∨
      ∃ id callId fields, item = .customToolCall id callId fields := by
  cases item with
  | functionCall id callId fields => exact .inl ⟨id, callId, fields, rfl⟩
  | localShellCall id callId fields =>
    cases callId with
    | none => exact absurd rfl h
    | some callId => exact .inr (.inl ⟨id, callId, fields, rfl⟩)
  | toolSearchCall id callId fields =>
    cases callId with
    | none => exact absurd rfl h
    | some callId => exact .inr (.inr (.inl ⟨id, callId, fields, rfl⟩))
  | customToolCall id callId fields => exact .inr (.inr (.inr ⟨id, callId, fields, rfl⟩))
  | _ => exact absurd rfl h

lemma keys_of_call (newV5 : Text → Text) (h : callKey item ≠ none) : outputKey item = none ∧
    callKey (syntheticOutput newV5 item) = none ∧
      outputKey (syntheticOutput newV5 item) = callKey item := by
  obtain ⟨id, callId, fields, rfl⟩ | ⟨id, callId, fields, rfl⟩ | ⟨id, callId, fields, rfl⟩ |
    ⟨id, callId, fields, rfl⟩ := callKey_cases h <;> exact ⟨rfl, rfl, rfl⟩

/-- Calls are requests and outputs are replies. -/
def callProtocol (newV5 : Text → Text) : Pairing.Protocol ResponseItem (OutputKind × Text) where
  request := callKey
  reply := outputKey
  alone := isServerOutput
  make := syntheticOutput newV5
  reply_of_request _ h := (keys_of_call newV5 h).1
  request_make _ h := (keys_of_call newV5 h).2.1
  reply_make _ h := (keys_of_call newV5 h).2.2

variable (callId : Text) {key : OutputKind × Text} {inputModalities : List InputModality}

section

open Pairing

variable {newV5 : Text → Text} {items : List ResponseItem}

/-- Ids are collected by key. -/
lemma mem_filterMap_iff {f : ResponseItem → Option Text}
    {key : ResponseItem → Option (OutputKind × Text)} {kind : OutputKind} {callId : Text}
    (h : ∀ item, f item = some callId ↔ key item = some (kind, callId)) :
    callId ∈ items.filterMap f ↔ (kind, callId) ∈ items.filterMap key := by
  simp [h]

lemma mem_outputIds :
    (callId ∈ functionOutputIds items ↔ (.function, callId) ∈ items.filterMap outputKey) ∧
    (callId ∈ toolSearchOutputIds items ↔ (.toolSearch, callId) ∈ items.filterMap outputKey) ∧
    (callId ∈ customToolOutputIds items ↔ (.customTool, callId) ∈ items.filterMap outputKey) := by
  refine ⟨mem_filterMap_iff fun item => ?_, mem_filterMap_iff fun item => ?_,
    mem_filterMap_iff fun item => ?_⟩ <;>
  rcases item with _ | _ | _ | _ | _ | _ | _ | _ | _ | _ | ⟨_, _ | _⟩ | _ | _ | _ | _ | _ | _ <;>
    simp [outputKey]

lemma missing_of_callKey (h : callKey item = some key) : missing (callProtocol newV5) items item =
      !decide (key ∈ items.filterMap outputKey) := by
  have hzero : replies (callProtocol newV5) key items = 0 ↔ key ∉ items.filterMap outputKey :=
    replies_eq_zero_iff
  have hrequest : (callProtocol newV5).request item = some key := h
  by_cases hkey : key ∈ items.filterMap outputKey
  · have hne : replies (callProtocol newV5) key items ≠ 0 := fun hz => hzero.1 hz hkey
    simp only [missing, hrequest, Option.any_some, hkey]
    simpa using hne
  · simp only [missing, hrequest, Option.any_some, hzero.2 hkey, hkey]
    rfl

/-- What is missing is made up. -/
lemma missingOutput_eq (item : ResponseItem) : missingOutput newV5 items item =
    if missing (callProtocol newV5) items item then some (syntheticOutput newV5 item) else none := by
  by_cases h : callKey item = none
  · have hmissing : missing (callProtocol newV5) items item = false := by
      simp [missing, callProtocol, h]
    cases item with
    | functionCall id callId fields | customToolCall id callId fields => cases h
    | localShellCall id callId fields | toolSearchCall id callId fields =>
      cases callId with
      | none => rfl
      | some callId => cases h
    | _ => rfl
  · obtain ⟨key, hkey⟩ := Option.ne_none_iff_exists'.1 h
    rw [missing_of_callKey hkey]
    obtain ⟨id, callId, fields, rfl⟩ | ⟨id, callId, fields, rfl⟩ | ⟨id, callId, fields, rfl⟩ |
      ⟨id, callId, fields, rfl⟩ := callKey_cases h <;>
    · obtain rfl := Option.some.inj hkey
      simp only [missingOutput, contains_eq_mem, mem_outputIds, syntheticOutput]
      split <;> simp_all

lemma mem_functionCallIds : (callId ∈ functionCallIds items ∨ callId ∈ localShellCallIds items) ↔
      (OutputKind.function, callId) ∈ items.filterMap callKey := by
  simp only [functionCallIds, localShellCallIds, mem_filterMap, ← exists_or, ← and_or_left]
  refine exists_congr fun item => and_congr_right fun _ => ?_
  rcases item with _ | _ | _ | _ | ⟨_, _ | _⟩ | _ | ⟨_, _ | _⟩ | _ | _ | _ | _ | _ | _ | _ | _ | _ |
    _ <;> simp [callKey]

lemma mem_toolCallIds :
    (callId ∈ toolSearchCallIds items ↔ (.toolSearch, callId) ∈ items.filterMap callKey) ∧
    (callId ∈ customToolCallIds items ↔ (.customTool, callId) ∈ items.filterMap callKey) := by
  refine ⟨mem_filterMap_iff fun item => ?_, mem_filterMap_iff fun item => ?_⟩ <;>
  rcases item with _ | _ | _ | _ | ⟨_, _ | _⟩ | _ | ⟨_, _ | _⟩ | _ | _ | _ | _ | _ | _ | _ | _ | _ |
    _ <;> simp [callKey]

lemma orphan_of_outputKey (h : outputKey item = some key) : orphan (callProtocol newV5) items item =
      (!isServerOutput item && !decide (key ∈ items.filterMap callKey)) := by
  have hreply : (callProtocol newV5).reply item = some key := h
  rw [orphan, hreply]
  exact congrArg (fun found => !isServerOutput item && !found) (decide_eq_decide.2 Iff.rfl)

variable (newV5)

/-- What is not retained is an orphan. -/
lemma retained_eq (item : ResponseItem) :
    retained items item = !orphan (callProtocol newV5) items item := by
  cases item with
  | functionCallOutput id callId output metadata =>
    rw [orphan_of_outputKey rfl]
    simp only [← mem_functionCallIds]
    simp [retained, isServerOutput]
  | customToolCallOutput id callId name output metadata =>
    rw [orphan_of_outputKey rfl]
    simp only [← (mem_toolCallIds callId).2]
    simp [retained, isServerOutput]
  | toolSearchOutput id callId status execution tools metadata =>
    cases hserver : execution == "server".toList with
    | true => simp only [retained, orphan, callProtocol, isServerOutput, hserver]; simp
    | false =>
      cases callId with
      | none =>
        simp only [retained, orphan, callProtocol, outputKey, hserver]
        simp
      | some callId =>
        rw [orphan_of_outputKey rfl]
        simp only [← (mem_toolCallIds callId).1]
        simp only [retained, isServerOutput, hserver]
        simp
  | _ => rfl

variable (items)

lemma ensureCallOutputsPresent_eq :
    ensureCallOutputsPresent newV5 items = complete (callProtocol newV5) items := by
  rw [ensureCallOutputsPresent, insertIdx_reverse, complete]
  refine flatMap_congr fun item _ => ?_
  rw [missingOutput_eq, withReply]
  split <;> rfl

lemma removeOrphanOutputs_eq : removeOrphanOutputs items = prune (callProtocol newV5) items :=
  filter_congr fun item _ => retained_eq newV5 item

variable {items}

variable {newV5}

lemma count_outputKey (key : OutputKind × Text) (items : List ResponseItem) :
    (items.filterMap outputKey).count key = replies (callProtocol newV5) key items :=
  (replies_eq_count (P := callProtocol newV5) key items).symm

/-! ### Images do not matter to the pairing -/

variable (item)

@[simp] lemma callKey_stripImages : callKey (stripImages item) = callKey item := by
  cases item <;> rfl

@[simp] lemma outputKey_stripImages : outputKey (stripImages item) = outputKey item := by
  cases item <;> rfl

@[simp] lemma isServerOutput_stripImages :
    isServerOutput (stripImages item) = isServerOutput item := by
  cases item <;> rfl

variable {item}

lemma stripOutput_stripOutput (output : FunctionCallOutputPayload) :
    stripImages.stripOutput (stripImages.stripOutput output) = stripImages.stripOutput output := by
  obtain ⟨body, success⟩ := output
  cases body with
  | text text => rfl
  | contentItems items =>
    simp only [stripImages.stripOutput, map_map]
    congr 2
    refine map_congr_left fun item _ => ?_
    cases item <;> rfl

/-- Nothing is left to strip. -/
lemma stripImages_stripImages (item : ResponseItem) :
    stripImages (stripImages item) = stripImages item := by
  cases item with
  | message id role content phase metadata =>
    simp only [stripImages, map_map]
    congr 1
    refine map_congr_left fun item _ => ?_
    cases item <;> rfl
  | functionCallOutput id callId output metadata => simp [stripImages, stripOutput_stripOutput]
  | customToolCallOutput id callId name output metadata =>
    simp [stripImages, stripOutput_stripOutput]
  | _ => rfl

lemma stripImagesWhenUnsupported_idem (inputModalities : List InputModality)
    (items : List ResponseItem) : stripImagesWhenUnsupported inputModalities
      (stripImagesWhenUnsupported inputModalities items) =
        stripImagesWhenUnsupported inputModalities items := by
  simp only [stripImagesWhenUnsupported]
  split
  · rfl
  · rw [map_map]
    exact map_congr_left fun item _ => stripImages_stripImages item

/-- What is read of the items without their images is what is read of the items. -/
lemma filterMap_stripImagesWhenUnsupported {β : Type} {f : ResponseItem → Option β}
    (hf : ∀ item, f (stripImages item) = f item) (inputModalities : List InputModality)
    (items : List ResponseItem) :
    (stripImagesWhenUnsupported inputModalities items).filterMap f = items.filterMap f := by
  rw [stripImagesWhenUnsupported]
  split
  · rfl
  · rw [filterMap_map]
    exact filterMap_congr fun item _ => hf item

lemma mem_stripImagesWhenUnsupported
    (h : item ∈ stripImagesWhenUnsupported inputModalities items) : ∃ source ∈ items,
      outputKey item = outputKey source ∧ isServerOutput item = isServerOutput source := by
  rw [stripImagesWhenUnsupported] at h
  split at h
  · exact ⟨item, h, rfl, rfl⟩
  · obtain ⟨source, hsource, rfl⟩ := mem_map.1 h
    exact ⟨source, hsource, by simp, by simp⟩

/-! ### The prompt is well paired -/

lemma normalizeHistory_eq (newV5 : Text → Text) (inputModalities : List InputModality)
    (items : List ResponseItem) : normalizeHistory newV5 inputModalities items =
      stripImagesWhenUnsupported inputModalities
        (prune (callProtocol newV5) (complete (callProtocol newV5) items)) := by
  rw [normalizeHistory, ensureCallOutputsPresent_eq, ← removeOrphanOutputs_eq]

lemma prune_complete_eq (newV5 : Text → Text) (items : List ResponseItem) :
    prune (callProtocol newV5) (complete (callProtocol newV5) items) =
      (items.filter (retained items)).flatMap fun item =>
        item :: (missingOutput newV5 items item).toList := by
  rw [prune_complete, ← removeOrphanOutputs_eq, removeOrphanOutputs]
  refine flatMap_congr fun item _ => ?_
  rw [missingOutput_eq, withReply]
  split <;> rfl

/-- A history in which every call has an output and every output has its call stays as it is. -/
lemma normalizeHistory_of_paired
    (hcalls : ∀ key ∈ items.filterMap callKey, key ∈ items.filterMap outputKey)
    (houtputs : ∀ item ∈ items, isServerOutput item = false → ∀ key, outputKey item = some key →
      key ∈ items.filterMap callKey)
    (himages : stripImagesWhenUnsupported inputModalities items = items) :
    normalizeHistory newV5 inputModalities items = items := by
  have hcomplete : complete (callProtocol newV5) items = items :=
    complete_of_replies fun key hkey hzero => replies_eq_zero_iff.1 hzero (hcalls key hkey)
  have hprune : prune (callProtocol newV5) items = items := by
    refine filter_eq_self.2 fun item hitem => ?_
    cases hkey : outputKey item with
    | none => simp [orphan, callProtocol, hkey]
    | some key =>
      rw [orphan_of_outputKey hkey]
      cases hserver : isServerOutput item with
      | true => rfl
      | false => simpa using houtputs item hitem hserver key hkey
  rw [normalizeHistory_eq, hcomplete, hprune, himages]

lemma mem_outputs_of_mem_calls
    (h : key ∈ (normalizeHistory newV5 inputModalities items).filterMap callKey) :
    key ∈ (normalizeHistory newV5 inputModalities items).filterMap outputKey := by
  rw [normalizeHistory_eq, filterMap_stripImagesWhenUnsupported callKey_stripImages] at h
  rw [normalizeHistory_eq, filterMap_stripImagesWhenUnsupported outputKey_stripImages]
  by_contra hnone
  exact replies_prune_complete_ne_zero h (replies_eq_zero_iff (P := callProtocol newV5).2 hnone)

lemma mem_calls_of_output (hitem : item ∈ normalizeHistory newV5 inputModalities items)
    (hserver : isServerOutput item = false) (hkey : outputKey item = some key) :
    key ∈ (normalizeHistory newV5 inputModalities items).filterMap callKey := by
  rw [normalizeHistory_eq] at hitem ⊢
  rw [filterMap_stripImagesWhenUnsupported callKey_stripImages]
  obtain ⟨source, hsource, houtput, hserverOutput⟩ := mem_stripImagesWhenUnsupported hitem
  rw [houtput] at hkey
  rw [hserverOutput] at hserver
  exact mem_requests_of_reply hsource hkey hserver

/-- Only outputs without a call are left out. -/
lemma outputKey_of_not_retained (h : retained items item = false) :
    ∃ key, outputKey item = some key ∧ key ∉ items.filterMap callKey := by
  rw [retained_eq id, Bool.not_eq_false'] at h
  simp only [orphan, Bool.and_eq_true, Option.any_eq_true, Bool.not_eq_true', decide_eq_false_iff_not]
    at h
  exact h.2

/-- An output that is made up is the output of its call. -/
lemma missingOutput_eq_some {output : ResponseItem}
    (h : missingOutput newV5 items item = some output) :
    callKey item ≠ none ∧ outputKey output = callKey item ∧ output = syntheticOutput newV5 item := by
  rw [missingOutput_eq] at h
  split at h
  · next hmissing =>
    obtain ⟨key, hkey, -⟩ := missing_iff.1 hmissing
    have hne : callKey item ≠ none := Option.ne_none_iff_exists'.2 ⟨key, hkey⟩
    obtain rfl := Option.some.inj h
    exact ⟨hne, (callProtocol newV5).reply_make item hne, rfl⟩
  · cases h

/-- **The prompt is well paired.**  If no two calls need the same output, then in the prompt every
call that needs an output has those that it had in the history, or one that is made up; every output
has its call, unless the server has made it; the prompt is made of the items of the history in their
order, without the outputs that have no call, and of outputs that are made up, each behind its call;
and it stays as it is when it is normalized again. -/
theorem forPrompt_paired (newV5 : Text → Text) (inputModalities : List InputModality)
    (h : ContextManager) (hcalls : (h.items.filterMap callKey).Nodup) :
    (∀ key ∈ (h.forPrompt newV5 inputModalities).filterMap callKey,
      ((h.forPrompt newV5 inputModalities).filterMap outputKey).count key =
        max 1 ((h.items.filterMap outputKey).count key)) ∧
    (∀ item ∈ h.forPrompt newV5 inputModalities, isServerOutput item = false →
      ∀ key, outputKey item = some key →
        key ∈ (h.forPrompt newV5 inputModalities).filterMap callKey) ∧
    h.forPrompt newV5 inputModalities = stripImagesWhenUnsupported inputModalities
      ((h.items.filter (retained h.items)).flatMap fun item =>
        item :: (missingOutput newV5 h.items item).toList) ∧
    (∀ item ∈ h.items, retained h.items item = false →
      ∃ key, outputKey item = some key ∧ key ∉ h.items.filterMap callKey) ∧
    (∀ item output, missingOutput newV5 h.items item = some output → callKey item ≠ none ∧
      outputKey output = callKey item ∧ output = syntheticOutput newV5 item) ∧
    normalizeHistory newV5 inputModalities (h.forPrompt newV5 inputModalities) =
      h.forPrompt newV5 inputModalities := by
  refine ⟨fun key hkey => ?_, fun item hitem hserver key hkey => ?_, ?_,
    fun item _ hretained => ?_, fun item output hmissing => ?_, ?_⟩
  · rw [forPrompt, normalizeHistory_eq,
      filterMap_stripImagesWhenUnsupported callKey_stripImages] at hkey
    rw [forPrompt, normalizeHistory_eq,
      filterMap_stripImagesWhenUnsupported outputKey_stripImages, count_outputKey, count_outputKey]
    exact replies_prune_complete hcalls hkey
  · exact mem_calls_of_output hitem hserver hkey
  · rw [forPrompt, normalizeHistory_eq, prune_complete_eq]
  · exact outputKey_of_not_retained hretained
  · exact missingOutput_eq_some hmissing
  · exact normalizeHistory_of_paired (fun key => mem_outputs_of_mem_calls)
      (fun item hitem hserver key => mem_calls_of_output hitem hserver)
      (by rw [forPrompt, normalizeHistory, stripImagesWhenUnsupported_idem])

/-- A call that was aborted between two messages, and an output whose call is gone. -/
theorem forPrompt_paired_aborted :
    let items : List ResponseItem :=
      [.functionCallOutput none "gone".toList ⟨.text "ok".toList, none⟩ none,
        .functionCall none "call".toList [], .reasoning "reply".toList]
    (items.filterMap callKey).Nodup ∧
      normalizeHistory id [] (normalizeHistory id [] items) = normalizeHistory id [] items ∧
      normalizeHistory id [] items = [.functionCall none "call".toList [],
        .functionCallOutput none "call".toList abortedOutput none, .reasoning "reply".toList] := by
  intro items
  have hcalls : (items.filterMap callKey).Nodup := by decide
  have hpaired := forPrompt_paired id [] ⟨items, 0, none, none⟩ hcalls
  exact ⟨hcalls, hpaired.2.2.2.2.2, by decide⟩

/-- The output of a tool search that the server has made is kept without its call, and an output
that is recorded twice is kept twice. -/
theorem forPrompt_serverOutput_duplicate :
    let serverOutput : ResponseItem :=
      .toolSearchOutput none (some "search".toList) "completed".toList "server".toList [] none
    let call : ResponseItem := .functionCall none "call".toList []
    let output : ResponseItem :=
      .functionCallOutput none "call".toList ⟨.text "ok".toList, none⟩ none
    (∀ newV5, normalizeHistory newV5 [] [serverOutput] = [serverOutput]) ∧
      outputKey serverOutput = some (.toolSearch, "search".toList) ∧
      [serverOutput].filterMap callKey = [] ∧
      (∀ newV5, normalizeHistory newV5 [] [call, output, output] = [call, output, output]) ∧
      [call, output, output].filterMap callKey = [(.function, "call".toList)] ∧
      ([call, output, output].filterMap outputKey).count (.function, "call".toList) = 2 :=
  ⟨fun _ => rfl, by decide, by decide, fun _ => rfl, by decide, by decide⟩

end

end TokenCode.Rollout
