/-
The history of a session (`core/src/context_manager/history.rs`): recording items, replacing them,
and dropping the last user turns.

A user turn begins at a boundary, and `drop_last_n_user_turns` cuts at the `n`-th boundary from the
end, or at the first one, and then trims contextual messages in front of the cut. In a history
without contextual messages it is the cut alone (`items_dropLastNUserTurns`).
-/
import TokenCode.Rollout.Items
import TokenCode.Lib.Undo

namespace TokenCode.Rollout

open List Text Context

structure ContextManager where
  items : List ResponseItem
  historyVersion : ℕ
  referenceContextItem : Option TurnContextItem
  worldStateBaseline : Option WorldStateSnapshot
deriving DecidableEq, Repr

/-- `is_api_message`. -/
def isApiMessage : ResponseItem → Bool
  | .message _ role _ _ _ => role != "system".toList
  | .compactionTrigger => false
  | .other => false
  | _ => true

/-- `truncate_function_output_payload`. -/
def truncateFunctionOutputPayload (reading : Reading) (output : FunctionCallOutputPayload) :
    FunctionCallOutputPayload where
  body := match output.body with
    | .text content => .text (reading.truncateText content)
    | .contentItems items => .contentItems (reading.truncateItems items)
  success := output.success

/-- `process_item`. -/
def processItem (reading : Reading) : ResponseItem → ResponseItem
  | .functionCallOutput id callId output metadata =>
    .functionCallOutput id callId (truncateFunctionOutputPayload reading output) metadata
  | .customToolCallOutput id callId name output metadata =>
    .customToolCallOutput id callId name (truncateFunctionOutputPayload reading output) metadata
  | item => item

/-- `is_user_turn_boundary`. -/
def isUserTurnBoundary (reading : Reading) : ResponseItem → Bool
  | .agentMessage .. => true
  | .message _ role content _ _ =>
    (role == "user".toList && !isContextualUserMessageContent reading content) ||
      (role == "assistant".toList && isInterAgentInstructionContent reading content)
  | _ => false

/-- `user_message_positions`. -/
def userMessagePositions (reading : Reading) (items : List ResponseItem) : List ℕ :=
  (List.range items.length).filter fun i => (items[i]?).any (isUserTurnBoundary reading)

/-- `trim_pre_turn_context_updates`. -/
def trimPreTurnContextUpdates (reading : Reading) (snapshot : List ResponseItem) (first : ℕ) :
    ContextManager → ℕ → ContextManager × ℕ
  | h, 0 => (h, 0)
  | h, cut + 1 =>
    if first < cut + 1 then
      match snapshot[cut]? with
      | some (.message _ role content _ _) =>
        if role == "developer".toList && isContextualDevMessageContent content then
          let h := if hasNonContextualDevMessageContent content then
            { h with referenceContextItem := none } else h
          trimPreTurnContextUpdates reading snapshot first h cut
        else if role == "user".toList && isContextualUserMessageContent reading content then
          trimPreTurnContextUpdates reading snapshot first h cut
        else (h, cut + 1)
      | _ => (h, cut + 1)
    else (h, cut + 1)

namespace ContextManager

/-- `new`. -/
def new : ContextManager := ⟨[], 0, none, none⟩

/-- `record_items`. -/
def recordItems (reading : Reading) (h : ContextManager) (items : List ResponseItem) :
    ContextManager :=
  { h with items := h.items ++ (items.filter isApiMessage).map (processItem reading) }

/-- `replace`. The version is a `u64` that saturates. -/
def replace (h : ContextManager) (items : List ResponseItem) : ContextManager where
  items := items
  historyVersion := min (h.historyVersion + 1) (2 ^ 64 - 1)
  referenceContextItem := h.referenceContextItem
  worldStateBaseline := none

/-- `drop_last_n_user_turns`. -/
def dropLastNUserTurns (reading : Reading) (h : ContextManager) (numTurns : ℕ) :
    ContextManager :=
  if numTurns = 0 then h
  else
    let userPositions := userMessagePositions reading h.items
    match userPositions with
    | [] => h.replace h.items
    | first :: _ =>
      let cut := if userPositions.length ≤ numTurns then first
        else userPositions.getD (userPositions.length - numTurns) 0
      let (h', cut) := trimPreTurnContextUpdates reading h.items first h cut
      h'.replace (h.items.take cut)

end ContextManager

/-! ### Messages of the conversation -/

/-- A developer or user message that only carries context. -/
def isContextual (reading : Reading) : ResponseItem → Bool
  | .message _ role content _ _ =>
    (role == "developer".toList && isContextualDevMessageContent content) ||
      (role == "user".toList && isContextualUserMessageContent reading content)
  | _ => false

section

variable {reading : Reading} {items more : List ResponseItem} {item : ResponseItem}

/-- No item is contextual. -/
def Plain (reading : Reading) (items : List ResponseItem) : Prop :=
  ∀ item ∈ items, isContextual reading item = false

@[simp] lemma isUserTurnBoundary_processItem :
    isUserTurnBoundary reading (processItem reading item) = isUserTurnBoundary reading item := by
  cases item <;> rfl

@[simp] lemma isContextual_processItem :
    isContextual reading (processItem reading item) = isContextual reading item := by
  cases item <;> rfl

/-- What is recorded of items. -/
def recorded (reading : Reading) (items : List ResponseItem) : List ResponseItem :=
  (items.filter isApiMessage).map (processItem reading)

lemma recorded_append (items more : List ResponseItem) :
    recorded reading (items ++ more) = recorded reading items ++ recorded reading more := by
  simp [recorded]

variable (h : Plain reading items)
include h

lemma Plain.recorded : Plain reading (recorded reading items) := by
  intro item hitem
  simp only [Rollout.recorded, mem_map, mem_filter] at hitem
  obtain ⟨source, ⟨hsource, _⟩, rfl⟩ := hitem
  rw [isContextual_processItem, h source hsource]

lemma Plain.append (h' : Plain reading more) : Plain reading (items ++ more) := by
  intro item hitem
  rcases mem_append.1 hitem with hitem | hitem
  · exact h item hitem
  · exact h' item hitem

lemma Plain.subset (hsub : more ⊆ items) : Plain reading more :=
  fun item hitem => h item (hsub hitem)

/-- Without contextual messages there is nothing to trim. -/
lemma trimPreTurnContextUpdates_of_plain (first : ℕ) (manager : ContextManager) (cut : ℕ) :
    trimPreTurnContextUpdates reading items first manager cut = (manager, cut) := by
  cases cut with
  | zero => rfl
  | succ cut =>
    unfold trimPreTurnContextUpdates
    split
    · split
      next id role content phase metadata hat =>
        have hplain := h _ (mem_of_getElem? hat)
        simp only [isContextual, Bool.or_eq_false_iff] at hplain
        rw [hplain.1, hplain.2]
        rfl
      · rfl
    · rfl

omit h

/-- Dropping turns cuts the items at their boundaries. -/
lemma ContextManager.items_dropLastNUserTurns {h : ContextManager} (hplain : Plain reading h.items)
    (n : ℕ) : (h.dropLastNUserTurns reading n).items =
      Undo.dropSegments (isUserTurnBoundary reading) n h.items := by
  unfold dropLastNUserTurns Undo.dropSegments
  simp only [trimPreTurnContextUpdates_of_plain hplain,
    show userMessagePositions reading h.items =
      Undo.positions (isUserTurnBoundary reading) h.items from rfl]
  split
  · rfl
  · rcases Undo.positions (isUserTurnBoundary reading) h.items with _ | ⟨first, rest⟩ <;> rfl

/-! ### Contextual messages are trimmed -/

lemma isUserTurnBoundary_of_isContextual (h : isContextual reading item = true) :
    isUserTurnBoundary reading item = false := by
  cases item with
  | message id role content phase metadata =>
    simp only [isContextual, Bool.or_eq_true, Bool.and_eq_true, beq_iff_eq] at h
    rcases h with ⟨rfl, -⟩ | ⟨rfl, hcontent⟩
    · rfl
    · simp [isUserTurnBoundary, hcontent]
  | _ => cases h

/-- What is trimmed depends on the items alone. -/
lemma snd_trimPreTurnContextUpdates (first : ℕ) (manager other : ContextManager) (cut : ℕ) :
    (trimPreTurnContextUpdates reading items first manager cut).2 =
      (trimPreTurnContextUpdates reading items first other cut).2 := by
  induction cut generalizing manager other with
  | zero => rfl
  | succ cut ih =>
    unfold trimPreTurnContextUpdates
    split
    · split
      · split
        · exact ih _ _
        · split
          · exact ih _ _
          · rfl
      · rfl
    · rfl

/-- No boundary is trimmed. -/
lemma filter_take_trimPreTurnContextUpdates (first : ℕ) (manager : ContextManager) (cut : ℕ) :
    (items.take (trimPreTurnContextUpdates reading items first manager cut).2).filter
        (isUserTurnBoundary reading) = (items.take cut).filter (isUserTurnBoundary reading) := by
  induction cut generalizing manager with
  | zero => rfl
  | succ cut ih =>
    -- an item that is passed over is contextual
    have hpass : ∀ item, items[cut]? = some item → isContextual reading item = true →
        (items.take (cut + 1)).filter (isUserTurnBoundary reading) =
          (items.take cut).filter (isUserTurnBoundary reading) := by
      intro item hat hcontextual
      rw [take_add_one, hat]
      simp [isUserTurnBoundary_of_isContextual hcontextual]
    unfold trimPreTurnContextUpdates
    split
    · split
      next id role content phase metadata hat =>
        split
        next hrole =>
          rw [ih, hpass _ hat (by rw [isContextual, hrole, Bool.true_or])]
        next =>
          split
          next hrole => rw [ih, hpass _ hat (by rw [isContextual, hrole, Bool.or_true])]
          next => rfl
      · rfl
    · rfl

/-- How many items are left when user turns are dropped. -/
def keptLength (reading : Reading) (items : List ResponseItem) (n : ℕ) : ℕ :=
  (({ ContextManager.new with items := items } : ContextManager).dropLastNUserTurns reading
    n).items.length

/-- Dropping turns leaves the first items. -/
lemma ContextManager.exists_take_dropLastNUserTurns (reading : Reading) (h : ContextManager)
    (n : ℕ) : (h.dropLastNUserTurns reading n).items = h.items.take (keptLength reading h.items n) ∧
      (h.items.take (keptLength reading h.items n)).filter (isUserTurnBoundary reading) =
        (h.items.filter (isUserTurnBoundary reading)).rdrop n := by
  rw [← Undo.filter_dropSegments]
  unfold keptLength dropLastNUserTurns Undo.dropSegments
  simp only [show userMessagePositions reading h.items =
    Undo.positions (isUserTurnBoundary reading) h.items from rfl]
  split
  · simp
  · rcases Undo.positions (isUserTurnBoundary reading) h.items with _ | ⟨first, rest⟩
    · simp [replace]
    · simp only [replace]
      rw [snd_trimPreTurnContextUpdates first { new with items := h.items } h,
        length_take, ← take_eq_take_min]
      exact ⟨rfl, filter_take_trimPreTurnContextUpdates first h _⟩

end

end TokenCode.Rollout
