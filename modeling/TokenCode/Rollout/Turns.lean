/-
Rollouts that are made of complete turns and of rollbacks.

The history of turns is built one turn after the other: a turn adds its messages, and a compaction
inside a turn puts its replacement in the place of everything before it (`historyOf`). For turns
without rollbacks that is what the reconstruction returns (`history_turns`).
-/
import TokenCode.Rollout.Reconstruction

namespace TokenCode.Rollout

open List Text Undo

/-- `is_user_message`. -/
def isUserMessage : ResponseItem → Bool
  | .message _ role _ _ _ => role == "user".toList
  | _ => false

/-- A compaction with a replacement history, and its position among the messages of its turn. -/
structure Compaction (reading : Reading) where
  position : ℕ
  item : CompactedItem
  history : List ResponseItem
  item_history : item.replacementHistory = some history
  plain : Plain reading history

/-- A complete turn, with one user message and without contextual messages. -/
structure Turn (reading : Reading) where
  id : Text
  startedAt : Option ℤ := none
  completedAt : Option ℤ := none
  durationMs : Option ℤ := none
  user : ResponseItem
  event : UserMessageEvent
  model : List ResponseItem
  compaction : Option (Compaction reading)
  user_isUserMessage : isUserMessage user = true
  user_plain : isContextual reading user = false
  model_notUser : ∀ item ∈ model, isUserMessage item = false
  model_plain : Plain reading model

variable {reading : Reading}

/-- The response items among items of a rollout, and what stands for the messages of agents. -/
def responseItems (items : List RolloutItem) : List ResponseItem :=
  items.filterMap fun
    | .responseItem item => some item
    | .interAgentCommunication communication => some communication.toModelInputItem
    | _ => none

namespace Turn

/-- The messages of a turn, as they stand in the rollout. -/
def messages (t : Turn reading) : List RolloutItem :=
  .responseItem t.user :: .eventMsg (.userMessage t.event) :: t.model.map .responseItem

/-- The items of a turn. -/
def items (t : Turn reading) : List RolloutItem :=
  .eventMsg (.turnStarted t.id t.startedAt) :: match t.compaction with
    | none => t.messages ++ [.eventMsg (.turnComplete t.id t.completedAt t.durationMs)]
    | some c => t.messages.take c.position ++ .compacted c.item ::
        (t.messages.drop c.position ++ [.eventMsg (.turnComplete t.id t.completedAt t.durationMs)])

/-- What is recorded of a turn without a compaction. -/
def recorded (t : Turn reading) : List ResponseItem :=
  Rollout.recorded reading (responseItems t.messages)

/-- What is recorded of a turn behind its compaction. -/
def recordedAfter (t : Turn reading) (c : Compaction reading) : List ResponseItem :=
  Rollout.recorded reading (responseItems (t.messages.drop c.position))

/-- What a turn makes of the history. -/
def record (history : List ResponseItem) (t : Turn reading) : List ResponseItem :=
  match t.compaction with
  | none => history ++ t.recorded
  | some c => c.history ++ t.recordedAfter c

end Turn

/-- The history of turns. -/
def historyOf (turns : List (Turn reading)) : List ResponseItem := turns.foldl Turn.record []

/-- The items of a turn or of a rollback. -/
def entryItems : Event (Turn reading) → List RolloutItem
  | .put t => t.items
  | .undo n => [.eventMsg (.threadRolledBack n)]

/-- The rollout of turns and rollbacks. -/
def rolloutOf (entries : List (Event (Turn reading))) : List RolloutItem :=
  entries.flatMap entryItems

/-- The reconstructed history. -/
def history (entries : List (Event (Turn reading))) : List ResponseItem :=
  (reconstructHistoryFromRollout reading (rolloutOf entries)).history

/-- Some turn has a compaction. -/
def hasCompaction (entries : List (Event (Turn reading))) : Bool :=
  entries.any fun
    | .put t => t.compaction.isSome
    | .undo _ => false

/-! ### Messages -/

/-- A response item or the event of the user message. -/
def isMessage : RolloutItem → Bool
  | .responseItem _ => true
  | .eventMsg (.userMessage _) => true
  | _ => false

/-- An item inside of a turn that is neither its context nor a compaction. -/
def isTurnBody : RolloutItem → Bool
  | .responseItem _ => true
  | .interAgentCommunication _ => true
  | .interAgentCommunicationMetadata _ => true
  | .worldState _ => true
  | .eventMsg (.threadRolledBack _) => false
  | .eventMsg (.turnStarted _ _) => false
  | .eventMsg (.turnComplete _ _ _) => false
  | .eventMsg (.turnAborted _ _ _) => false
  | .eventMsg _ => true
  | _ => false

variable {item : RolloutItem}

lemma isTurnBody_of_isMessage (h : isMessage item = true) : isTurnBody item = true := by
  unfold isMessage at h
  split at h <;> trivial

lemma Turn.isMessage_of_mem {t : Turn reading} (h : item ∈ t.messages) : isMessage item = true := by
  simp only [Turn.messages, mem_cons, mem_map] at h
  rcases h with rfl | rfl | ⟨_, _, rfl⟩ <;> rfl

lemma responseItems_append (items more : List RolloutItem) :
    responseItems (items ++ more) = responseItems items ++ responseItems more :=
  filterMap_append

variable (t : Turn reading)

lemma Turn.responseItems_messages : responseItems t.messages = t.user :: t.model := by
  have hmodel : responseItems (t.model.map .responseItem) = t.model := by
    simp [responseItems]
  exact congrArg (t.user :: ·) hmodel

variable {items : List RolloutItem}

lemma Turn.plain_responseItems {t : Turn reading}
    (h : items ⊆ t.messages) : Plain reading (responseItems items) := by
  have hall : Plain reading (responseItems t.messages) := by
    rw [t.responseItems_messages]
    intro item hitem
    rcases mem_cons.1 hitem with rfl | hitem
    · exact t.user_plain
    · exact t.model_plain item hitem
  refine hall.subset fun item hitem => ?_
  obtain ⟨source, hsource, hitem⟩ := mem_filterMap.1 hitem
  exact mem_filterMap.2 ⟨source, h hsource, hitem⟩

lemma exists_message_of_isUserMessage {item : ResponseItem} (h : isUserMessage item = true) :
    ∃ id content phase metadata, item = .message id "user".toList content phase metadata := by
  cases item with
  | message id role content phase metadata =>
    obtain rfl : role = "user".toList := by simpa [isUserMessage] using h
    exact ⟨id, content, phase, metadata, rfl⟩
  | _ => cases h

lemma Turn.isUserTurnBoundary_user : isUserTurnBoundary reading t.user = true := by
  have hplain := t.user_plain
  obtain ⟨id, content, phase, metadata, huser⟩ :=
    exists_message_of_isUserMessage t.user_isUserMessage
  simp_all [isContextual, isUserTurnBoundary]

lemma isApiMessage_of_isUserTurnBoundary {item : ResponseItem}
    (h : isUserTurnBoundary reading item = true) : isApiMessage item = true := by
  cases item with
  | agentMessage => rfl
  | message id role content phase metadata =>
    simp only [isUserTurnBoundary, Bool.or_eq_true, Bool.and_eq_true, beq_iff_eq] at h
    rcases h with ⟨rfl, -⟩ | ⟨rfl, -⟩ <;> rfl
  | _ => cases h

/-- How many user turns a turn counts for: its user message, and the model items that count as the
beginning of a turn of their own, such as messages of other agents. -/
def Turn.boundaryCount (t : Turn reading) : ℕ := 1 + t.model.countP (isUserTurnBoundary reading)

lemma Turn.countP_recorded :
    t.recorded.countP (isUserTurnBoundary reading) = t.boundaryCount := by
  have hall : t.recorded.countP (isUserTurnBoundary reading) =
      (t.user :: t.model).countP (isUserTurnBoundary reading) := by
    rw [Turn.recorded, Rollout.recorded, countP_map, countP_filter, t.responseItems_messages]
    refine countP_congr fun item _ => ?_
    simp only [Function.comp_apply, isUserTurnBoundary_processItem, Bool.and_eq_true,
      and_iff_left_iff_imp]
    exact isApiMessage_of_isUserTurnBoundary
  rw [hall, countP_cons_of_pos t.isUserTurnBoundary_user, Turn.boundaryCount, Nat.add_comm]

/-- A turn begins with its user message. -/
lemma Turn.exists_recorded_eq : ∃ first rest, t.recorded = first :: rest ∧
    isUserTurnBoundary reading first = true := by
  obtain ⟨id, content, phase, metadata, huser⟩ :=
    exists_message_of_isUserMessage t.user_isUserMessage
  have hfirst : Rollout.recorded reading [t.user] = [t.user] := by rw [huser]; rfl
  refine ⟨t.user, Rollout.recorded reading t.model, ?_, t.isUserTurnBoundary_user⟩
  rw [Turn.recorded, t.responseItems_messages, ← singleton_append, recorded_append, hfirst]
  rfl

/-! ### The second pass -/

lemma replayItem_event {event : EventMsg} (h : isTurnBody (.eventMsg event) = true)
    (state : ContextManager × Bool) : replayItem reading state (.eventMsg event) = state := by
  cases event with
  | threadRolledBack n => cases h
  | _ => rfl

/-- Items inside of a turn are recorded, and no legacy compaction is seen. -/
lemma replay_body (h : ∀ item ∈ items, isTurnBody item = true) (state : ContextManager × Bool) :
    (items.foldl (replayItem reading) state).1.items =
        state.1.items ++ Rollout.recorded reading (responseItems items) ∧
      (items.foldl (replayItem reading) state).2 = state.2 := by
  induction items generalizing state with
  | nil => simp [responseItems, Rollout.recorded]
  | cons item items ih =>
    obtain ⟨hitems, hlegacy⟩ := ih (forall_mem_cons.1 h).2 (replayItem reading state item)
    have hitem := h item mem_cons_self
    rw [foldl_cons, hitems, hlegacy]
    cases item with
    | responseItem item =>
      have hcons : responseItems (.responseItem item :: items) = [item] ++ responseItems items := rfl
      rw [hcons, recorded_append, ← List.append_assoc]
      exact ⟨rfl, rfl⟩
    | interAgentCommunication communication =>
      have hcons : responseItems (.interAgentCommunication communication :: items) =
        [communication.toModelInputItem] ++ responseItems items := rfl
      rw [hcons, recorded_append, ← List.append_assoc]
      exact ⟨rfl, rfl⟩
    | worldState | interAgentCommunicationMetadata => exact ⟨rfl, rfl⟩
    | eventMsg event =>
      rw [replayItem_event hitem]
      exact ⟨rfl, rfl⟩
    | _ => cases hitem

lemma replay_messages (h : ∀ item ∈ items, isMessage item = true)
    (state : ContextManager × Bool) : (items.foldl (replayItem reading) state).1.items =
      state.1.items ++ Rollout.recorded reading (responseItems items) :=
  (replay_body (fun item hitem => isTurnBody_of_isMessage (h item hitem)) state).1

/-- The end of a turn, behind its compaction. -/
def Turn.rest (t : Turn reading) (c : Compaction reading) : List RolloutItem :=
  t.messages.drop c.position ++ [.eventMsg (.turnComplete t.id t.completedAt t.durationMs)]

variable (c : Compaction reading) (state : ContextManager × Bool)

lemma Turn.replay_rest : ((t.rest c).foldl (replayItem reading) state).1.items =
      state.1.items ++ t.recordedAfter c := by
  have hmessages : ∀ item ∈ t.messages.drop c.position, isMessage item = true :=
    fun item hitem => t.isMessage_of_mem (mem_of_mem_drop hitem)
  rw [Turn.rest, foldl_append]
  exact replay_messages hmessages state

/-- A turn is recorded as its `record` says. -/
lemma Turn.replay_items :
    (t.items.foldl (replayItem reading) state).1.items = t.record state.1.items := by
  unfold Turn.items Turn.record
  cases t.compaction with
  | none =>
    rw [foldl_cons, foldl_append]
    exact replay_messages (fun item => t.isMessage_of_mem) _
  | some c =>
    rw [foldl_cons, foldl_append, foldl_cons]
    have hrest := t.replay_rest c (replayItem reading ((t.messages.take c.position).foldl
      (replayItem reading) (replayItem reading state (.eventMsg (.turnStarted t.id t.startedAt))))
      (.compacted c.item))
    refine hrest.trans ?_
    simp only [replayItem, c.item_history]
    rfl

lemma Turn.plain_recorded : Plain reading t.recorded :=
  (t.plain_responseItems (List.Subset.refl _)).recorded

lemma Turn.plain_recordedAfter : Plain reading (t.recordedAfter c) :=
  (t.plain_responseItems (drop_subset _ _)).recorded

/-- What turns without a compaction and rollbacks do to the history. -/
def step : List ResponseItem → Event (Turn reading) → List ResponseItem :=
  act (fun history t => history ++ t.recorded) (dropSegments (isUserTurnBoundary reading))

@[simp] lemma hasCompaction_put (entries : List (Event (Turn reading))) :
    hasCompaction (.put t :: entries) = (t.compaction.isSome || hasCompaction entries) := rfl

@[simp] lemma hasCompaction_undo (n : ℕ) (entries : List (Event (Turn reading))) :
    hasCompaction (.undo n :: entries) = hasCompaction entries := rfl

lemma replay_entries {entries : List (Event (Turn reading))} (h : hasCompaction entries = false)
    (state : ContextManager × Bool) (hplain : Plain reading state.1.items) :
    ((rolloutOf entries).foldl (replayItem reading) state).1.items =
      entries.foldl step state.1.items := by
  induction entries generalizing state with
  | nil => rfl
  | cons entry entries ih =>
    rw [rolloutOf, flatMap_cons, foldl_append]
    cases entry with
    | put t =>
      simp only [hasCompaction_put, Bool.or_eq_false_iff, Option.isSome_eq_false_iff,
        Option.isNone_iff_eq_none] at h
      have hitems := t.replay_items state
      simp only [Turn.record, h.1] at hitems
      refine (ih h.2 _ ?_).trans ?_
      · exact hitems ▸ hplain.append t.plain_recorded
      · exact congrArg (entries.foldl step) hitems
    | undo n =>
      have hitems := ContextManager.items_dropLastNUserTurns hplain n
      refine (ih h _ ?_).trans ?_
      · refine hplain.subset ?_
        exact hitems ▸ dropSegments_subset _ _
      · exact congrArg (entries.foldl step) hitems

/-! ### The first pass -/

variable {s : ReverseScan} {rollout newer : List RolloutItem} {segment : ActiveReplaySegment}

namespace ReverseScan

/-- The first pass is between two turns; it has met no turn context. -/
structure Idle (s : ReverseScan) : Prop where
  activeSegment : s.activeSegment = none
  previousTurnSettings : s.previousTurnSettings = none

/-- Without the settings of a turn the first pass goes on. -/
lemma complete_eq_false (h : s.previousTurnSettings = none) : s.complete = false := by
  simp [complete, h]

lemma scan_cons (h : (scan reading rollout newer).previousTurnSettings = none) :
    scan reading rollout (item :: newer) =
      visit reading newer (scan reading rollout newer) item := by
  simp [scan, complete_eq_false h]

/-- The item makes its segment a user turn. -/
def marks (reading : Reading) : RolloutItem → Bool
  | .responseItem item => isUserTurnBoundary reading item
  | .interAgentCommunication _ => true
  | .eventMsg (.userMessage _) => true
  | _ => false

/-- Messages only decide whether the segment counts. -/
lemma scan_messages (hitems : ∀ item ∈ items, isMessage item = true)
    (hs : scan reading rollout newer = { s with activeSegment := some segment })
    (hsettings : s.previousTurnSettings = none) : scan reading rollout (items ++ newer) =
      { s with activeSegment := some { segment with
          countsAsUserTurn := segment.countsAsUserTurn || items.any (marks reading) } } := by
  induction items with
  | nil => simpa using hs
  | cons item items ih =>
    have ih := ih (forall_mem_cons.1 hitems).2
    have hitem := hitems item mem_cons_self
    rw [cons_append, scan_cons (by rw [ih]; exact hsettings), ih]
    cases item with
    | responseItem item =>
      simp [visit, onSegment, ReverseScan.segment, marks, Bool.or_left_comm, Bool.or_comm]
    | eventMsg event =>
      cases event with
      | userMessage fields => simp [visit, onSegment, ReverseScan.segment, marks]
      | _ => cases hitem
    | _ => cases hitem

/-- The newest compaction of a segment offers its replacement, and narrows the suffix at once. -/
lemma scan_compacted (h : scan reading rollout newer = { s with activeSegment := some segment })
    (hsettings : s.previousTurnSettings = none) (hbase : segment.baseReplacementHistory = none) :
    scan reading rollout (.compacted c.item :: newer) = { s with
      rolloutSuffix := newer
      activeSegment := some (compactedSegment reading c.item segment) } := by
  rw [scan_cons (by rw [h]; exact hsettings), h]
  simp [visit, onSegment, ReverseScan.segment, hbase, c.item_history]

/-- The first pass has gone over a turn with this replacement history. -/
structure Passed (s : ReverseScan) (base : Option (List ResponseItem)) (t : ReverseScan) : Prop where
  idle : t.Idle
  rolloutSuffix : t.rolloutSuffix = s.rolloutSuffix
  pendingRollbackTurns : t.pendingRollbackTurns = s.pendingRollbackTurns - 1
  baseReplacementHistory : t.baseReplacementHistory =
    if s.pendingRollbackTurns = 0 then s.baseReplacementHistory.or base
    else s.baseReplacementHistory

lemma Idle.finalizeActiveSegment (hs : s.Idle) (hcounts : segment.countsAsUserTurn = true)
    (hsettings : segment.previousTurnSettings = none) :
    Passed s segment.baseReplacementHistory (s.finalizeActiveSegment segment) := by
  unfold ReverseScan.finalizeActiveSegment
  rcases hpending : s.pendingRollbackTurns with _ | n
  · refine ⟨⟨hs.activeSegment, ?_⟩, rfl, ?_, ?_⟩
    · simp [hcounts, hsettings, hs.previousTurnSettings]
    all_goals simp [hpending]
  · rw [if_pos n.succ_pos, if_pos hcounts]
    exact ⟨⟨hs.activeSegment, hs.previousTurnSettings⟩, rfl, by simp [hpending], by simp [hpending]⟩

/-- The start of a turn finalizes its segment. -/
lemma scan_turnStarted {id : Text} {startedAt : Option ℤ}
    (h : scan reading rollout newer = { s with activeSegment := some segment }) (hs : s.Idle)
    (hid : segment.turnId = some id) (hcounts : segment.countsAsUserTurn = true)
    (hsettings : segment.previousTurnSettings = none) : Passed s segment.baseReplacementHistory
      (scan reading rollout (.eventMsg (.turnStarted id startedAt) :: newer)) := by
  have hidle : { s with activeSegment := none } = s := by
    rw [← hs.activeSegment]
  have hscan : scan reading rollout (.eventMsg (.turnStarted id startedAt) :: newer) =
      s.finalizeActiveSegment segment := by
    rw [scan_cons (by rw [h]; exact hs.previousTurnSettings), h]
    simp [visit, turnIdsAreCompatible, hid, hidle]
  exact hscan ▸ hs.finalizeActiveSegment hcounts hsettings

end ReverseScan

section

open ReverseScan

lemma Turn.any_marks : t.messages.any (marks reading) = true := by
  simp [Turn.messages, marks]

/-- The end of a turn opens its segment. -/
lemma Turn.scan_complete (hs : (scan reading rollout newer).Idle) :
    scan reading rollout (.eventMsg (.turnComplete t.id t.completedAt t.durationMs) :: newer) =
      { scan reading rollout newer with activeSegment := some { turnId := some t.id } } := by
  rw [scan_cons hs.previousTurnSettings]
  simp [visit, onSegment, ReverseScan.segment, hs.activeSegment]

/-- The first pass over a turn without a compaction. -/
lemma Turn.scan_items_none (ht : t.compaction = none) (hs : (scan reading rollout newer).Idle) :
    Passed (scan reading rollout newer) none (scan reading rollout (t.items ++ newer)) := by
  have hmessages := scan_messages (fun item => t.isMessage_of_mem) (t.scan_complete hs)
    hs.previousTurnSettings
  have hitems : t.items ++ newer = .eventMsg (.turnStarted t.id t.startedAt) ::
      (t.messages ++ .eventMsg (.turnComplete t.id t.completedAt t.durationMs) :: newer) := by
    simp [Turn.items, ht]
  rw [hitems]
  exact scan_turnStarted hmessages hs rfl t.any_marks rfl

/-- The first pass over a turn with a compaction: the suffix is narrowed, whether or not the turn
is taken back. -/
lemma Turn.scan_items_some {c : Compaction reading} (ht : t.compaction = some c)
    (hs : (scan reading rollout newer).Idle) :
    Passed { scan reading rollout newer with rolloutSuffix := t.rest c ++ newer } (some c.history)
      (scan reading rollout (t.items ++ newer)) := by
  have hdrop : ∀ item ∈ t.messages.drop c.position, isMessage item = true :=
    fun item hitem => t.isMessage_of_mem (mem_of_mem_drop hitem)
  have htake : ∀ item ∈ t.messages.take c.position, isMessage item = true :=
    fun item hitem => t.isMessage_of_mem (mem_of_mem_take hitem)
  have hcounts : ((t.messages.drop c.position).any (marks reading) ||
      (t.messages.take c.position).any (marks reading)) = true := by
    rw [Bool.or_comm, ← any_append, take_append_drop, t.any_marks]
  -- from the end of the turn to its start
  have hrest := scan_messages hdrop (t.scan_complete hs) hs.previousTurnSettings
  rw [← singleton_append, ← List.append_assoc, ← Turn.rest] at hrest
  have hcompacted := scan_compacted c hrest hs.previousTurnSettings rfl
  have hbefore := scan_messages
    (s := { scan reading rollout newer with rolloutSuffix := t.rest c ++ newer }) htake hcompacted
    hs.previousTurnSettings
  have hitems : t.items ++ newer = .eventMsg (.turnStarted t.id t.startedAt) ::
      (t.messages.take c.position ++ .compacted c.item :: (t.rest c ++ newer)) := by
    simp [Turn.items, Turn.rest, ht]
  rw [hitems, ← c.item_history]
  exact scan_turnStarted hbefore ⟨hs.activeSegment, hs.previousTurnSettings⟩ rfl hcounts rfl

end

end TokenCode.Rollout
