/-
The reconstruction of a session from its rollout (`core/src/session/rollout_reconstruction.rs`).

A first pass goes over the rollout from the newest item to the oldest. It collects the items of a
turn in a segment, and when it meets the start of the turn it either takes what the segment has to
offer or, if rollbacks are pending, skips the segment. A second pass goes forward over what is left
of the rollout, the suffix behind a compaction, and rebuilds the history.
-/
import TokenCode.Rollout.ContextManager

namespace TokenCode.Rollout

open Text Context

structure PreviousTurnSettings where
  model : Text
  compHash : Option Text
  realtimeActive : Option Bool
deriving DecidableEq, Repr

structure ReconstructedWindow where
  number : ℕ
  firstId : Option Uuid
  previousId : Option Uuid
  id : Option Uuid
deriving DecidableEq, Repr

inductive TurnReferenceContextItem where
  | neverSet
  | cleared
  | latest (item : TurnContextItem)
deriving DecidableEq, Repr

structure ActiveReplaySegment where
  turnId : Option Text := none
  countsAsUserTurn : Bool := false
  previousTurnSettings : Option PreviousTurnSettings := none
  referenceContextItem : TurnReferenceContextItem := .neverSet
  worldStateReplay : List RolloutItem := []
  baseReplacementHistory : Option (List ResponseItem) := none
  window : Option ReconstructedWindow := none
deriving DecidableEq, Repr

structure RolloutReconstruction where
  history : List ResponseItem
  previousTurnSettings : Option PreviousTurnSettings
  referenceContextItem : Option TurnContextItem
  worldStateBaseline : Option WorldStateSnapshot
  windowNumber : ℕ
  firstWindowId : Option Uuid
  previousWindowId : Option Uuid
  windowId : Option Uuid
deriving DecidableEq, Repr

/-- `turn_ids_are_compatible`. -/
def turnIdsAreCompatible (activeTurnId itemTurnId : Option Text) : Bool :=
  activeTurnId.all fun turnId => itemTurnId.all fun itemTurnId => itemTurnId == turnId

/-- The variables of the first pass. -/
structure ReverseScan where
  baseReplacementHistory : Option (List ResponseItem)
  previousTurnSettings : Option PreviousTurnSettings
  referenceContextItem : TurnReferenceContextItem
  worldStateReplay : List RolloutItem
  window : Option ReconstructedWindow
  pendingRollbackTurns : ℕ
  rolloutSuffix : List RolloutItem
  activeSegment : Option ActiveReplaySegment
deriving DecidableEq, Repr

namespace ReverseScan

def start (rollout : List RolloutItem) : ReverseScan where
  baseReplacementHistory := none
  previousTurnSettings := none
  referenceContextItem := .neverSet
  worldStateReplay := []
  window := none
  pendingRollbackTurns := 0
  rolloutSuffix := rollout
  activeSegment := none

/-- `finalize_active_segment`. -/
def finalizeActiveSegment (s : ReverseScan) (segment : ActiveReplaySegment) : ReverseScan :=
  if 0 < s.pendingRollbackTurns then
    if segment.countsAsUserTurn then
      { s with pendingRollbackTurns := s.pendingRollbackTurns - 1 }
    else s
  else
    { s with
      worldStateReplay := s.worldStateReplay ++ segment.worldStateReplay
      baseReplacementHistory := s.baseReplacementHistory.or segment.baseReplacementHistory
      window := s.window.or segment.window
      previousTurnSettings :=
        if s.previousTurnSettings.isNone && segment.countsAsUserTurn then
          segment.previousTurnSettings
        else s.previousTurnSettings
      referenceContextItem :=
        if s.referenceContextItem == .neverSet &&
            (segment.countsAsUserTurn || segment.referenceContextItem == .cleared) then
          segment.referenceContextItem
        else s.referenceContextItem }

/-- `active_segment.get_or_insert_with(ActiveReplaySegment::default)`. -/
def segment (s : ReverseScan) : ActiveReplaySegment := s.activeSegment.getD {}

/-- A change of the active segment. -/
def onSegment (s : ReverseScan) (f : ActiveReplaySegment → ActiveReplaySegment) : ReverseScan :=
  { s with activeSegment := some (f s.segment) }

/-- What a compaction leaves in its segment. -/
def compactedSegment (reading : Reading) (compacted : CompactedItem)
    (segment : ActiveReplaySegment) : ActiveReplaySegment :=
  { segment with
    worldStateReplay := segment.worldStateReplay ++ [.compacted compacted]
    window := segment.window.or (compacted.windowNumber.map fun number =>
      ⟨number, compacted.firstWindowId.bind reading.parseUuidV7,
        compacted.previousWindowId.bind reading.parseUuidV7,
        compacted.windowId.bind reading.parseUuidV7⟩)
    referenceContextItem :=
      if segment.referenceContextItem == .neverSet then .cleared
      else segment.referenceContextItem
    baseReplacementHistory := segment.baseReplacementHistory.or compacted.replacementHistory }

/-- What a turn context leaves in its segment. -/
def turnContextSegment (ctx : TurnContextItem) (segment : ActiveReplaySegment) :
    ActiveReplaySegment :=
  let segment := { segment with turnId := segment.turnId.or ctx.turnId }
  if turnIdsAreCompatible segment.turnId ctx.turnId then
    { segment with
      previousTurnSettings := some ⟨ctx.model, ctx.compHash, ctx.realtimeActive⟩
      referenceContextItem :=
        if segment.referenceContextItem == .neverSet then .latest ctx
        else segment.referenceContextItem }
  else segment

/-- One item of the first pass; `newer` are the items behind it. -/
def visit (reading : Reading) (newer : List RolloutItem) (s : ReverseScan) :
    RolloutItem → ReverseScan
  | .compacted compacted =>
    { s.onSegment (compactedSegment reading compacted) with
      rolloutSuffix :=
        if s.segment.baseReplacementHistory.isNone && compacted.replacementHistory.isSome then
          newer
        else s.rolloutSuffix }
  -- A `usize` that saturates beyond what the `u32` counts of the markers can add up to.
  | .eventMsg (.threadRolledBack numTurns) =>
    { s with pendingRollbackTurns := s.pendingRollbackTurns + numTurns }
  | .eventMsg (.turnComplete turnId _ _) =>
    s.onSegment fun segment => { segment with turnId := segment.turnId.or (some turnId) }
  | .eventMsg (.turnAborted turnId _ _) =>
    -- Without an active segment only an abort that names its turn opens one.
    if s.activeSegment.isSome || turnId.isSome then
      s.onSegment fun segment => { segment with turnId := segment.turnId.or turnId }
    else s
  | .eventMsg (.userMessage _) =>
    s.onSegment fun segment => { segment with countsAsUserTurn := true }
  | .turnContext ctx => s.onSegment (turnContextSegment ctx)
  | .worldState item =>
    s.onSegment fun segment =>
      { segment with worldStateReplay := segment.worldStateReplay ++ [.worldState item] }
  | .eventMsg (.turnStarted turnId _) =>
    match s.activeSegment with
    | some segment =>
      if turnIdsAreCompatible segment.turnId (some turnId) then
        finalizeActiveSegment { s with activeSegment := none } segment
      else s
    | none => s
  | .responseItem item =>
    s.onSegment fun segment =>
      { segment with
        countsAsUserTurn := segment.countsAsUserTurn || isUserTurnBoundary reading item }
  | .interAgentCommunication _ =>
    s.onSegment fun segment => { segment with countsAsUserTurn := true }
  | .eventMsg _ => s
  | .sessionMeta _ => s
  | .interAgentCommunicationMetadata _ => s

/-- The first pass stops here. -/
def complete (s : ReverseScan) : Bool :=
  s.baseReplacementHistory.isSome && s.previousTurnSettings.isSome &&
    s.referenceContextItem != .neverSet

/-- The first pass over the end of a rollout. -/
def scan (reading : Reading) (rollout : List RolloutItem) : List RolloutItem → ReverseScan
  | [] => start rollout
  | item :: newer =>
    let s := scan reading rollout newer
    if s.complete then s else visit reading newer s item

/-- What the first pass ends with. -/
def finish (s : ReverseScan) : ReverseScan :=
  match s.activeSegment with
  | some segment => finalizeActiveSegment { s with activeSegment := none } segment
  | none => s

end ReverseScan

/-! ### Legacy compactions (`core/src/compact.rs`) -/

structure CompactedUserMessage where
  message : Text
  metadata : Option Text
deriving DecidableEq, Repr

/-- `collect_user_messages`. -/
def collectUserMessages (reading : Reading) (items : List ResponseItem) :
    List CompactedUserMessage :=
  items.filterMap fun
    | .message _ role content _ metadata =>
      if role == "user".toList then
        match reading.userMessage content with
        | some text =>
          -- `is_summary_message`
          if (reading.summaryLead ++ ['\n']).isPrefixOf text then none else some ⟨text, metadata⟩
        | none => none
      else none
    | _ => none

/-- The loop of `build_compacted_history_with_limit`, from the newest message on. -/
def selectMessages (reading : Reading) :
    ℕ → List CompactedUserMessage → List CompactedUserMessage
  | _, [] => []
  | remaining, message :: older =>
    if remaining = 0 then []
    else
      let tokens := reading.approxTokenCount message.message
      if tokens ≤ remaining then
        message :: selectMessages reading (remaining - tokens) older
      else [{ message with message := reading.truncateTokens message.message remaining }]

/-- `build_compacted_history`, with `COMPACT_USER_MESSAGE_MAX_TOKENS`. -/
def buildCompactedHistory (reading : Reading) (userMessages : List CompactedUserMessage)
    (summaryText : Text) : List ResponseItem :=
  let selected := (selectMessages reading 20000 userMessages.reverse).reverse
  let summaryText := if summaryText.isEmpty then "(no summary available)".toList else summaryText
  selected.map (fun message =>
    ResponseItem.message none "user".toList [.inputText message.message] none message.metadata) ++
    [.message none "user".toList [.inputText summaryText] none none]

/-! ### The second pass -/

/-- One item of the second pass: the history, and whether a legacy compaction was seen. -/
def replayItem (reading : Reading) : ContextManager × Bool → RolloutItem → ContextManager × Bool
  | (history, legacy), .responseItem item => (history.recordItems reading [item], legacy)
  | (history, legacy), .interAgentCommunication communication =>
    (history.recordItems reading [communication.toModelInputItem], legacy)
  | (history, legacy), .compacted compacted =>
    match compacted.replacementHistory with
    | some replacementHistory => (history.replace replacementHistory, legacy)
    | none =>
      (history.replace (buildCompactedHistory reading (collectUserMessages reading history.items)
        compacted.message), true)
  | (history, legacy), .eventMsg (.threadRolledBack numTurns) =>
    (history.dropLastNUserTurns reading numTurns, legacy)
  | state, _ => state

/-- One item of the replay of the world state. -/
def replayWorldState (baseline : Option WorldStateSnapshot) :
    RolloutItem → Option WorldStateSnapshot
  | .compacted _ => none
  | .worldState item =>
    if item.full then WorldStateSnapshot.fromValue item.state
    else baseline.bind fun snapshot => snapshot.applyMergePatch item.state
  | _ => baseline

/-- `reconstructed_window_from_session_context_window`. -/
def reconstructedWindowFromSessionContextWindow (reading : Reading) (windowId : Text) :
    Option ReconstructedWindow :=
  (reading.parseUuidV7 windowId).map fun id => ⟨0, some id, none, some id⟩

/-- The window that the session began with. -/
def initialWindow (reading : Reading) (rollout : List RolloutItem) : Option ReconstructedWindow :=
  let hasLegacyCompactionWithoutWindowNumber := rollout.any fun
    | .compacted compacted => compacted.windowNumber.isNone
    | _ => false
  if hasLegacyCompactionWithoutWindowNumber then none
  else rollout.findSome? fun
    | .sessionMeta contextWindow =>
      contextWindow.bind (reconstructedWindowFromSessionContextWindow reading)
    | _ => none

/-- The history that the second pass starts from. -/
def baseHistory : Option (List ResponseItem) → ContextManager
  | some baseReplacementHistory => ContextManager.new.replace baseReplacementHistory
  | none => .new

/-- `reconstruct_history_from_rollout`. -/
def reconstructHistoryFromRollout (reading : Reading) (rollout : List RolloutItem) :
    RolloutReconstruction :=
  let s := (ReverseScan.scan reading rollout rollout).finish
  let fallbackWindowNumber := rollout.countP fun
    | .compacted _ => true
    | _ => false
  let (history, legacy) := s.rolloutSuffix.foldl (replayItem reading)
    (baseHistory s.baseReplacementHistory, false)
  let referenceContextItem := match s.referenceContextItem with
    | .latest item => some item
    | _ => none
  let worldStateBaseline := s.worldStateReplay.reverse.foldl replayWorldState none
  let window := (s.window.or (initialWindow reading rollout)).getD
    ⟨fallbackWindowNumber, none, none, none⟩
  { history := history.items
    previousTurnSettings := s.previousTurnSettings
    referenceContextItem := if legacy then none else referenceContextItem
    worldStateBaseline := worldStateBaseline
    windowNumber := window.number
    firstWindowId := window.firstId
    previousWindowId := window.previousId
    windowId := window.id }

section

variable (reading : Reading) (rollout : List RolloutItem)

lemma history_reconstructHistoryFromRollout :
    (reconstructHistoryFromRollout reading rollout).history =
      let s := (ReverseScan.scan reading rollout rollout).finish
      (s.rolloutSuffix.foldl (replayItem reading)
        (baseHistory s.baseReplacementHistory, false)).1.items := rfl

end

/-- Texts in which nothing is contextual and nothing is truncated. -/
def plainReading : Reading where
  isContextualUserText _ := false
  isInterAgentCommunication _ := false
  userMessage _ := none
  summaryLead := []
  approxTokenCount := List.length
  truncateTokens text n := text.take n
  truncateText text := text
  truncateItems items := items
  parseUuidV7 _ := none

end TokenCode.Rollout
