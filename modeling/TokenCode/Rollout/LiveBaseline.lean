/-
The world state of a session, live and from its rollout (`core/src/context_manager/history.rs`,
`core/src/session/mod.rs`).

The session keeps the snapshot of the world state that the model was told last, its baseline, and
writes every change of it to the rollout: the full snapshot where there was no baseline, else a
merge patch. A compaction takes the baseline away, and may set a new one. Resuming the session
replays the records. Without rollbacks both agree at every moment
(`worldStateBaseline_survives`).
-/
import TokenCode.Rollout.Reconstruction

namespace TokenCode.Rollout

open List Context ContextManager WorldStateSnapshot

/-! ### The live session -/

/-- `set_world_state_baseline`. -/
def ContextManager.setWorldStateBaseline (h : ContextManager) (snapshot : WorldStateSnapshot) :
    ContextManager :=
  { h with worldStateBaseline := some snapshot }

/-- `WorldStateItem::full`. -/
def WorldStateItem.ofFull (state : Json) : WorldStateItem := ⟨true, state⟩

/-- `WorldStateItem::patch`. -/
def WorldStateItem.ofPatch (state : Json) : WorldStateItem := ⟨false, state⟩

/-- `update_world_state`, with the record for the rollout. -/
def ContextManager.updateWorldState (h : ContextManager) (worldState : WorldState) :
    ContextManager × Option WorldStateItem :=
  let snapshot := worldState.snapshot
  let rolloutItem := match h.worldStateBaseline with
    | none => some (.ofFull snapshot.intoValue)
    | some previous => (snapshot.mergePatchFrom previous).map .ofPatch
  (h.setWorldStateBaseline snapshot, rolloutItem)

/-- The world state at the beginning of a turn: in full with the initial context, else as a
change. -/
def ContextManager.beginTurn (h : ContextManager) (worldState : WorldState) :
    ContextManager × Option WorldStateItem :=
  if h.referenceContextItem.isNone then
    (h.setWorldStateBaseline worldState.snapshot, some (.ofFull worldState.snapshot.intoValue))
  else h.updateWorldState worldState

/-- A session: its history, and the rollout it has written. -/
structure Session where
  history : ContextManager
  rollout : List RolloutItem
deriving DecidableEq, Repr

namespace Session

/-- `persist_rollout_items`. -/
def persistRolloutItems (s : Session) (items : List RolloutItem) : Session :=
  { s with rollout := s.rollout ++ items }

/-- The record of a world state, if there is one. -/
def persistWorldState (s : Session) (item : Option WorldStateItem) : Session :=
  s.persistRolloutItems (item.map RolloutItem.worldState).toList

/-- `record_conversation_items`. -/
def recordConversationItems (reading : Reading) (s : Session) (items : List ResponseItem) :
    Session :=
  { s with history := s.history.recordItems reading items }.persistRolloutItems
    (items.map .responseItem)

/-- `replace_history`. -/
def replaceHistory (s : Session) (items : List ResponseItem)
    (referenceContextItem : Option TurnContextItem) : Session :=
  { s with
    history := { s.history.replace items with referenceContextItem := referenceContextItem } }

/-- `record_context_updates_and_set_reference_context_item`, at the beginning of a turn; the items
that render the context for the model are `contextItems`. -/
def recordContextUpdates (reading : Reading) (s : Session) (worldState : WorldState)
    (turnContextItem : TurnContextItem) (contextItems : List ResponseItem) : Session :=
  let turnContextChanged := s.history.referenceContextItem ≠ some turnContextItem
  let (history, worldStateItem) := s.history.beginTurn worldState
  let s := { s with history := history }
  let onlyWorldStateChanged := !turnContextChanged && contextItems.isEmpty
  if onlyWorldStateChanged && worldStateItem.isNone then s
  else
    let s := (s.recordConversationItems reading contextItems).persistWorldState worldStateItem
    if onlyWorldStateChanged then s
    else
      let s := s.persistRolloutItems [.turnContext turnContextItem]
      { s with history := { s.history with referenceContextItem := some turnContextItem } }

/-- `record_step_world_state_if_changed`, before a request of a turn whose world state was
`previous`. -/
def recordStepWorldStateIfChanged (reading : Reading) (s : Session)
    (previous worldState : WorldState) (items : List ResponseItem) : Session :=
  let worldStateItem :=
    (worldState.snapshot.mergePatchFrom previous.snapshot).map WorldStateItem.ofPatch
  let s := s.recordConversationItems reading items
  { s with history := s.history.setWorldStateBaseline worldState.snapshot }.persistWorldState
    worldStateItem

/-- `replace_compacted_history`. -/
def replaceCompactedHistory (s : Session) (items : List ResponseItem)
    (referenceContextItem : Option TurnContextItem) (worldState : Option WorldState)
    (compactedItem : CompactedItem) : Session :=
  let s := s.replaceHistory items referenceContextItem
  let s := match worldState with
    | some worldState =>
      { s with history := s.history.setWorldStateBaseline worldState.snapshot }
    | none => s
  let s := s.persistRolloutItems
    [.compacted { compactedItem with replacementHistory := some items }]
  let s := s.persistWorldState (worldState.map fun worldState =>
    .ofFull worldState.snapshot.intoValue)
  s.persistRolloutItems (referenceContextItem.map RolloutItem.turnContext).toList

/-- `apply_rollout_reconstruction`: the session goes on from its rollout. -/
def resume (reading : Reading) (rollout : List RolloutItem) : Session :=
  let reconstruction := reconstructHistoryFromRollout reading rollout
  let s := (⟨.new, rollout⟩ : Session).replaceHistory reconstruction.history
    reconstruction.referenceContextItem
  match reconstruction.worldStateBaseline with
  | some worldState => { s with history := s.history.setWorldStateBaseline worldState }
  | none => s

end Session

/-! ### What a session does -/

/-- The item is no record of a world state, no compaction and no rollback. -/
def RolloutItem.isOther : RolloutItem → Bool
  | .worldState _ => false
  | .compacted _ => false
  | .eventMsg (.threadRolledBack _) => false
  | _ => true

/-- An item that does not concern the world state. -/
abbrev OtherItem := {item : RolloutItem // item.isOther = true}

/-- What happens within a turn. -/
inductive TurnAction where
  /-- A further request, with the world state of its step. -/
  | step (worldState : WorldState) (items : List ResponseItem)
  /-- A compaction that puts the initial context in again. -/
  | compact (items : List ResponseItem) (referenceContextItem : TurnContextItem)
      (compactedItem : CompactedItem)
  | record (item : OtherItem)
deriving DecidableEq, Repr

/-- What happens to a session. -/
inductive SessionAction where
  /-- A turn that begins in a world state. -/
  | turn (worldState : WorldState) (turnContextItem : TurnContextItem)
      (contextItems : List ResponseItem) (actions : List TurnAction)
  /-- A compaction between turns; one that starts a new context window sets a world state. -/
  | compact (items : List ResponseItem) (referenceContextItem : Option TurnContextItem)
      (worldState : Option WorldState) (compactedItem : CompactedItem)
  | record (item : OtherItem)
deriving DecidableEq, Repr

namespace Session

/-- An item of another kind; items of the conversation also go to the history. -/
def recordOther (reading : Reading) (s : Session) (item : OtherItem) : Session :=
  match item.1 with
  | .responseItem item => s.recordConversationItems reading [item]
  | item => s.persistRolloutItems [item]

/-- One action of a turn, which has its world state at hand. -/
def actInTurn (reading : Reading) : Session × WorldState → TurnAction → Session × WorldState
  | (s, previous), .step worldState items =>
    (s.recordStepWorldStateIfChanged reading previous worldState items, worldState)
  | (s, previous), .compact items referenceContextItem compactedItem =>
    (s.replaceCompactedHistory items (some referenceContextItem) (some previous) compactedItem,
      previous)
  | (s, previous), .record item => (s.recordOther reading item, previous)

def act (reading : Reading) (s : Session) : SessionAction → Session
  | .turn worldState turnContextItem contextItems actions =>
    (actions.foldl (actInTurn reading)
      (s.recordContextUpdates reading worldState turnContextItem contextItems, worldState)).1
  | .compact items referenceContextItem worldState compactedItem =>
    s.replaceCompactedHistory items referenceContextItem worldState compactedItem
  | .record item => s.recordOther reading item

/-- The session after its actions. -/
def run (reading : Reading) (s : Session) (actions : List SessionAction) : Session :=
  actions.foldl (act reading) s

end Session

/-! ### The records that the first pass collects -/

def RolloutItem.isRollback : RolloutItem → Bool
  | .eventMsg (.threadRolledBack _) => true
  | _ => false

/-- The item, if it is a record of a world state or a compaction. -/
def RolloutItem.replayed : RolloutItem → List RolloutItem
  | .compacted item => [.compacted item]
  | .worldState item => [.worldState item]
  | _ => []

lemma foldl_replayed (item : RolloutItem) (baseline : Option WorldStateSnapshot) :
    item.replayed.foldl replayWorldState baseline = replayWorldState baseline item := by
  cases item <;> rfl

variable {items : List RolloutItem}

/-- Behind a compaction it does not matter what the baseline was. -/
lemma foldl_replayWorldState_of_compacted {compacted : CompactedItem}
    (h : .compacted compacted ∈ items) (baseline other : Option WorldStateSnapshot) :
    items.foldl replayWorldState baseline = items.foldl replayWorldState other := by
  obtain ⟨before, after, rfl⟩ := append_of_mem h
  simp only [foldl_append, foldl_cons]
  rfl

namespace ReverseScan

variable {reading : Reading} {s : ReverseScan} {item : RolloutItem}

/-- The records, the newest one first. -/
def collected (s : ReverseScan) : List RolloutItem :=
  s.worldStateReplay ++ s.segment.worldStateReplay

/-- A compaction with a replacement history was seen. -/
def HasBase (s : ReverseScan) : Prop :=
  s.baseReplacementHistory.isSome ∨ s.segment.baseReplacementHistory.isSome

/-- How one item changes what is collected. -/
structure Visited (s s' : ReverseScan) (item : RolloutItem) : Prop where
  pendingRollbackTurns : s'.pendingRollbackTurns = 0
  collected : s'.collected = s.collected ++ item.replayed
  hasBase : s'.HasBase → s.HasBase ∨ ∃ compacted, item = .compacted compacted

section

variable (hpending : s.pendingRollbackTurns = 0)
include hpending

variable (hitem : item.replayed = [])
include hitem

lemma visited_self : Visited s s item :=
  ⟨hpending, by rw [hitem, append_nil], .inl⟩

lemma visited_onSegment {f : ActiveReplaySegment → ActiveReplaySegment}
    (hreplay : (f s.segment).worldStateReplay = s.segment.worldStateReplay)
    (hbase : (f s.segment).baseReplacementHistory = s.segment.baseReplacementHistory) :
    Visited s (s.onSegment f) item := by
  refine ⟨hpending, ?_, fun h => .inl ?_⟩
  · rw [hitem, append_nil]
    exact congrArg (s.worldStateReplay ++ ·) hreplay
  · exact h.imp_right fun h => hbase ▸ h

lemma visited_finalizeActiveSegment {segment : ActiveReplaySegment}
    (hsegment : s.activeSegment = some segment) :
    Visited s (finalizeActiveSegment { s with activeSegment := none } segment) item := by
  rw [finalizeActiveSegment, if_neg (by simp [hpending])]
  refine ⟨hpending, ?_, fun h => .inl ?_⟩
  · rw [hitem, append_nil]
    simp [ReverseScan.collected, ReverseScan.segment, hsegment]
  · simpa [HasBase, ReverseScan.segment, hsegment] using h

omit hitem

lemma visited_visit (hitem : item.isRollback = false)
    (newer : List RolloutItem) : Visited s (visit reading newer s item) item := by
  cases item with
  | compacted compacted =>
    refine ⟨hpending, ?_, fun _ => .inr ⟨compacted, rfl⟩⟩
    exact (List.append_assoc ..).symm
  | worldState item =>
    refine ⟨hpending, (List.append_assoc ..).symm, fun h => .inl ?_⟩
    exact h
  | turnContext ctx =>
    refine visited_onSegment hpending rfl ?_ ?_ <;>
    · unfold turnContextSegment
      simp only
      split <;> rfl
  | responseItem item | interAgentCommunication communication =>
    simp only [visit]
    exact visited_onSegment hpending rfl rfl rfl
  | sessionMeta | interAgentCommunicationMetadata => exact visited_self hpending rfl
  | eventMsg event =>
    cases event with
    | threadRolledBack numTurns => cases hitem
    | turnComplete turnId completedAt durationMs | userMessage payload =>
      simp only [visit]
      exact visited_onSegment hpending rfl rfl rfl
    | turnAborted turnId completedAt durationMs =>
      simp only [visit]
      split
      · exact visited_onSegment hpending rfl rfl rfl
      · exact visited_self hpending rfl
    | turnStarted turnId startedAt =>
      simp only [visit]
      split
      · next segment hsegment =>
        split
        · exact visited_finalizeActiveSegment hpending rfl hsegment
        · exact visited_self hpending rfl
      · exact visited_self hpending rfl
    | _ => exact visited_self hpending rfl

end

/-- The records replay like the items that were gone over. -/
structure Replays (s : ReverseScan) (items : List RolloutItem) : Prop where
  pendingRollbackTurns : s.pendingRollbackTurns = 0
  replay : ∀ baseline, s.collected.reverse.foldl replayWorldState baseline =
    items.foldl replayWorldState baseline
  hasBase : s.HasBase → ∃ compacted, .compacted compacted ∈ s.collected

lemma Replays.visit (h : Replays s items)
    (hitem : item.isRollback = false) (newer : List RolloutItem) :
    Replays (visit reading newer s item) (item :: items) := by
  have hvisit : Visited s (ReverseScan.visit reading newer s item) item :=
    visited_visit h.pendingRollbackTurns hitem newer
  refine ⟨hvisit.pendingRollbackTurns, fun baseline => ?_, fun hbase => ?_⟩
  · have hreverse : item.replayed.reverse = item.replayed := by cases item <;> rfl
    rw [hvisit.collected, reverse_append, foldl_append, hreverse, foldl_replayed,
      h.replay, foldl_cons]
  · rw [hvisit.collected]
    rcases hvisit.hasBase hbase with hbase | ⟨compacted, rfl⟩
    · obtain ⟨compacted, hcompacted⟩ := h.hasBase hbase
      exact ⟨compacted, mem_append_left _ hcompacted⟩
    · exact ⟨compacted, mem_append_right _ (mem_singleton.2 rfl)⟩

lemma replays_scan (rollout : List RolloutItem) (hitems : ∀ item ∈ items, item.isRollback = false) :
    Replays (scan reading rollout items) items := by
  induction items with
  | nil => exact ⟨rfl, fun _ => rfl, fun h => by simp [HasBase, scan, start, segment] at h⟩
  | cons item items ih =>
    have ih := ih (forall_mem_cons.1 hitems).2
    rw [scan]
    split
    next hcomplete =>
      -- the pass stops only behind a compaction, and older records do not matter then
      have hbase : (scan reading rollout items).baseReplacementHistory.isSome := by
        simp only [complete, Bool.and_eq_true] at hcomplete
        exact hcomplete.1.1
      obtain ⟨compacted, hcompacted⟩ := ih.hasBase (.inl hbase)
      refine ⟨ih.pendingRollbackTurns, fun baseline => ?_, ih.hasBase⟩
      rw [foldl_cons, ← ih.replay]
      exact foldl_replayWorldState_of_compacted (mem_reverse.2 hcompacted) _ _
    next => exact ih.visit (hitems item mem_cons_self) items

lemma collected_finish (hpending : s.pendingRollbackTurns = 0) :
    s.finish.worldStateReplay = s.collected := by
  rw [finish, collected, segment]
  cases s.activeSegment with
  | none => simp
  | some segment => simp [finalizeActiveSegment, hpending]

end ReverseScan

variable {rollout : List RolloutItem}

/-- **Without rollbacks every record is replayed.** -/
theorem worldStateBaseline_reconstruct (reading : Reading)
    (h : ∀ item ∈ rollout, item.isRollback = false) :
    (reconstructHistoryFromRollout reading rollout).worldStateBaseline =
      rollout.foldl replayWorldState none := by
  have hscan : ReverseScan.Replays (ReverseScan.scan reading rollout rollout) rollout :=
    ReverseScan.replays_scan rollout h
  rw [← hscan.replay, ← ReverseScan.collected_finish hscan.pendingRollbackTurns]
  rfl

/-! ### The live baseline -/

section

variable {items more : List RolloutItem} {baseline : Option WorldStateSnapshot}

lemma replayWorldState_of_isOther {item : RolloutItem} (h : item.isOther = true) :
    replayWorldState baseline item = baseline := by
  cases item with
  | worldState item | compacted item => cases h
  | _ => rfl

lemma isRollback_of_isOther {item : RolloutItem} (h : item.isOther = true) :
    item.isRollback = false := by
  cases item with
  | eventMsg event =>
    cases event with
    | threadRolledBack numTurns => cases h
    | _ => rfl
  | _ => rfl

variable (h : ∀ item ∈ items, item.isOther = true)
include h

lemma foldl_replayWorldState_of_isOther : items.foldl replayWorldState baseline = baseline := by
  induction items with
  | nil => rfl
  | cons item items ih =>
    rw [foldl_cons, replayWorldState_of_isOther (h item mem_cons_self)]
    exact ih (forall_mem_cons.1 h).2

/-- The items take a baseline to another one, and roll nothing back. -/
structure Advances (items : List RolloutItem) (baseline baseline' : Option WorldStateSnapshot) :
    Prop where
  isRollback : ∀ item ∈ items, item.isRollback = false
  replay : items.foldl replayWorldState baseline = baseline'

lemma advances_of_isOther : Advances items baseline baseline :=
  ⟨fun item hitem => isRollback_of_isOther (h item hitem), foldl_replayWorldState_of_isOther h⟩

omit h

lemma Advances.append {middle last : Option WorldStateSnapshot}
    (h : Advances items baseline middle) (h' : Advances more middle last) :
    Advances (items ++ more) baseline last := by
  refine ⟨fun item hitem => ?_, by rw [foldl_append, h.replay, h'.replay]⟩
  rcases mem_append.1 hitem with hitem | hitem
  · exact h.isRollback item hitem
  · exact h'.isRollback item hitem

lemma advances_responseItems (items : List ResponseItem) :
    Advances (items.map .responseItem) baseline baseline :=
  advances_of_isOther fun item hitem => by
    obtain ⟨source, -, rfl⟩ := mem_map.1 hitem
    rfl

lemma advances_full (snapshot : WorldStateSnapshot) :
    Advances [.worldState (.ofFull snapshot.intoValue)] baseline (some snapshot) :=
  ⟨fun item hitem => by rw [mem_singleton.1 hitem]; rfl, rfl⟩

/-- The record of a change takes the snapshot before it to the snapshot after it. -/
lemma advances_patch {snapshot previous : WorldStateSnapshot} (h : snapshot.NoNullField) :
    Advances (((snapshot.mergePatchFrom previous).map WorldStateItem.ofPatch).map
      RolloutItem.worldState).toList (some previous) (some snapshot) := by
  cases hpatch : snapshot.mergePatchFrom previous with
  | none =>
    rw [mergePatchFrom_eq_none.1 hpatch]
    exact ⟨by simp, rfl⟩
  | some patch =>
    refine ⟨fun item hitem => ?_, applyMergePatch_mergePatchFrom h hpatch⟩
    rw [mem_singleton.1 hitem]
    rfl

variable (h : ContextManager) (worldState : WorldState)

lemma advances_updateWorldState :
    Advances ((h.updateWorldState worldState).2.map RolloutItem.worldState).toList
      h.worldStateBaseline (some worldState.snapshot) := by
  rw [updateWorldState]
  cases h.worldStateBaseline with
  | none => exact advances_full _
  | some previous => exact advances_patch (noNullField_snapshot worldState)

lemma advances_beginTurn : Advances ((h.beginTurn worldState).2.map RolloutItem.worldState).toList
      h.worldStateBaseline (some worldState.snapshot) := by
  rw [beginTurn]
  split
  · exact advances_full _
  · exact advances_updateWorldState h worldState

lemma worldStateBaseline_beginTurn :
    (h.beginTurn worldState).1.worldStateBaseline = some worldState.snapshot := by
  rw [beginTurn]
  split <;> rfl

end

namespace Session

variable {reading : Reading} {s : Session}

/-- The rollout says what the baseline is. -/
structure Synced (s : Session) : Prop where
  isRollback : ∀ item ∈ s.rollout, item.isRollback = false
  baseline : s.history.worldStateBaseline = s.rollout.foldl replayWorldState none

variable (h : Synced s)
include h

/-- What is written goes with the change of the baseline. -/
lemma Synced.of_advances {s' : Session} (hrollout : s'.rollout = s.rollout ++ items)
    (hitems : Advances items s.history.worldStateBaseline s'.history.worldStateBaseline) :
    Synced s' := by
  have hadvances : Advances s'.rollout none s'.history.worldStateBaseline := by
    rw [hrollout]
    exact Advances.append ⟨h.isRollback, h.baseline.symm⟩ hitems
  exact ⟨hadvances.isRollback, hadvances.replay.symm⟩

lemma Synced.recordOther (item : OtherItem) : Synced (s.recordOther reading item) := by
  obtain ⟨item, hitem⟩ := item
  have hother : Advances [item] s.history.worldStateBaseline s.history.worldStateBaseline :=
    advances_of_isOther fun other hmem => by rw [mem_singleton.1 hmem]; exact hitem
  cases item <;> exact h.of_advances rfl hother

/-- The beginning of a turn sets the baseline to the turn's world state. -/
lemma Synced.recordContextUpdates (worldState : WorldState)
    (turnContextItem : TurnContextItem) (contextItems : List ResponseItem) :
    let s' := s.recordContextUpdates reading worldState turnContextItem contextItems
    Synced s' ∧ s'.history.worldStateBaseline = some worldState.snapshot := by
  have hbaseline := worldStateBaseline_beginTurn s.history worldState
  have hrecord := advances_beginTurn s.history worldState
  unfold Session.recordContextUpdates
  generalize s.history.beginTurn worldState = update at hbaseline hrecord ⊢
  obtain ⟨history, worldStateItem⟩ := update
  have hitems := (advances_responseItems contextItems).append hrecord
  dsimp only at hbaseline ⊢
  split
  next hnothing =>
    obtain rfl := Option.isNone_iff_eq_none.1 (Bool.and_eq_true_iff.1 hnothing).2
    exact ⟨h.of_advances (append_nil _).symm (hbaseline ▸ hrecord), hbaseline⟩
  next =>
    split
    · refine ⟨h.of_advances (List.append_assoc ..) ?_, hbaseline⟩
      exact hbaseline ▸ hitems
    · have hcontext : Advances [.turnContext turnContextItem] (some worldState.snapshot)
          (some worldState.snapshot) := advances_of_isOther (by simp [RolloutItem.isOther])
      have hrollout : s.rollout ++ contextItems.map .responseItem ++
            (worldStateItem.map RolloutItem.worldState).toList ++ [.turnContext turnContextItem] =
          s.rollout ++ (contextItems.map .responseItem ++
            (worldStateItem.map RolloutItem.worldState).toList ++
            [.turnContext turnContextItem]) := by
        simp
      exact ⟨h.of_advances hrollout (hbaseline ▸ hitems.append hcontext), hbaseline⟩

/-- A step takes the baseline on from the world state that the turn has at hand. -/
lemma Synced.recordStepWorldStateIfChanged {previous : WorldState}
    (hprevious : s.history.worldStateBaseline = some previous.snapshot) (worldState : WorldState)
    (items : List ResponseItem) :
    Synced (s.recordStepWorldStateIfChanged reading previous worldState items) := by
  refine h.of_advances (List.append_assoc ..) ((advances_responseItems items).append ?_)
  rw [hprevious]
  exact advances_patch (noNullField_snapshot worldState)

lemma Synced.replaceCompactedHistory (items : List ResponseItem)
    (referenceContextItem : Option TurnContextItem) (worldState : Option WorldState)
    (compactedItem : CompactedItem) :
    let s' := s.replaceCompactedHistory items referenceContextItem worldState compactedItem
    Synced s' ∧ s'.history.worldStateBaseline = worldState.map (·.snapshot) := by
  have hcompacted : Advances [.compacted { compactedItem with replacementHistory := some items }]
      s.history.worldStateBaseline none := ⟨by simp [RolloutItem.isRollback], rfl⟩
  have hreference : ∀ baseline, Advances (referenceContextItem.map RolloutItem.turnContext).toList
      baseline baseline := fun baseline => advances_of_isOther fun item hitem => by
    obtain ⟨source, -, rfl⟩ := Option.map_eq_some_iff.1 (Option.mem_toList.1 hitem)
    rfl
  cases worldState with
  | none =>
    refine ⟨h.of_advances ?_ (hcompacted.append (hreference none)), rfl⟩
    simp [Session.replaceCompactedHistory, persistRolloutItems, persistWorldState, replaceHistory]
  | some worldState =>
    refine ⟨h.of_advances ?_ (hcompacted.append ((advances_full worldState.snapshot).append
      (hreference (some worldState.snapshot)))), rfl⟩
    simp [Session.replaceCompactedHistory, persistRolloutItems, persistWorldState, replaceHistory]

omit h

/-- Within a turn the baseline is the world state that the turn has at hand. -/
lemma Synced.actInTurn {worldState : WorldState} (h : Synced s)
    (hbaseline : s.history.worldStateBaseline = some worldState.snapshot) (action : TurnAction) :
    let t := actInTurn reading (s, worldState) action
    Synced t.1 ∧ t.1.history.worldStateBaseline = some t.2.snapshot := by
  cases action with
  | step worldState items => exact ⟨h.recordStepWorldStateIfChanged hbaseline worldState items, rfl⟩
  | compact items referenceContextItem compactedItem =>
    exact h.replaceCompactedHistory items (some referenceContextItem) (some worldState)
      compactedItem
  | record item =>
    refine ⟨h.recordOther item, ?_⟩
    obtain ⟨item, hitem⟩ := item
    cases item <;> exact hbaseline

lemma Synced.foldl_actInTurn {worldState : WorldState} (h : Synced s)
    (hbaseline : s.history.worldStateBaseline = some worldState.snapshot)
    (actions : List TurnAction) :
    Synced (actions.foldl (Session.actInTurn reading) (s, worldState)).1 := by
  induction actions generalizing s worldState with
  | nil => exact h
  | cons action actions ih =>
    obtain ⟨hact, hbaseline⟩ := @Synced.actInTurn reading _ _ h hbaseline action
    exact ih hact hbaseline

lemma Synced.act (h : Synced s) (action : SessionAction) : Synced (s.act reading action) := by
  cases action with
  | turn worldState turnContextItem contextItems actions =>
    obtain ⟨hturn, hbaseline⟩ :=
      @Synced.recordContextUpdates reading _ h worldState turnContextItem contextItems
    exact hturn.foldl_actInTurn hbaseline actions
  | compact items referenceContextItem worldState compactedItem =>
    exact (h.replaceCompactedHistory items referenceContextItem worldState compactedItem).1
  | record item => exact h.recordOther item

lemma Synced.run (h : Synced s) (actions : List SessionAction) :
    Synced (s.run reading actions) := by
  induction actions generalizing s with
  | nil => exact h
  | cons action actions ih => exact ih (h.act action)

lemma synced_resume
    (h : ∀ item ∈ rollout, item.isRollback = false) : Synced (resume reading rollout) := by
  have hreconstruct := worldStateBaseline_reconstruct reading h
  rw [resume]
  cases hbaseline : (reconstructHistoryFromRollout reading rollout).worldStateBaseline with
  | none | some worldState => exact ⟨h, hbaseline.symm.trans hreconstruct⟩

end Session

/-- **World states survive their persistence.**  Between snapshots without null fields there is no
patch exactly if they are equal, and a patch leads from the one to the other.  A session that goes
on from a rollout without rollbacks, and then takes any turns and compactions, finds the baseline
that it has whenever it is resumed. -/
theorem worldStateBaseline_survives :
    (∀ previous current : WorldStateSnapshot, previous.NoNullField → current.NoNullField →
      (current.mergePatchFrom previous = none ↔ previous = current) ∧
      ∀ patch, current.mergePatchFrom previous = some patch →
        previous.applyMergePatch patch = some current) ∧
    ∀ (reading : Reading) (rollout : List RolloutItem) (actions : List SessionAction),
      (∀ item ∈ rollout, item.isRollback = false) →
      let s := (Session.resume reading rollout).run reading actions
      (reconstructHistoryFromRollout reading s.rollout).worldStateBaseline =
        s.history.worldStateBaseline := by
  refine ⟨fun previous current _ hcurrent => ⟨mergePatchFrom_eq_none,
    fun patch hpatch => applyMergePatch_mergePatchFrom hcurrent hpatch⟩, ?_⟩
  intro reading rollout actions hrollout
  have hresume : Session.Synced (Session.resume reading rollout) := Session.synced_resume hrollout
  have hsynced : Session.Synced ((Session.resume reading rollout).run reading actions) :=
    hresume.run actions
  exact (worldStateBaseline_reconstruct reading hsynced.isRollback).trans hsynced.baseline.symm

/-- A section with a text and a number. -/
def oneEnvironment : WorldStateSnapshot :=
  ⟨[⟨"environments".toList, .object [⟨"cwd".toList, .string "/a".toList⟩,
    ⟨"shell".toList, .number "1".toList⟩]⟩], by decide +kernel⟩

/-- The text has become an object, the number is gone, and an array is new. -/
def changedEnvironment : WorldStateSnapshot :=
  ⟨[⟨"environments".toList, .object [⟨"cwd".toList, .object []⟩,
    ⟨"tools".toList, .array [.null]⟩]⟩], by decide +kernel⟩

/-- The world states of these snapshots. -/
def oneState : WorldState :=
  ⟨[("environments".toList, some ⟨.object [⟨"cwd".toList, .string "/a".toList⟩,
    ⟨"shell".toList, .number "1".toList⟩], by decide +kernel⟩)]⟩

def changedState : WorldState :=
  ⟨[("environments".toList, some ⟨.object [⟨"cwd".toList, .object []⟩,
    ⟨"tools".toList, .array [.null]⟩], by decide +kernel⟩)]⟩

/-- A turn with a step in another world state, and a compaction that goes back to the first one. -/
def changingActions : List SessionAction :=
  [.turn oneState ⟨none, "m".toList, none, none, []⟩ [] [.step changedState []],
    .compact [] none (some oneState) ⟨[], some [], none, none, none, none⟩]

def changedSession : Session := (Session.resume plainReading []).run plainReading changingActions

theorem worldStateBaseline_survives_environment :
    changedEnvironment.mergePatchFrom oneEnvironment = some ⟨.object [⟨"environments".toList,
        .object [⟨"cwd".toList, .object []⟩, ⟨"shell".toList, .null⟩,
          ⟨"tools".toList, .array [.null]⟩]⟩], by decide +kernel⟩ ∧
    oneEnvironment.applyMergePatch ⟨.object [⟨"environments".toList,
        .object [⟨"cwd".toList, .object []⟩, ⟨"shell".toList, .null⟩,
          ⟨"tools".toList, .array [.null]⟩]⟩], by decide +kernel⟩ = some changedEnvironment ∧
    changedSession.history.worldStateBaseline = some oneEnvironment ∧
    (reconstructHistoryFromRollout plainReading changedSession.rollout).worldStateBaseline =
      changedSession.history.worldStateBaseline := by
  refine ⟨by decide +kernel, ?_, by decide +kernel, ?_⟩
  · exact (worldStateBaseline_survives.1 oneEnvironment changedEnvironment (by decide +kernel)
      (by decide +kernel)).2 _ (by decide +kernel)
  · exact worldStateBaseline_survives.2 plainReading [] changingActions (by simp)

end TokenCode.Rollout
