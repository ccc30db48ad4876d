/-
What the settings are after rollbacks.

A turn may be steered with further user messages, and messages of other agents may come in. The
first pass of the reconstruction takes back one turn per unit of a rollback, the second pass one
message, so that the settings of the session and its history can belong to different turns. The main
result, `restoredSettings_iff`, says when they belong to the same one.
-/
import TokenCode.Rollout.Rollback

namespace TokenCode.Rollout

open List Text Undo

/-- A complete turn with its context and at least one user message. -/
structure SteeredTurn (reading : Reading) where
  id : Text
  startedAt : Option ℤ := none
  completedAt : Option ℤ := none
  durationMs : Option ℤ := none
  context : TurnContextItem
  before : List RolloutItem
  after : List RolloutItem
  context_turnId : context.turnId.all (· == id) = true
  before_body : ∀ item ∈ before, isTurnBody item = true
  after_body : ∀ item ∈ after, isTurnBody item = true
  exists_userMessage : ∃ item ∈ responseItems (before ++ after),
    isUserMessage item = true ∧ isUserTurnBoundary reading item = true

variable {reading : Reading} (t : SteeredTurn reading)
  (entries : List (Event (SteeredTurn reading)))
  (history : List (SteeredTurn reading × ResponseItem)) (state : ContextManager × Bool)

namespace SteeredTurn

/-- The items of a turn. -/
def items (t : SteeredTurn reading) : List RolloutItem :=
  .eventMsg (.turnStarted t.id t.startedAt) :: (t.before ++ .turnContext t.context ::
    (t.after ++ [.eventMsg (.turnComplete t.id t.completedAt t.durationMs)]))

/-- What is recorded of a turn. -/
def recorded (t : SteeredTurn reading) : List ResponseItem :=
  Rollout.recorded reading (responseItems (t.before ++ t.after))

/-- The items of a turn that count as the beginning of a user turn: its user messages, and the
messages of other agents. -/
def boundaries (t : SteeredTurn reading) : List ResponseItem :=
  t.recorded.filter (isUserTurnBoundary reading)

/-- The settings of a turn. -/
def settings (t : SteeredTurn reading) : PreviousTurnSettings :=
  ⟨t.context.model, t.context.compHash, t.context.realtimeActive⟩

/-- The rollout of turns and rollbacks. -/
def rolloutOf (entries : List (Event (SteeredTurn reading))) : List RolloutItem :=
  entries.flatMap fun
    | .put t => t.items
    | .undo n => [.eventMsg (.threadRolledBack n)]

/-- The history in which every item has its turn, after one more turn or rollback. -/
def attributeStep (history : List (SteeredTurn reading × ResponseItem)) :
    Event (SteeredTurn reading) → List (SteeredTurn reading × ResponseItem)
  | .put t => history ++ t.recorded.map fun item => (t, item)
  | .undo n => history.take (keptLength reading (history.map Prod.snd) n)

/-- The history in which every item has its turn. -/
def attributed (entries : List (Event (SteeredTurn reading))) :
    List (SteeredTurn reading × ResponseItem) :=
  entries.foldl attributeStep []

/-- The turn of the last user message that is left. -/
def newestUserTurn (entries : List (Event (SteeredTurn reading))) : Option (SteeredTurn reading) :=
  ((attributed entries).filter fun item =>
    isUserMessage item.2 && isUserTurnBoundary reading item.2).getLast?.map Prod.fst

/-- A turn as a log of what counts as the beginning of a user turn. -/
def byBoundary : Event (SteeredTurn reading) → List (Event (SteeredTurn reading × ResponseItem))
  | .put t => t.boundaries.map fun item => .put (t, item)
  | .undo n => [.undo n]

/-- The turn of the last user message that is left if rollbacks take back single boundaries. -/
def newestByBoundary (entries : List (Event (SteeredTurn reading))) :
    Option (SteeredTurn reading) :=
  ((survivors (entries.flatMap byBoundary)).filter fun item =>
    isUserMessage item.2).getLast?.map Prod.fst

/-! ### The second pass -/

lemma replay_items :
    (t.items.foldl (replayItem reading) state).1.items = state.1.items ++ t.recorded ∧
      (t.items.foldl (replayItem reading) state).2 = state.2 := by
  have hitems : t.items.foldl (replayItem reading) state =
      t.after.foldl (replayItem reading) (t.before.foldl (replayItem reading) state) := by
    rw [items, foldl_cons, foldl_append, foldl_cons, foldl_append]
    rfl
  obtain ⟨hbefore, hlegacy⟩ := replay_body t.before_body state
  obtain ⟨hafter, hlegacy'⟩ := replay_body t.after_body (t.before.foldl (replayItem reading) state)
  rw [hitems, hafter, hlegacy', hbefore, hlegacy, recorded, responseItems_append, recorded_append,
    List.append_assoc]
  exact ⟨rfl, rfl⟩

/-- The second pass builds the history that is attributed to turns. -/
lemma replay_rolloutOf (hstate : state.1.items = history.map Prod.snd) :
    ((rolloutOf entries).foldl (replayItem reading) state).1.items =
        (entries.foldl attributeStep history).map Prod.snd ∧
      ((rolloutOf entries).foldl (replayItem reading) state).2 = state.2 := by
  induction entries generalizing history state with
  | nil => exact ⟨hstate, rfl⟩
  | cons entry entries ih =>
    rw [rolloutOf, flatMap_cons, foldl_append, foldl_cons, ← rolloutOf]
    cases entry with
    | put t =>
      obtain ⟨hitems, hlegacy⟩ := t.replay_items state
      have hnext := ih (attributeStep history (.put t)) (t.items.foldl (replayItem reading) state)
        (by simp [attributeStep, hitems, hstate])
      exact ⟨hnext.1, hnext.2.trans hlegacy⟩
    | undo n =>
      have hdrop := (state.1.exists_take_dropLastNUserTurns reading n).1
      refine ih (attributeStep history (.undo n)) _ ?_
      rw [attributeStep, map_take, ← hstate]
      exact hdrop

/-! ### The user messages that are left -/

/-- The boundaries that the history keeps are the survivors of their log. -/
lemma filter_attributed : (entries.foldl attributeStep history).filter (fun item =>
        isUserTurnBoundary reading item.2) = (entries.flatMap byBoundary).foldl
        (act (fun entries entry => entries ++ [entry]) fun n entries => entries.rdrop n)
        (history.filter fun item => isUserTurnBoundary reading item.2) := by
  induction entries generalizing history with
  | nil => rfl
  | cons entry entries ih =>
    rw [foldl_cons, ih, flatMap_cons, foldl_append]
    cases entry with
    | put t =>
      have hput : byBoundary (.put t) = (t.boundaries.map fun item => (t, item)).map Event.put := by
        simp [byBoundary]
      rw [hput, foldl_act_map_put, attributeStep, filter_append, filter_map]
      rfl
    | undo n =>
      have hdrop := (ContextManager.exists_take_dropLastNUserTurns reading
        { ContextManager.new with items := history.map Prod.snd } n).2
      have htake := filter_take_of_map (f := Prod.snd) hdrop
      simp only [Function.comp_def] at htake
      rw [attributeStep, htake]
      simp [byBoundary, act, List.rdrop]

lemma newestUserTurn_eq : newestUserTurn entries = newestByBoundary entries := by
  have hleft : (attributed entries).filter (fun item => isUserTurnBoundary reading item.2) =
      survivors (entries.flatMap byBoundary) := filter_attributed entries []
  rw [newestUserTurn, newestByBoundary, ← hleft, filter_filter]

end SteeredTurn

/-! ### The first pass -/

variable {rollout newer : List RolloutItem}

namespace ReverseScan

/-- Without a replacement history the first pass goes on. -/
lemma scan_cons_of_base {item : RolloutItem}
    (h : (scan reading rollout newer).baseReplacementHistory = none) :
    scan reading rollout (item :: newer) =
      visit reading newer (scan reading rollout newer) item := by
  simp [scan, complete, h]

/-- Items inside of a turn decide whether its segment counts. -/
lemma scan_body {items : List RolloutItem} {s : ReverseScan}
    {segment : ActiveReplaySegment} (hitems : ∀ item ∈ items, isTurnBody item = true)
    (hs : scan reading rollout newer = { s with activeSegment := some segment })
    (hbase : s.baseReplacementHistory = none) : ∃ replay, scan reading rollout (items ++ newer) =
      { s with activeSegment := some { segment with
          countsAsUserTurn := segment.countsAsUserTurn || items.any (marks reading)
          worldStateReplay := replay } } := by
  induction items with
  | nil => exact ⟨segment.worldStateReplay, by simpa using hs⟩
  | cons item items ih =>
    obtain ⟨replay, ih⟩ := ih (forall_mem_cons.1 hitems).2
    have hitem := hitems item mem_cons_self
    rw [cons_append, scan_cons_of_base (by rw [ih]; exact hbase), ih]
    cases item with
    | responseItem item =>
      refine ⟨replay, ?_⟩
      simp [visit, onSegment, ReverseScan.segment, marks, Bool.or_left_comm, Bool.or_comm]
    | interAgentCommunication communication =>
      exact ⟨replay, by simp [visit, onSegment, ReverseScan.segment, marks]⟩
    | interAgentCommunicationMetadata triggerTurn => exact ⟨replay, by simp [visit, marks]⟩
    | worldState item =>
      refine ⟨replay ++ [.worldState item], ?_⟩
      simp [visit, onSegment, ReverseScan.segment, marks]
    | eventMsg event =>
      refine ⟨replay, ?_⟩
      cases event with
      | userMessage payload => simp [visit, onSegment, ReverseScan.segment, marks]
      | threadRolledBack | turnStarted | turnComplete | turnAborted => cases hitem
      | _ => rfl
    | _ => cases hitem

end ReverseScan

namespace SteeredTurn

open ReverseScan

lemma any_marks : (t.after.any (marks reading) || t.before.any (marks reading)) = true := by
  obtain ⟨item, hitem, huser, hboundary⟩ := t.exists_userMessage
  obtain ⟨source, hsource, hsome⟩ := mem_filterMap.1 hitem
  obtain rfl : source = .responseItem item := by
    cases source with
    | interAgentCommunication communication =>
      obtain rfl := Option.some.inj hsome
      cases huser
    | _ => simp_all
  rw [Bool.or_comm, ← any_append]
  exact any_eq_true.2 ⟨_, hsource, hboundary⟩

/-- The segment that the first pass makes of a turn, from its context on. -/
def segmentOf (t : SteeredTurn reading) (countsAsUserTurn : Bool)
    (worldStateReplay : List RolloutItem) : ActiveReplaySegment where
  turnId := some t.id
  countsAsUserTurn := countsAsUserTurn
  previousTurnSettings := some t.settings
  referenceContextItem := .latest t.context
  worldStateReplay := worldStateReplay

/-- The first pass over a turn finalizes a segment with the context of the turn. -/
lemma scan_items (hactive : (scan reading rollout newer).activeSegment = none)
    (hbase : (scan reading rollout newer).baseReplacementHistory = none) :
    ∃ replay, scan reading rollout (t.items ++ newer) =
      (scan reading rollout newer).finalizeActiveSegment (t.segmentOf true replay) := by
  obtain ⟨s, hs⟩ : ∃ s, scan reading rollout newer = s := ⟨_, rfl⟩
  rw [hs] at hactive hbase ⊢
  -- from the end of the turn to its start
  have hcomplete : scan reading rollout
      (.eventMsg (.turnComplete t.id t.completedAt t.durationMs) :: newer) =
        { s with activeSegment := some { turnId := some t.id } } := by
    rw [scan_cons_of_base (by rw [hs]; exact hbase), hs]
    simp [visit, onSegment, ReverseScan.segment, hactive]
  obtain ⟨replay, hafter⟩ := scan_body t.after_body hcomplete hbase
  have hcontext : scan reading rollout (.turnContext t.context :: (t.after ++
      .eventMsg (.turnComplete t.id t.completedAt t.durationMs) :: newer)) =
        { s with activeSegment := some (t.segmentOf (t.after.any (marks reading)) replay) } := by
    rw [scan_cons_of_base (by rw [hafter]; exact hbase), hafter]
    simp [visit, onSegment, ReverseScan.segment, turnContextSegment, turnIdsAreCompatible,
      t.context_turnId, segmentOf, settings]
  obtain ⟨replay', hbefore⟩ := scan_body t.before_body hcontext hbase
  refine ⟨replay', ?_⟩
  have hitems : t.items ++ newer = .eventMsg (.turnStarted t.id t.startedAt) ::
      (t.before ++ .turnContext t.context :: (t.after ++
        .eventMsg (.turnComplete t.id t.completedAt t.durationMs) :: newer)) := by
    simp [items]
  have hidle : { s with activeSegment := none } = s := by rw [← hactive]
  rw [hitems, scan_cons_of_base (by rw [hbefore]; exact hbase), hbefore]
  simp [visit, turnIdsAreCompatible, hidle, segmentOf, t.any_marks]

/-- The context that the first pass takes from the newest turn. -/
def reference : Option (SteeredTurn reading) → TurnReferenceContextItem
  | some t => .latest t.context
  | none => .neverSet

/-- The first pass finds the newest turn that survives. -/
lemma scan_rolloutOf (rollout : List RolloutItem) (entries : List (Event (SteeredTurn reading))) :
    (scan reading rollout (rolloutOf entries)).activeSegment = none ∧
      (scan reading rollout (rolloutOf entries)).baseReplacementHistory = none ∧
      (scan reading rollout (rolloutOf entries)).rolloutSuffix = rollout ∧
      (scan reading rollout (rolloutOf entries)).pendingRollbackTurns = excess entries ∧
      (scan reading rollout (rolloutOf entries)).previousTurnSettings =
        (kept entries).getLast?.map settings ∧
      (scan reading rollout (rolloutOf entries)).referenceContextItem =
        reference (kept entries).getLast? := by
  induction entries with
  | nil => exact ⟨rfl, rfl, rfl, rfl, rfl, rfl⟩
  | cons entry entries ih =>
    obtain ⟨hactive, hbase, hsuffix, hpending, hsettings, hreference⟩ := ih
    rw [rolloutOf, flatMap_cons, ← rolloutOf]
    cases entry with
    | put t =>
      obtain ⟨replay, hscan⟩ := t.scan_items hactive hbase
      rw [hscan]
      simp only [finalizeActiveSegment, segmentOf, hpending]
      rcases hexcess : excess entries with _ | e
      · simp only [lt_irrefl, if_false, excess, kept, hexcess, if_true, hsettings, hreference]
        refine ⟨hactive, by simp [hbase], hsuffix, by simp, ?_, ?_⟩
        · rcases hkept : (kept entries).getLast? with _ | newest
          · simp [getLast?_eq_none_iff.1 hkept]
          · simp [getLast?_cons, hkept]
        · rcases hkept : (kept entries).getLast? with _ | newest
          · simp [getLast?_eq_none_iff.1 hkept, reference]
          · simp [getLast?_cons, hkept, reference]
      · simp only [Nat.succ_pos, if_true, excess, kept, hexcess, if_neg e.succ_ne_zero]
        exact ⟨hactive, hbase, hsuffix, by simp, hsettings, hreference⟩
    | undo n =>
      rw [singleton_append, scan_cons_of_base hbase]
      exact ⟨hactive, hbase, hsuffix, by simp [visit, excess, hpending, Nat.add_comm], hsettings,
        hreference⟩

/-! ### Settings and history -/

section

variable (entries : List (Event (SteeredTurn reading)))

lemma finish_scan : (scan reading (rolloutOf entries) (rolloutOf entries)).finish =
    scan reading (rolloutOf entries) (rolloutOf entries) := by
  simp [finish, (scan_rolloutOf (rolloutOf entries) entries).1]

lemma history_rolloutOf : (reconstructHistoryFromRollout reading (rolloutOf entries)).history =
    (attributed entries).map Prod.snd := by
  obtain ⟨-, hbase, hsuffix, -⟩ := scan_rolloutOf (rolloutOf entries) entries
  rw [history_reconstructHistoryFromRollout, finish_scan]
  simp only [hbase, hsuffix]
  exact (replay_rolloutOf entries [] (baseHistory none, false) rfl).1

lemma previousTurnSettings_rolloutOf :
    (reconstructHistoryFromRollout reading (rolloutOf entries)).previousTurnSettings =
      (survivors entries).getLast?.map settings := by
  rw [survivors_eq_kept, ← (scan_rolloutOf (rolloutOf entries) entries).2.2.2.2.1]
  exact congrArg ReverseScan.previousTurnSettings (finish_scan entries)

lemma referenceContextItem_rolloutOf :
    (reconstructHistoryFromRollout reading (rolloutOf entries)).referenceContextItem =
      (survivors entries).getLast?.map SteeredTurn.context := by
  obtain ⟨-, hbase, hsuffix, -, -, hreference⟩ := scan_rolloutOf (rolloutOf entries) entries
  have hlegacy := (replay_rolloutOf entries [] (baseHistory none, false) rfl).2
  simp only [reconstructHistoryFromRollout, finish_scan, hbase, hsuffix, hreference, hlegacy,
    survivors_eq_kept]
  cases (kept entries).getLast? <;> rfl

end

/-- **When the restored settings belong to the history.**  For turns with one or more user messages
and rollbacks in any order, the settings and the context item are those of the turn of the last user
message that is left, exactly if the newest turn that survives when rollbacks are counted in turns
has the context of the turn of the last user message that survives when they are counted in user
messages and messages of other agents. -/
theorem restoredSettings_iff (reading : Reading) (entries : List (Event (SteeredTurn reading))) :
    (reconstructHistoryFromRollout reading (rolloutOf entries)).history =
        (attributed entries).map Prod.snd ∧
      (((reconstructHistoryFromRollout reading (rolloutOf entries)).previousTurnSettings =
          (newestUserTurn entries).map settings ∧
        (reconstructHistoryFromRollout reading (rolloutOf entries)).referenceContextItem =
          (newestUserTurn entries).map SteeredTurn.context) ↔
        (survivors entries).getLast?.map SteeredTurn.context =
          (newestByBoundary entries).map SteeredTurn.context) := by
  refine ⟨history_rolloutOf entries, ?_⟩
  rw [previousTurnSettings_rolloutOf, referenceContextItem_rolloutOf, newestUserTurn_eq]
  refine ⟨fun h => h.2, fun h => ⟨?_, h⟩⟩
  -- the settings are read off the context
  have hsettings : (settings : SteeredTurn reading → PreviousTurnSettings) =
      (fun context => ⟨context.model, context.compHash, context.realtimeActive⟩) ∘ context := rfl
  rw [hsettings, ← Option.map_map, h, Option.map_map]

/-- A turn with the given user messages and the model `id`. -/
def steeredTurnOf (id : Text) (first : Text) (more : List Text) : SteeredTurn plainReading where
  id := id
  context := ⟨some id, id, none, none, []⟩
  before := []
  after := (first :: more).map fun text => .responseItem (userMessage text)
  context_turnId := by simp
  before_body := by simp
  after_body := by simp [isTurnBody]
  exists_userMessage := ⟨userMessage first, by simp [responseItems], rfl, rfl⟩

/-- A turn, and a turn that is steered and of which the last message is taken back. -/
def steeredRollback : List (Event (SteeredTurn plainReading)) :=
  [.put (steeredTurnOf "a".toList "one".toList []),
    .put (steeredTurnOf "b".toList "two".toList ["three".toList]), .undo 1]

/-- The history still has a message of the second turn, the settings are those of the first. -/
theorem restoredSettings_steeredRollback :
    (reconstructHistoryFromRollout plainReading (rolloutOf steeredRollback)).history =
        [userMessage "one".toList, userMessage "two".toList] ∧
      (newestUserTurn steeredRollback).map SteeredTurn.id = some "b".toList ∧
      (reconstructHistoryFromRollout plainReading
          (rolloutOf steeredRollback)).previousTurnSettings = some ⟨"a".toList, none, none⟩ ∧
      (newestUserTurn steeredRollback).map settings = some ⟨"b".toList, none, none⟩ ∧
      (reconstructHistoryFromRollout plainReading
          (rolloutOf steeredRollback)).referenceContextItem =
        some ⟨some "a".toList, "a".toList, none, none, []⟩ := by
  decide +kernel

end SteeredTurn

end TokenCode.Rollout
