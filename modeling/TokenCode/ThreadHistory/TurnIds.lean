/-
The turns of a thread while it is built, and their ids.

The open turn is shown like the finished ones (`view`), and what is built is what is shown
(`buildTurnsFromRolloutItems_eq_view`). An action either takes back the newest turns or opens at
most one (`turnIds_perform`), so that in a rollout whose turns have distinct ids the turns that are
shown have distinct ids (`nodup_turnIds_builderAfter`).
-/
import TokenCode.ThreadHistory.Steps

namespace TokenCode.ThreadHistory

open List Text Rollout Keyed

variable {f : Turn → Turn} {turnId : Text}

namespace ThreadHistoryBuilder

variable {rendering : Rendering} {b : ThreadHistoryBuilder} {turn : PendingTurn}

/-- The turns, the open one included. -/
def view (b : ThreadHistoryBuilder) : List Turn :=
  b.turns ++ (b.currentTurn.map PendingTurn.toTurn).toList

/-- The open turn would be kept if it were finished. -/
def Kept (b : ThreadHistoryBuilder) : Prop :=
  ∀ turn, b.currentTurn = some turn → isKept turn = true

/-! ### Views -/

lemma view_of_current (h : b.currentTurn = some turn) : b.view = b.turns ++ [turn.toTurn] := by
  simp [view, h]

lemma view_of_none (h : b.currentTurn = none) : b.view = b.turns := by
  simp [view, h]

lemma mem_view_of_current (h : b.currentTurn = some turn) : turn.toTurn ∈ b.view := by
  simp [view, h]

/-- Finishing the open turn does not change the view. -/
lemma view_finishCurrentTurn (hkept : b.Kept) :
    b.finishCurrentTurn.view = b.view ∧ b.finishCurrentTurn.currentTurn = none ∧
      b.finishCurrentTurn.turns = b.view ∧ b.finishCurrentTurn.activeChangeSet = b.activeChangeSet ∧
      b.finishCurrentTurn.nextItemIndex = b.nextItemIndex ∧
      b.finishCurrentTurn.currentRolloutIndex = b.currentRolloutIndex := by
  unfold finishCurrentTurn
  split
  · next turn hturn =>
    rw [if_pos (hkept turn hturn)]
    simp [view, hturn]
  · next hnone => simp [view, hnone]

lemma finish_eq_view (hkept : b.Kept) : b.finish = b.view :=
  (view_finishCurrentTurn hkept).2.2.1

lemma view_finishImplicitTurn (hkept : b.Kept) : b.finishImplicitTurn.view = b.view ∧
      b.finishImplicitTurn.activeChangeSet = b.activeChangeSet ∧
      b.finishImplicitTurn.nextItemIndex = b.nextItemIndex ∧
      b.finishImplicitTurn.currentRolloutIndex = b.currentRolloutIndex ∧
      (∀ turn, b.finishImplicitTurn.currentTurn = some turn → b.currentTurn = some turn) := by
  obtain ⟨hview, hnone, -, hchanges, hindex, hcurrent⟩ := view_finishCurrentTurn hkept
  unfold finishImplicitTurn
  split
  · split
    · exact ⟨hview, hchanges, hindex, hcurrent, fun turn hturn => by simp [hnone] at hturn⟩
    · exact ⟨rfl, rfl, rfl, rfl, fun turn hturn => hturn⟩
  · exact ⟨rfl, rfl, rfl, rfl, fun turn hturn => hturn⟩

/-- The open turn, or a new one. -/
lemma ensureTurn_cases (rendering : Rendering) (b : ThreadHistoryBuilder) :
    (∃ turn, b.currentTurn = some turn ∧ ensureTurn rendering b = (turn, b)) ∨
      (b.currentTurn = none ∧ ensureTurn rendering b =
        (newTurn rendering b none, b.openTurn (newTurn rendering b none))) := by
  unfold ensureTurn
  cases b.currentTurn with
  | none => exact .inr ⟨rfl, rfl⟩
  | some turn => exact .inl ⟨turn, rfl, rfl⟩

/-! ### The open turn is kept -/

lemma kept_setItems (turn : PendingTurn) {items : List ThreadItem} (h : items ≠ [])
    (item : ThreadItem) : (b.setItems turn items item).Kept := by
  intro turn' hturn
  obtain rfl := Option.some.inj hturn
  simp [isKept, h]

lemma kept_updateCurrent (hturn : isKept turn = true)
    (hitems : (f turn.toTurn).items = turn.items) : (b.updateCurrent turn f).Kept := by
  intro turn' hturn'
  obtain rfl := Option.some.inj hturn'
  simpa [isKept, hitems] using hturn

lemma kept_updateTurn (hb : b.Kept) (turnId : Text) (f : Turn → Turn) :
    (b.updateTurn turnId f).Kept := by
  unfold updateTurn
  split
  · exact hb
  · exact hb

lemma kept_of_none (h : b.currentTurn = none) : b.Kept := fun turn hturn => by
  rw [h] at hturn
  cases hturn

lemma kept_finishCurrentTurn (hb : b.Kept) : b.finishCurrentTurn.Kept :=
  kept_of_none (view_finishCurrentTurn hb).2.1

lemma kept_perform (hb : b.Kept) (action : Action) : (perform rendering b action).Kept := by
  cases action with
  | nothing => exact hb
  | push item => exact kept_setItems _ (by simp) item
  | pushNew item | pushUser item => exact kept_setItems _ (by simp) _
  | reasoning summary content =>
    change (handleReasoning rendering b summary content).Kept
    unfold handleReasoning
    simp only
    split
    all_goals exact kept_setItems _ (by simp) _
  | upsert item => exact kept_setItems _ (upsert_ne_nil _ _ _) item
  | upsertIn turnId item =>
    change (b.upsertItemInTurnId turnId item).Kept
    unfold upsertItemInTurnId
    split
    · exact kept_setItems _ (upsert_ne_nil _ _ _) item
    · split
      · exact hb
      · exact hb
  | compacted =>
    intro turn hturn
    obtain rfl := Option.some.inj hturn
    simp [isKept]
  | fail error =>
    simp only [perform]
    split
    · next turn hturn => exact kept_updateCurrent (hb turn hturn) rfl
    · exact hb
  | rollback numTurns => exact kept_finishCurrentTurn hb
  | start turnId startedAt =>
    intro turn hturn
    obtain rfl := Option.some.inj hturn
    simp [isKept]
  | complete turnId completedAt durationMs =>
    refine handleTurnComplete_cases (P := Kept) (fun turn hturn => ?_) (kept_updateTurn hb _ _) hb
    exact kept_finishCurrentTurn (kept_updateCurrent (hb turn hturn) rfl)
  | abort turnId completedAt durationMs =>
    refine handleTurnAborted_cases (P := Kept) (fun turn hturn => ?_)
      (fun _ => kept_updateTurn hb _ _) hb
    exact kept_updateCurrent (hb turn hturn) rfl

/-! ### Ids -/

/-- The id of a turn that an action opens. -/
def newTurnId (rendering : Rendering) (b : ThreadHistoryBuilder) : Action → Text
  | .start turnId _ => turnId
  | _ => (newTurn rendering b none).id

/-- A turn that is opened has an id that the other turns do not have. -/
def FreshTurn (rendering : Rendering) (b : ThreadHistoryBuilder) (action : Action) : Prop :=
  newTurnId rendering b action ∉ b.view.map Turn.id

/-- The ids of the turns that are shown. -/
def turnIds (b : ThreadHistoryBuilder) : List Text := b.view.map Turn.id

lemma turnIds_of_current (h : b.currentTurn = some turn) :
    b.turnIds = b.turns.map Turn.id ++ [turn.id] := by
  simp [turnIds, view_of_current h]

lemma turnIds_setItems (turn : PendingTurn) (items : List ThreadItem) (item : ThreadItem) :
    (b.setItems turn items item).turnIds = b.turns.map Turn.id ++ [turn.id] := by
  simp [turnIds, view, setItems, recordChangedItem]

lemma turnIds_updateCurrent (hturn : b.currentTurn = some turn)
    (hf : (f turn.toTurn).id = turn.id) : (b.updateCurrent turn f).turnIds = b.turnIds := by
  simp [turnIds, view, updateCurrent, recordChangedTurn, hturn, hf]

lemma turnIds_updateTurn (turnId : Text) (hf : ∀ turn, (f turn).id = turn.id) :
    (b.updateTurn turnId f).turnIds = b.turnIds := by
  unfold updateTurn
  split
  · simp [turnIds, view, recordChangedTurn, map_id_updateTurns hf]
  · rfl

/-- Where an item is put, a turn is opened if none is. -/
lemma turnIds_ensureTurn_setItems (rendering : Rendering) (b : ThreadHistoryBuilder)
    (items : List ThreadItem) (item : ThreadItem) :
    ((ensureTurn rendering b).2.setItems (ensureTurn rendering b).1 items item).turnIds =
        b.turnIds ∨
      ((ensureTurn rendering b).2.setItems (ensureTurn rendering b).1 items item).turnIds =
        b.turnIds ++ [(newTurn rendering b none).id] := by
  rw [turnIds_setItems]
  rcases ensureTurn_cases rendering b with ⟨turn, hturn, hensure⟩ | ⟨hnone, hensure⟩
  · rw [hensure]
    exact .inl (turnIds_of_current hturn).symm
  · rw [hensure]
    refine .inr ?_
    rw [turnIds, view_of_none hnone]
    rfl

lemma turnIds_pushNewItem (rendering : Rendering) (b : ThreadHistoryBuilder)
    (item : Text → ThreadItem) : (pushNewItem rendering b item).turnIds = b.turnIds ∨
      (pushNewItem rendering b item).turnIds = b.turnIds ++ [(newTurn rendering b none).id] :=
  turnIds_ensureTurn_setItems rendering { b with nextItemIndex := b.nextItemIndex + 1 } _ _

/-- **An action takes back the newest turns or opens at most one.** -/
theorem turnIds_perform (hb : b.Kept) (action : Action) :
    (perform rendering b action).turnIds <+: b.turnIds ∨
      (perform rendering b action).turnIds = b.turnIds ++ [newTurnId rendering b action] := by
  obtain ⟨hview, hnone, hturns, -⟩ := view_finishCurrentTurn hb
  have hsame : ∀ b' : ThreadHistoryBuilder, b'.turnIds = b.turnIds →
      b'.turnIds <+: b.turnIds ∨ b'.turnIds = b.turnIds ++ [newTurnId rendering b action] :=
    fun b' heq => .inl (by rw [heq])
  have hensure : ∀ b' : ThreadHistoryBuilder, b'.turnIds = b.turnIds ∨
      b'.turnIds = b.turnIds ++ [newTurnId rendering b action] →
      b'.turnIds <+: b.turnIds ∨ b'.turnIds = b.turnIds ++ [newTurnId rendering b action] :=
    fun b' h => h.imp_left fun heq => by rw [heq]
  have hcomplete : ∀ turn (completedAt durationMs : Option ℤ), b.currentTurn = some turn →
      (b.updateCurrent turn (markCompleted completedAt durationMs)).finishCurrentTurn.turnIds =
        b.turnIds := by
    intro turn completedAt durationMs hturn
    rw [turnIds, (view_finishCurrentTurn (kept_updateCurrent (hb turn hturn) rfl)).1]
    exact turnIds_updateCurrent hturn rfl
  cases action with
  | nothing => exact hsame _ rfl
  | push item => exact hensure _ (turnIds_ensureTurn_setItems rendering b _ item)
  | pushNew item => exact hensure _ (turnIds_pushNewItem rendering b item)
  | pushUser item =>
    obtain ⟨himplicit, -, -, hcurrent, -⟩ := view_finishImplicitTurn hb
    have hpush := turnIds_pushNewItem rendering b.finishImplicitTurn item
    have hids : b.finishImplicitTurn.turnIds = b.turnIds := by rw [turnIds, himplicit, turnIds]
    have hnew : newTurn rendering b.finishImplicitTurn none = newTurn rendering b none := by
      simp [newTurn, hcurrent]
    rw [hids, hnew] at hpush
    exact hensure _ hpush
  | reasoning summary content =>
    refine hensure _ ?_
    change (handleReasoning rendering b summary content).turnIds = _ ∨
      (handleReasoning rendering b summary content).turnIds = _
    unfold handleReasoning
    simp only
    split
    · exact turnIds_ensureTurn_setItems rendering b _ _
    · rcases ensureTurn_cases rendering b with ⟨turn, hturn, heq⟩ | ⟨hnone, heq⟩
      · rw [heq]
        exact turnIds_pushNewItem rendering b _
      · refine .inr ?_
        simp [pushNewItem, nextItemId, pushItemInCurrentTurn, ensureTurn, openTurn,
          recordChangedTurn, setItems, recordChangedItem, turnIds, view, hnone, newTurnId]
  | upsert item => exact hensure _ (turnIds_ensureTurn_setItems rendering b _ item)
  | upsertIn turnId item =>
    refine hsame _ ?_
    change (b.upsertItemInTurnId turnId item).turnIds = _
    unfold upsertItemInTurnId
    split
    · next turn hturn =>
      rw [turnIds_setItems, turnIds_of_current (eq_some_of_currentWithId hturn)]
    · split
      · simp [turnIds, view, recordChangedItem, map_id_updateTurns (id_withItem item)]
      · rfl
  | compacted => exact hensure _ (turnIds_ensureTurn_setItems rendering b _ (.contextCompaction []))
  | fail error =>
    simp only [perform]
    split
    · next turn hturn => exact hsame _ (turnIds_updateCurrent hturn rfl)
    · exact hsame _ rfl
  | rollback numTurns =>
    refine .inl ?_
    have hrollback : (b.handleThreadRollback numTurns).turnIds =
        b.turnIds.take (b.view.length - numTurns) := by
      simp [handleThreadRollback, recordRemovedTurnIds, turnIds, view_of_none, hnone, hturns]
    change (b.handleThreadRollback numTurns).turnIds <+: b.turnIds
    rw [hrollback]
    exact take_prefix _ _
  | start turnId startedAt =>
    refine .inr ?_
    simp only [perform, handleTurnStarted, openTurn, turnIds, view, recordChangedTurn, hturns]
    simp [newTurnId, newTurn]
  | complete turnId completedAt durationMs =>
    refine hsame _ ?_
    exact handleTurnComplete_cases (P := fun b' => b'.turnIds = b.turnIds)
      (fun turn hturn => hcomplete turn _ _ hturn) (turnIds_updateTurn _ fun _ => rfl) rfl
  | abort turnId completedAt durationMs =>
    refine hsame _ ?_
    exact handleTurnAborted_cases (P := fun b' => b'.turnIds = b.turnIds)
      (fun _ hturn => turnIds_updateCurrent hturn rfl)
      (fun _ => turnIds_updateTurn _ fun _ => rfl) rfl

end ThreadHistoryBuilder

open ThreadHistoryBuilder

variable {rendering : Rendering} {items : List RolloutItem} {item : RolloutItem}

/-! ### Rollouts -/

/-- The builder after the items of a rollout. -/
def builderAfter (rendering : Rendering) (items : List RolloutItem) : ThreadHistoryBuilder :=
  items.foldl (handleRolloutItem rendering) .new

lemma builderAfter_concat : builderAfter rendering (items ++ [item]) =
    handleRolloutItem rendering (builderAfter rendering items) item := by
  simp [builderAfter]

/-- The ids of the turns that are started. -/
def startedIds (items : List RolloutItem) : List Text :=
  items.filterMap fun
    | .eventMsg (.turnStarted turnId _) => some turnId
    | _ => none

lemma startedIds_append (items more : List RolloutItem) :
    startedIds (items ++ more) = startedIds items ++ startedIds more :=
  filterMap_append

/-- The turns have distinct ids: those that are started, and those that would be made up. -/
def DistinctTurnIds (items : List RolloutItem) : Prop :=
  (startedIds items).Nodup ∧
    ∀ turnId ∈ startedIds items, ∀ index < items.length, turnId ≠ rolloutTurnId index

instance (items : List RolloutItem) : Decidable (DistinctTurnIds items) :=
  inferInstanceAs (Decidable (_ ∧ _))

lemma DistinctTurnIds.of_append {more : List RolloutItem} (h : DistinctTurnIds (items ++ more)) :
    DistinctTurnIds items := by
  obtain ⟨hnodup, hne⟩ := h
  rw [startedIds_append] at hnodup hne
  refine ⟨hnodup.of_append_left, fun turnId hid index hindex => ?_⟩
  exact hne turnId (mem_append_left _ hid) index (by simp; omega)

lemma rolloutTurnId_injective : Function.Injective rolloutTurnId := by
  intro m n h
  have hdigits := congrArg (Nat.ofDigitChars 10 · 0) (append_cancel_left h)
  simpa using hdigits

section

variable (rendering : Rendering)

/-- The turn that an item opens is the one that it starts or one whose id is made up. -/
lemma newTurnId_actionOf (b : ThreadHistoryBuilder) (item : RolloutItem) :
    let turnId := newTurnId rendering b.advance (actionOf rendering b.nextRolloutIndex item)
    startedIds [item] = [turnId] ∨ turnId = rolloutTurnId b.nextRolloutIndex := by
  have hanswers := answers_actionOf rendering b.nextRolloutIndex item
  cases haction : actionOf rendering b.nextRolloutIndex item with
  | start turnId startedAt =>
    rw [haction] at hanswers
    obtain rfl := hanswers
    exact .inl rfl
  | _ => exact .inr (by simp [newTurnId, newTurn, advance])

variable (items : List RolloutItem)

/-- The open turn of a rollout is kept, and the builder knows where it is. -/
lemma kept_builderAfter : (builderAfter rendering items).Kept ∧
      (builderAfter rendering items).nextRolloutIndex = items.length := by
  induction items using reverseRecOn with
  | nil => exact ⟨kept_of_none rfl, rfl⟩
  | append_singleton items item ih =>
    rw [builderAfter_concat, handleRolloutItem_eq]
    refine ⟨kept_perform (b := (builderAfter rendering items).advance) ih.1 _, ?_⟩
    rw [nextRolloutIndex_perform, length_append, ← ih.2]
    rfl

/-- **What is built is what is shown.** -/
theorem buildTurnsFromRolloutItems_eq_view :
    buildTurnsFromRolloutItems rendering items = (builderAfter rendering items).view :=
  finish_eq_view (kept_builderAfter rendering items).1

/-- An item leaves the turns, takes back the newest ones or opens one. -/
lemma turnIds_builderAfter_concat (item : RolloutItem) :
    (builderAfter rendering (items ++ [item])).turnIds <+: (builderAfter rendering items).turnIds ∨
      ∃ turnId, (builderAfter rendering (items ++ [item])).turnIds =
          (builderAfter rendering items).turnIds ++ [turnId] ∧
        (startedIds [item] = [turnId] ∨ turnId = rolloutTurnId items.length) := by
  obtain ⟨hkept, hindex⟩ := kept_builderAfter rendering items
  rw [builderAfter_concat, handleRolloutItem_eq]
  rcases turnIds_perform (b := (builderAfter rendering items).advance) hkept (actionOf rendering
    (builderAfter rendering items).nextRolloutIndex item) with htaken | hopened
  · exact .inl htaken
  · refine .inr ⟨_, hopened, ?_⟩
    rw [← hindex]
    exact newTurnId_actionOf rendering (builderAfter rendering items) item

end

/-- The id of a turn that was started, or one that may have been made up. -/
def KnownTurnId (items : List RolloutItem) (turnId : Text) : Prop :=
  turnId ∈ startedIds items ∨ ∃ index < items.length, turnId = rolloutTurnId index

lemma KnownTurnId.append (h : KnownTurnId items turnId) (more : List RolloutItem) :
    KnownTurnId (items ++ more) turnId := by
  rcases h with hstarted | ⟨index, hindex, heq⟩
  · exact .inl (startedIds_append items more ▸ mem_append_left _ hstarted)
  · exact .inr ⟨index, by simp; omega, heq⟩

/-- Every turn was started or its id was made up. -/
lemma knownTurnId_of_mem (h : turnId ∈ (builderAfter rendering items).turnIds) :
    KnownTurnId items turnId := by
  induction items using reverseRecOn with
  | nil => simp [builderAfter, turnIds, view, new] at h
  | append_singleton items item ih =>
    rcases turnIds_builderAfter_concat rendering items item with htaken | ⟨other, hopened, hother⟩
    · exact (ih (htaken.subset h)).append [item]
    · rw [hopened, mem_append, mem_singleton] at h
      rcases h with hmem | rfl
      · exact (ih hmem).append [item]
      · rcases hother with hstarted | hmade
        · exact .inl (by simp [startedIds_append, hstarted])
        · exact .inr ⟨items.length, by simp, hmade⟩

/-- A turn that the next item opens has a new id. -/
lemma KnownTurnId.not_new (h : KnownTurnId items turnId)
    (hdistinct : DistinctTurnIds (items ++ [item])) :
    ¬ (startedIds [item] = [turnId] ∨ turnId = rolloutTurnId items.length) := by
  obtain ⟨hnodup, hne⟩ := hdistinct
  rw [startedIds_append] at hnodup hne
  rintro (hstarted | rfl)
  · have hid : turnId ∈ startedIds [item] := by simp [hstarted]
    rcases h with hold | ⟨index, hindex, heq⟩
    · exact (nodup_append.1 hnodup).2.2 _ hold _ hid rfl
    · exact hne _ (mem_append_right _ hid) index (by simp; omega) heq
  · rcases h with hold | ⟨index, hindex, heq⟩
    · exact hne _ (mem_append_left _ hold) items.length (by simp) rfl
    · exact hindex.ne' (rolloutTurnId_injective heq)

lemma not_mem_turnIds_builderAfter (hdistinct : DistinctTurnIds (items ++ [item]))
    (hnew : startedIds [item] = [turnId] ∨ turnId = rolloutTurnId items.length) :
    turnId ∉ (builderAfter rendering items).turnIds :=
  fun hmem => (knownTurnId_of_mem hmem).not_new hdistinct hnew

/-- **In a rollout whose turns have distinct ids the turns that are shown have distinct ids.** -/
theorem nodup_turnIds_builderAfter (hdistinct : DistinctTurnIds items) :
    (builderAfter rendering items).turnIds.Nodup := by
  induction items using reverseRecOn with
  | nil => exact nodup_nil
  | append_singleton items item ih =>
    have ih := ih hdistinct.of_append
    rcases turnIds_builderAfter_concat rendering items item with htaken | ⟨turnId, hopened, hnew⟩
    · exact ih.sublist htaken.sublist
    · rw [hopened]
      refine ih.append (nodup_singleton _) ?_
      simpa using not_mem_turnIds_builderAfter hdistinct hnew

end TokenCode.ThreadHistory
