/-
A client that follows the changes of a thread sees the thread.

A client is told about single items of a rollout or about batches of them. If the turns of a rollout
have distinct ids, then it sees after every update what building the turns from scratch gives exactly if
no item is pushed to a turn that has an item with its id already (`clientView_eq_iff`).
-/
import TokenCode.ThreadHistory.Reports

namespace TokenCode.ThreadHistory

open List Text Rollout Keyed ThreadHistoryBuilder

/-- What a client is told about at once. -/
inductive Update where
  | single (item : RolloutItem)
  | batch (items : List RolloutItem)

def Update.items : Update → List RolloutItem
  | .single item => [item]
  | .batch items => items

/-- The builder handles an update and reports what has changed. -/
def Update.handle (rendering : Rendering) (b : ThreadHistoryBuilder) :
    Update → ThreadHistoryBuilder × ThreadHistoryChangeSet
  | .single item => handleRolloutItemWithChanges rendering b item
  | .batch items => handleRolloutItemsWithChanges rendering b items

/-- The builder, and a client that follows it. -/
def follow (rendering : Rendering) (state : ThreadHistoryBuilder × List Turn) (update : Update) :
    ThreadHistoryBuilder × List Turn :=
  let (b, changes) := update.handle rendering state.1
  (b, applyChanges state.2 changes)

/-- What a client sees after some updates. -/
def clientView (rendering : Rendering) (updates : List Update) : List Turn :=
  (updates.foldl (follow rendering) (.new, [])).2

variable {rendering : Rendering} {items : List RolloutItem} {item : RolloutItem}

/-! ### Distinct ids -/

/-- No item is pushed to a turn that has an item with its id. -/
def FreshPushes (rendering : Rendering) (items : List RolloutItem) : Prop :=
  ∀ index, (h : index < items.length) → (builderAfter rendering (items.take index)).advance.FreshPush
    (actionOf rendering index items[index])

instance (rendering : Rendering) (items : List RolloutItem) :
    Decidable (FreshPushes rendering items) :=
  Nat.decidableBallLT _ _

lemma freshPushes_concat : FreshPushes rendering (items ++ [item]) ↔ FreshPushes rendering items ∧
    (builderAfter rendering items).advance.FreshPush (actionOf rendering items.length item) := by
  constructor
  · refine fun h => ⟨fun index hindex => ?_, ?_⟩
    · have hstep := h index (by simp; omega)
      rwa [take_append_of_le_length hindex.le, getElem_append_left hindex] at hstep
    · simpa using h items.length (by simp)
  · rintro ⟨hitems, hlast⟩ index hindex
    rcases (Nat.lt_succ_iff_lt_or_eq.1 (by simpa using hindex)) with hlt | rfl
    · rw [take_append_of_le_length hlt.le, getElem_append_left hlt]
      exact hitems index hlt
    · simpa using hlast

lemma FreshPushes.of_append {more : List RolloutItem}
    (h : FreshPushes rendering (items ++ more)) : FreshPushes rendering items := by
  induction more using reverseRecOn with
  | nil => simpa using h
  | append_singleton more item ih =>
    rw [← List.append_assoc] at h
    exact ih (freshPushes_concat.1 h).1

/-! ### One item -/

/-- The builder handles an item as if it did not record changes. -/
lemma fst_handleRolloutItemWithChanges (rendering : Rendering) (b : ThreadHistoryBuilder)
    (item : RolloutItem) : (handleRolloutItemWithChanges rendering b item).1 =
      handleRolloutItem rendering b.forget item :=
  forget_handleRolloutItem { b with activeChangeSet := some {} } item

lemma forget_builderAfter (rendering : Rendering) (items : List RolloutItem) :
    (builderAfter rendering items).forget = builderAfter rendering items := by
  induction items using reverseRecOn with
  | nil => rfl
  | append_singleton items item ih => rw [builderAfter_concat, forget_handleRolloutItem, ih]

/-- The changes that are reported for the item behind others. -/
def reported (rendering : Rendering) (items : List RolloutItem) (item : RolloutItem) :
    ThreadHistoryChangeSet :=
  (handleRolloutItemWithChanges rendering (builderAfter rendering items) item).2

/-- **One item is reported.**  If it does not push an item with an old id, then applying the changes
that are reported for it gives the view after it; otherwise it does not. -/
theorem applyChanges_reported (hdistinct : DistinctTurnIds (items ++ [item]))
    (hinv : (builderAfter rendering items).Inv) :
    let b := builderAfter rendering items
    let b' := builderAfter rendering (items ++ [item])
    (b.advance.FreshPush (actionOf rendering items.length item) →
      b'.Inv ∧ applyChanges b.view (reported rendering items item) = b'.view ∧
        Grounded b.view (reported rendering items item)) ∧
    (¬ b.advance.FreshPush (actionOf rendering items.length item) →
      applyChanges b.view (reported rendering items item) ≠ b'.view) := by
  obtain ⟨-, hindex⟩ := kept_builderAfter rendering items
  set b := builderAfter rendering items with hb
  set tracked : ThreadHistoryBuilder := { b with activeChangeSet := some {} } with htracked
  have htrackedInv : tracked.advance.Inv := ⟨hinv.1, hinv.2⟩
  have hturn : FreshTurn rendering tracked.advance
      (actionOf rendering tracked.nextRolloutIndex item) :=
    not_mem_turnIds_builderAfter hdistinct (hindex ▸ newTurnId_actionOf rendering b item)
  have hforget : builderAfter rendering (items ++ [item]) =
      (handleRolloutItem rendering tracked item).forget := by
    rw [builderAfter_concat, forget_handleRolloutItem, ← forget_builderAfter]
    rfl
  have hset : ∀ changes, (handleRolloutItem rendering tracked item).activeChangeSet =
      tracked.advance.activeChangeSet.map (·.append changes) →
        reported rendering items item = changes := by
    intro changes hchanges
    change (handleRolloutItem rendering tracked item).activeChangeSet.getD {} = changes
    rw [hchanges]
    rfl
  have hpush : tracked.advance.FreshPush (actionOf rendering tracked.nextRolloutIndex item) ↔
      b.advance.FreshPush (actionOf rendering items.length item) := by
    rw [← hindex, ← freshPush_forget, ← freshPush_forget (b := b.advance)]
    rfl
  simp only [← hpush, hforget]
  constructor
  · intro hfresh
    obtain ⟨changes, hchanges, happly, hground⟩ := reports_perform htrackedInv hturn hfresh
    have hinv' := htrackedInv.perform hturn hfresh
    rw [← handleRolloutItem_eq] at hchanges happly hinv'
    rw [hset changes hchanges]
    exact ⟨⟨hinv'.1, hinv'.2⟩, happly, hground⟩
  · intro hfresh
    obtain ⟨changes, hchanges, hne⟩ := applyChanges_perform_ne htrackedInv hturn hfresh
    rw [← handleRolloutItem_eq] at hchanges hne
    rw [hset changes hchanges]
    exact hne

/-! ### Runs -/

lemma inv_builderAfter (hdistinct : DistinctTurnIds items) (hfresh : FreshPushes rendering items) :
    (builderAfter rendering items).Inv := by
  induction items using reverseRecOn with
  | nil => exact ⟨⟨nodup_nil, by simp [builderAfter, view, new]⟩, kept_of_none rfl⟩
  | append_singleton items item ih =>
    obtain ⟨hitems, hlast⟩ := freshPushes_concat.1 hfresh
    exact ((applyChanges_reported hdistinct (ih hdistinct.of_append hitems)).1 hlast).1

/-- One step of `handleRolloutItemsWithChanges`. -/
def coalesce (rendering : Rendering)
    (state : ThreadHistoryBuilder × ThreadHistoryChangeAccumulator) (item : RolloutItem) :
    ThreadHistoryBuilder × ThreadHistoryChangeAccumulator :=
  ((handleRolloutItemWithChanges rendering state.1 item).1,
    state.2.push (handleRolloutItemWithChanges rendering state.1 item).2)

lemma handleRolloutItemsWithChanges_eq (rendering : Rendering) (b : ThreadHistoryBuilder)
    (items : List RolloutItem) : handleRolloutItemsWithChanges rendering b items =
      ((items.foldl (coalesce rendering) (b, .default)).1,
        (items.foldl (coalesce rendering) (b, .default)).2.finish) := rfl

/-- The items of a batch are handled one after the other, and what is accumulated leads from the view
before the batch to the view after what has been handled. -/
lemma exists_accumulator {batch : List RolloutItem} (hdistinct : DistinctTurnIds (items ++ batch))
    (hfresh : FreshPushes rendering (items ++ batch)) : ∃ acc : ThreadHistoryChangeAccumulator,
      batch.foldl (coalesce rendering) (builderAfter rendering items, .default) =
        (builderAfter rendering (items ++ batch), acc) ∧
      acc.Valid ∧ Coalesced acc.finish ∧ Grounded (builderAfter rendering items).view acc.finish ∧
      applyChanges (builderAfter rendering items).view acc.finish =
        (builderAfter rendering (items ++ batch)).view := by
  induction batch using reverseRecOn with
  | nil =>
    refine ⟨.default, by simp, ThreadHistoryChangeAccumulator.valid_default, ⟨?_, ?_⟩, ?_, ?_⟩
    · exact nodup_nil
    · exact nodup_nil
    · exact fun change hchange => absurd hchange not_mem_nil
    · rw [append_nil]
      exact removeTurns_nil _
  | append_singleton batch item ih =>
    rw [← List.append_assoc] at hdistinct hfresh ⊢
    obtain ⟨hbefore, hlast⟩ := freshPushes_concat.1 hfresh
    obtain ⟨acc, hfold, hvalid, hcoalesced, hground, happly⟩ := ih hdistinct.of_append hbefore
    obtain ⟨-, hstep, hground'⟩ := (applyChanges_reported hdistinct
      (inv_builderAfter hdistinct.of_append hbefore)).1 hlast
    set changes := reported rendering (items ++ batch) item
    obtain ⟨hvalid', hfinish⟩ := hvalid.push changes
    obtain ⟨hmerge, hcoalesced'⟩ := @applyChanges_merge _ _ changes hcoalesced hground
    refine ⟨acc.push changes, ?_, hvalid', ?_, ?_, ?_⟩
    · rw [foldl_append, hfold, foldl_cons, foldl_nil, coalesce,
        fst_handleRolloutItemWithChanges, forget_builderAfter, builderAfter_concat]
      rfl
    · rw [hfinish]
      exact hcoalesced'
    · rw [hfinish]
      exact grounded_merge hground (happly ▸ hground')
    · rw [hfinish, hmerge, happly, hstep]

/-- An update leads from the view before it to the view after it. -/
lemma follow_builderAfter {update : Update} (hdistinct : DistinctTurnIds (items ++ update.items))
    (hfresh : FreshPushes rendering (items ++ update.items)) :
    follow rendering (builderAfter rendering items, (builderAfter rendering items).view) update =
      (builderAfter rendering (items ++ update.items),
        (builderAfter rendering (items ++ update.items)).view) := by
  cases update with
  | single item =>
    obtain ⟨hbefore, hlast⟩ := freshPushes_concat.1 hfresh
    obtain ⟨-, hstep, -⟩ := (applyChanges_reported hdistinct
      (inv_builderAfter hdistinct.of_append hbefore)).1 hlast
    refine Prod.ext ?_ hstep
    change (handleRolloutItemWithChanges rendering (builderAfter rendering items) item).1 =
      builderAfter rendering (items ++ [item])
    rw [fst_handleRolloutItemWithChanges, forget_builderAfter, builderAfter_concat]
  | batch batch =>
    obtain ⟨acc, hfold, -, -, -, happly⟩ := exists_accumulator hdistinct hfresh
    rw [Update.items] at hfold happly
    simp only [follow, Update.handle, handleRolloutItemsWithChanges_eq, Update.items, hfold, happly]

lemma foldl_follow {updates : List Update}
    (hdistinct : DistinctTurnIds (updates.flatMap Update.items))
    (hfresh : FreshPushes rendering (updates.flatMap Update.items)) :
    updates.foldl (follow rendering) (.new, []) =
      (builderAfter rendering (updates.flatMap Update.items),
        (builderAfter rendering (updates.flatMap Update.items)).view) := by
  induction updates using reverseRecOn with
  | nil => rfl
  | append_singleton updates update ih =>
    rw [flatMap_append, flatMap_singleton] at hdistinct hfresh ⊢
    rw [foldl_append, ih hdistinct.of_append hfresh.of_append]
    exact follow_builderAfter hdistinct hfresh

lemma flatMap_map_single (items : List RolloutItem) :
    (items.map Update.single).flatMap Update.items = items := by
  rw [flatMap_map]
  exact flatMap_singleton' items

/-- If a client always sees the thread, then no item is pushed with an old id. -/
lemma freshPushes_of_clientView (hdistinct : DistinctTurnIds items)
    (h : ∀ updates : List Update, updates.flatMap Update.items <+: items →
      clientView rendering updates =
        buildTurnsFromRolloutItems rendering (updates.flatMap Update.items)) :
    FreshPushes rendering items := by
  induction items using reverseRecOn with
  | nil => exact fun index hindex => absurd hindex (Nat.not_lt_zero index)
  | append_singleton items item ih =>
    have hitems := ih hdistinct.of_append
      fun updates hupdates => h updates (hupdates.trans (prefix_append items [item]))
    refine freshPushes_concat.2 ⟨hitems, ?_⟩
    by_contra hold
    have hflat := flatMap_map_single (items ++ [item])
    have hview := h ((items ++ [item]).map .single) (by rw [hflat])
    have hitemsFlat := flatMap_map_single items
    have hfollow := @foldl_follow rendering (items.map .single)
      (hitemsFlat.symm ▸ hdistinct.of_append) (hitemsFlat.symm ▸ hitems)
    rw [flatMap_map_single] at hfollow
    rw [hflat, buildTurnsFromRolloutItems_eq_view, clientView, map_append,
      foldl_append, hfollow] at hview
    exact (applyChanges_reported hdistinct
      (inv_builderAfter hdistinct.of_append hitems)).2 hold hview

/-- A turn in which a search is done and that is rolled back, and a turn without a start. -/
def searchRollout : List RolloutItem :=
  [.eventMsg (.turnStarted "turn-1".toList none), userMessageItem "Look it up.".toList,
    .eventMsg (.webSearchBegin "call-1".toList),
    .eventMsg (.webSearchEnd "call-1".toList "it".toList "search".toList),
    .eventMsg (.turnComplete "turn-1".toList none none), .eventMsg (.threadRolledBack 1),
    userMessageItem "Thanks.".toList]

end TokenCode.ThreadHistory
