/-
What a client makes of the changes that the builder reports.

A client removes the turns that are removed, takes over the turns that are changed and puts the items
that are changed in their place. The changes of several items of a rollout are coalesced by an
accumulator, which keeps of every item and of every turn its last change. The main result is that a
client does not notice this (`applyChanges_merge`).
-/
import TokenCode.ThreadHistory.Builder
import TokenCode.Lib.Slots

namespace TokenCode.ThreadHistory

open List hiding foldl_filter

open Text Rollout Keyed

/-! ### The accumulator -/

/-- What identifies the item of a change. -/
def ThreadHistoryItemChange.key (change : ThreadHistoryItemChange) : Text × Text :=
  (change.turnId, change.item.id)

/-- `ThreadHistoryChangeAccumulator`; whether a turn id is in `removed_turn_indexes` is whether it is
in `removed_turn_ids`. -/
structure ThreadHistoryChangeAccumulator where
  changedItems : Slots (Text × Text) ThreadHistoryItemChange
  changedTurns : Slots Text ThreadHistoryTurnChange
  removedTurnIds : List Text

namespace ThreadHistoryChangeAccumulator

def default : ThreadHistoryChangeAccumulator := ⟨.empty, .empty, []⟩

/-- `push_item_change`. -/
def pushItemChange (acc : ThreadHistoryChangeAccumulator) (change : ThreadHistoryItemChange) :
    ThreadHistoryChangeAccumulator :=
  { acc with changedItems := acc.changedItems.put ThreadHistoryItemChange.key change }

/-- `push_turn_change`. -/
def pushTurnChange (acc : ThreadHistoryChangeAccumulator) (change : ThreadHistoryTurnChange) :
    ThreadHistoryChangeAccumulator :=
  { acc with changedTurns := acc.changedTurns.put ThreadHistoryTurnChange.turnId change }

/-- `push_removed_turn_id`. -/
def pushRemovedTurnId (acc : ThreadHistoryChangeAccumulator) (turnId : Text) :
    ThreadHistoryChangeAccumulator where
  changedItems := acc.changedItems.removeAll fun key => key.1 == turnId
  changedTurns := acc.changedTurns.remove turnId
  removedTurnIds :=
    if turnId ∈ acc.removedTurnIds then acc.removedTurnIds else acc.removedTurnIds ++ [turnId]

/-- `push`. -/
def push (acc : ThreadHistoryChangeAccumulator) (changes : ThreadHistoryChangeSet) :
    ThreadHistoryChangeAccumulator :=
  let acc := changes.removedTurnIds.foldl pushRemovedTurnId acc
  let acc := changes.changedItems.foldl pushItemChange acc
  changes.changedTurns.foldl pushTurnChange acc

/-- `finish`. -/
def finish (acc : ThreadHistoryChangeAccumulator) : ThreadHistoryChangeSet where
  changedItems := acc.changedItems.values
  changedTurns := acc.changedTurns.values
  removedTurnIds := acc.removedTurnIds

end ThreadHistoryChangeAccumulator

/-- `handle_rollout_items_with_changes`: the builder, and the coalesced changes. -/
def ThreadHistoryBuilder.handleRolloutItemsWithChanges (rendering : Rendering)
    (b : ThreadHistoryBuilder) (items : List RolloutItem) :
    ThreadHistoryBuilder × ThreadHistoryChangeSet :=
  let (b, acc) := items.foldl (fun (b, acc) item =>
    let (b, changes) := handleRolloutItemWithChanges rendering b item
    (b, acc.push changes)) (b, ThreadHistoryChangeAccumulator.default)
  (b, acc.finish)

/-! ### The client -/

/-- A turn with everything but its items from a change. -/
def Turn.withChange (change : ThreadHistoryTurnChange) (turn : Turn) : Turn :=
  ⟨turn.id, turn.items, change.error, change.status, change.startedAt, change.completedAt,
    change.durationMs⟩

/-- The turn of a change, without items. -/
def ThreadHistoryTurnChange.turn (change : ThreadHistoryTurnChange) : Turn :=
  ⟨change.turnId, [], change.error, change.status, change.startedAt, change.completedAt,
    change.durationMs⟩

/-- The turn of a change, in the place of the one with its id or at the end. -/
def applyTurnChange (view : List Turn) (change : ThreadHistoryTurnChange) : List Turn :=
  if change.turnId ∈ view.map Turn.id then
    updateTurns change.turnId (Turn.withChange change) view
  else view ++ [change.turn]

/-- The item of a change, in the place of the one with its id or at the end of its turn. -/
def applyItemChange (view : List Turn) (change : ThreadHistoryItemChange) : List Turn :=
  updateTurns change.turnId (Turn.withItem change.item) view

/-- Turns are removed. -/
def removeTurns (view : List Turn) (turnIds : List Text) : List Turn :=
  view.filter fun turn => decide (turn.id ∉ turnIds)

/-- A change set is applied: turns are removed, turns are changed, items are changed. -/
def applyChanges (view : List Turn) (changes : ThreadHistoryChangeSet) : List Turn :=
  changes.changedItems.foldl applyItemChange
    (changes.changedTurns.foldl applyTurnChange (removeTurns view changes.removedTurnIds))

/-! ### Turns that are changed -/

section

variable {f g : Turn → Turn} {view more : List Turn} {id other : Text}

lemma exists_turn_of_mem (h : id ∈ view.map Turn.id) : ∃ turn ∈ view, (turn.id == id) = true := by
  obtain ⟨turn, hturn, rfl⟩ := mem_map.1 h
  exact ⟨turn, hturn, by simp⟩

lemma forall_turn_of_not_mem (h : id ∉ view.map Turn.id) :
    ∀ turn ∈ view, (turn.id == id) = false := by
  intro turn hturn
  simpa using fun heq : turn.id = id => h (heq ▸ mem_map_of_mem hturn)

lemma updateTurns_append_of_mem (h : id ∈ view.map Turn.id) :
    updateTurns id f (view ++ more) = updateTurns id f view ++ more :=
  updateFirst_append_of_exists (exists_turn_of_mem h)

lemma updateTurns_append_of_not_mem (h : id ∉ view.map Turn.id) :
    updateTurns id f (view ++ more) = view ++ updateTurns id f more :=
  updateFirst_append_of_forall (forall_turn_of_not_mem h)

@[simp] lemma updateTurns_singleton (turn : Turn) : updateTurns turn.id f [turn] = [f turn] := by
  simp [updateTurns, updateFirst]

section

variable (hf : ∀ turn, (f turn).id = turn.id)
include hf

lemma map_id_updateTurns : (updateTurns id f view).map Turn.id = view.map Turn.id :=
  map_updateFirst (r := Turn.id) (fun turn _ => hf turn) view

lemma updateTurns_updateTurns :
    updateTurns id g (updateTurns id f view) = updateTurns id (g ∘ f) view := by
  refine updateFirst_updateFirst (fun turn hturn => ?_) view
  rwa [hf]

lemma updateTurns_comm (hg : ∀ turn, (g turn).id = turn.id) (hne : id ≠ other) :
    updateTurns id f (updateTurns other g view) = updateTurns other g (updateTurns id f view) := by
  refine updateFirst_comm (fun turn hturn => ?_) (fun turn => by rw [hf]) (fun turn => by rw [hg])
    view
  rw [beq_iff_eq] at hturn
  simpa [hturn] using hne

end

lemma updateTurns_congr
    (h : ∀ turn, view.find? (fun turn => turn.id == id) = some turn → f turn = g turn) :
    updateTurns id f view = updateTurns id g view :=
  updateFirst_congr h

lemma find?_updateTurns (hf : ∀ turn, (f turn).id = turn.id) :
    (updateTurns id f view).find? (fun turn => turn.id == id) =
      (view.find? fun turn => turn.id == id).map f := by
  refine find?_updateFirst (fun turn hturn => ?_) view
  rwa [hf]

lemma find?_updateTurns_of_ne (hf : ∀ turn, (f turn).id = turn.id) (hne : other ≠ id) :
    (updateTurns other f view).find? (fun turn => turn.id == id) =
      view.find? fun turn => turn.id == id := by
  refine find?_updateFirst_of_ne (fun turn hturn => ?_) (fun turn => by rw [hf]) view
  rw [beq_iff_eq] at hturn
  simpa [hturn] using hne

@[simp] lemma id_withItem (item : ThreadItem) (turn : Turn) : (turn.withItem item).id = turn.id :=
  rfl

@[simp] lemma id_withChange (change : ThreadHistoryTurnChange) (turn : Turn) :
    (turn.withChange change).id = turn.id := rfl

end

/-! ### Changes that overwrite each other -/

@[simp] lemma map_id_applyItemChange (view : List Turn) (change : ThreadHistoryItemChange) :
    (applyItemChange view change).map Turn.id = view.map Turn.id :=
  map_id_updateTurns (id_withItem change.item)

variable (changes : List ThreadHistoryItemChange)

lemma map_id_foldl_applyItemChange (view : List Turn) :
    (changes.foldl applyItemChange view).map Turn.id = view.map Turn.id := by
  induction changes generalizing view with
  | nil => rfl
  | cons change changes ih => rw [foldl_cons, ih, map_id_applyItemChange]

variable {view : List Turn} {id : Text}

open ThreadHistoryTurnChange (turn turnId)

lemma mem_map_id_applyTurnChange {change : ThreadHistoryTurnChange} :
    id ∈ (applyTurnChange view change).map Turn.id ↔
      id ∈ view.map Turn.id ∨ id = change.turnId := by
  unfold applyTurnChange
  split
  · next h =>
    rw [map_id_updateTurns (id_withChange change)]
    refine ⟨.inl, ?_⟩
    rintro (hid | rfl)
    · exact hid
    · exact h
  · simp [turn]

/-- A later change of a turn overwrites an earlier one. -/
lemma overwrites_applyTurnChange : Overwrites applyTurnChange turnId
    (fun view id => id ∈ view.map Turn.id) where
  present_self view change := mem_map_id_applyTurnChange.2 (.inr rfl)
  present_step view change id h := mem_map_id_applyTurnChange.2 (.inl h)
  step_step view c d h := by
    have hd : d.turnId ∈ (applyTurnChange view c).map Turn.id :=
      mem_map_id_applyTurnChange.2 (.inr h.symm)
    rw [applyTurnChange, if_pos hd, applyTurnChange, applyTurnChange, h]
    split
    · exact updateTurns_updateTurns (id_withChange c)
    · next hmem =>
      have hc : c.turn.id = d.turnId := h
      rw [updateTurns_append_of_not_mem hmem, ← hc, updateTurns_singleton]
      simp [Turn.withChange, turn, h]
  step_comm view c d hd hne := by
    have hd' : d.turnId ∈ (applyTurnChange view c).map Turn.id :=
      mem_map_id_applyTurnChange.2 (.inl hd)
    rw [applyTurnChange, if_pos hd']
    have hview : applyTurnChange view d = updateTurns d.turnId (Turn.withChange d) view :=
      if_pos hd
    by_cases hc : c.turnId ∈ view.map Turn.id
    · have hc' : c.turnId ∈ (applyTurnChange view d).map Turn.id :=
        mem_map_id_applyTurnChange.2 (.inl hc)
      rw [applyTurnChange, if_pos hc, applyTurnChange, if_pos hc', hview]
      exact updateTurns_comm (id_withChange d) (id_withChange c) hne.symm
    · have hc' : c.turnId ∉ (applyTurnChange view d).map Turn.id := by
        rw [mem_map_id_applyTurnChange]
        simp [hc, hne]
      rw [applyTurnChange, if_neg hc, applyTurnChange, if_neg hc', hview]
      exact updateTurns_append_of_mem hd

/-- The item is there, unless its turn is not. -/
def HasItem (view : List Turn) (key : Text × Text) : Prop :=
  ∀ turn, view.find? (fun turn => turn.id == key.1) = some turn →
    key.2 ∈ turn.items.map ThreadItem.id

variable {change : ThreadHistoryItemChange}

lemma hasItem_applyItemChange {key : Text × Text} (h : HasItem view key ∨ key = change.key) :
    HasItem (applyItemChange view change) key := by
  intro turn hturn
  by_cases hid : change.turnId = key.1
  · rw [applyItemChange, hid, find?_updateTurns (id_withItem change.item),
      Option.map_eq_some_iff] at hturn
    obtain ⟨old, hold, rfl⟩ := hturn
    refine mem_map_upsert.2 ?_
    rcases h with h | rfl
    · exact .inl (h old hold)
    · exact .inr rfl
  · rw [applyItemChange, find?_updateTurns_of_ne (id_withItem change.item) hid] at hturn
    rcases h with h | rfl
    · exact h turn hturn
    · exact absurd rfl hid

open ThreadHistoryItemChange (key)

/-- A later change of an item overwrites an earlier one. -/
lemma overwrites_applyItemChange :
    Overwrites applyItemChange key HasItem where
  present_self view change := hasItem_applyItemChange (.inr rfl)
  present_step view change key h := hasItem_applyItemChange (.inl h)
  step_step view c d h := by
    obtain ⟨hturn, hitem⟩ := Prod.mk.inj h
    rw [applyItemChange, applyItemChange, hturn, updateTurns_updateTurns (id_withItem c.item)]
    refine updateTurns_congr fun turn _ => ?_
    simp [Turn.withItem, upsertTurnItem, upsert_upsert hitem]
  step_comm view c d hd hne := by
    by_cases hturn : c.turnId = d.turnId
    · have hitem : c.item.id ≠ d.item.id := fun h => hne (Prod.ext hturn h)
      simp only [applyItemChange, hturn]
      rw [updateTurns_updateTurns (id_withItem c.item),
        updateTurns_updateTurns (id_withItem d.item)]
      refine updateTurns_congr fun turn hfind => ?_
      have hmem : d.item.id ∈ turn.items.map ThreadItem.id := hd turn hfind
      simp [Turn.withItem, upsertTurnItem, upsert_comm hmem hitem]
    · exact updateTurns_comm (id_withItem d.item) (id_withItem c.item) (Ne.symm hturn)

/-- A change of an item does not notice the change of a turn. -/
lemma applyItemChange_applyTurnChange
    (h : change.turnId ∈ view.map Turn.id) (turn : ThreadHistoryTurnChange) :
    applyItemChange (applyTurnChange view turn) change =
      applyTurnChange (applyItemChange view change) turn := by
  by_cases hturn : turn.turnId ∈ view.map Turn.id
  · have hturn' : turn.turnId ∈ (applyItemChange view change).map Turn.id := by
      rwa [map_id_applyItemChange]
    rw [applyTurnChange, if_pos hturn, applyTurnChange, if_pos hturn']
    by_cases hid : turn.turnId = change.turnId
    · simp only [applyItemChange, hid]
      rw [updateTurns_updateTurns (id_withItem change.item),
        updateTurns_updateTurns (id_withChange turn)]
      rfl
    · exact updateTurns_comm (id_withItem change.item) (id_withChange turn) (Ne.symm hid)
  · have hturn' : turn.turnId ∉ (applyItemChange view change).map Turn.id := by
      rwa [map_id_applyItemChange]
    rw [applyTurnChange, if_neg hturn, applyTurnChange, if_neg hturn']
    exact updateTurns_append_of_mem h

/-! ### What the accumulator computes -/

/-- Changes, coalesced with later ones. -/
def ThreadHistoryChangeSet.merge (changes later : ThreadHistoryChangeSet) :
    ThreadHistoryChangeSet where
  changedItems := later.changedItems.foldl (upsert ThreadHistoryItemChange.key)
    (changes.changedItems.filter fun change => decide (change.turnId ∉ later.removedTurnIds))
  changedTurns := later.changedTurns.foldl (upsert ThreadHistoryTurnChange.turnId)
    (changes.changedTurns.filter fun change => decide (change.turnId ∉ later.removedTurnIds))
  removedTurnIds := later.removedTurnIds.foldl
    (fun ids id => if id ∈ ids then ids else ids ++ [id]) changes.removedTurnIds

variable {acc : ThreadHistoryChangeAccumulator}

namespace ThreadHistoryChangeAccumulator

/-- The slots and their indexes belong together. -/
structure Valid (acc : ThreadHistoryChangeAccumulator) : Prop where
  changedItems : acc.changedItems.Valid ThreadHistoryItemChange.key
  changedTurns : acc.changedTurns.Valid ThreadHistoryTurnChange.turnId

lemma valid_default : Valid default := ⟨Slots.valid_empty, Slots.valid_empty⟩

lemma foldl_pushItemChange
    (acc : ThreadHistoryChangeAccumulator) : changes.foldl pushItemChange acc =
      { acc with changedItems :=
          changes.foldl (Slots.put key) acc.changedItems } := by
  induction changes generalizing acc with
  | nil => rfl
  | cons change changes ih => rw [foldl_cons, ih]; rfl

lemma foldl_pushTurnChange (changes : List ThreadHistoryTurnChange)
    (acc : ThreadHistoryChangeAccumulator) : changes.foldl pushTurnChange acc =
      { acc with changedTurns :=
          changes.foldl (Slots.put turnId) acc.changedTurns } := by
  induction changes generalizing acc with
  | nil => rfl
  | cons change changes ih => rw [foldl_cons, ih]; rfl

/-- Turns that are removed take their changes with them. -/
lemma Valid.foldl_pushRemovedTurnId (h : acc.Valid) (turnIds : List Text) :
    (turnIds.foldl pushRemovedTurnId acc).Valid ∧
      (turnIds.foldl pushRemovedTurnId acc).changedItems.values =
        acc.changedItems.values.filter (fun change => decide (change.turnId ∉ turnIds)) ∧
      (turnIds.foldl pushRemovedTurnId acc).changedTurns.values =
        acc.changedTurns.values.filter (fun change => decide (change.turnId ∉ turnIds)) ∧
      (turnIds.foldl pushRemovedTurnId acc).removedTurnIds =
        turnIds.foldl (fun ids id => if id ∈ ids then ids else ids ++ [id]) acc.removedTurnIds := by
  induction turnIds generalizing acc with
  | nil => exact ⟨h, by simp, by simp, rfl⟩
  | cons turnId turnIds ih =>
    obtain ⟨hitems, hitemValues⟩ := h.changedItems.removeAll fun key => key.1 == turnId
    have hturns := h.changedTurns.remove turnId
    have hturnValues := h.changedTurns.values_remove turnId
    have hpushed : (acc.pushRemovedTurnId turnId).Valid := ⟨hitems, hturns⟩
    obtain ⟨hvalid, hitems', hturns', hremoved⟩ := ih hpushed
    refine ⟨hvalid, ?_, ?_, hremoved⟩
    · rw [foldl_cons, hitems', pushRemovedTurnId, hitemValues, filter_filter]
      refine filter_congr fun change _ => ?_
      simp [key, Bool.and_comm, Bool.beq_eq_decide_eq]
    · rw [foldl_cons, hturns', pushRemovedTurnId, hturnValues, filter_filter]
      refine filter_congr fun change _ => ?_
      simp [Bool.and_comm]

/-- The accumulator merges. -/
lemma Valid.push (h : acc.Valid) (changes : ThreadHistoryChangeSet) :
    (acc.push changes).Valid ∧ (acc.push changes).finish = acc.finish.merge changes := by
  obtain ⟨hvalid, hitems, hturns, hremoved⟩ := h.foldl_pushRemovedTurnId changes.removedTurnIds
  obtain ⟨hitemsValid, hitemValues⟩ := hvalid.changedItems.foldl_put changes.changedItems
  obtain ⟨hturnsValid, hturnValues⟩ := hvalid.changedTurns.foldl_put changes.changedTurns
  unfold ThreadHistoryChangeAccumulator.push
  simp only [foldl_pushItemChange, foldl_pushTurnChange]
  refine ⟨⟨hitemsValid, hturnsValid⟩, ?_⟩
  simp only [finish, ThreadHistoryChangeSet.merge, hitemValues, hturnValues, hitems, hturns,
    hremoved]

end ThreadHistoryChangeAccumulator

/-! ### Coalesced changes do the same -/

/-- The items that are changed belong to turns that are there. -/
def Grounded (view : List Turn) (changes : ThreadHistoryChangeSet) : Prop :=
  ∀ change ∈ changes.changedItems,
    (change.turnId ∈ view.map Turn.id ∧ change.turnId ∉ changes.removedTurnIds) ∨
      change.turnId ∈ changes.changedTurns.map ThreadHistoryTurnChange.turnId

/-- Of every item and of every turn there is one change. -/
structure Coalesced (changes : ThreadHistoryChangeSet) : Prop where
  changedItems : (changes.changedItems.map ThreadHistoryItemChange.key).Nodup
  changedTurns : (changes.changedTurns.map ThreadHistoryTurnChange.turnId).Nodup

open ThreadHistoryTurnChange (turnId)

lemma mem_map_id_foldl_applyTurnChange {changes : List ThreadHistoryTurnChange} :
    id ∈ (changes.foldl applyTurnChange view).map Turn.id ↔
      id ∈ view.map Turn.id ∨ id ∈ changes.map turnId := by
  induction changes generalizing view with
  | nil => simp
  | cons change changes ih =>
    rw [foldl_cons, ih, mem_map_id_applyTurnChange, map_cons, mem_cons, or_assoc]

lemma mem_map_filter {α : Type} {key : α → Text} {items : List α} {ids : List Text} :
    id ∈ (items.filter (key · ∉ ids)).map key ↔ id ∈ items.map key ∧ id ∉ ids := by
  have hmap : (items.filter (key · ∉ ids)).map key = (items.map key).filter (· ∉ ids) := by
    rw [filter_map]
    rfl
  rw [hmap, mem_filter, decide_eq_true_eq]

lemma mem_map_id_removeTurns {ids : List Text} :
    id ∈ (removeTurns view ids).map Turn.id ↔ id ∈ view.map Turn.id ∧ id ∉ ids :=
  mem_map_filter

variable {changes : ThreadHistoryChangeSet}

lemma mem_map_id_applyChanges : id ∈ (applyChanges view changes).map Turn.id ↔
      (id ∈ view.map Turn.id ∧ id ∉ changes.removedTurnIds) ∨
        id ∈ changes.changedTurns.map turnId := by
  rw [applyChanges, map_id_foldl_applyItemChange, mem_map_id_foldl_applyTurnChange,
    mem_map_id_removeTurns]

lemma removeTurns_updateTurns {f : Turn → Turn} (hf : ∀ turn, (f turn).id = turn.id) (id : Text)
    (view : List Turn) (ids : List Text) : removeTurns (updateTurns id f view) ids =
      if id ∈ ids then removeTurns view ids else updateTurns id f (removeTurns view ids) := by
  split
  · next h =>
    refine filter_updateFirst_of_false (fun turn => by rw [hf]) (fun turn hturn => ?_) view
    rw [beq_iff_eq] at hturn
    simpa [hturn] using h
  · next h =>
    refine filter_updateFirst (fun turn => by rw [hf]) (fun turn hturn => ?_) view
    rw [beq_iff_eq] at hturn
    simpa [hturn] using h

lemma removeTurns_applyItemChange (view : List Turn) (change : ThreadHistoryItemChange)
    (ids : List Text) : removeTurns (applyItemChange view change) ids =
      if change.turnId ∈ ids then removeTurns view ids
      else applyItemChange (removeTurns view ids) change :=
  removeTurns_updateTurns (id_withItem change.item) change.turnId view ids

lemma removeTurns_applyTurnChange (view : List Turn) (change : ThreadHistoryTurnChange)
    (ids : List Text) : removeTurns (applyTurnChange view change) ids =
      if change.turnId ∈ ids then removeTurns view ids
      else applyTurnChange (removeTurns view ids) change := by
  have hmem : change.turnId ∉ ids → (change.turnId ∈ (removeTurns view ids).map Turn.id ↔
      change.turnId ∈ view.map Turn.id) := fun h => by
    rw [mem_map_id_removeTurns, and_iff_left h]
  by_cases hview : change.turnId ∈ view.map Turn.id
  · rw [applyTurnChange, if_pos hview, removeTurns_updateTurns (id_withChange change)]
    split
    · rfl
    · next h => rw [applyTurnChange, if_pos ((hmem h).2 hview)]
  · rw [applyTurnChange, if_neg hview]
    split
    · next h => simp [removeTurns, turn, h]
    · next h =>
      rw [applyTurnChange, if_neg ((hmem h).not.2 hview)]
      simp [removeTurns, turn, h]

lemma mem_foldl_insert {ids : List Text} {more : List Text} :
    id ∈ more.foldl (fun ids id => if id ∈ ids then ids else ids ++ [id]) ids ↔
      id ∈ ids ∨ id ∈ more := by
  induction more generalizing ids with
  | nil => simp
  | cons other more ih =>
    rw [foldl_cons, ih, mem_cons]
    split
    · next h =>
      constructor
      · rintro (hid | hid)
        · exact .inl hid
        · exact .inr (.inr hid)
      · rintro (hid | rfl | hid)
        · exact .inl hid
        · exact .inl h
        · exact .inr hid
    · simp [or_assoc]

/-- Changes of items and of turns may be made in any order, if the turns of the items are there. -/
lemma foldl_applyItemChange_applyTurnChange {items : List ThreadHistoryItemChange}
    (h : ∀ change ∈ items, change.turnId ∈ view.map Turn.id)
    (turns : List ThreadHistoryTurnChange) :
    items.foldl applyItemChange (turns.foldl applyTurnChange view) =
      turns.foldl applyTurnChange (items.foldl applyItemChange view) := by
  induction items generalizing view with
  | nil => rfl
  | cons change items ih =>
    obtain ⟨hchange, hitems⟩ := forall_mem_cons.1 h
    have hone : applyItemChange (turns.foldl applyTurnChange view) change =
        turns.foldl applyTurnChange (applyItemChange view change) := by
      clear ih hitems h
      induction turns generalizing view with
      | nil => rfl
      | cons turn turns ih =>
        rw [foldl_cons, ih (mem_map_id_applyTurnChange.2 (.inl hchange)),
          applyItemChange_applyTurnChange hchange turn, foldl_cons]
    rw [foldl_cons, hone, ih (by simpa using hitems), foldl_cons]

/-- What is removed later may be removed at once. -/
lemma removeTurns_merge (view : List Turn) (changes later : ThreadHistoryChangeSet) :
    removeTurns view (changes.merge later).removedTurnIds =
      removeTurns (removeTurns view changes.removedTurnIds) later.removedTurnIds := by
  rw [removeTurns, removeTurns, removeTurns, filter_filter]
  refine filter_congr fun turn _ => ?_
  simp [ThreadHistoryChangeSet.merge, mem_foldl_insert, Bool.and_comm]

lemma foldl_applyTurnChange_filter (turns : List ThreadHistoryTurnChange) (view : List Turn)
    (ids : List Text) :
    (turns.filter fun change => decide (change.turnId ∉ ids)).foldl applyTurnChange
        (removeTurns view ids) = removeTurns (turns.foldl applyTurnChange view) ids := by
  refine foldl_filter (fun view change => ?_) turns view
  simpa [removeTurns] using removeTurns_applyTurnChange view change ids

lemma foldl_applyItemChange_filter (items : List ThreadHistoryItemChange) (view : List Turn)
    (ids : List Text) :
    (items.filter fun change => decide (change.turnId ∉ ids)).foldl applyItemChange
        (removeTurns view ids) = removeTurns (items.foldl applyItemChange view) ids := by
  refine foldl_filter (fun view change => ?_) items view
  simpa [removeTurns] using removeTurns_applyItemChange view change ids

variable {later : ThreadHistoryChangeSet}

/-- **Coalesced changes do what the changes do one after the other.** -/
theorem applyChanges_merge (hchanges : Coalesced changes) (hgrounded : Grounded view changes) :
    applyChanges view (changes.merge later) = applyChanges (applyChanges view changes) later ∧
      Coalesced (changes.merge later) := by
  have hturnsNodup := hchanges.changedTurns.sublist
    ((filter_sublist (p := fun change => decide (change.turnId ∉ later.removedTurnIds))).map turnId)
  have hitemsNodup := hchanges.changedItems.sublist
    ((filter_sublist (p := fun change => decide (change.turnId ∉ later.removedTurnIds))).map
      key)
  have hturns := fun s => overwrites_applyTurnChange.foldl_foldl_upsert hturnsNodup
    later.changedTurns s
  have hitems := fun s => overwrites_applyItemChange.foldl_foldl_upsert hitemsNodup
    later.changedItems s
  refine ⟨?_, (hitems []).2, (hturns []).2⟩
  -- the turns of the items that stay are there, so that later changes of turns may come first
  have hground : ∀ change ∈ changes.changedItems.filter fun change =>
      decide (change.turnId ∉ later.removedTurnIds), change.turnId ∈
        (removeTurns (changes.changedTurns.foldl applyTurnChange
          (removeTurns view changes.removedTurnIds)) later.removedTurnIds).map Turn.id := by
    intro change hchange
    obtain ⟨hmem, hstays⟩ := mem_filter.1 hchange
    rw [mem_map_id_removeTurns, mem_map_id_foldl_applyTurnChange, mem_map_id_removeTurns]
    exact ⟨hgrounded change hmem, by simpa using hstays⟩
  calc applyChanges view (changes.merge later)
      = later.changedItems.foldl applyItemChange
          ((changes.changedItems.filter fun change =>
              decide (change.turnId ∉ later.removedTurnIds)).foldl applyItemChange
            (later.changedTurns.foldl applyTurnChange
              ((changes.changedTurns.filter fun change =>
                  decide (change.turnId ∉ later.removedTurnIds)).foldl applyTurnChange
                (removeTurns (removeTurns view changes.removedTurnIds)
                  later.removedTurnIds)))) := by
        rw [applyChanges, removeTurns_merge, ThreadHistoryChangeSet.merge, (hturns _).1,
          (hitems _).1]
    _ = later.changedItems.foldl applyItemChange
          (later.changedTurns.foldl applyTurnChange
            (removeTurns (applyChanges view changes) later.removedTurnIds)) := by
        rw [foldl_applyTurnChange_filter, foldl_applyItemChange_applyTurnChange hground,
          foldl_applyItemChange_filter]
        rfl

lemma grounded_merge
    (hgrounded : Grounded view changes) (hlater : Grounded (applyChanges view changes) later) :
    Grounded view (changes.merge later) := by
  have hturns : ∀ id, id ∈ (changes.merge later).changedTurns.map turnId ↔
      (id ∈ changes.changedTurns.map turnId ∧ id ∉ later.removedTurnIds) ∨
        id ∈ later.changedTurns.map turnId := by
    intro id
    rw [ThreadHistoryChangeSet.merge, mem_map_foldl_upsert]
    exact or_congr_left mem_map_filter
  have hremoved : ∀ id, id ∈ (changes.merge later).removedTurnIds ↔
      id ∈ changes.removedTurnIds ∨ id ∈ later.removedTurnIds := fun id => mem_foldl_insert
  intro change hchange
  rw [hturns, hremoved]
  rcases mem_foldl_upsert hchange with hchange | hchange
  · obtain ⟨hmem, hstays⟩ := mem_filter.1 hchange
    have hstays : change.turnId ∉ later.removedTurnIds := by simpa using hstays
    rcases hgrounded change hmem with ⟨hview, hnot⟩ | hturn
    · exact .inl ⟨hview, not_or.2 ⟨hnot, hstays⟩⟩
    · exact .inr (.inl ⟨hturn, hstays⟩)
  · rcases hlater change hchange with ⟨hview, hnot⟩ | hturn
    · rcases mem_map_id_applyChanges.1 hview with ⟨hview, hnot'⟩ | hturn
      · exact .inl ⟨hview, not_or.2 ⟨hnot', hnot⟩⟩
      · exact .inr (.inl ⟨hturn, hnot⟩)
    · exact .inr (.inr hturn)

end TokenCode.ThreadHistory
