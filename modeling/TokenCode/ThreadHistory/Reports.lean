/-
The builder reports every change.

If no turn is opened with an id that another turn has, and no item is pushed to a turn that has an item
with its id, then applying the changes that one action records to the turns before it gives the turns
after it (`reports_perform`).
-/
import TokenCode.ThreadHistory.TurnIds

namespace TokenCode.ThreadHistory

open List Text Rollout Keyed

/-- Changes, and more of them. -/
def ThreadHistoryChangeSet.append (changes more : ThreadHistoryChangeSet) :
    ThreadHistoryChangeSet where
  changedItems := changes.changedItems ++ more.changedItems
  changedTurns := changes.changedTurns ++ more.changedTurns
  removedTurnIds := changes.removedTurnIds ++ more.removedTurnIds

@[simp] lemma removeTurns_nil (view : List Turn) : removeTurns view [] = view := by
  simp [removeTurns]

/-! ### Distinct ids -/

/-- The ids of the turns are distinct, and those of the items of a turn are. -/
structure Distinct (view : List Turn) : Prop where
  turnIds : (view.map Turn.id).Nodup
  itemIds : ∀ turn ∈ view, (turn.items.map ThreadItem.id).Nodup

variable {view : List Turn} {f : Turn → Turn} (h : Distinct view)
include h

lemma Distinct.updateTurns (id : Text)
    (hid : ∀ turn, (f turn).id = turn.id) (hitems : ∀ turn ∈ view,
      ((f turn).items.map ThreadItem.id).Nodup) : Distinct (updateTurns id f view) := by
  refine ⟨?_, fun turn hturn => ?_⟩
  · rw [map_id_updateTurns hid]
    exact h.turnIds
  · rcases mem_updateFirst hturn with hmem | ⟨old, hold, rfl⟩
    · exact h.itemIds turn hmem
    · exact hitems old hold

lemma Distinct.applyItemChange
    (change : ThreadHistoryItemChange) : Distinct (applyItemChange view change) :=
  h.updateTurns change.turnId (id_withItem change.item)
    fun turn hturn => nodup_map_upsert (h.itemIds turn hturn)

lemma Distinct.applyTurnChange
    (change : ThreadHistoryTurnChange) : Distinct (applyTurnChange view change) := by
  unfold ThreadHistory.applyTurnChange
  split
  · exact h.updateTurns change.turnId (id_withChange change) fun turn hturn => h.itemIds turn hturn
  · next hnew =>
    refine ⟨?_, fun turn hturn => ?_⟩
    · rw [map_append]
      refine h.turnIds.append (nodup_singleton _) ?_
      simpa [ThreadHistoryTurnChange.turn] using hnew
    · rcases mem_append.1 hturn with hmem | hmem
      · exact h.itemIds turn hmem
      · rw [mem_singleton.1 hmem]
        exact nodup_nil

/-- Changes keep ids distinct. -/
lemma Distinct.applyChanges
    (changes : ThreadHistoryChangeSet) : Distinct (applyChanges view changes) := by
  have hremove : Distinct (removeTurns view changes.removedTurnIds) :=
    ⟨h.turnIds.sublist (filter_sublist.map _),
      fun turn hturn => h.itemIds turn (mem_filter.1 hturn).1⟩
  have hturns : ∀ (log : List ThreadHistoryTurnChange) {view : List Turn}, Distinct view →
      Distinct (log.foldl ThreadHistory.applyTurnChange view) := fun log => by
    induction log with
    | nil => exact fun h => h
    | cons change log ih => exact fun h => ih (h.applyTurnChange change)
  have hitems : ∀ (log : List ThreadHistoryItemChange) {view : List Turn}, Distinct view →
      Distinct (log.foldl ThreadHistory.applyItemChange view) := fun log => by
    induction log with
    | nil => exact fun h => h
    | cons change log ih => exact fun h => ih (h.applyItemChange change)
  exact hitems _ (hturns _ hremove)

omit h

variable {action : Action} {item : ThreadItem}

namespace ThreadHistoryBuilder

variable {rendering : Rendering} {b : ThreadHistoryBuilder} {turn : PendingTurn}

/-- Ids are distinct, and the open turn would be kept. -/
structure Inv (b : ThreadHistoryBuilder) : Prop where
  distinct : Distinct b.view
  kept : b.Kept

/-- The changes that are recorded lead from the one view to the other. -/
def Reports (b b' : ThreadHistoryBuilder) : Prop :=
  ∃ changes, b'.activeChangeSet = b.activeChangeSet.map (·.append changes) ∧
    applyChanges b.view changes = b'.view ∧ Grounded b.view changes

/-! ### Views -/

/-- The open turn has an id of its own. -/
lemma Inv.current_not_mem (hb : b.Inv) (h : b.currentTurn = some turn) :
    turn.id ∉ b.turns.map Turn.id := by
  have hids := hb.distinct.turnIds
  rw [view_of_current h, map_append, nodup_append] at hids
  intro hmem
  exact hids.2.2 _ hmem _ (by simp) rfl

/-! ### Reports -/

lemma reports_of_view_eq {b' : ThreadHistoryBuilder}
    (hchanges : b'.activeChangeSet = b.activeChangeSet) (hview : b'.view = b.view) :
    Reports b b' := by
  refine ⟨{}, ?_, ?_, ?_⟩
  · simp [hchanges, ThreadHistoryChangeSet.append]
  · simp [applyChanges, hview]
  · simp [Grounded]

lemma applyItemChange_last {turn : Turn} (hid : turn.id ∉ view.map Turn.id) (item : ThreadItem) :
    applyItemChange (view ++ [turn]) ⟨turn.id, item⟩ = view ++ [turn.withItem item] := by
  rw [applyItemChange, updateTurns_append_of_not_mem hid]
  simp

/-- An item is put into the open turn. -/
lemma reports_setItems (hb : b.Inv) (hturn : b.currentTurn = some turn) (item : ThreadItem) :
    Reports b (b.setItems turn (upsertTurnItem turn.items item) item) := by
  refine ⟨{ changedItems := [⟨turn.id, item⟩] }, ?_, ?_, ?_⟩
  · simp [setItems, recordChangedItem, ThreadHistoryChangeSet.append]
  · simp only [applyChanges, removeTurns_nil, foldl_nil, foldl_cons,
      view_of_current hturn, applyItemChange_last (hb.current_not_mem hturn) item]
    rfl
  · simp [Grounded, view_of_current hturn]

lemma applyTurnChange_new {turn : Turn} (hid : turn.id ∉ view.map Turn.id)
    (hitems : turn.items = []) : applyTurnChange view turn.change = view ++ [turn] := by
  have hchange : turn.change.turnId ∉ view.map Turn.id := hid
  rw [applyTurnChange, if_neg hchange]
  simp [Turn.change, ThreadHistoryTurnChange.turn, ← hitems]

/-- A turn is opened. -/
lemma reports_openTurn (hnone : b.currentTurn = none) (hid : turn.id ∉ b.view.map Turn.id)
    (hitems : turn.items = []) : Reports b (b.openTurn turn) := by
  refine ⟨{ changedTurns := [turn.change] }, ?_, ?_, ?_⟩
  · simp [openTurn, recordChangedTurn, ThreadHistoryChangeSet.append]
  · simp only [applyChanges, removeTurns_nil, foldl_nil, foldl_cons, applyTurnChange_new hid hitems]
    simp [openTurn, recordChangedTurn, view, hnone]
  · simp [Grounded]

/-- A turn is opened and an item is put into it. -/
lemma reports_openTurn_setItems (hnone : b.currentTurn = none) (hid : turn.id ∉ b.view.map Turn.id)
    (hitems : turn.items = []) (item : ThreadItem) :
    Reports b ((b.openTurn turn).setItems turn (upsertTurnItem turn.items item) item) := by
  refine ⟨{ changedTurns := [turn.change], changedItems := [⟨turn.id, item⟩] }, ?_, ?_, ?_⟩
  · simp [setItems, openTurn, recordChangedItem, recordChangedTurn, ThreadHistoryChangeSet.append,
      Function.comp_def]
  · simp only [applyChanges, removeTurns_nil, foldl_nil, foldl_cons,
      applyTurnChange_new hid hitems, applyItemChange_last hid item]
    rw [view_of_none hnone]
    rfl
  · simp [Grounded, Turn.change]

/-- An item is put into the open turn, or into a new one. -/
lemma reports_ensureTurn_setItems (hb : b.Inv)
    (hid : (newTurn rendering b none).id ∉ b.view.map Turn.id) (item : ThreadItem) :
    Reports b ((ensureTurn rendering b).2.setItems (ensureTurn rendering b).1
      (upsertTurnItem (ensureTurn rendering b).1.items item) item) := by
  rcases ensureTurn_cases rendering b with ⟨turn, hturn, hensure⟩ | ⟨hnone, hensure⟩
  · rw [hensure]
    exact reports_setItems hb hturn item
  · rw [hensure]
    exact reports_openTurn_setItems hnone hid rfl item

/-- The open turn is changed, but not its items. -/
lemma reports_updateCurrent (hb : b.Inv) (hturn : b.currentTurn = some turn)
    (hid : (f turn.toTurn).id = turn.id) (hitems : (f turn.toTurn).items = turn.items) :
    Reports b (b.updateCurrent turn f) := by
  refine ⟨{ changedTurns := [(f turn.toTurn).change] }, ?_, ?_, ?_⟩
  · simp [updateCurrent, recordChangedTurn, ThreadHistoryChangeSet.append]
  · have hchange : (f turn.toTurn).change.turnId = turn.id := hid
    have hmem : turn.id ∈ (b.turns ++ [turn.toTurn]).map Turn.id := by simp
    have hwith : turn.toTurn.withChange (f turn.toTurn).change = f turn.toTurn := by
      rw [Turn.withChange, ← hid, ← hitems]
      rfl
    simp only [applyChanges, removeTurns_nil, foldl_nil, foldl_cons,
      view_of_current hturn, applyTurnChange, hchange, if_pos hmem]
    rw [updateTurns_append_of_not_mem (hb.current_not_mem hturn), updateTurns_singleton, hwith]
    rfl
  · simp [Grounded]

/-- A finished turn is changed, but not its items. -/
lemma reports_updateTurn (turnId : Text) (hid : ∀ turn, (f turn).id = turn.id)
    (hitems : ∀ turn, (f turn).items = turn.items) : Reports b (b.updateTurn turnId f) := by
  unfold updateTurn
  split
  · next turn hfind =>
    have hturnId : turn.id = turnId := by simpa using find?_some hfind
    have hmem : turnId ∈ b.turns.map Turn.id :=
      hturnId ▸ mem_map_of_mem (mem_of_find?_eq_some hfind)
    have hchange : (f turn).change.turnId = turnId := (hid turn).trans hturnId
    have hview : turnId ∈ b.view.map Turn.id := by
      rw [view, map_append]
      exact mem_append_left _ hmem
    refine ⟨{ changedTurns := [(f turn).change] }, ?_, ?_, ?_⟩
    · simp [recordChangedTurn, ThreadHistoryChangeSet.append]
    · have hupdate : updateTurns turnId (Turn.withChange (f turn).change) b.turns =
          updateTurns turnId f b.turns := by
        refine updateTurns_congr fun other hother => ?_
        obtain rfl : turn = other := by simpa [hfind] using hother
        rw [Turn.withChange, ← hid turn, ← hitems turn]
        rfl
      simp only [applyChanges, removeTurns_nil, foldl_nil, foldl_cons, applyTurnChange,
        hchange, if_pos hview]
      rw [view, updateTurns_append_of_mem hmem, hupdate]
      rfl
    · simp [Grounded]
  · exact reports_of_view_eq rfl rfl

/-- Turns are removed from the end. -/
lemma removeTurns_append {kept gone : List Turn} (h : ((kept ++ gone).map Turn.id).Nodup) :
    removeTurns (kept ++ gone) (gone.map Turn.id) = kept := by
  rw [map_append, nodup_append] at h
  have hkept : ∀ turn ∈ kept, turn.id ∉ gone.map Turn.id :=
    fun turn hturn hmem => h.2.2 _ (mem_map_of_mem hturn) _ hmem rfl
  have hgone : ∀ turn ∈ gone, turn.id ∈ gone.map Turn.id :=
    fun turn hturn => mem_map_of_mem hturn
  rw [removeTurns, filter_append,
    filter_eq_self.2 fun turn hturn => decide_eq_true (hkept turn hturn),
    filter_eq_nil_iff.2 fun turn hturn => by simpa using hgone turn hturn, append_nil]

lemma removeTurns_drop (h : (view.map Turn.id).Nodup) (n : ℕ) :
    removeTurns view ((view.drop n).map Turn.id) = view.take n := by
  have happend := @removeTurns_append (view.take n) (view.drop n) (by rwa [take_append_drop])
  rwa [take_append_drop] at happend

lemma reports_handleThreadRollback (hb : b.Inv) (n : ℕ) : Reports b (b.handleThreadRollback n) := by
  obtain ⟨-, hnone, hturns, hchanges, -⟩ := view_finishCurrentTurn hb.kept
  refine ⟨{ removedTurnIds := (b.view.drop (b.view.length - n)).map Turn.id }, ?_, ?_, ?_⟩
  · simp [handleThreadRollback, recordRemovedTurnIds, ThreadHistoryChangeSet.append, hturns,
      hchanges]
  · simp only [applyChanges, foldl_nil, removeTurns_drop hb.distinct.turnIds]
    simp [handleThreadRollback, recordRemovedTurnIds, view_of_none, hnone, hturns]
  · simp [Grounded]

/-! ### What is pushed -/

/-- The items of the open turn. -/
def openItems (b : ThreadHistoryBuilder) : List ThreadItem :=
  (b.currentTurn.map fun turn => turn.items).getD []

/-- Whether the last item is reasoning, which more reasoning extends. -/
def endsInReasoning (items : List ThreadItem) : Bool :=
  match items.getLast? with
  | some (.reasoning _ _ _) => true
  | _ => false

/-- The item that an action pushes, and the items that it is pushed to. -/
def pushed (b : ThreadHistoryBuilder) : Action → Option (ThreadItem × List ThreadItem)
  | .push item => some (item, b.openItems)
  | .pushNew item => some (item (itemId b.nextItemIndex), b.openItems)
  | .pushUser item => some (item (itemId b.nextItemIndex), b.finishImplicitTurn.openItems)
  | .reasoning summary content =>
    if endsInReasoning b.openItems then none
    else some (.reasoning (itemId b.nextItemIndex) summary content, b.openItems)
  | _ => none

/-- An item that is pushed has an id that the other items of its turn do not have. -/
def FreshPush (b : ThreadHistoryBuilder) (action : Action) : Prop :=
  ∀ entry ∈ b.pushed action, entry.1.id ∉ entry.2.map ThreadItem.id

instance (b : ThreadHistoryBuilder) (action : Action) : Decidable (b.FreshPush action) :=
  decidable_of_iff ((b.pushed action).all fun entry =>
    decide (entry.1.id ∉ entry.2.map ThreadItem.id)) (by
      unfold FreshPush
      cases b.pushed action <;> simp)

lemma freshPush_forget : b.forget.FreshPush action ↔ b.FreshPush action := by
  have hpushed : b.forget.pushed action = b.pushed action := by
    cases action with
    | pushUser item =>
      simp only [pushed, ← forget_finishImplicitTurn]
      rfl
    | _ => rfl
  rw [FreshPush, FreshPush, hpushed]

lemma items_ensureTurn (rendering : Rendering) (b : ThreadHistoryBuilder) :
    (ensureTurn rendering b).1.items = b.openItems := by
  rcases ensureTurn_cases rendering b with ⟨turn, hturn, hensure⟩ | ⟨hnone, hensure⟩
  · simp [hensure, openItems, hturn]
  · simp [hensure, openItems, hnone, newTurn]

/-- Reasoning that does not extend reasoning is an item of its own. -/
lemma handleReasoning_of_not (h : endsInReasoning b.openItems = false)
    (summary content : List Text) : handleReasoning rendering b summary content =
      pushNewItem rendering b fun id => .reasoning id summary content := by
  have hpush : pushNewItem rendering (ensureTurn rendering b).2
      (fun id => .reasoning id summary content) =
        pushNewItem rendering b fun id => .reasoning id summary content := by
    rcases ensureTurn_cases rendering b with ⟨turn, hturn, hensure⟩ | ⟨hnone, hensure⟩
    · rw [hensure]
    · simp [pushNewItem, nextItemId, pushItemInCurrentTurn, ensureTurn, openTurn,
        recordChangedTurn, newTurn, hnone]
  rw [← items_ensureTurn rendering] at h
  rw [← hpush]
  unfold handleReasoning
  simp only
  split
  · next hlast => simp [endsInReasoning, hlast] at h
  · rfl

/-- Reasoning that extends reasoning is put in the place of its item. -/
lemma handleReasoning_of_endsInReasoning (rendering : Rendering) (hb : b.Inv)
    (h : endsInReasoning b.openItems = true) (summary content : List Text) : ∃ item : ThreadItem,
      handleReasoning rendering b summary content = upsertItemInCurrentTurn rendering b item := by
  have hnodup : (b.openItems.map ThreadItem.id).Nodup := by
    unfold openItems
    cases hturn : b.currentTurn with
    | none => simp
    | some turn => exact hb.distinct.itemIds _ (mem_view_of_current hturn)
  rw [← items_ensureTurn rendering] at h hnodup
  unfold handleReasoning
  simp only
  split
  · next id oldSummary oldContent hlast =>
    refine ⟨.reasoning id (oldSummary ++ summary) (oldContent ++ content), ?_⟩
    obtain ⟨init, hinit⟩ := getLast?_eq_some_iff.1 hlast
    rw [hinit, map_append, nodup_append] at hnodup
    have hid : ThreadItem.id (.reasoning id oldSummary oldContent) ∉ init.map ThreadItem.id :=
      fun hmem => hnodup.2.2 _ hmem _ (by simp) rfl
    have hupsert := upsert_concat
      (b := ThreadItem.reasoning id (oldSummary ++ summary) (oldContent ++ content)) hid rfl
    simp [upsertItemInCurrentTurn, upsertTurnItem, hinit, hupsert]
  · next hlast =>
    unfold endsInReasoning at h
    split at h
    · next id oldSummary oldContent heq => exact absurd heq (hlast id oldSummary oldContent)
    · cases h

/-- An action that pushes an item does so after what does not change the view. -/
lemma perform_of_pushed (rendering : Rendering) (hb : b.Inv) {items : List ThreadItem}
    (h : b.pushed action = some (item, items)) : ∃ b₀ : ThreadHistoryBuilder,
      perform rendering b action = pushItemInCurrentTurn rendering b₀ item ∧ b₀.openItems = items ∧
        b₀.Inv ∧ b₀.view = b.view ∧ b₀.activeChangeSet = b.activeChangeSet ∧
        newTurn rendering b₀ none = newTurn rendering b none := by
  cases action with
  | push item' =>
    obtain ⟨rfl, rfl⟩ := Prod.mk.inj (Option.some.inj h)
    exact ⟨b, rfl, rfl, hb, rfl, rfl, rfl⟩
  | pushNew item' =>
    obtain ⟨rfl, rfl⟩ := Prod.mk.inj (Option.some.inj h)
    exact ⟨{ b with nextItemIndex := b.nextItemIndex + 1 }, rfl, rfl, ⟨hb.1, hb.2⟩, rfl, rfl,
      rfl⟩
  | pushUser item' =>
    obtain ⟨rfl, rfl⟩ := Prod.mk.inj (Option.some.inj h)
    obtain ⟨hview, hchanges, hindex, hcurrent, hopen⟩ := view_finishImplicitTurn hb.kept
    refine ⟨{ b.finishImplicitTurn with nextItemIndex := b.finishImplicitTurn.nextItemIndex + 1 },
      ?_, rfl, ⟨hview ▸ hb.distinct, fun turn hturn => hb.kept turn (hopen turn hturn)⟩, hview,
      hchanges, ?_⟩
    · rw [← hindex]
      rfl
    · simp [newTurn, hcurrent]
  | reasoning summary content =>
    rw [pushed] at h
    split at h
    · cases h
    · next hlast =>
      obtain ⟨rfl, rfl⟩ := Prod.mk.inj (Option.some.inj h)
      exact ⟨{ b with nextItemIndex := b.nextItemIndex + 1 },
        handleReasoning_of_not (Bool.not_eq_true _ ▸ hlast) summary content, rfl,
        ⟨hb.1, hb.2⟩, rfl, rfl, rfl⟩
  | _ => cases h

/-- What is recorded for an item that is pushed puts it among the items. -/
lemma reports_upsertItemInCurrentTurn (hb : b.Inv)
    (hid : (newTurn rendering b none).id ∉ b.view.map Turn.id) (item : ThreadItem) :
    Reports b (upsertItemInCurrentTurn rendering b item) :=
  reports_ensureTurn_setItems hb hid item

lemma pushItemInCurrentTurn_of_not_mem (h : item.id ∉ b.openItems.map ThreadItem.id) :
    pushItemInCurrentTurn rendering b item = upsertItemInCurrentTurn rendering b item := by
  rw [← items_ensureTurn rendering] at h
  simp only [pushItemInCurrentTurn, upsertItemInCurrentTurn, upsertTurnItem, upsert_of_not_mem h]

/-- An item that is pushed although its id is there is not put among the items. -/
lemma view_pushItemInCurrentTurn_ne (h : item.id ∈ b.openItems.map ThreadItem.id) :
    (upsertItemInCurrentTurn rendering b item).view ≠
      (pushItemInCurrentTurn rendering b item).view := by
  rw [← items_ensureTurn rendering] at h
  intro heq
  have hview : ∀ items : List ThreadItem, ((ensureTurn rendering b).2.setItems
      (ensureTurn rendering b).1 items item).view = (ensureTurn rendering b).2.turns ++
        [{ (ensureTurn rendering b).1.toTurn with items := items }] := fun items => rfl
  simp only [upsertItemInCurrentTurn, pushItemInCurrentTurn, hview, append_cancel_left_eq,
    cons.injEq, Turn.mk.injEq, and_true, true_and] at heq
  have hlength := congrArg List.length heq
  rw [upsertTurnItem, length_upsert_of_mem h] at hlength
  simp at hlength

/-! ### Every action reports its changes -/

/-- What is recorded does not notice that the open turn is finished. -/
lemma Reports.finishCurrentTurn {b' : ThreadHistoryBuilder} (h : Reports b b') (hkept : b'.Kept) :
    Reports b b'.finishCurrentTurn := by
  obtain ⟨hview, -, -, hchanges, -⟩ := view_finishCurrentTurn hkept
  obtain ⟨changes, hset, happly, hground⟩ := h
  exact ⟨changes, hchanges.trans hset, happly.trans hview.symm, hground⟩

variable (hb : b.Inv)
include hb

lemma reports_upsertItemInTurnId (turnId : Text) (item : ThreadItem) :
    Reports b (b.upsertItemInTurnId turnId item) := by
  unfold upsertItemInTurnId
  split
  · next turn hturn => exact reports_setItems hb (eq_some_of_currentWithId hturn) item
  · split
    · next hhas =>
      have hmem : turnId ∈ b.turns.map Turn.id := by
        simpa [hasTurn] using hhas
      have hview : turnId ∈ b.view.map Turn.id := by
        rw [view, map_append]
        exact mem_append_left _ hmem
      refine ⟨{ changedItems := [⟨turnId, item⟩] }, ?_, ?_, ?_⟩
      · simp [recordChangedItem, ThreadHistoryChangeSet.append]
      · simp only [applyChanges, removeTurns_nil, foldl_nil, foldl_cons, applyItemChange]
        rw [view, updateTurns_append_of_mem hmem]
        rfl
      · simpa [Grounded] using hview
    · exact reports_of_view_eq rfl rfl

lemma reports_handleTurnStarted {turnId : Text} (hid : turnId ∉ b.view.map Turn.id)
    (startedAt : Option ℤ) : Reports b (handleTurnStarted rendering b turnId startedAt) := by
  obtain ⟨hview, hnone, -, hchanges, -⟩ := view_finishCurrentTurn hb.kept
  have hopen : Reports b.finishCurrentTurn
      (handleTurnStarted rendering b turnId startedAt) :=
    reports_openTurn hnone (by rw [hview]; exact hid) rfl
  obtain ⟨changes, hset, happly, hground⟩ := hopen
  rw [hview] at happly hground
  rw [hchanges] at hset
  exact ⟨changes, hset, happly, hground⟩

omit hb in
lemma reports_handleCompacted (hid : (newTurn rendering b none).id ∉ b.view.map Turn.id) :
    Reports b (handleCompacted rendering b) := by
  unfold handleCompacted
  rcases ensureTurn_cases rendering b with ⟨turn, hturn, hensure⟩ | ⟨hnone, hensure⟩
  · rw [hensure]
    exact reports_of_view_eq rfl (view_of_current hturn).symm
  · rw [hensure]
    exact reports_openTurn hnone hid rfl

lemma reports_handleTurnComplete (turnId : Text) (completedAt durationMs : Option ℤ) :
    Reports b (b.handleTurnComplete turnId completedAt durationMs) := by
  refine handleTurnComplete_cases (fun turn hturn => ?_)
    (reports_updateTurn turnId (fun _ => rfl) (fun _ => rfl)) (reports_of_view_eq rfl rfl)
  exact (reports_updateCurrent hb hturn rfl rfl).finishCurrentTurn
    (kept_updateCurrent (hb.kept turn hturn) rfl)

lemma reports_handleTurnAborted (turnId : Option Text) (completedAt durationMs : Option ℤ) :
    Reports b (b.handleTurnAborted turnId completedAt durationMs) :=
  handleTurnAborted_cases (fun _ hturn => reports_updateCurrent hb hturn rfl rfl)
    (fun _ => reports_updateTurn _ (fun _ => rfl) (fun _ => rfl)) (reports_of_view_eq rfl rfl)

/-- An action that pushes nothing reports what it changes. -/
lemma reports_perform_of_pushed_none
    (hturn : FreshTurn rendering b action) (hpushed : b.pushed action = none) :
    Reports b (perform rendering b action) := by
  cases action with
  | nothing => exact reports_of_view_eq rfl rfl
  | push item | pushNew item | pushUser item => cases hpushed
  | reasoning summary content =>
    have hlast : endsInReasoning b.openItems = true := by
      rw [pushed] at hpushed
      split at hpushed
      · assumption
      · cases hpushed
    obtain ⟨item, hitem⟩ :=
      handleReasoning_of_endsInReasoning rendering hb hlast summary content
    change Reports b (handleReasoning rendering b summary content)
    rw [hitem]
    exact reports_upsertItemInCurrentTurn hb hturn item
  | upsert item => exact reports_upsertItemInCurrentTurn hb hturn item
  | upsertIn turnId item => exact reports_upsertItemInTurnId hb turnId item
  | compacted => exact reports_handleCompacted hturn
  | fail error =>
    simp only [perform]
    split
    · next turn hturn => exact reports_updateCurrent hb hturn rfl rfl
    · exact reports_of_view_eq rfl rfl
  | rollback numTurns => exact reports_handleThreadRollback hb numTurns
  | start turnId startedAt => exact reports_handleTurnStarted hb hturn startedAt
  | complete turnId completedAt durationMs =>
    exact reports_handleTurnComplete hb turnId completedAt durationMs
  | abort turnId completedAt durationMs =>
    exact reports_handleTurnAborted hb turnId completedAt durationMs

omit hb in
lemma newTurnId_of_pushed {entry : ThreadItem × List ThreadItem}
    (h : b.pushed action = some entry) :
    newTurnId rendering b action = (newTurn rendering b none).id := by
  cases action with
  | start turnId startedAt => cases h
  | _ => rfl

variable (hturn : FreshTurn rendering b action)
include hturn

/-- **Every action reports what it changes**, if the ids that it introduces are new. -/
theorem reports_perform (hpush : b.FreshPush action) : Reports b (perform rendering b action) := by
  cases hpushed : b.pushed action with
  | none => exact reports_perform_of_pushed_none hb hturn hpushed
  | some entry =>
    obtain ⟨b₀, hperform, hitems, hb₀, hview, hchanges, hnew⟩ :=
      perform_of_pushed rendering hb hpushed
    rw [FreshTurn, newTurnId_of_pushed hpushed, ← hnew, ← hview] at hturn
    have hfresh : entry.1.id ∉ b₀.openItems.map ThreadItem.id := hitems ▸ hpush entry hpushed
    obtain ⟨changes, hset, happly, hground⟩ := reports_upsertItemInCurrentTurn hb₀ hturn entry.1
    rw [← pushItemInCurrentTurn_of_not_mem hfresh, ← hperform] at hset happly
    exact ⟨changes, hchanges ▸ hset, hview ▸ happly, hview ▸ hground⟩

/-- An item that is pushed although its turn has an item with its id is reported as if that item
were replaced. -/
theorem applyChanges_perform_ne (hpush : ¬ b.FreshPush action) :
    ∃ changes, (perform rendering b action).activeChangeSet =
        b.activeChangeSet.map (·.append changes) ∧
      applyChanges b.view changes ≠ (perform rendering b action).view := by
  obtain ⟨entry, hpushed, hmem⟩ : ∃ entry, b.pushed action = some entry ∧
      entry.1.id ∈ entry.2.map ThreadItem.id := by
    simpa [FreshPush, and_comm] using hpush
  obtain ⟨b₀, hperform, hitems, hb₀, hview, hset, hnew⟩ :=
    perform_of_pushed rendering hb hpushed
  rw [FreshTurn, newTurnId_of_pushed hpushed, ← hnew, ← hview] at hturn
  have hpresent : entry.1.id ∈ b₀.openItems.map ThreadItem.id := hitems ▸ hmem
  obtain ⟨changes, hchanges, happly, -⟩ := reports_upsertItemInCurrentTurn hb₀ hturn entry.1
  -- what is recorded is what an upsert would record
  have hsame : (upsertItemInCurrentTurn rendering b₀ entry.1).activeChangeSet =
      (perform rendering b action).activeChangeSet := by
    rw [hperform]
    rfl
  refine ⟨changes, by rw [← hsame, hchanges, hset], ?_⟩
  rw [← hview, happly, hperform]
  exact view_pushItemInCurrentTurn_ne hpresent

lemma Inv.perform (hpush : b.FreshPush action) : (perform rendering b action).Inv := by
  obtain ⟨changes, -, happly, -⟩ := reports_perform hb hturn hpush
  exact ⟨happly ▸ hb.distinct.applyChanges changes, kept_perform hb.kept action⟩

end ThreadHistoryBuilder

end TokenCode.ThreadHistory
