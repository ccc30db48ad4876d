/-
What the reconstruction makes of rollbacks.

The first pass narrows the suffix at a compaction before it knows whether the turn of the compaction
is taken back. If it is, the turns before it are lost. Otherwise the second pass takes back what
counts as the beginning of a user turn, and a turn may have more than one of those. The main result,
`history_survivors_iff`, says when the reconstructed history is that of the turns that survive, at
every point behind the newest compaction.
-/
import TokenCode.Rollout.Turns

namespace TokenCode.Rollout

open List Text Undo

variable {reading : Reading}

/-! ### The first pass over turns and rollbacks -/

/-- The replacement history that the first pass ends with. -/
def baseOf : List (Event (Turn reading)) → Option (List ResponseItem)
  | [] => none
  | .put t :: entries =>
    if excess entries = 0 then (baseOf entries).or (t.compaction.map Compaction.history)
    else baseOf entries
  | .undo _ :: entries => baseOf entries

/-- The suffix that the first pass ends with: the one behind the oldest compaction. -/
def suffixOf (rollout : List RolloutItem) : List (Event (Turn reading)) → List RolloutItem
  | [] => rollout
  | .put t :: entries =>
    match t.compaction with
    | none => suffixOf rollout entries
    | some c => t.rest c ++ rolloutOf entries
  | .undo _ :: entries => suffixOf rollout entries

open ReverseScan in
lemma scan_entries (rollout : List RolloutItem) (entries : List (Event (Turn reading))) :
    (scan reading rollout (rolloutOf entries)).Idle ∧
      (scan reading rollout (rolloutOf entries)).pendingRollbackTurns = excess entries ∧
      (scan reading rollout (rolloutOf entries)).baseReplacementHistory = baseOf entries ∧
      (scan reading rollout (rolloutOf entries)).rolloutSuffix = suffixOf rollout entries := by
  induction entries with
  | nil => exact ⟨⟨rfl, rfl⟩, rfl, rfl, rfl⟩
  | cons entry entries ih =>
    obtain ⟨hidle, hpending, hbase, hsuffix⟩ := ih
    rw [rolloutOf, flatMap_cons, ← rolloutOf]
    cases entry with
    | put t =>
      simp only [entryItems, excess, baseOf, suffixOf]
      cases ht : t.compaction with
      | none =>
        have hpassed := t.scan_items_none ht hidle
        exact ⟨hpassed.idle, by rw [hpassed.pendingRollbackTurns, hpending],
          by rw [hpassed.baseReplacementHistory, hpending, hbase]; rfl,
          by rw [hpassed.rolloutSuffix, hsuffix]⟩
      | some c =>
        have hpassed := t.scan_items_some ht hidle
        exact ⟨hpassed.idle, by rw [hpassed.pendingRollbackTurns, hpending],
          by rw [hpassed.baseReplacementHistory, hpending, hbase]; rfl,
          hpassed.rolloutSuffix⟩
    | undo n =>
      rw [entryItems, singleton_append, scan_cons hidle.previousTurnSettings]
      exact ⟨⟨hidle.activeSegment, hidle.previousTurnSettings⟩,
        by simp [visit, excess, hpending, Nat.add_comm], hbase, hsuffix⟩

/-- The reconstructed history, from the results of the first pass. -/
lemma history_eq (entries : List (Event (Turn reading))) : history entries =
    ((suffixOf (rolloutOf entries) entries).foldl (replayItem reading)
      (baseHistory (baseOf entries), false)).1.items := by
  obtain ⟨hidle, -, hbase, hsuffix⟩ := scan_entries (rolloutOf entries) entries
  have hfinish : (ReverseScan.scan reading (rolloutOf entries) (rolloutOf entries)).finish =
      ReverseScan.scan reading (rolloutOf entries) (rolloutOf entries) := by
    simp [ReverseScan.finish, hidle.activeSegment]
  rw [history, history_reconstructHistoryFromRollout, hfinish, ← hbase, ← hsuffix]

variable {entries : List (Event (Turn reading))}

lemma baseOf_of_not_hasCompaction (h : hasCompaction entries = false) : baseOf entries = none := by
  induction entries with
  | nil => rfl
  | cons entry entries ih =>
    cases entry with
    | put t => simp_all [baseOf]
    | undo n => exact ih h

variable {before : List (Event (Turn reading))}

lemma suffixOf_append (h : hasCompaction before = false)
    (rollout : List RolloutItem) (after : List (Event (Turn reading))) :
    suffixOf rollout (before ++ after) = suffixOf rollout after := by
  induction before with
  | nil => rfl
  | cons entry before ih =>
    cases entry with
    | put t => simp_all [suffixOf]
    | undo n => exact ih h

/-- An older compaction widens the suffix again, beyond everything that is newer. -/
lemma exists_suffixOf_append (h : hasCompaction before = true) (rollout : List RolloutItem)
    (after : List (Event (Turn reading))) :
    ∃ front, suffixOf rollout (before ++ after) = front ++ rolloutOf after := by
  induction before with
  | nil => cases h
  | cons entry before ih =>
    cases entry with
    | put t =>
      rw [cons_append, suffixOf]
      cases ht : t.compaction with
      | none => exact ih (by simpa [ht] using h)
      | some c => exact ⟨t.rest c ++ rolloutOf before, by simp [rolloutOf]⟩
    | undo n => exact ih h

section

variable {before after : List (Event (Turn reading))} {t : Turn reading} {c : Compaction reading}

lemma exists_newest (h : hasCompaction entries = true) :
    ∃ before t c after, entries = before ++ .put t :: after ∧ t.compaction = some c ∧
      hasCompaction after = false := by
  induction entries with
  | nil => cases h
  | cons entry entries ih =>
    by_cases hentries : hasCompaction entries = true
    · obtain ⟨before, t, c, after, rfl, ht, hafter⟩ := ih hentries
      exact ⟨entry :: before, t, c, after, rfl, ht, hafter⟩
    · have hentries := Bool.eq_false_of_not_eq_true hentries
      cases entry with
      | put t =>
        obtain ⟨c, hc⟩ := Option.isSome_iff_exists.1 (by simpa [hentries] using h)
        exact ⟨[], t, c, entries, rfl, hc, hentries⟩
      | undo n => exact absurd h (by simpa using hentries)

/-- If the turn of the newest compaction survives, its replacement is the base. -/
lemma baseOf_of_survives (ht : t.compaction = some c) (hafter : hasCompaction after = false)
    (hexcess : excess after = 0) : baseOf (before ++ .put t :: after) = some c.history := by
  induction before with
  | nil => simp [baseOf, hexcess, ht, baseOf_of_not_hasCompaction hafter]
  | cons entry before ih =>
    cases entry with
    | put other => simp [baseOf, ih]
    | undo n => exact ih

/-- The history of a rollout whose newest compaction survives begins at that compaction. -/
lemma history_newest (ht : t.compaction = some c) (hafter : hasCompaction after = false)
    (hexcess : excess after = 0) : history (before ++ .put t :: after) =
      after.foldl step (c.history ++ t.recordedAfter c) := by
  rw [history_eq]
  have hstart : Plain reading (c.history ++ t.recordedAfter c) :=
    c.plain.append (t.plain_recordedAfter c)
  cases hbefore : hasCompaction before with
  | false =>
    have hsuffix : suffixOf (rolloutOf (before ++ .put t :: after)) (before ++ .put t :: after) =
        t.rest c ++ rolloutOf after := by
      rw [suffixOf_append hbefore, suffixOf, ht]
    have hrest := t.replay_rest c (baseHistory (some c.history), false)
    rw [show (baseHistory (some c.history)).items = c.history from rfl] at hrest
    rw [hsuffix, baseOf_of_survives ht hafter hexcess, foldl_append,
      replay_entries hafter _ (hrest ▸ hstart), hrest]
  | true =>
    obtain ⟨front, hsuffix⟩ := exists_suffixOf_append hbefore
      (rolloutOf (before ++ .put t :: after)) (.put t :: after)
    -- whatever the second pass has before the newest compaction is replaced there
    have hitems := t.replay_items (front.foldl (replayItem reading)
      (baseHistory (baseOf (before ++ .put t :: after)), false))
    have hrecord : ∀ items, t.record items = c.history ++ t.recordedAfter c := by
      simp [Turn.record, ht]
    rw [hrecord] at hitems
    rw [hsuffix, rolloutOf, flatMap_cons, ← rolloutOf, foldl_append, foldl_append]
    refine (replay_entries hafter _ (hitems ▸ hstart)).trans ?_
    exact congrArg (after.foldl step) hitems

lemma history_of_not_hasCompaction
    (h : hasCompaction entries = false) : history entries = entries.foldl step [] := by
  have hsuffix : suffixOf (rolloutOf entries) entries = rolloutOf entries := by
    simpa [suffixOf] using suffixOf_append h (rolloutOf entries) []
  rw [history_eq, hsuffix, baseOf_of_not_hasCompaction h]
  exact replay_entries h (ContextManager.new, false) (by simp [Plain, ContextManager.new])

end

/-! ### Turns without rollbacks -/

variable (turns : List (Turn reading))

lemma foldl_recorded (history : List ResponseItem) :
    turns.foldl (fun history t => history ++ t.recorded) history =
      history ++ turns.flatMap Turn.recorded := by
  induction turns generalizing history with
  | nil => simp
  | cons t turns ih => simp [ih]

lemma foldl_step_turns {turns : List (Turn reading)}
    (h : hasCompaction (turns.map Event.put) = false) (history : List ResponseItem) :
    (turns.map Event.put).foldl step history = turns.foldl Turn.record history := by
  induction turns generalizing history with
  | nil => rfl
  | cons t turns ih =>
    simp only [map_cons, hasCompaction_put, Bool.or_eq_false_iff] at h
    have hrecord : t.record history = history ++ t.recorded := by
      simp [Turn.record, Option.not_isSome_iff_eq_none.1 (by simpa using h.1)]
    rw [map_cons, foldl_cons, foldl_cons, hrecord]
    exact ih h.2 _

/-- **Without rollbacks the reconstruction builds the history turn by turn.** -/
theorem history_turns : history (turns.map Event.put) = historyOf turns := by
  cases h : hasCompaction (turns.map Event.put) with
  | false => rw [history_of_not_hasCompaction h, foldl_step_turns h, historyOf]
  | true =>
    obtain ⟨before, t, c, after, hturns, ht, hafter⟩ := exists_newest h
    obtain ⟨older, newer, rfl, rfl, hnewer⟩ := map_eq_append_iff.1 hturns
    obtain ⟨_, newer, rfl, ⟨⟩, rfl⟩ := map_eq_cons_iff.1 hnewer
    rw [hturns, history_newest ht hafter (kept_map_put newer).2, foldl_step_turns hafter, historyOf,
      foldl_append, foldl_cons]
    simp [Turn.record, ht]

/-! ### Rollbacks -/

variable (h : hasCompaction entries = false)
include h

lemma hasCompaction_kept : hasCompaction ((kept entries).map Event.put) = false := by
  simp only [hasCompaction, any_eq_false, mem_map] at h ⊢
  rintro _ ⟨t, ht, rfl⟩
  exact h _ (kept_subset ht)

/-- The history of surviving turns, when the newest ones of them have no compaction. -/
lemma historyOf_append_kept (turns : List (Turn reading)) : historyOf (turns ++ kept entries) =
      historyOf turns ++ (kept entries).flatMap Turn.recorded := by
  have hkept := foldl_step_turns (hasCompaction_kept h) (historyOf turns)
  rw [historyOf, foldl_append, ← historyOf, ← hkept, ← foldl_recorded]
  simp [foldl_map, step, act]

omit h

lemma survivors_newest (before after : List (Event (Turn reading))) (t : Turn reading) :
    survivors (before ++ .put t :: after) =
      (survivors before ++ [t]).rdrop (excess after) ++ kept after := by
  rw [← singleton_append, ← List.append_assoc, survivors_append]
  simp [survivors, act]

/-- The older part of a rollout is empty, or it ends with a turn that has a compaction and that
nothing in the rest takes back. -/
def CompactionSurvives (older rest : List (Event (Turn reading))) : Prop :=
  older = [] ∨
    (∃ before t, older = before ++ [.put t] ∧ t.compaction.isSome = true) ∧ excess rest = 0

/-- Behind the newest compaction both histories are built on the same items. -/
lemma exists_base {older rest : List (Event (Turn reading))} (hrest : hasCompaction rest = false)
    (holder : CompactionSurvives older rest) :
    ∃ base : List ResponseItem, (base = [] ∨ excess rest = 0) ∧ ∀ front, front <+: rest →
      history (older ++ front) = front.foldl step base ∧
        historyOf (survivors (older ++ front)) = base ++ (survivors front).flatMap Turn.recorded := by
  have hfront : ∀ front, front <+: rest → hasCompaction front = false := by
    rintro front ⟨back, rfl⟩
    rw [hasCompaction, any_append, Bool.or_eq_false_iff] at hrest
    exact hrest.1
  rcases holder with rfl | ⟨⟨before, t, rfl, ht⟩, hexcess⟩
  · refine ⟨[], .inl rfl, fun front hle => ?_⟩
    have hkept := historyOf_append_kept (hfront front hle) []
    rw [nil_append] at hkept ⊢
    rw [survivors_eq_kept, hkept]
    exact ⟨history_of_not_hasCompaction (hfront front hle), rfl⟩
  · obtain ⟨c, hc⟩ := Option.isSome_iff_exists.1 ht
    refine ⟨c.history ++ t.recordedAfter c, .inr hexcess, fun front hle => ?_⟩
    have hzero : excess front = 0 := by
      obtain ⟨back, rfl⟩ := hle
      exact Nat.le_zero.1 (hexcess ▸ excess_le_append front back)
    have hrecord : historyOf (survivors before ++ [t]) = c.history ++ t.recordedAfter c := by
      simp [historyOf, Turn.record, hc]
    rw [List.append_assoc, singleton_append, survivors_newest, hzero, rdrop_zero,
      historyOf_append_kept (hfront front hle), hrecord, survivors_eq_kept]
    exact ⟨history_newest hc (hfront front hle) hzero, rfl⟩

/-- **When the reconstructed history is that of the surviving turns.**  If the newest compaction is
not taken back, then at every point behind it, exactly if every rollback there takes back turns that
together count for no more user turns than it takes back. -/
theorem history_survivors_iff (reading : Reading) (older rest : List (Event (Turn reading)))
    (hrest : hasCompaction rest = false) (holder : CompactionSurvives older rest) :
    (∀ front, front <+: rest →
      history (older ++ front) = history ((survivors (older ++ front)).map Event.put)) ↔
      CountsAgree Turn.boundaryCount rest := by
  obtain ⟨base, hbase, hfront⟩ := exists_base hrest holder
  have hcount : (Turn.boundaryCount : Turn reading → ℕ) = fun t =>
      t.recorded.countP (isUserTurnBoundary reading) := funext fun t => t.countP_recorded.symm
  rw [hcount, ← foldl_marks_iff Turn.exists_recorded_eq hbase]
  refine forall₂_congr fun front hle => ?_
  rw [history_turns, (hfront front hle).1, (hfront front hle).2]
  rfl

/-! ### Two rollouts -/

def userMessage (text : Text) : ResponseItem :=
  .message none "user".toList [.inputText text] none none

def assistantMessage (text : Text) : ResponseItem :=
  .message none "assistant".toList [.outputText text] none none

/-- A compaction behind the messages of its turn. -/
def compactionTo (text : Text) : Compaction plainReading where
  position := 3
  item := ⟨[], some [userMessage text], none, none, none, none⟩
  history := [userMessage text]
  item_history := rfl
  plain := by simp [Plain, userMessage, isContextual, isContextualUserMessageContent,
    isContextualUserFragment, plainReading]

/-- A turn with one answer. -/
def turnOf (text : Text) (compaction : Option (Compaction plainReading)) : Turn plainReading where
  id := text
  user := userMessage text
  event := ⟨none, text, none, [], [], [], []⟩
  model := [assistantMessage text]
  compaction := compaction
  user_isUserMessage := rfl
  user_plain := by simp [userMessage, isContextual, isContextualUserMessageContent,
    isContextualUserFragment, plainReading]
  model_notUser := by simp [assistantMessage, isUserMessage]
  model_plain := by simp [Plain, assistantMessage, isContextual]

/-- The compaction of the first turn survives a rollback of the second turn. -/
theorem history_survivors_compactedFirst :
    history [.put (turnOf "a".toList (some (compactionTo "s".toList))),
        .put (turnOf "b".toList none), .undo 1] =
      history [.put (turnOf "a".toList (some (compactionTo "s".toList)))] := by
  refine (history_survivors_iff plainReading
    [.put (turnOf "a".toList (some (compactionTo "s".toList)))]
    [.put (turnOf "b".toList none), .undo 1] rfl
    (.inr ⟨⟨[], _, rfl, rfl⟩, rfl⟩)).2 ?_ _ List.prefix_rfl
  rintro front n back hrest
  -- the only rollback is behind the second turn
  rcases front with _ | ⟨first, _ | ⟨second, front⟩⟩
  · cases hrest
  · obtain ⟨rfl, hundo⟩ := cons.inj hrest
    cases hundo
    decide
  · simp at hrest

/-- A turn, and a turn with a compaction that is taken back. -/
def lostCompaction : List (Event (Turn plainReading)) :=
  [.put (turnOf "a".toList none), .put (turnOf "b".toList (some (compactionTo "s".toList))),
    .undo 1]

/-- With the compaction the turn before it is lost. -/
theorem history_lostCompaction :
    history lostCompaction = [] ∧ history ((survivors lostCompaction).map Event.put) =
      [userMessage "a".toList, assistantMessage "a".toList] := by
  decide +kernel

end TokenCode.Rollout
