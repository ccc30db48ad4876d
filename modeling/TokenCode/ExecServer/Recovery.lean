/-
Recovery of process events is exact.

A system is a process on the server, with all its earlier states, and a client that receives
notifications of its events in any order and any number of times and recovers from reads of the
process, possibly late ones. After every run the subscribers have seen a prefix of the server's
events, and a recovery either publishes all events up to the moment of the read or fails because an
output that the client has never received is no longer retained (`recovery_exact`).
-/
import TokenCode.ExecServer.Session

namespace TokenCode.ExecServer

open Bool hiding and_assoc not_iff_not not_or
open List Option RunningProcess ExecProcessEvent

open List (dlookup)
open SortedMap (insertEntry)
open Reorder (Waiting Buffers drain)

/-- What a read without a limit answers while this output is retained. -/
def RunningProcess.answer (process : RunningProcess) (retained : List ProcessOutputChunk)
    (afterSeq : ℕ) : ReadResponse :=
  { process with output := retained : RunningProcess }.execRead (some afterSeq) none

lemma RunningProcess.answer_chunks (process : RunningProcess) (retained : List ProcessOutputChunk)
    (afterSeq : ℕ) : (process.answer retained afterSeq).chunks = retained.filter (·.seq > afterSeq) :=
  takeChunks_none _ _ _

/-! ### The client follows the log -/

/-- The events by their sequence numbers, which begin with 1. -/
def numbered (log : List ExecProcessEvent) : List ExecProcessEvent := .closed 0 :: log

variable {number : ℕ} {outcome : Except Text Bool × SessionState}

namespace SessionState

/-- The client has published the first events of the log, and what waits are later ones. -/
structure Tracks (log : List ExecProcessEvent) (state : SessionState) : Prop where
  failure : state.failure = none
  last_le : state.lastPublishedSeq ≤ log.length
  published : state.published = log.take state.lastPublishedSeq
  pending : Buffers (numbered log) (state.lastPublishedSeq + 1) state.pending
  exit : state.exitPublished = state.published.any ExecProcessEvent.isExited
  closed : state.closedPublished = state.published.any ExecProcessEvent.isClosed

lemma tracks_new (log : List ExecProcessEvent) : Tracks log new :=
  ⟨rfl, Nat.zero_le _, rfl, Reorder.buffers_nil _ _, rfl, rfl⟩

variable {log more : List ExecProcessEvent} {state : SessionState} {seq : ℕ}
  {event : ExecProcessEvent}

section

variable (h : Tracks log state)
include h

/-- The log grows at its end. -/
lemma Tracks.append (more : List ExecProcessEvent) : Tracks (log ++ more) state where
  failure := h.failure
  last_le := h.last_le.trans (by simp)
  published := by rw [h.published, take_append_of_le_length h.last_le]
  pending := h.pending.append more
  exit := h.exit
  closed := h.closed

/-- An event that waits is the event of the log with its number. -/
lemma Tracks.getElem?_of_pending (hpending : dlookup seq state.pending = some event) :
    state.lastPublishedSeq < seq ∧ log[seq - 1]? = some event := by
  obtain ⟨hlt, hget⟩ := h.pending.item seq event hpending
  refine ⟨hlt, ?_⟩
  obtain ⟨i, rfl⟩ : ∃ i, seq = i + 1 := ⟨seq - 1, by omega⟩
  simpa [numbered] using hget

/-- More of the log may wait. -/
lemma Tracks.insertEntry (hseq : state.lastPublishedSeq < seq)
    (hevent : log[seq - 1]? = some event) :
    Tracks log { state with pending := insertEntry seq event state.pending } := by
  refine { h with pending := h.pending.insert hseq ?_ }
  obtain ⟨i, rfl⟩ : ∃ i, seq = i + 1 := ⟨seq - 1, by omega⟩
  simpa [numbered] using hevent

lemma Tracks.insertPending (hseq : state.lastPublishedSeq < seq)
    (hevent : log[seq - 1]? = some event) : Tracks log (state.insertPending seq event) := by
  unfold SessionState.insertPending
  split_ifs
  · exact h
  · exact h.insertEntry hseq hevent

/-- Publishing goes on in the log, past everything that waits without a gap. -/
lemma Tracks.publishReady : Tracks log state.publishReady.2 ∧
      ∀ target, (∀ number, state.lastPublishedSeq < number → number ≤ target →
        (dlookup number state.pending).isSome) → target ≤ state.publishReady.2.lastPublishedSeq := by
  obtain ⟨htake, hle, hbuffers, -, -⟩ := h.pending.drain
  have hlength := Reorder.drain_length (state.lastPublishedSeq + 1) state.pending
  obtain ⟨last, hlast⟩ : ∃ last,
      (drain (state.lastPublishedSeq + 1) state.pending).2.1 = last + 1 :=
    ⟨state.lastPublishedSeq + (drain (state.lastPublishedSeq + 1) state.pending).1.length, by omega⟩
  have hpublished : state.published ++ (drain (state.lastPublishedSeq + 1) state.pending).1 =
      log.take last := by
    rw [hlast, numbered, take_succ_cons, take_succ_cons, cons_append] at htake
    rw [h.published, (cons.inj htake).2]
  have hle' : last ≤ log.length := by
    have hcount := congrArg List.length hpublished
    rw [length_append, h.published, length_take_of_le h.last_le, length_take] at hcount
    omega
  refine ⟨?_, fun target hall => ?_⟩
  · constructor <;> simp only [SessionState.publishReady, hlast, Nat.add_sub_cancel]
    case failure => exact h.failure
    case last_le => exact hle'
    case published => exact hpublished
    case pending => exact hlast ▸ hbuffers
    case exit => rw [any_append, h.exit]
    case closed => rw [any_append, h.closed]
  · have htarget : target + 1 ≤ (drain (state.lastPublishedSeq + 1) state.pending).2.1 :=
      h.pending.lt_drain fun number hge hlt => hall number hge (by omega)
    simp only [SessionState.publishReady, hlast]
    omega

end

lemma dlookup_insertPending_eq_none :
    dlookup number (state.insertPending seq event).pending = none ↔
      dlookup number state.pending = none ∧ number ≠ seq := by
  unfold SessionState.insertPending
  split_ifs with hsome
  · refine ⟨fun hnone => ⟨hnone, ?_⟩, And.left⟩
    rintro rfl
    simp [hnone] at hsome
  · rw [SortedMap.dlookup_insertEntry]
    split_ifs with heq <;> simp [heq]

/-- The event with this number has been published or waits. -/
def Knows (state : SessionState) (number : ℕ) : Prop :=
  number ≤ state.lastPublishedSeq ∨ (dlookup number state.pending).isSome

lemma not_knows : ¬ state.Knows number ↔
    state.lastPublishedSeq < number ∧ dlookup number state.pending = none := by
  simp [Knows]

lemma knows_insertEntry :
    { state with pending := SortedMap.insertEntry seq event state.pending : SessionState }.Knows
      number ↔ state.Knows number ∨ number = seq := by
  simp only [Knows, SortedMap.dlookup_insertEntry]
  split_ifs with heq <;> simp [heq]

lemma knows_insertPending :
    (state.insertPending seq event).Knows number ↔ state.Knows number ∨ number = seq := by
  rw [← not_iff_not, not_or, not_knows, not_knows, dlookup_insertPending_eq_none, and_assoc]
  rfl

section

variable (h : Tracks log state)
include h

/-- What was known before publishing is known after it. -/
lemma Tracks.knows_publishReady (hknows : state.Knows number) :
    state.publishReady.2.Knows number := by
  obtain ⟨-, hle, -, -, hrest⟩ := h.pending.drain
  simp only [Knows, SessionState.publishReady, hrest]
  rcases hknows with hpublished | hpending
  · exact .inl (by omega)
  · split_ifs with hlt
    · exact .inl (by omega)
    · exact .inr hpending

/-- A notification of an event of the log. -/
lemma Tracks.publishOrderedEvent (hseq : event.seq = some seq)
    (hevent : log[seq - 1]? = some event) : Tracks log (state.publishOrderedEvent event).2 := by
  simp only [SessionState.publishOrderedEvent, hseq]
  split_ifs with hignored
  · exact h
  · have hlt : state.lastPublishedSeq < seq := by
      simp only [ignores, or_eq_true, decide_eq_true_eq, not_or, not_le] at hignored
      exact hignored.2
    exact (h.insertPending hlt hevent).publishReady.1

/-! ### The parts of a recovery -/

/-- The chunks of an answer join what waits. -/
lemma Tracks.insertChunks {chunks : List ProcessOutputChunk}
    (hchunks : ∀ chunk ∈ chunks, log[chunk.seq - 1]? = some (.output chunk)) :
    Tracks log (state.insertChunks chunks) ∧
      (state.insertChunks chunks).lastPublishedSeq = state.lastPublishedSeq ∧
      ∀ seq, dlookup seq (state.insertChunks chunks).pending = none →
        dlookup seq state.pending = none ∧
          ∀ chunk ∈ chunks, state.lastPublishedSeq < chunk.seq → chunk.seq ≠ seq := by
  unfold SessionState.insertChunks
  induction chunks generalizing state with
  | nil => exact ⟨h, rfl, fun seq hnone => ⟨hnone, by simp⟩⟩
  | cons chunk chunks ih =>
    rw [foldl_cons]
    have hrest : ∀ other ∈ chunks, log[other.seq - 1]? = some (.output other) := fun other hother =>
      hchunks other (mem_cons_of_mem _ hother)
    split_ifs with hnew
    · have hinsert := h.insertPending hnew (hchunks chunk mem_cons_self)
      obtain ⟨htracks, hlast, hnone⟩ := ih hinsert hrest
      refine ⟨htracks, hlast, fun seq hseq => ?_⟩
      obtain ⟨hbefore, hothers⟩ := hnone seq hseq
      rw [dlookup_insertPending_eq_none] at hbefore
      refine ⟨hbefore.1, fun other hother hlt => ?_⟩
      rcases mem_cons.1 hother with rfl | hother
      · exact hbefore.2.symm
      · exact hothers other hother hlt
    · obtain ⟨htracks, hlast, hnone⟩ := ih h hrest
      refine ⟨htracks, hlast, fun seq hseq => ⟨(hnone seq hseq).1, fun other hother hlt => ?_⟩⟩
      rcases mem_cons.1 hother with rfl | hother
      · exact absurd hlt hnew
      · exact (hnone seq hseq).2 other hother hlt

/-- The close of the log joins what waits. -/
lemma Tracks.insertClosed {target : ℕ}
    (htarget : state.lastPublishedSeq < target) (hclosed : log[target - 1]? = some (.closed target)) :
    ∃ closed, state.insertClosed target = .ok closed ∧ Tracks log closed ∧
      closed.lastPublishedSeq = state.lastPublishedSeq ∧
      ∀ number, dlookup number closed.pending = none ↔
        dlookup number state.pending = none ∧ number ≠ target := by
  unfold SessionState.insertClosed
  cases hpending : dlookup target state.pending with
  | none =>
    refine ⟨_, rfl, h.insertEntry htarget hclosed, rfl, fun number => ?_⟩
    rw [SortedMap.dlookup_insertEntry]
    split_ifs with heq <;> simp [heq]
  | some event =>
    obtain rfl : ExecProcessEvent.closed target = event :=
      some.inj (hclosed.symm.trans (h.getElem?_of_pending hpending).2)
    refine ⟨state, rfl, h, rfl, fun number => ⟨fun hnone => ⟨hnone, ?_⟩, And.left⟩⟩
    rintro rfl
    exact absurd (hnone.symm.trans hpending) nofun

end

/-- If the exits that wait have the verdict of the answer, they stay as they are. -/
lemma mergeExit_eq {target : ℕ} {denied : Bool} {pending : Waiting ExecProcessEvent}
    (h : ∀ number seq exitCode verdict,
      ⟨number, .exited seq exitCode verdict⟩ ∈ pending → number ≤ target → verdict = some denied) :
    (mergeExit target denied pending).1 = pending ∧ ((mergeExit target denied pending).2 = true ↔
        ∃ entry ∈ pending, entry.1 ≤ target ∧ entry.2.isExited = true) := by
  induction pending with
  | nil => simp [mergeExit]
  | cons entry pending ih =>
    obtain ⟨ihlist, ihflag⟩ := ih fun number seq code verdict hmem =>
      h number seq code verdict (mem_cons_of_mem _ hmem)
    obtain ⟨number, event⟩ := entry
    cases event with
    | exited seq code verdict =>
      rw [mergeExit]
      split_ifs with hle
      · obtain rfl := h number seq code verdict mem_cons_self hle
        refine ⟨by simp, iff_of_true rfl ⟨_, mem_cons_self, hle, rfl⟩⟩
      · simp [ihlist, ihflag, hle]
    | output | closed | failed => simp [mergeExit, ihlist, ihflag, isExited]

/-! ### The numbers that are missing -/

/-- The number has neither been published nor waits. -/
def Missing (state : SessionState) (target number : ℕ) : Prop :=
  state.lastPublishedSeq < number ∧ number ≤ target ∧ dlookup number state.pending = none

variable {target number : ℕ}

lemma mem_retainedSeqs : number ∈ state.retainedSeqs target ↔
    (dlookup number state.pending).isSome ∧ state.lastPublishedSeq < number ∧ number ≤ target := by
  simp [retainedSeqs, dlookup_isSome]

variable (h : Tracks log state)
include h

lemma Tracks.pairwise_retainedSeqs : (state.retainedSeqs target).Pairwise (· < ·) :=
  Pairwise.filter _ (pairwise_map.2 h.pending.sorted)

lemma Tracks.card_missing :
    (Finset.Ioc state.lastPublishedSeq target \ (state.retainedSeqs target).toFinset).card =
      state.missingCount target :=
  Reorder.card_missing (h.pairwise_retainedSeqs.imp ne_of_lt)
    fun _ hmem => (mem_retainedSeqs.1 hmem).2

omit h in
lemma mem_missing : number ∈
    Finset.Ioc state.lastPublishedSeq target \ (state.retainedSeqs target).toFinset ↔
      state.Missing target number := by
  simp only [Finset.mem_sdiff, Finset.mem_Ioc, List.mem_toFinset, mem_retainedSeqs, Missing]
  constructor
  · rintro ⟨hrange, hnot⟩
    refine ⟨hrange.1, hrange.2, not_isSome_iff_eq_none.1 fun hsome => hnot ⟨hsome, hrange⟩⟩
  · rintro ⟨hlt, hle, hnone⟩
    exact ⟨⟨hlt, hle⟩, fun hsome => by simp [hnone] at hsome⟩

lemma Tracks.missingCount_eq_zero :
    state.missingCount target = 0 ↔ ∀ number, ¬ state.Missing target number := by
  rw [← h.card_missing, Finset.card_eq_zero, Finset.eq_empty_iff_forall_notMem]
  simp only [mem_missing]

/-- A single missing number is where the gap is found. -/
lemma Tracks.firstMissingSeq_eq (hnumber : state.Missing target number)
    (hunique : ∀ other, state.Missing target other → other = number) :
    state.firstMissingSeq target = number := by
  obtain ⟨hnot, hge, hall⟩ := Reorder.firstGap_spec (@Tracks.pairwise_retainedSeqs log state target h)
    fun other hmem => Nat.succ_le_of_lt (mem_retainedSeqs.1 hmem).2.1
  have hle : state.firstMissingSeq target ≤ number := by
    by_contra hlt
    have hmem := hall number hnumber.1 (not_le.1 hlt)
    have hsome := (mem_retainedSeqs.1 hmem).1
    simp [hnumber.2.2] at hsome
  refine hunique _ ⟨hge, hle.trans hnumber.2.1, ?_⟩
  refine not_isSome_iff_eq_none.1 fun hsome => hnot (mem_retainedSeqs.2 ⟨hsome, hge, ?_⟩)
  exact hle.trans hnumber.2.1

lemma Tracks.missingCount_eq_one (hnumber : state.Missing target number) :
    state.missingCount target = 1 ↔ ∀ other, state.Missing target other → other = number := by
  rw [← h.card_missing, Finset.card_eq_one]
  constructor
  · rintro ⟨only, honly⟩ other hother
    rw [← mem_missing, honly, Finset.mem_singleton] at hother hnumber
    exact hother.trans hnumber.symm
  · intro hunique
    refine ⟨number, Finset.ext fun other => ?_⟩
    rw [mem_missing, Finset.mem_singleton]
    exact ⟨hunique other, fun heq => heq ▸ hnumber⟩

omit h

/-! ### A recovery -/

section

variable {process : RunningProcess} (hwf : process.WellFormed)
include hwf

/-- An exit that the client does not know is missing. -/
lemma exists_missing_exit (h : Tracks (process.events ++ more) state)
    (hexited : process.exitCode.isSome = true) (hpublished : state.exitPublished = false)
    (hpending : ¬ ∃ entry ∈ state.pending,
      entry.1 ≤ process.events.length ∧ entry.2.isExited = true) :
    ∃ i code, process.events[i]? = some (.exited (i + 1) code (some process.sandboxDenied)) ∧
      process.exitCode = some code ∧ state.Missing process.events.length (i + 1) := by
  obtain ⟨event, hmem, hevent⟩ := List.any_eq_true.1 (hwf.exitCode.symm.trans hexited)
  obtain ⟨i, hi⟩ := mem_iff_getElem?.1 hmem
  have hlength := (List.getElem?_eq_some_iff.1 hi).1
  cases event with
  | exited seq code denied =>
    obtain rfl : seq = i + 1 := some.inj (hwf.seq i _ hi)
    obtain ⟨hcode, rfl⟩ := hwf.exited _ code denied hmem
    refine ⟨i, code, hi, hcode, ?_, hlength, ?_⟩
    · -- Published events are the first ones, and the exit is not among them.
      by_contra hlt
      have htake : ExecProcessEvent.exited (i + 1) code (some process.sandboxDenied) ∈
          state.published := by
        rw [h.published]
        refine mem_iff_getElem?.2 ⟨i, ?_⟩
        rw [getElem?_take_of_lt (by omega), getElem?_append_left hlength, hi]
      rw [h.exit, List.any_eq_false] at hpublished
      exact hpublished _ htake rfl
    · refine eq_none_iff_forall_ne_some.2 fun event hsome => hpending ?_
      have hget := (h.getElem?_of_pending hsome).2
      rw [Nat.add_sub_cancel, getElem?_append_left hlength, hi] at hget
      obtain rfl := some.inj hget
      exact ⟨_, of_mem_dlookup hsome, hlength, rfl⟩
  | output | closed | failed => exact absurd hevent nofun

/-- The exit is reported once. -/
lemma exit_unique {i j : ℕ} {a b : ExecProcessEvent} (ha : process.events[i]? = some a)
    (hb : process.events[j]? = some b) (hexitA : a.isExited = true) (hexitB : b.isExited = true) :
    i = j := by
  wlog hlt : i < j generalizing i j a b
  · rcases (not_lt.1 hlt).eq_or_lt with heq | hgt
    · exact heq.symm
    · exact (this hb ha hexitB hexitA hgt).symm
  have hbefore : 0 < (process.events.take j).countP isExited :=
    countP_pos_iff.2 ⟨a, mem_iff_getElem?.2 ⟨i, (getElem?_take_of_lt hlt).trans ha⟩, hexitA⟩
  have hafter : 0 < (process.events.drop j).countP isExited :=
    countP_pos_iff.2 ⟨b, mem_iff_getElem?.2 ⟨0, by rw [getElem?_drop, Nat.add_zero, hb]⟩, hexitB⟩
  have honce := hwf.once
  rw [← take_append_drop j process.events, countP_append] at honce
  omega

/-- An exit that the client knows is not missing. -/
lemma not_missing_of_known (h : Tracks (process.events ++ more) state)
    (hknown : state.exitPublished = true ∨ ∃ entry ∈ state.pending,
      entry.1 ≤ process.events.length ∧ entry.2.isExited = true)
    (hmissing : state.Missing process.events.length number)
    (hevent : process.events[number - 1]? = some event) : event.isExited = false := by
  by_contra hexit
  obtain ⟨hlast, hle, hnone⟩ := hmissing
  rcases hknown with hpublished | ⟨⟨seq, waiting⟩, hmem, hseq, hwaiting⟩
  · rw [h.exit, h.published, List.any_eq_true] at hpublished
    obtain ⟨exited, hmem, hexited⟩ := hpublished
    obtain ⟨i, hi⟩ := mem_iff_getElem?.1 hmem
    rw [getElem?_take] at hi
    split_ifs at hi with hlt
    rw [getElem?_append_left (by omega)] at hi
    have heq := exit_unique hwf hi hevent hexited (by simpa using hexit)
    omega
  · have hlookup : dlookup seq state.pending = some waiting :=
      mem_dlookup (SortedMap.Sorted.nodupKeys h.pending.sorted) hmem
    obtain ⟨hlt, hget⟩ := h.getElem?_of_pending hlookup
    change seq ≤ _ at hseq
    rw [getElem?_append_left (by omega)] at hget
    have heq := exit_unique hwf hget hevent hwaiting (by simpa using hexit)
    obtain rfl : seq = number := by omega
    exact absurd (hnone.symm.trans hlookup) nofun

/-- The last part of a recovery. -/
lemma Tracks.recoverExit (h : Tracks (process.events ++ more) state)
    {response : ReadResponse} (hexited : response.exited = process.exitCode.isSome)
    (hcode : response.exitCode = process.exitCode)
    (hdenied : response.sandboxDenied = process.sandboxDenied) {exitPending : Bool}
    (hpending : exitPending = true ↔ ∃ entry ∈ state.pending,
      entry.1 ≤ process.events.length ∧ entry.2.isExited = true)
    (houtcome : state.recoverExit exitPending process.events.length response = outcome) :
    Tracks (process.events ++ more) outcome.2 ∧
      (∀ number, state.Knows number → outcome.2.Knows number) ∧
      (∀ published, outcome.1 = .ok published →
        process.events.length ≤ outcome.2.lastPublishedSeq) ∧ ∀ err, outcome.1 = .error err →
        ∃ number event, state.Missing process.events.length number ∧
          process.events[number - 1]? = some event ∧ event.isExited = false := by
  have hexists : ∀ {number}, state.Missing process.events.length number →
      ∃ event, process.events[number - 1]? = some event := fun hmissing =>
    ⟨_, getElem?_eq_getElem (by have := hmissing.1; have := hmissing.2.1; omega)⟩
  simp only [SessionState.recoverExit] at houtcome
  split_ifs at houtcome with hunknown hgap hgap
  · -- The exit is missing, and not alone.
    obtain ⟨hsome, hknown⟩ := hunknown
    simp only [or_eq_true, not_or, hpending, not_eq_true] at hknown
    obtain ⟨i, code, hi, -, hmissing⟩ :=
      exists_missing_exit hwf h (hexited ▸ hsome) hknown.1 hknown.2
    rw [Ne, h.missingCount_eq_one hmissing] at hgap
    push Not at hgap
    obtain ⟨other, hother, hne⟩ := hgap
    obtain ⟨event, hevent⟩ := hexists hother
    subst houtcome
    refine ⟨h, fun _ => id, nofun, fun _ _ => ⟨other, event, hother, hevent, ?_⟩⟩
    by_contra hexit
    have heq := exit_unique hwf hi hevent rfl (by simpa using hexit)
    have hpos := hother.1
    omega
  · -- Only the exit is missing, so its place is known.
    obtain ⟨hsome, hknown⟩ := hunknown
    simp only [or_eq_true, not_or, hpending, not_eq_true] at hknown
    obtain ⟨i, code, hi, hprocess, hmissing⟩ :=
      exists_missing_exit hwf h (hexited ▸ hsome) hknown.1 hknown.2
    have hunique := (h.missingCount_eq_one hmissing).1 (not_not.1 hgap)
    rw [h.firstMissingSeq_eq hmissing hunique, hcode, hprocess, hdenied] at houtcome
    subst houtcome
    have hlog : (process.events ++ more)[i + 1 - 1]? =
        some (.exited (i + 1) code (some process.sandboxDenied)) := by
      rw [Nat.add_sub_cancel, getElem?_append_left hmissing.2.1, hi]
    have hinsert := h.insertEntry hmissing.1 hlog
    obtain ⟨htracks, hready⟩ := hinsert.publishReady
    refine ⟨htracks, fun number hknows => hinsert.knows_publishReady (knows_insertEntry.2 (.inl hknows)),
      fun _ _ => hready _ fun number hlt hle => ?_, nofun⟩
    rw [SortedMap.dlookup_insertEntry]
    split_ifs with heq
    · rfl
    · by_contra hnone
      exact heq (hunique number ⟨hlt, hle, not_isSome_iff_eq_none.1 hnone⟩)
  · rw [Ne, h.missingCount_eq_zero] at hgap
    push Not at hgap
    obtain ⟨number, hmissing⟩ := hgap
    obtain ⟨event, hevent⟩ := hexists hmissing
    subst houtcome
    refine ⟨h, fun _ => id, nofun, fun _ _ => ⟨number, event, hmissing, hevent, ?_⟩⟩
    by_contra hexit
    have hsome : process.exitCode.isSome = true := by
      rw [hwf.exitCode, List.any_eq_true]
      exact ⟨event, mem_of_getElem? hevent, by simpa using hexit⟩
    refine hexit (not_missing_of_known hwf h ?_ hmissing hevent)
    rw [hexited, ← hpending, ← or_eq_true] at *
    tauto
  · subst houtcome
    obtain ⟨htracks, hready⟩ := h.publishReady
    refine ⟨htracks, fun number => h.knows_publishReady,
      fun _ _ => hready _ fun number hlt hle => ?_, nofun⟩
    by_contra hnone
    exact h.missingCount_eq_zero.1 (not_not.1 hgap) number
      ⟨hlt, hle, not_isSome_iff_eq_none.1 hnone⟩

/-- A published close is the end of the log. -/
lemma Tracks.length_le_of_closed (h : Tracks process.events state)
    (hclosed : state.closedPublished = true) : process.events.length ≤ state.lastPublishedSeq := by
  rw [h.closed, h.published, List.any_eq_true] at hclosed
  obtain ⟨event, hmem, hevent⟩ := hclosed
  obtain ⟨i, hi⟩ := mem_iff_getElem?.1 hmem
  rw [getElem?_take] at hi
  split_ifs at hi with hlt
  cases event with
  | closed seq =>
    have hseq : seq = i + 1 := some.inj (hwf.seq i _ hi)
    have hlast := hwf.last seq (mem_of_getElem? hi)
    omega
  | output | exited | failed => exact absurd hevent nofun

/-- What is ignored has been published. -/
lemma Tracks.le_of_ignores (h : Tracks process.events state) (hignored : state.ignores number)
    (hle : number ≤ process.events.length) : number ≤ state.lastPublishedSeq := by
  simp only [ignores, h.failure, isSome_none, Bool.false_or, or_eq_true,
    decide_eq_true_eq] at hignored
  rcases hignored with hclosed | hlast
  · exact hle.trans (h.length_le_of_closed hwf hclosed)
  · exact hlast

/-- A chunk of the process is an event with its number. -/
lemma getElem?_of_mem_outputs {chunk : ProcessOutputChunk} (hchunk : chunk ∈ process.outputs) :
    process.events[chunk.seq - 1]? = some (.output chunk) ∧ 0 < chunk.seq ∧
      chunk.seq ≤ process.events.length := by
  obtain ⟨i, hi⟩ := mem_iff_getElem?.1 (mem_outputs.1 hchunk)
  have hseq : chunk.seq = i + 1 := some.inj (hwf.seq i _ hi)
  have hlength := (List.getElem?_eq_some_iff.1 hi).1
  rw [hseq, Nat.add_sub_cancel]
  exact ⟨hi, by omega, by omega⟩

/-- The close of the process joins what waits, if there is one. -/
lemma Tracks.recoverClosed (h : Tracks (process.events ++ more) state)
    (htarget : state.lastPublishedSeq < process.events.length) :
    ∃ closed, (if process.closed then state.insertClosed process.events.length else .ok state) =
        .ok closed ∧ Tracks (process.events ++ more) closed ∧
      closed.lastPublishedSeq = state.lastPublishedSeq ∧
      (∀ number, state.Knows number → closed.Knows number) ∧
      (process.closed = true → closed.Knows process.events.length) := by
  split_ifs with hclosed
  · have hlog : (process.events ++ more)[process.events.length - 1]? =
        some (.closed process.events.length) := by
      obtain ⟨event, hmem, hevent⟩ := List.any_eq_true.1 (hwf.closed.symm.trans hclosed)
      obtain ⟨i, hi⟩ := mem_iff_getElem?.1 hmem
      cases event with
      | closed seq =>
        have hseq : seq = i + 1 := some.inj (hwf.seq i _ hi)
        obtain rfl := hwf.last seq hmem
        rw [getElem?_append_left (by omega), hseq, Nat.add_sub_cancel, hi, hseq]
      | output | exited | failed => exact absurd hevent nofun
    obtain ⟨closed, hok, htracks, hlast, hnone⟩ := h.insertClosed htarget hlog
    refine ⟨closed, hok, htracks, hlast, fun number hknows => ?_, fun _ => ?_⟩
    · by_contra hnot
      rw [not_knows, hlast, hnone] at hnot
      exact not_knows.2 ⟨hnot.1, hnot.2.1⟩ hknows
    · by_contra hnot
      rw [not_knows, hnone] at hnot
      exact hnot.2.2 rfl
  · exact ⟨state, rfl, h, rfl, fun _ => id, fun hnot => absurd hnot hclosed⟩

/-- **One recovery.**  It follows the log and forgets nothing. If it succeeds, everything up to the
moment of the read is published; if it fails, an output that was not known is no longer retained. -/
lemma Tracks.recoverEvents {server : RunningProcess} (hserver : server.WellFormed)
    (hlog : server.events = process.events ++ more) (h : Tracks server.events state) {afterSeq : ℕ}
    (hafter : afterSeq ≤ state.lastPublishedSeq) {retained : List ProcessOutputChunk}
    (hretained : retained <:+ process.outputs)
    (houtcome : state.recoverEvents (process.answer retained afterSeq) = outcome) :
    Tracks server.events outcome.2 ∧ (∀ number, state.Knows number → outcome.2.Knows number) ∧
      (∀ chunk ∈ retained, outcome.2.Knows chunk.seq) ∧ (∀ published, outcome.1 = .ok published →
        process.events.length ≤ outcome.2.lastPublishedSeq) ∧ ∀ err, outcome.1 = .error err →
        ∃ chunk ∈ process.outputs, ¬ state.Knows chunk.seq ∧ chunk ∉ retained := by
  have htarget : (process.answer retained afterSeq).nextSeq - 1 = process.events.length :=
    congrArg (· - 1) hwf.nextSeq
  have hchunks : ∀ chunk ∈ retained, server.events[chunk.seq - 1]? = some (.output chunk) ∧
      chunk.seq ≤ process.events.length := by
    intro chunk hmem
    obtain ⟨hget, hpos, hle⟩ := getElem?_of_mem_outputs hwf (hretained.subset hmem)
    rw [hlog, getElem?_append_left (by omega)]
    exact ⟨hget, hle⟩
  by_cases hignored : state.ignores process.events.length = true
  · -- Everything up to the read has been published before.
    rw [recoverEvents_of_ignores rfl (htarget ▸ hignored)] at houtcome
    have hlast := h.le_of_ignores hserver hignored (by simp [hlog])
    subst houtcome
    refine ⟨h, fun _ => id, fun chunk hmem => .inl ?_, fun _ _ => hlast, nofun⟩
    exact (hchunks chunk hmem).2.trans hlast
  · have hlt : state.lastPublishedSeq < process.events.length := by
      simp only [ignores, or_eq_true, decide_eq_true_eq, not_or, not_le] at hignored
      exact hignored.2
    obtain ⟨hinserted, hlast, hnone⟩ := @Tracks.insertChunks server.events state h
      (retained.filter (·.seq > afterSeq))
      fun chunk hmem => (hchunks chunk (mem_of_mem_filter hmem)).1
    set received := state.insertChunks (retained.filter (·.seq > afterSeq)) with hreceived
    have hknows : ∀ number, state.Knows number → received.Knows number := by
      intro number hknows
      by_contra hnot
      rw [not_knows, hlast] at hnot
      exact not_knows.2 ⟨hnot.1, (hnone number hnot.2).1⟩ hknows
    have hretainedKnown : ∀ chunk ∈ retained, received.Knows chunk.seq := by
      intro chunk hmem
      by_contra hnot
      rw [not_knows, hlast] at hnot
      exact (hnone chunk.seq hnot.2).2 chunk
        (mem_filter.2 ⟨hmem, by simpa using hafter.trans_lt hnot.1⟩) hnot.1 rfl
    rw [hlog] at hinserted
    obtain ⟨closed, hok, htracks, -, hkept, hend⟩ :=
      Tracks.recoverClosed hwf hinserted (hlast ▸ hlt)
    have hverdict : ∀ number seq exitCode verdict,
        ⟨number, .exited seq exitCode verdict⟩ ∈ closed.pending → number ≤ process.events.length →
          verdict = some process.sandboxDenied := by
      intro number seq exitCode verdict hmem hle
      obtain ⟨hpos, hget⟩ := htracks.getElem?_of_pending
        (mem_dlookup (SortedMap.Sorted.nodupKeys htracks.pending.sorted) hmem)
      rw [getElem?_append_left (by omega)] at hget
      exact (hwf.exited seq exitCode verdict (mem_of_getElem? hget)).2
    obtain ⟨hmerged, hflag⟩ := mergeExit_eq hverdict
    rw [hreceived, ← answer_chunks, ← htarget] at hok
    rw [recoverEvents_of_insertClosed rfl (htarget ▸ hignored) hok, htarget] at houtcome
    change { closed with pending := (mergeExit process.events.length process.sandboxDenied
      closed.pending).1 : SessionState }.recoverExit _ _ _ = _ at houtcome
    rw [hmerged] at houtcome
    obtain ⟨hfollows, hforgets, hpublished, herror⟩ :=
      Tracks.recoverExit hwf htracks rfl rfl rfl hflag houtcome
    refine ⟨hlog ▸ hfollows, fun number hnumber => hforgets _ (hkept _ (hknows _ hnumber)),
      fun chunk hmem => hforgets _ (hkept _ (hretainedKnown chunk hmem)), hpublished,
      fun err herr => ?_⟩
    -- What is missing is neither the exit nor the close, so it is an output.
    obtain ⟨number, event, ⟨hnumber, hle, hnot⟩, hevent, hexit⟩ := herror err herr
    have hunknown : ¬ closed.Knows number := not_knows.2 ⟨hnumber, hnot⟩
    have hseq := hwf.seq _ event hevent
    cases event with
    | output chunk =>
      obtain rfl : chunk.seq = number := by
        have hchunk : chunk.seq = number - 1 + 1 := some.inj hseq
        omega
      refine ⟨chunk, mem_outputs.2 (mem_of_getElem? hevent), ?_, ?_⟩
      · exact fun hknown => hunknown (hkept _ (hknows _ hknown))
      · exact fun hmem => hunknown (hkept _ (hretainedKnown chunk hmem))
    | closed seq =>
      have hmem := mem_of_getElem? hevent
      have hclosed : process.closed = true :=
        hwf.closed.trans (List.any_eq_true.2 ⟨_, hmem, rfl⟩)
      have hlength := hwf.last seq hmem
      have hchunk : seq = number - 1 + 1 := some.inj hseq
      obtain rfl : number = process.events.length := by omega
      exact absurd (hend hclosed) hunknown
    | exited => exact absurd hexit nofun
    | failed => exact absurd hseq nofun

/-- After a notification its event is known, and nothing is forgotten. -/
lemma Tracks.knows_publishOrderedEvent (h : Tracks process.events state)
    (hevent : process.events[seq - 1]? = some event) (hseq : event.seq = some seq) {number : ℕ}
    (hknows : state.Knows number ∨ number = seq) :
    (state.publishOrderedEvent event).2.Knows number := by
  simp only [SessionState.publishOrderedEvent, hseq]
  split_ifs with hignored
  · rcases hknows with hknows | rfl
    · exact hknows
    · have hlength := (List.getElem?_eq_some_iff.1 hevent).1
      exact .inl (h.le_of_ignores hwf hignored (by omega))
  · simp only [ignores, or_eq_true, decide_eq_true_eq, not_or, not_le] at hignored
    exact (h.insertPending hignored.2 hevent).knows_publishReady (knows_insertPending.2 hknows)

end

end SessionState

/-! ### Runs of the system -/

/-- A process with the states that it has gone through, and a client with what has reached it. -/
structure System where
  server : RunningProcess
  history : List RunningProcess
  client : SessionState
  received : List ExecProcessEvent
deriving DecidableEq, Repr

namespace System

def start : System := ⟨.start, [.start], .new, []⟩

/-- The process goes on; a notification arrives, at any time and any number of times; or the client
recovers from a read that was answered in one of the states of the process, when some of its output
had been evicted. -/
inductive Step : System → System → Prop
  | server (system : System) (next : RunningProcess) (hstep : system.server.Step next) :
      Step system { system with server := next, history := next :: system.history }
  | notify (system : System) (event : ExecProcessEvent) (hevent : event ∈ system.server.events) :
      Step system { system with
        client := (system.client.publishOrderedEvent event).2
        received := event :: system.received }
  | recover (system : System) (process : RunningProcess) (retained : List ProcessOutputChunk)
      (afterSeq : ℕ) (hprocess : process ∈ system.history)
      (hretained : retained <:+ process.outputs)
      (hafter : afterSeq ≤ system.client.lastPublishedSeq) :
      Step system { system with
        client := (system.client.recoverEvents (process.answer retained afterSeq)).2
        received := (process.answer retained afterSeq).chunks.map .output ++ system.received }

inductive Reachable : System → Prop
  | start : Reachable start
  | step {system next : System} : Reachable system → Step system next → Reachable next

/-- What holds after every run. -/
structure Invariant (system : System) : Prop where
  server : system.server.WellFormed
  history : ∀ process ∈ system.history,
    process.WellFormed ∧ process.events <+: system.server.events
  client : system.client.Tracks system.server.events
  received : ∀ event ∈ system.received, ∃ seq, event.seq = some seq ∧ system.client.Knows seq

lemma invariant_start : start.Invariant where
  server := wellFormed_start
  history := by
    intro process hmem
    obtain rfl := mem_singleton.1 hmem
    exact ⟨wellFormed_start, prefix_rfl⟩
  client := SessionState.tracks_new _
  received := by simp [start]

variable {system next : System}

lemma Invariant.step (h : system.Invariant) (hstep : Step system next) : next.Invariant := by
  cases hstep with
  | server process hstep =>
    have hwf := h.server.step hstep
    obtain ⟨more, hmore⟩ := hstep.isPrefix_events
    refine ⟨hwf, fun earlier hmem => ?_, ?_, h.received⟩
    · rcases mem_cons.1 hmem with rfl | hmem
      · exact ⟨hwf, prefix_rfl⟩
      · exact ⟨(h.history earlier hmem).1, (h.history earlier hmem).2.trans ⟨more, hmore⟩⟩
    · exact hmore ▸ h.client.append more
  | notify event hevent =>
    obtain ⟨i, hi⟩ := mem_iff_getElem?.1 hevent
    have hseq := h.server.seq i event hi
    refine ⟨h.server, h.history, h.client.publishOrderedEvent hseq hi, fun other hother => ?_⟩
    rcases mem_cons.1 hother with rfl | hother
    · exact ⟨_, hseq, h.client.knows_publishOrderedEvent h.server hi hseq (.inr rfl)⟩
    · obtain ⟨seq, hother, hknows⟩ := h.received other hother
      exact ⟨seq, hother, h.client.knows_publishOrderedEvent h.server hi hseq (.inl hknows)⟩
  | recover process retained afterSeq hprocess hretained hafter =>
    obtain ⟨hwf, more, hmore⟩ := h.history process hprocess
    obtain ⟨htracks, hkept, hretainedKnown, -, -⟩ :=
      h.client.recoverEvents hwf h.server hmore.symm hafter hretained rfl
    refine ⟨h.server, h.history, htracks, fun event hevent => ?_⟩
    rcases mem_append.1 hevent with hchunk | hother
    · rw [answer_chunks] at hchunk
      obtain ⟨chunk, hmem, rfl⟩ := List.mem_map.1 hchunk
      exact ⟨_, rfl, hretainedKnown chunk (mem_of_mem_filter hmem)⟩
    · obtain ⟨seq, hseq, hknows⟩ := h.received event hother
      exact ⟨seq, hseq, hkept seq hknows⟩

lemma Reachable.invariant (h : Reachable system) : system.Invariant := by
  induction h with
  | start => exact invariant_start
  | step _ hstep ih => exact ih.step hstep

/-- **Recovery is exact.**  After every run the subscribers have seen the first events of the
process.  A recovery that succeeds leaves everything up to its read published; one that fails does so
because an output that has never reached the client is no longer retained. -/
theorem recovery_exact (h : Reachable system) :
    system.client.published <+: system.server.events ∧
      ∀ process ∈ system.history, ∀ retained, retained <:+ process.outputs →
        ∀ afterSeq ≤ system.client.lastPublishedSeq,
          let recovered := system.client.recoverEvents (process.answer retained afterSeq)
          recovered.2.published <+: system.server.events ∧
          (∀ publishedClosed, recovered.1 = .ok publishedClosed →
            process.events <+: recovered.2.published) ∧
          ∀ err, recovered.1 = .error err → ∃ chunk, .output chunk ∈ process.events ∧
            .output chunk ∉ system.client.published ∧ .output chunk ∉ system.received ∧
            chunk ∉ retained := by
  have hinv := h.invariant
  have hbegins : ∀ {client : SessionState}, client.Tracks system.server.events →
      client.published <+: system.server.events := fun htracks =>
    htracks.published ▸ take_prefix _ _
  refine ⟨hbegins hinv.client, fun process hprocess retained hretained afterSeq hafter => ?_⟩
  obtain ⟨hwf, more, hmore⟩ := hinv.history process hprocess
  obtain ⟨htracks, -, -, hok, herror⟩ :=
    hinv.client.recoverEvents hwf hinv.server hmore.symm hafter hretained rfl
  refine ⟨hbegins htracks, fun publishedClosed hpublished => ?_, fun err herr => ?_⟩
  · rw [htracks.published, ← hmore]
    exact prefix_take_iff.2 ⟨prefix_append _ _, hok publishedClosed hpublished⟩
  · obtain ⟨chunk, hmem, hunknown, hevicted⟩ := herror err herr
    obtain ⟨hget, hpos, hle⟩ := SessionState.getElem?_of_mem_outputs hwf hmem
    refine ⟨chunk, mem_outputs.1 hmem, fun hpublished => ?_, fun hreceived => ?_, hevicted⟩
    · rw [hinv.client.published] at hpublished
      obtain ⟨i, hi⟩ := mem_iff_getElem?.1 hpublished
      rw [getElem?_take] at hi
      split_ifs at hi with hlt
      have hseq : chunk.seq = i + 1 := some.inj (hinv.server.seq i _ hi)
      exact hunknown (.inl (by omega))
    · obtain ⟨seq, hseq, hknows⟩ := hinv.received _ hreceived
      obtain rfl : chunk.seq = seq := some.inj hseq
      exact hunknown hknows

/-- A process that has printed one byte, of which the client has not heard. -/
def printed : System :=
  { start with
    server := RunningProcess.start.streamOutput .stdout [104]
    history := [RunningProcess.start.streamOutput .stdout [104], .start] }

theorem recovery_exact_printed : (printed.client.recoverEvents (printed.server.answer [] 0)).1 =
        .error (SessionState.recoveryGapError 1) ∧
      (∃ chunk, .output chunk ∈ printed.server.events ∧ .output chunk ∉ printed.received) ∧
      printed.server.events <+:
        (printed.client.recoverEvents (printed.server.answer printed.server.outputs 0)).2.published := by
  have hreachable : Reachable printed :=
    .step .start (.server _ _ (.output _ .stdout [104] (by decide)))
  obtain ⟨-, hrecover⟩ := recovery_exact hreachable
  have hmem : printed.server ∈ printed.history := mem_cons_self
  have hgap : (printed.client.recoverEvents (printed.server.answer [] 0)).1 =
      .error (SessionState.recoveryGapError 1) := by rfl
  obtain ⟨chunk, hchunk, -, hreceived, -⟩ :=
    (hrecover _ hmem [] (nil_suffix) 0 (Nat.zero_le _)).2.2 _ hgap
  refine ⟨hgap, ⟨chunk, hchunk, hreceived⟩, ?_⟩
  exact (hrecover _ hmem _ suffix_rfl 0 (Nat.zero_le _)).2.1 _ rfl

end System

end TokenCode.ExecServer
