/-
Logs in which the newest entries are taken back.

A log consists of entries and of events that take back the newest `n` of the entries that are left
(`survivors`). A log that goes on takes back `excess` of the entries that were there, and adds the
ones that it keeps (`survivors_append`).

A list of items in which every entry begins with a mark is undone mark by mark, so that an entry
with several marks is undone in several steps; the items are those of the survivors exactly if every
event takes back no more marks than it counts (`foldl_marks_iff`).
-/
import Mathlib

namespace TokenCode.Undo

open List

/-- An entry, or taking back the newest `n`. -/
inductive Event (α : Type) where
  | put (entry : α)
  | undo (n : ℕ)
deriving DecidableEq, Repr

variable {α β : Type}

/-- How many entries from before the log are taken back. -/
def excess : List (Event α) → ℕ
  | [] => 0
  | .put _ :: events => excess events - 1
  | .undo n :: events => n + excess events

/-- The entries of the log that are not taken back. -/
def kept : List (Event α) → List α
  | [] => []
  | .put entry :: events => if excess events = 0 then entry :: kept events else kept events
  | .undo _ :: events => kept events

/-- What an event does to something that is built from the entries one by one. -/
def act (put : β → α → β) (undo : ℕ → β → β) (b : β) : Event α → β
  | .put entry => put b entry
  | .undo n => undo n b

variable {events : List (Event α)}

lemma kept_subset {entry : α} (h : entry ∈ kept events) : .put entry ∈ events := by
  induction events with
  | nil => simp [kept] at h
  | cons event events ih =>
    cases event with
    | put other =>
      simp only [kept] at h
      split at h
      · rcases mem_cons.1 h with rfl | h
        · exact mem_cons_self
        · exact mem_cons_of_mem _ (ih h)
      · exact mem_cons_of_mem _ (ih h)
    | undo n => exact mem_cons_of_mem _ (ih h)

/-! ### The entries that are left -/

variable (entries : List α)

/-- The entries that are left of a log. -/
def survivors (events : List (Event α)) : List α :=
  events.foldl (act (fun entries entry => entries ++ [entry]) fun n entries => entries.rdrop n) []

variable (new : List α)

lemma foldl_concat :
    new.foldl (fun entries entry => entries ++ [entry]) entries = entries ++ new := by
  induction new generalizing entries with
  | nil => simp
  | cons entry new ih => simp [ih]

lemma foldl_act_map_put (entries : List α) : (new.map Event.put).foldl
        (act (fun entries entry => entries ++ [entry]) fun n entries => entries.rdrop n) entries =
      entries ++ new := by
  rw [foldl_map]
  exact foldl_concat entries new

lemma survivors_concat (events : List (Event α)) (event : Event α) : survivors (events ++ [event]) =
    act (fun entries entry => entries ++ [entry]) (fun n entries => entries.rdrop n)
      (survivors events) event := by
  rw [survivors, foldl_append]
  rfl

/-- A log undoes some of the entries and puts what it keeps. -/
lemma foldl_act_entries (events : List (Event α)) (entries : List α) : events.foldl
        (act (fun entries entry => entries ++ [entry]) fun n entries => entries.rdrop n) entries =
      entries.rdrop (excess events) ++ kept events := by
  induction events generalizing entries with
  | nil => simp [excess, kept]
  | cons event events ih =>
    cases event with
    | put entry =>
      rw [foldl_cons, act, ih]
      -- the entry stays unless something after it reaches back beyond it
      rcases hexcess : excess events with _ | e
      · simp [kept, excess, hexcess]
      · simp [kept, excess, hexcess, rdrop_concat_succ]
    | undo n =>
      rw [foldl_cons, act, ih, rdrop_add]
      rfl

/-- The survivors of a log that goes on. -/
lemma survivors_append (before after : List (Event α)) :
    survivors (before ++ after) = (survivors before).rdrop (excess after) ++ kept after := by
  rw [survivors, foldl_append, foldl_act_entries]
  rfl

lemma survivors_eq_kept (events : List (Event α)) : survivors events = kept events := by
  simpa [survivors, List.rdrop] using survivors_append [] events

lemma kept_map_put : kept (entries.map Event.put) = entries ∧
    excess (entries.map Event.put) = 0 := by
  induction entries with
  | nil => exact ⟨rfl, rfl⟩
  | cons entry entries ih => simp [kept, excess, ih]

/-! ### Lists that are cut at their marks -/

section

variable {γ : Type} {mark : γ → Bool}

/-- Where the marks are. -/
def positions (mark : γ → Bool) (items : List γ) : List ℕ :=
  (List.range items.length).filter fun i => (items[i]?).any mark

variable (items : List γ)

lemma positions_append (more : List γ) : positions mark (items ++ more) =
    positions mark items ++ (positions mark more).map (items.length + ·) := by
  rw [positions, length_append, range_add, filter_append, filter_map]
  congr 1
  · refine filter_congr fun i hi => ?_
    rw [getElem?_append_left (mem_range.1 hi)]
  · congr 1
    refine filter_congr fun i _ => ?_
    simp [getElem?_append_right]

lemma positions_eq_nil {items : List γ} (h : ∀ item ∈ items, mark item = false) :
    positions mark items = [] := by
  refine filter_eq_nil_iff.2 fun i hi => ?_
  rw [getElem?_eq_getElem (mem_range.1 hi)]
  simp [h _ (getElem_mem _)]

/-- A segment: a mark, and items without one. -/
def Segment (mark : γ → Bool) (items : List γ) : Prop :=
  ∃ first rest, items = first :: rest ∧ mark first = true ∧ ∀ item ∈ rest, mark item = false

variable {segment : List γ}

lemma Segment.positions_append (h : Segment mark segment) (items : List γ) :
    positions mark (items ++ segment) = positions mark items ++ [items.length] := by
  obtain ⟨first, rest, rfl, hfirst, hrest⟩ := h
  have hone : positions mark [first] = [0] := by simp [positions, hfirst]
  rw [Undo.positions_append, ← singleton_append, Undo.positions_append, hone,
    positions_eq_nil hrest]
  simp

lemma exists_segment {items : List γ} (h : ∃ item ∈ items, mark item = true) :
    ∃ before segment, items = before ++ segment ∧ Segment mark segment := by
  induction items using reverseRecOn with
  | nil => simp at h
  | append_singleton items item ih =>
    by_cases hitem : mark item = true
    · exact ⟨items, [item], rfl, item, [], rfl, hitem, by simp⟩
    · obtain ⟨other, hother, hmark⟩ := h
      have hmem : other ∈ items := by
        rcases mem_append.1 hother with hother | hother
        · exact hother
        · obtain rfl := mem_singleton.1 hother
          exact absurd hmark hitem
      obtain ⟨before, _, rfl, first, rest, rfl, hfirst, hrest⟩ := ih ⟨other, hmem, hmark⟩
      refine ⟨before, first :: (rest ++ [item]), by simp, first, _, rfl, hfirst, ?_⟩
      simpa [or_imp, forall_and] using ⟨hrest, Bool.eq_false_of_not_eq_true hitem⟩

/-- The list up to its `n`-th mark from the end, or to its first one. -/
def dropSegments (mark : γ → Bool) (n : ℕ) (items : List γ) : List γ :=
  if n = 0 then items
  else match positions mark items with
    | [] => items
    | first :: rest => items.take
        (if (first :: rest).length ≤ n then first
          else (first :: rest).getD ((first :: rest).length - n) 0)

lemma dropSegments_of_none {items : List γ} (h : ∀ item ∈ items, mark item = false) (n : ℕ) :
    dropSegments mark n items = items := by
  simp [dropSegments, positions_eq_nil h]

@[simp] lemma dropSegments_zero : dropSegments mark 0 items = items := rfl

lemma lt_length_of_mem_positions {items : List γ} {i : ℕ} (h : i ∈ positions mark items) :
    i < items.length :=
  mem_range.1 (mem_filter.1 h).1

/-- The last segment is dropped first. -/
lemma Segment.dropSegments_append (h : Segment mark segment) (items : List γ)
    (n : ℕ) : dropSegments mark (n + 1) (items ++ segment) = dropSegments mark n items := by
  have hlt : ∀ i ∈ positions mark items, i < items.length := fun i => lt_length_of_mem_positions
  simp only [dropSegments, h.positions_append, Nat.add_eq_zero_iff, one_ne_zero, and_false,
    if_false]
  rcases hpositions : positions mark items with _ | ⟨first, rest⟩
  · simp
  · rw [hpositions] at hlt
    rcases n with _ | n
    · simp
    · have hfirst := hlt first (by simp)
      by_cases hle : rest.length ≤ n
      · simp [hle, take_append_of_le_length hfirst.le]
      · obtain ⟨k, hk⟩ : ∃ k, rest.length - n = k + 1 := ⟨rest.length - n - 1, by omega⟩
        have hlength : k < rest.length := by omega
        have hcut := hlt rest[k] (mem_cons_of_mem _ (getElem_mem hlength))
        simp [hle, hk, hlength, getElem?_append_left hlength, take_append_of_le_length hcut.le]

lemma dropSegments_subset (n : ℕ) : dropSegments mark n items ⊆ items := by
  unfold dropSegments
  split
  · exact List.Subset.refl _
  · split
    · exact List.Subset.refl _
    · exact take_subset _ _

/-- The marks are taken back from the end. -/
lemma filter_dropSegments (n : ℕ) :
    (dropSegments mark n items).filter mark = (items.filter mark).rdrop n := by
  induction n generalizing items with
  | zero => simp
  | succ n ih =>
    by_cases h : ∃ item ∈ items, mark item = true
    · obtain ⟨before, _, rfl, first, rest, rfl, hfirst, hrest⟩ := exists_segment h
      have hsegment : Segment mark (first :: rest) := ⟨first, rest, rfl, hfirst, hrest⟩
      have hmarks : (first :: rest).filter mark = [first] := by
        simpa [filter_cons, hfirst] using hrest
      rw [hsegment.dropSegments_append, ih, filter_append, hmarks, rdrop_concat_succ]
    · have hnone : ∀ item ∈ items, mark item = false := by simpa using h
      rw [dropSegments_of_none hnone, filter_eq_nil_iff.2 (by simpa using hnone)]
      simp [List.rdrop]

/-- If a cut takes back `n` marks, it does so in a list that carries more. -/
lemma filter_take_of_map {f : α → γ} {items : List α} {cut n : ℕ}
    (h : ((items.map f).take cut).filter mark = ((items.map f).filter mark).rdrop n) :
    (items.take cut).filter (mark ∘ f) = (items.filter (mark ∘ f)).rdrop n := by
  have hlength : ((items.take cut).filter (mark ∘ f)).length =
      ((items.filter (mark ∘ f)).rdrop n).length := by
    rw [← map_take, filter_map, filter_map] at h
    simpa [List.rdrop] using congrArg List.length h
  have htake : (items.take cut).filter (mark ∘ f) <+: items.filter (mark ∘ f) :=
    (List.take_prefix cut items).filter _
  have hdrop : (items.filter (mark ∘ f)).rdrop n <+: items.filter (mark ∘ f) :=
    take_prefix _ _
  exact (prefix_of_prefix_length_le htake hdrop hlength.le).eq_of_length hlength

/-- Items that begin with a mark are dropped mark by mark. -/
lemma dropSegments_append_of_countP {more : List γ}
    (hmore : ∀ first ∈ more.head?, mark first = true) {n : ℕ} (hn : more.countP mark ≤ n) :
    dropSegments mark n (items ++ more) = dropSegments mark (n - more.countP mark) items := by
  induction n generalizing more with
  | zero =>
    rcases more with _ | ⟨first, rest⟩
    · simp
    · simp [hmore first rfl] at hn
  | succ n ih =>
    rcases more with _ | ⟨first, rest⟩
    · simp
    · obtain ⟨before, _, hsplit, last, tail, rfl, hlast, htail⟩ :=
        exists_segment ⟨first, mem_cons_self, hmore first rfl⟩
      have hsegment : Segment mark (last :: tail) := ⟨last, tail, rfl, hlast, htail⟩
      have hcount : (last :: tail).countP mark = 1 := by
        rw [countP_cons_of_pos hlast, countP_eq_zero.2 (by simpa using htail)]
      have hhead : ∀ item ∈ before.head?, mark item = true := by
        intro item hitem
        refine hmore item ?_
        rw [hsplit]
        exact mem_head?_append_of_mem_head? hitem
      rw [hsplit, countP_append, hcount] at hn ⊢
      rw [← List.append_assoc, hsegment.dropSegments_append, ih hhead (by omega),
        Nat.add_sub_add_right]

end

/-! ### Entries with several marks -/

section

/-- Every event takes back entries that count no more than it does. -/
def CountsAgree (count : α → ℕ) (events : List (Event α)) : Prop :=
  ∀ front n back, events = front ++ .undo n :: back →
    (((survivors front).rtake n).map count).sum ≤ n

lemma CountsAgree.append_left {count : α → ℕ} {front back : List (Event α)}
    (h : CountsAgree count (front ++ back)) : CountsAgree count front :=
  fun before n after hfront => h before n (after ++ back) (by simp [hfront])

lemma excess_append_undo (events : List (Event α)) (n : ℕ) :
    excess (events ++ [.undo n]) = excess events + (n - (kept events).length) := by
  induction events with
  | nil => simp [excess, kept]
  | cons event events ih =>
    cases event with
    | put entry =>
      simp only [cons_append, excess, kept, ih]
      split
      · rw [length_cons]
        omega
      · omega
    | undo m => simp only [cons_append, excess, kept, ih, Nat.add_assoc]

lemma excess_le_append (front back : List (Event α)) : excess front ≤ excess (front ++ back) := by
  induction front with
  | nil => exact Nat.zero_le _
  | cons event front ih =>
    cases event with
    | put entry => exact Nat.sub_le_sub_right ih 1
    | undo n => exact Nat.add_le_add_left ih n

variable {γ : Type} {mark : γ → Bool} {parts : α → List γ}
  (hparts : ∀ entry, ∃ first rest, parts entry = first :: rest ∧ mark first = true)
include hparts

lemma head?_flatMap_parts (entries : List α) :
    ∀ first ∈ (entries.flatMap parts).head?, mark first = true := by
  rcases entries with _ | ⟨entry, entries⟩
  · simp
  · obtain ⟨first, rest, hentry, hmark⟩ := hparts entry
    simp [hentry, hmark]

lemma length_le_countP_flatMap (entries : List α) :
    entries.length ≤ (entries.flatMap parts).countP mark := by
  rw [countP_flatMap, ← length_map (countP mark ∘ parts)]
  refine length_le_sum_of_one_le _ fun count hcount => ?_
  obtain ⟨entry, -, rfl⟩ := mem_map.1 hcount
  obtain ⟨first, rest, hentry, hmark⟩ := hparts entry
  simp [hentry, hmark]

/-- What is built mark by mark from events that count right. -/
lemma foldl_marks (hcounts : CountsAgree (fun entry => (parts entry).countP mark) events)
    {base : List γ} (hbase : base = [] ∨ excess events = 0) :
    events.foldl (act (fun items entry => items ++ parts entry) (dropSegments mark)) base =
      base ++ (survivors events).flatMap parts := by
  induction events using reverseRecOn with
  | nil => simp [survivors]
  | append_singleton events event ih =>
    have hle := excess_le_append events [event]
    have hbase' : base = [] ∨ excess events = 0 :=
      hbase.imp_right fun hzero => Nat.le_zero.1 (hle.trans_eq hzero)
    rw [foldl_append, ih hcounts.append_left hbase', survivors_concat]
    cases event with
    | put entry => simp [act]
    | undo n =>
      -- the entries that are taken back, and those before them
      have hcount := hcounts events n [] rfl
      have hsplit : survivors events = (survivors events).rdrop n ++ (survivors events).rtake n :=
        (take_append_drop _ _).symm
      have hmarks : (((survivors events).rtake n).flatMap parts).countP mark ≤ n := by
        rw [countP_flatMap]
        exact hcount
      have hdrop := dropSegments_append_of_countP
        (base ++ ((survivors events).rdrop n).flatMap parts) (head?_flatMap_parts hparts _) hmarks
      rw [List.append_assoc, ← flatMap_append, ← hsplit] at hdrop
      simp only [foldl_cons, foldl_nil, act, hdrop]
      by_cases hn : n ≤ (survivors events).length
      · have hlength := length_le_countP_flatMap hparts ((survivors events).rtake n)
        have hrtake : ((survivors events).rtake n).length = n := by
          rw [List.rtake, length_drop]
          omega
        rw [Nat.sub_eq_zero_of_le (hrtake.symm.trans_le hlength), dropSegments_zero]
      · have hnil : (survivors events).rdrop n = [] := by
          rw [List.rdrop, Nat.sub_eq_zero_of_le (by omega), take_zero]
        have hempty : base = [] := by
          refine hbase.resolve_right fun hexcess => hn ?_
          rw [excess_append_undo, ← survivors_eq_kept] at hexcess
          omega
        simp [hnil, hempty, dropSegments_of_none]

/-- **When marks and entries count the same.**  At every point of the log the items are those of the
surviving entries, exactly if every event takes back no more marks than it counts. -/
theorem foldl_marks_iff {base : List γ} (hbase : base = [] ∨ excess events = 0) :
    (∀ front, front <+: events →
      front.foldl (act (fun items entry => items ++ parts entry) (dropSegments mark)) base =
        base ++ (survivors front).flatMap parts) ↔
      CountsAgree (fun entry => (parts entry).countP mark) events := by
  constructor
  · rintro h front n back rfl
    have hfront := h front (prefix_append ..)
    have hnext := h (front ++ [.undo n]) ⟨back, by simp⟩
    rw [foldl_append, hfront, survivors_concat] at hnext
    simp only [foldl_cons, foldl_nil, act] at hnext
    -- count the marks on both sides
    have hmarks := congrArg (countP mark) hnext
    have hsplit : survivors front = (survivors front).rdrop n ++ (survivors front).rtake n :=
      (take_append_drop _ _).symm
    have hall : countP mark ((survivors front).flatMap parts) =
        countP mark (((survivors front).rdrop n).flatMap parts) +
          countP mark (((survivors front).rtake n).flatMap parts) := by
      rw [← countP_append, ← flatMap_append, ← hsplit]
    have hdrop (items : List γ) :
        countP mark (dropSegments mark n items) = countP mark items - n := by
      rw [countP_eq_length_filter, filter_dropSegments, countP_eq_length_filter, List.rdrop,
        length_take]
      omega
    have hcount : countP mark (((survivors front).rtake n).flatMap parts) =
        (((survivors front).rtake n).map fun entry => (parts entry).countP mark).sum :=
      countP_flatMap
    rw [hdrop, countP_append, countP_append, hall] at hmarks
    rw [← hcount]
    omega
  · rintro hcounts front ⟨back, rfl⟩
    refine foldl_marks hparts hcounts.append_left (hbase.imp_right fun h => ?_)
    exact Nat.le_zero.1 (h ▸ excess_le_append front back)

end

end TokenCode.Undo
