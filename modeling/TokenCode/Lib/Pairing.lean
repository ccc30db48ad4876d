/-
Logs of requests and replies that are made well paired.

Some items of a log are requests, some are replies; a reply belongs to the requests with its key.
A log is completed by putting a made-up reply behind every request that has none (`complete`), and
pruned by leaving out the replies that belong to no request (`prune`). Together these give a log in
which requests and replies are paired, and which they leave as it is.
-/
import Mathlib

namespace TokenCode.Pairing

open List

/-- Which items are requests and replies, and how a reply is made up. Some replies may stand
alone. -/
structure Protocol (α K : Type) where
  request : α → Option K
  reply : α → Option K
  alone : α → Bool
  make : α → α
  reply_of_request : ∀ a, request a ≠ none → reply a = none
  request_make : ∀ a, request a ≠ none → request (make a) = none
  reply_make : ∀ a, request a ≠ none → reply (make a) = request a

variable {α K : Type} [DecidableEq K] (P : Protocol α K)

/-- The keys of the requests. -/
def requests (items : List α) : List K := items.filterMap P.request

/-- The number of replies with this key. -/
def replies (k : K) (items : List α) : ℕ := items.countP fun a => P.reply a == some k

/-- The item is a request without a reply. -/
def missing (items : List α) (a : α) : Bool :=
  (P.request a).any fun k => replies P k items == 0

/-- The item is a reply that belongs to no request. -/
def orphan (items : List α) (a : α) : Bool :=
  !P.alone a && (P.reply a).any fun k => !decide (k ∈ requests P items)

/-- The item, and the reply that is made up for it. -/
def withReply (items : List α) (a : α) : List α :=
  a :: if missing P items a then [P.make a] else []

def complete (items : List α) : List α := items.flatMap (withReply P items)

def prune (items : List α) : List α := items.filter fun a => !orphan P items a

/-! ### Requests stay -/

variable {P} {items : List α} {a : α} {k : K}

lemma missing_iff : missing P items a = true ↔ ∃ k, P.request a = some k ∧ replies P k items = 0 := by
  simp [missing, Option.any_eq_true]

lemma replies_eq_zero_iff : replies P k items = 0 ↔ k ∉ items.filterMap P.reply := by
  simp [replies]

lemma replies_eq_count [BEq K] [LawfulBEq K] (k : K) (items : List α) :
    replies P k items = (items.filterMap P.reply).count k := by
  rw [List.count, countP_filterMap, replies]
  refine countP_congr fun a _ => ?_
  cases P.reply a <;> simp

lemma orphan_of_request (h : P.request a ≠ none) : orphan P items a = false := by
  simp [orphan, P.reply_of_request a h]

lemma requests_complete (items : List α) : requests P (complete P items) = requests P items := by
  have hitem : ∀ a, (withReply P items a).filterMap P.request = [a].filterMap P.request := by
    intro a
    by_cases h : missing P items a = true
    · obtain ⟨k, hk, -⟩ := missing_iff.1 h
      have hmake := P.request_make a (by simp [hk])
      simp [withReply, h, hmake, filterMap_cons]
    · simp [withReply, h]
  rw [requests, complete, filterMap_flatMap]
  simp only [hitem]
  rw [← filterMap_flatMap]
  simp [requests]

lemma requests_prune (items : List α) : requests P (prune P items) = requests P items := by
  rw [requests, prune, filterMap_filter]
  refine filterMap_congr fun a _ => ?_
  by_cases h : P.request a = none
  · simp [h]
  · simp [orphan_of_request h]

/-! ### Replies -/

lemma orphan_congr {other : List α} (h : requests P items = requests P other) (a : α) :
    orphan P items a = orphan P other a := by
  simp [orphan, h]

/-- A reply that is made up belongs to its request. -/
lemma orphan_make (h : P.request a ≠ none) (hmem : a ∈ items) :
    orphan P items (P.make a) = false := by
  obtain ⟨k, hk⟩ := Option.ne_none_iff_exists'.1 h
  have hrequest : k ∈ requests P items := mem_filterMap.2 ⟨a, hmem, hk⟩
  simp [orphan, P.reply_make a h, hk, hrequest]

lemma flatMap_eq_of_filter {p : α → Bool} {f g : α → List α}
    (h : ∀ a ∈ items, g a = if p a then f a else []) :
    items.flatMap g = (items.filter p).flatMap f := by
  induction items with
  | nil => rfl
  | cons a items ih =>
    have htail := ih (forall_mem_cons.1 h).2
    have hhead := h a mem_cons_self
    by_cases hp : p a = true
    all_goals simp [hp, hhead, htail]

/-- **The shape of the result**: the items in their order without the orphans, each with the reply
that is made up for it. -/
theorem prune_complete (items : List α) :
    prune P (complete P items) = (prune P items).flatMap (withReply P items) := by
  rw [prune, complete, List.filter_flatMap]
  refine flatMap_eq_of_filter fun a ha => ?_
  have hrequests : requests P (items.flatMap (withReply P items)) = requests P items :=
    requests_complete items
  simp only [orphan_congr hrequests]
  by_cases h : missing P items a = true
  · obtain ⟨k, hk, -⟩ := missing_iff.1 h
    have hne : P.request a ≠ none := by simp [hk]
    simp [withReply, h, orphan_of_request hne, orphan_make hne ha]
  · by_cases ho : orphan P items a = true
    all_goals simp [withReply, h, ho]

variable (k)

lemma replies_append (items more : List α) :
    replies P k (items ++ more) = replies P k items + replies P k more :=
  countP_append

@[simp] lemma replies_nil : replies P k [] = 0 := rfl

lemma replies_singleton (a : α) : replies P k [a] = if P.reply a = some k then 1 else 0 := by
  simp [replies, countP_cons]

lemma replies_withReply (items : List α) (a : α) : replies P k (withReply P items a) =
    replies P k [a] + if replies P k items = 0 then (requests P [a]).count k else 0 := by
  rw [withReply, ← singleton_append, replies_append]
  rcases ha : P.request a with _ | l
  · simp [missing, requests, replies, ha]
  · have hmake : P.reply (P.make a) = some l := ha ▸ P.reply_make a (by simp [ha])
    have hrequests : requests P [a] = [l] := by simp [requests, ha]
    by_cases hl : l = k
    · subst hl
      by_cases hzero : replies P l items = 0 <;>
        simp [missing, ha, hzero, hrequests, replies_singleton, hmake]
    · by_cases hzero : replies P l items = 0 <;>
        simp [missing, ha, hzero, hrequests, replies_singleton, hmake, hl]

/-- How many replies there are after completing. -/
lemma replies_complete (items : List α) : replies P k (complete P items) =
    replies P k items + if replies P k items = 0 then (requests P items).count k else 0 := by
  -- the replies that are looked for are those of the whole log
  suffices h : ∀ more, replies P k (more.flatMap (withReply P items)) =
      replies P k more + if replies P k items = 0 then (requests P more).count k else 0 from h items
  intro more
  induction more with
  | nil => simp [replies, requests]
  | cons a more ih =>
    have hrequests : requests P (a :: more) = requests P [a] ++ requests P more := by
      rw [requests, ← singleton_append, filterMap_append]
      rfl
    have hreplies : replies P k (a :: more) = replies P k [a] + replies P k more :=
      replies_append k [a] more
    rw [flatMap_cons, replies_append, ih, replies_withReply, hrequests, hreplies, count_append]
    split <;> omega

variable {k}

/-- Pruning keeps the replies to requests. -/
lemma replies_prune (hk : k ∈ requests P items) : replies P k (prune P items) = replies P k items := by
  rw [replies, prune, countP_filter, replies]
  refine countP_congr fun a _ => ?_
  simp only [Bool.and_eq_true, beq_iff_eq, Bool.not_eq_true']
  refine and_iff_left_of_imp fun ha => ?_
  simp [orphan, ha, hk]

/-- **Every request has its reply.** -/
theorem replies_prune_complete (hrequests : (requests P items).Nodup)
    (hk : k ∈ requests P (prune P (complete P items))) :
    replies P k (prune P (complete P items)) = max 1 (replies P k items) := by
  rw [requests_prune, requests_complete] at hk
  rw [replies_prune (by rwa [requests_complete]), replies_complete,
    count_eq_one_of_mem hrequests hk]
  split <;> omega

lemma replies_prune_complete_ne_zero (hk : k ∈ requests P (prune P (complete P items))) :
    replies P k (prune P (complete P items)) ≠ 0 := by
  rw [requests_prune, requests_complete] at hk
  have hpos := count_pos_iff.2 hk
  rw [replies_prune (by rwa [requests_complete]), replies_complete]
  split <;> omega

/-- **Every reply that may not stand alone has its request.** -/
theorem mem_requests_of_reply (ha : a ∈ prune P items) (hreply : P.reply a = some k)
    (halone : P.alone a = false) : k ∈ requests P (prune P items) := by
  rw [requests_prune]
  obtain ⟨-, horphan⟩ := mem_filter.1 ha
  simpa [orphan, halone, hreply] using horphan

lemma complete_of_replies (h : ∀ k ∈ requests P items, replies P k items ≠ 0) :
    complete P items = items := by
  have hitem : ∀ a ∈ items, withReply P items a = [a] := by
    intro a ha
    have hmissing : missing P items a = false := by
      rw [Bool.eq_false_iff]
      intro hmissing
      obtain ⟨k, hk, hzero⟩ := missing_iff.1 hmissing
      exact h k (mem_filterMap.2 ⟨a, ha, hk⟩) hzero
    simp [withReply, hmissing]
  rw [complete, flatMap_congr hitem]
  simp

/-! ### Inserting from the end -/

lemma insertIdx_length_append (before after : List α) (new : α) :
    (before ++ after).insertIdx before.length new = before ++ new :: after := by
  induction before with
  | nil => simp
  | cons a before ih => simpa using ih

/-- Items that are to be put behind others are inserted from the end, so that no index shifts. -/
lemma insertIdx_reverse (f : α → Option α) (items : List α) :
    (items.zipIdx.filterMap fun indexed => (f indexed.1).map fun new => (indexed.2, new)).reverse.foldl
      (fun items entry => items.insertIdx (entry.1 + 1) entry.2) items =
        items.flatMap fun a => a :: (f a).toList := by
  -- the items before the ones that are looked at are not moved
  suffices h : ∀ before after : List α,
      ((after.zipIdx before.length).filterMap fun indexed =>
        (f indexed.1).map fun new => (indexed.2, new)).foldr
          (fun entry items => items.insertIdx (entry.1 + 1) entry.2) (before ++ after) =
        before ++ after.flatMap fun a => a :: (f a).toList by
    simpa using h [] items
  intro before after
  induction after generalizing before with
  | nil => simp
  | cons a after ih =>
    have hafter := ih (before ++ [a])
    rw [length_append, length_singleton, List.append_assoc, singleton_append] at hafter
    rw [zipIdx_cons, filterMap_cons]
    cases hf : f a with
    | none => simpa [hf] using hafter
    | some new =>
      have hinsert := insertIdx_length_append (before ++ [a])
        (after.flatMap fun a => a :: (f a).toList) new
      rw [length_append, length_singleton] at hinsert
      simp only [Option.map_some, foldr_cons, hafter, hinsert]
      simp [hf]

end TokenCode.Pairing
