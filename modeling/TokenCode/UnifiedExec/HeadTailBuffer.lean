/-
The buffer for the output of a process (`core/src/unified_exec/head_tail_buffer.rs`).

The buffer keeps the beginning and the end of what was pushed, within a budget of bytes for each.
The end is a queue of chunks that is trimmed from the front, and the numbers of bytes are counted
beside the data. The main result says that none of this shows: what is kept is a function of the
bytes, however they were cut into chunks. That the counts saturate at the end of `usize` is left out.
-/
import Mathlib.Data.List.DropRight

namespace TokenCode.UnifiedExec

open List

/-- `HeadTailBuffer`. -/
structure HeadTailBuffer where
  maxBytes : ℕ
  headBudget : ℕ
  tailBudget : ℕ
  head : List (List UInt8)
  tail : List (List UInt8)
  headBytes : ℕ
  tailBytes : ℕ
  omittedBytes : ℕ
deriving DecidableEq, Repr

namespace HeadTailBuffer

/-- `new`. -/
def new (maxBytes : ℕ) : HeadTailBuffer where
  maxBytes := maxBytes
  headBudget := maxBytes / 2
  tailBudget := maxBytes - maxBytes / 2
  head := []
  tail := []
  headBytes := 0
  tailBytes := 0
  omittedBytes := 0

/-- `retained_bytes`. -/
def retainedBytes (b : HeadTailBuffer) : ℕ := b.headBytes + b.tailBytes

/-- The loop of `trim_tail_to_budget`: the chunks, their bytes, and the omitted bytes. -/
def trimLoop : List (List UInt8) → ℕ → ℕ → ℕ → List (List UInt8) × ℕ × ℕ
  | [], _, tailBytes, omittedBytes => ([], tailBytes, omittedBytes)
  | front :: tail, excess, tailBytes, omittedBytes =>
    if excess = 0 then (front :: tail, tailBytes, omittedBytes)
    else if front.length ≤ excess then
      trimLoop tail (excess - front.length) (tailBytes - front.length)
        (omittedBytes + front.length)
    else (front.drop excess :: tail, tailBytes - excess, omittedBytes + excess)

/-- `trim_tail_to_budget`. -/
def trimTailToBudget (b : HeadTailBuffer) : HeadTailBuffer :=
  let (tail, tailBytes, omittedBytes) :=
    trimLoop b.tail (b.tailBytes - b.tailBudget) b.tailBytes b.omittedBytes
  { b with tail := tail, tailBytes := tailBytes, omittedBytes := omittedBytes }

/-- `push_to_tail`. -/
def pushToTail (b : HeadTailBuffer) (chunk : List UInt8) : HeadTailBuffer :=
  if b.tailBudget = 0 then { b with omittedBytes := b.omittedBytes + chunk.length }
  else if b.tailBudget ≤ chunk.length then
    -- the chunk alone fills the tail
    let kept := chunk.drop (chunk.length - b.tailBudget)
    { b with
      omittedBytes := b.omittedBytes + b.tailBytes + (chunk.length - kept.length)
      tail := [kept]
      tailBytes := kept.length }
  else
    trimTailToBudget
      { b with tailBytes := b.tailBytes + chunk.length, tail := b.tail ++ [chunk] }

/-- A part of a chunk goes to the head. -/
def pushToHead (b : HeadTailBuffer) (chunk : List UInt8) : HeadTailBuffer :=
  { b with headBytes := b.headBytes + chunk.length, head := b.head ++ [chunk] }

/-- `push_chunk`. -/
def pushChunk (b : HeadTailBuffer) (chunk : List UInt8) : HeadTailBuffer :=
  if b.maxBytes = 0 then { b with omittedBytes := b.omittedBytes + chunk.length }
  else if b.headBytes < b.headBudget then
    let remainingHead := b.headBudget - b.headBytes
    if chunk.length ≤ remainingHead then b.pushToHead chunk
    else
      let headPart := chunk.take remainingHead
      let tailPart := chunk.drop remainingHead
      (if headPart = [] then b else b.pushToHead headPart).pushToTail tailPart
  else b.pushToTail chunk

/-- `to_bytes`. -/
def toBytes (b : HeadTailBuffer) : List UInt8 := b.head.flatten ++ b.tail.flatten

/-- `drain_chunks`. -/
def drainChunks (b : HeadTailBuffer) : HeadTailBuffer × List (List UInt8) :=
  ({ b with head := [], tail := [], headBytes := 0, tailBytes := 0, omittedBytes := 0 },
    b.head ++ b.tail)

/-- The buffer after a sequence of chunks. -/
def pushChunks (b : HeadTailBuffer) (chunks : List (List UInt8)) : HeadTailBuffer :=
  chunks.foldl pushChunk b

/-! ### The tail -/

section

variable {b : HeadTailBuffer} {pushed chunk : List UInt8}

/-- The last bytes are the last ones of what was kept before and of what is new. -/
lemma rtake_append_eq {α : Type} (n : ℕ) (l₁ l₂ : List α) :
    (l₁ ++ l₂).rtake n = (l₁.rtake n ++ l₂).rtake n := by
  simp only [List.rtake, length_append, length_drop, drop_append, drop_drop]
  congr 2 <;> omega

lemma rtake_append_of_le {α : Type} {n : ℕ} {l₂ : List α} (h : n ≤ l₂.length) (l₁ : List α) :
    (l₁ ++ l₂).rtake n = l₂.rtake n := by
  simp only [List.rtake, length_append, drop_append]
  rw [drop_eq_nil_of_le (by omega), nil_append]
  congr 1
  omega

lemma length_rtake {α : Type} (n : ℕ) (l : List α) : (l.rtake n).length = min n l.length := by
  simp only [List.rtake, length_drop]
  omega

/-- The loop drops the excess from the front. -/
lemma trimLoop_spec (tail : List (List UInt8)) (excess omitted : ℕ)
    (h : excess ≤ tail.flatten.length) :
    (trimLoop tail excess tail.flatten.length omitted).1.flatten = tail.flatten.drop excess ∧
      (trimLoop tail excess tail.flatten.length omitted).2.1 = tail.flatten.length - excess ∧
      (trimLoop tail excess tail.flatten.length omitted).2.2 = omitted + excess := by
  induction tail generalizing excess omitted with
  | nil =>
    obtain rfl : excess = 0 := by simpa using h
    exact ⟨rfl, rfl, rfl⟩
  | cons front tail ih =>
    rw [trimLoop]
    rw [flatten_cons, length_append] at h ⊢
    by_cases hzero : excess = 0
    · rw [if_pos hzero, hzero]
      exact ⟨rfl, rfl, rfl⟩
    by_cases hfront : front.length ≤ excess
    · rw [if_neg hzero, if_pos hfront, Nat.add_sub_cancel_left]
      obtain ⟨hbytes, hcount, homitted⟩ :=
        ih (excess - front.length) (omitted + front.length) (by omega)
      refine ⟨?_, by omega, by omega⟩
      rw [hbytes, drop_append, drop_eq_nil_of_le hfront, nil_append]
    · rw [if_neg hzero, if_neg hfront]
      refine ⟨?_, rfl, rfl⟩
      rw [flatten_cons, drop_append_of_le_length (by omega)]

/-- The tail holds the last bytes of what was pushed to it. -/
structure HoldsTail (pushed : List UInt8) (b : HeadTailBuffer) : Prop where
  bytes : b.tail.flatten = pushed.rtake b.tailBudget
  count : b.tailBytes = b.tail.flatten.length

/-- **A chunk in the tail**: the tail holds the last bytes, and the others are counted. -/
lemma HoldsTail.push (h : HoldsTail pushed b) (chunk : List UInt8) :
    HoldsTail (pushed ++ chunk) (b.pushToTail chunk) ∧
      (b.pushToTail chunk).omittedBytes + (b.pushToTail chunk).tailBytes =
        b.omittedBytes + b.tailBytes + chunk.length := by
  obtain ⟨hbytes, hcount⟩ := h
  unfold pushToTail
  by_cases hzero : b.tailBudget = 0
  · rw [if_pos hzero]
    refine ⟨⟨?_, hcount⟩, by dsimp only; omega⟩
    rw [hzero, rtake_zero] at hbytes
    rw [hzero, rtake_zero, hbytes]
  rw [if_neg hzero]
  by_cases hlarge : b.tailBudget ≤ chunk.length
  · rw [if_pos hlarge]
    have hkept : (chunk.drop (chunk.length - b.tailBudget)).length = b.tailBudget := by
      rw [length_drop]
      omega
    refine ⟨⟨?_, by simp⟩, by dsimp only; omega⟩
    rw [flatten_singleton, rtake_append_of_le hlarge]
    rfl
  · rw [if_neg hlarge]
    have htotal : b.tailBytes + chunk.length = (b.tail ++ [chunk]).flatten.length := by
      rw [flatten_append, flatten_singleton, length_append, hcount]
    obtain ⟨htrim, htrimCount, htrimOmitted⟩ := trimLoop_spec (b.tail ++ [chunk])
      (b.tailBytes + chunk.length - b.tailBudget) b.omittedBytes (by omega)
    rw [← htotal] at htrim htrimCount htrimOmitted
    refine ⟨⟨?_, ?_⟩, ?_⟩
    · change (trimLoop _ _ _ _).1.flatten = (pushed ++ chunk).rtake b.tailBudget
      rw [htrim, rtake_append_eq, ← hbytes, List.rtake, htotal, flatten_append, flatten_singleton]
    · change (trimLoop _ _ _ _).2.1 = (trimLoop _ _ _ _).1.flatten.length
      rw [htrim, htrimCount, length_drop, ← htotal]
    · change (trimLoop _ _ _ _).2.2 + (trimLoop _ _ _ _).2.1 = _
      rw [htrimCount, htrimOmitted]
      omega

/-- What does not belong to the tail. -/
lemma pushToTail_rest (b : HeadTailBuffer) (chunk : List UInt8) :
    (b.pushToTail chunk).head = b.head ∧ (b.pushToTail chunk).headBytes = b.headBytes ∧
      (b.pushToTail chunk).maxBytes = b.maxBytes ∧ (b.pushToTail chunk).headBudget = b.headBudget ∧
      (b.pushToTail chunk).tailBudget = b.tailBudget := by
  unfold pushToTail
  split_ifs
  all_goals exact ⟨rfl, rfl, rfl, rfl, rfl⟩

end

/-! ### Head and tail -/

section

variable {maxBytes : ℕ} {b : HeadTailBuffer} {pushed : List UInt8}

/-- **The buffer abbreviates what was pushed**: its head is the beginning, its tail the end of the
rest, and what is missing is counted. -/
structure Holds (maxBytes : ℕ) (pushed : List UInt8) (b : HeadTailBuffer) : Prop where
  maxBytes_eq : b.maxBytes = maxBytes
  headBudget_eq : b.headBudget = maxBytes / 2
  tailBudget_eq : b.tailBudget = maxBytes - maxBytes / 2
  head : b.head.flatten = pushed.take (maxBytes / 2)
  headBytes : b.headBytes = min (maxBytes / 2) pushed.length
  tail : HoldsTail (pushed.drop (maxBytes / 2)) b
  omitted : b.headBytes + b.tailBytes + b.omittedBytes = pushed.length

lemma holds_new (maxBytes : ℕ) : Holds maxBytes [] (new maxBytes) where
  maxBytes_eq := rfl
  headBudget_eq := rfl
  tailBudget_eq := rfl
  head := by simp [new]
  headBytes := by simp [new]
  tail := ⟨by simp [new, List.rtake], rfl⟩
  omitted := rfl

variable (h : Holds maxBytes pushed b)
include h

/-- A chunk that goes to the tail. -/
lemma Holds.pushToTail (hfull : maxBytes / 2 ≤ pushed.length)
    (chunk : List UInt8) : Holds maxBytes (pushed ++ chunk) (b.pushToTail chunk) := by
  obtain ⟨htail, hcount⟩ := h.tail.push chunk
  obtain ⟨hhead, hheadBytes, hmax, hheadBudget, htailBudget⟩ := b.pushToTail_rest chunk
  have hbytes := h.headBytes
  have homitted := h.omitted
  refine ⟨hmax.trans h.maxBytes_eq, hheadBudget.trans h.headBudget_eq,
    htailBudget.trans h.tailBudget_eq, ?_, ?_, ?_, ?_⟩
  · rw [hhead, h.head, take_append_of_le_length hfull]
  · rw [hheadBytes, length_append]
    omega
  · rwa [drop_append_of_le_length hfull]
  · rw [hheadBytes, length_append]
    omega

/-- A chunk that fits into the head. -/
lemma Holds.pushToHead {chunk : List UInt8} (hfits : pushed.length + chunk.length ≤ maxBytes / 2) :
    Holds maxBytes (pushed ++ chunk) (b.pushToHead chunk) := by
  have hbytes := h.headBytes
  have homitted := h.omitted
  have hrest : ∀ {bytes : List UInt8}, bytes.length ≤ maxBytes / 2 →
      bytes.drop (maxBytes / 2) = [] := drop_eq_nil_of_le
  refine ⟨h.maxBytes_eq, h.headBudget_eq, h.tailBudget_eq, ?_, ?_, ⟨?_, h.tail.count⟩, ?_⟩
  · change (b.head ++ [chunk]).flatten = _
    rw [flatten_append, flatten_singleton, h.head, take_of_length_le (by omega),
      take_of_length_le (by rw [length_append]; omega)]
  · change b.headBytes + chunk.length = _
    rw [length_append]
    omega
  · change b.tail.flatten = _
    rw [h.tail.bytes, hrest (by omega), hrest (by rw [length_append]; omega)]
    rfl
  · change b.headBytes + chunk.length + b.tailBytes + b.omittedBytes = _
    rw [length_append]
    omega

/-- **A chunk keeps it.** -/
lemma Holds.pushChunk (chunk : List UInt8) :
    Holds maxBytes (pushed ++ chunk) (b.pushChunk chunk) := by
  have hbytes := h.headBytes
  have hbudget := h.headBudget_eq
  unfold HeadTailBuffer.pushChunk
  by_cases hzero : b.maxBytes = 0
  · -- without a budget the tail refuses the chunk in the same way
    have hmax := h.maxBytes_eq
    have htail := h.tailBudget_eq
    have hpush := h.pushToTail (by omega) chunk
    rw [HeadTailBuffer.pushToTail, if_pos (by omega)] at hpush
    rwa [if_pos hzero]
  rw [if_neg hzero]
  by_cases hroom : b.headBytes < b.headBudget
  · rw [if_pos hroom]
    by_cases hfits : chunk.length ≤ b.headBudget - b.headBytes
    · rw [if_pos hfits]
      exact h.pushToHead (by omega)
    · rw [if_neg hfits]
      have hpart : (chunk.take (b.headBudget - b.headBytes)).length =
          b.headBudget - b.headBytes := by
        rw [length_take]
        omega
      have hne : chunk.take (b.headBudget - b.headBytes) ≠ [] := by
        intro hnil
        rw [hnil] at hpart
        simp only [length_nil] at hpart
        omega
      dsimp only
      rw [if_neg hne]
      have hhead : Holds maxBytes (pushed ++ chunk.take (b.headBudget - b.headBytes))
          (b.pushToHead (chunk.take (b.headBudget - b.headBytes))) := h.pushToHead (by omega)
      have htail := hhead.pushToTail (by rw [length_append]; omega)
        (chunk.drop (b.headBudget - b.headBytes))
      rwa [List.append_assoc, take_append_drop] at htail
  · rw [if_neg hroom]
    exact h.pushToTail (by omega) chunk

omit h

lemma holds_pushChunks (maxBytes : ℕ) (chunks : List (List UInt8)) :
    Holds maxBytes chunks.flatten ((new maxBytes).pushChunks chunks) := by
  induction chunks using reverseRecOn with
  | nil => exact holds_new maxBytes
  | append_singleton chunks chunk ih =>
    rw [pushChunks, List.foldl_concat, flatten_append, flatten_singleton]
    exact ih.pushChunk chunk

/-- **The buffer keeps the head and the tail of what was pushed**, whatever the chunks: the first
half of the budget, and of the rest the last bytes within the other half.  Kept and omitted bytes
are counted, no more is kept than the budget, and draining gives what was kept and a new buffer. -/
theorem pushChunks_keeps (maxBytes : ℕ) (chunks : List (List UInt8)) (s : List UInt8)
    (b : HeadTailBuffer) (hs : s = chunks.flatten) (hb : b = (new maxBytes).pushChunks chunks) :
    b.toBytes = s.take (maxBytes / 2) ++ (s.drop (maxBytes / 2)).rtake
      (min (maxBytes - maxBytes / 2) (s.length - min (maxBytes / 2) s.length)) ∧
    b.retainedBytes + b.omittedBytes = s.length ∧ b.retainedBytes ≤ maxBytes ∧
    b.retainedBytes = b.toBytes.length ∧
    b.drainChunks.2.flatten = b.toBytes ∧ b.drainChunks.1 = new maxBytes := by
  have h : Holds maxBytes s b := hs ▸ hb ▸ holds_pushChunks maxBytes chunks
  have hbytes := h.headBytes
  have homitted := h.omitted
  have htail := h.tail.bytes
  have hcount := h.tail.count
  have hlength := length_rtake b.tailBudget (s.drop (maxBytes / 2))
  rw [length_drop, h.tailBudget_eq] at hlength
  rw [h.tailBudget_eq] at htail
  rw [htail, hlength] at hcount
  have hrtake : (s.drop (maxBytes / 2)).rtake
      (min (maxBytes - maxBytes / 2) (s.length - min (maxBytes / 2) s.length)) =
        (s.drop (maxBytes / 2)).rtake (maxBytes - maxBytes / 2) := by
    simp only [List.rtake, length_drop, drop_drop]
    congr 1
    omega
  refine ⟨?_, ?_, ?_, ?_, ?_, ?_⟩
  · rw [toBytes, h.head, htail, hrtake]
  · rw [retainedBytes]
    omega
  · rw [retainedBytes]
    omega
  · rw [toBytes, retainedBytes, length_append, h.head, htail, hlength, length_take]
    omega
  · exact flatten_append
  · rw [drainChunks, new, h.maxBytes_eq, h.headBudget_eq, h.tailBudget_eq]

theorem pushChunks_keeps_three : ((new 3).pushChunks [[1, 2], [3, 4, 5]]).toBytes = [1, 4, 5] ∧
      ((new 3).pushChunks [[1, 2], [3, 4, 5]]).retainedBytes +
        ((new 3).pushChunks [[1, 2], [3, 4, 5]]).omittedBytes = 5 :=
  ⟨(pushChunks_keeps 3 [[1, 2], [3, 4, 5]] [1, 2, 3, 4, 5] _ rfl rfl).1,
    (pushChunks_keeps 3 [[1, 2], [3, 4, 5]] [1, 2, 3, 4, 5] _ rfl rfl).2.1⟩

end

end HeadTailBuffer

end TokenCode.UnifiedExec
