/-
Records in the order of their numbers (`exec-server/src/noise_relay/ordered_ciphertext.rs`).

The cipher counts the records that it decrypts, so they have to reach it in order and once. Records
that are early wait; how far ahead they may be and how many bytes may wait is limited.

After any arrivals the state is determined by the set of the numbers that have arrived (`Holds`): the
next number is the first one that is missing, and exactly the arrived records after it wait.
-/
import TokenCode.Lib.Reorder
import TokenCode.Lib.Text

namespace TokenCode.NoiseRelay

open List Reorder

open List (dlookup kerase)
open SortedMap (insertEntry)
open Reorder (Waiting drain firstMissing)

abbrev Bytes := List UInt8

/-- `u32::MAX`. -/
def maxSeq : ℕ := 2 ^ 32 - 1

/-- `MAX_REORDER_DISTANCE`. -/
def maxReorderDistance : ℕ := 64

/-- `MAX_PENDING_BYTES`. -/
def maxPendingBytes : ℕ := 1024 * 1024

def exhaustedError : Text := "Noise relay sequence number exhausted".toList

def windowError : Text := "Noise relay ciphertext exceeds reorder window".toList

def bufferFullError : Text := "Noise relay pending ciphertext buffer is full".toList

structure OrderedCiphertextFrames where
  nextSeq : ℕ
  pending : Waiting Bytes
  pendingBytes : ℕ
deriving DecidableEq, Repr

namespace OrderedCiphertextFrames

def new : OrderedCiphertextFrames := ⟨0, [], 0⟩

/-- `advance`. -/
def advance (frames : OrderedCiphertextFrames) : Except Text OrderedCiphertextFrames :=
  if frames.nextSeq < maxSeq then .ok { frames with nextSeq := frames.nextSeq + 1 }
  else .error exhaustedError

/-- `pending.remove(&next_seq)` with the bytes that become free. -/
def remove (frames : OrderedCiphertextFrames) (payload : Bytes) : OrderedCiphertextFrames :=
  { frames with
    pending := kerase frames.nextSeq frames.pending
    pendingBytes := frames.pendingBytes - payload.length }

lemma pending_of_advance {frames next : OrderedCiphertextFrames} (h : frames.advance = .ok next) :
    next.pending = frames.pending := by
  unfold advance at h
  split_ifs at h
  rw [← Except.ok.inj h]

/-- The loop of `push`: release what waits at the next number. -/
def release (frames : OrderedCiphertextFrames) (ready : List Bytes) :
    Except Text (List Bytes × OrderedCiphertextFrames) :=
  match _hfound : dlookup frames.nextSeq frames.pending with
  | none => .ok (ready, frames)
  | some payload =>
    match _hadvance : (frames.remove payload).advance with
    | .error err => .error err
    | .ok next => release next (ready ++ [payload])
termination_by frames.pending.length
decreasing_by
  rw [pending_of_advance _hadvance]
  exact Reorder.length_kerase_lt _hfound

/-- `push`: the records that are released. -/
def push (frames : OrderedCiphertextFrames) (seq : ℕ) (payload : Bytes) :
    Except Text (List Bytes × OrderedCiphertextFrames) :=
  if seq < frames.nextSeq ∨ (dlookup seq frames.pending).isSome then .ok ([], frames)
  else if seq > frames.nextSeq then
    if seq - frames.nextSeq > maxReorderDistance then .error windowError
    else if frames.pendingBytes + payload.length > maxPendingBytes then .error bufferFullError
    else
      .ok ([], { frames with
        pending := insertEntry seq payload frames.pending
        pendingBytes := frames.pendingBytes + payload.length })
  else frames.advance.bind fun next => next.release [payload]

/-! ### The loop -/

variable {frames : OrderedCiphertextFrames}

lemma advance_of_lt (h : frames.nextSeq < maxSeq) :
    frames.advance = .ok { frames with nextSeq := frames.nextSeq + 1 } := if_pos h

/-- The loop takes out what waits without a gap, as long as the numbers fit. -/
lemma release_eq (ready : List Bytes) (h : (drain frames.nextSeq frames.pending).2.1 ≤ maxSeq) :
    frames.release ready = .ok (ready ++ (drain frames.nextSeq frames.pending).1,
      { nextSeq := (drain frames.nextSeq frames.pending).2.1
        pending := (drain frames.nextSeq frames.pending).2.2
        pendingBytes := frames.pendingBytes -
          ((drain frames.nextSeq frames.pending).1.map List.length).sum }) := by
  induction hlength : frames.pending.length using Nat.strong_induction_on
    generalizing frames ready with
  | _ length ih =>
    rw [release]
    split
    · next hnone => simp [drain_of_none hnone]
    · next payload hfound =>
      rw [drain_of_some hfound] at h ⊢
      have hdrain := drain_length (frames.nextSeq + 1) (kerase frames.nextSeq frames.pending)
      have hlt : frames.nextSeq < maxSeq := by
        dsimp only at h
        omega
      have hadvance : (frames.remove payload).advance =
          .ok { frames.remove payload with nextSeq := frames.nextSeq + 1 } := advance_of_lt hlt
      split
      · next err herr => exact absurd (hadvance.symm.trans herr) nofun
      · next next hnext =>
        obtain rfl := Except.ok.inj (hadvance.symm.trans hnext)
        have hloop := @ih _ (hlength ▸ length_kerase_lt hfound)
          { frames.remove payload with nextSeq := frames.nextSeq + 1 } (ready ++ [payload]) h rfl
        rw [hloop]
        simp [remove, Nat.sub_sub]

/-! ### The state is what has arrived -/

/-- The numbers up to the next one have arrived, and exactly the later ones that have arrived wait. -/
structure Holds (payloads : List Bytes) (arrived : Finset ℕ) (frames : OrderedCiphertextFrames) :
    Prop where
  next : frames.nextSeq ∉ arrived
  before : ∀ seq < frames.nextSeq, seq ∈ arrived
  buffers : Reorder.Buffers payloads (frames.nextSeq + 1) frames.pending
  waiting : ∀ seq, (dlookup seq frames.pending).isSome ↔ frames.nextSeq < seq ∧ seq ∈ arrived
  bytes : frames.pendingBytes = (frames.pending.map fun entry => entry.2.length).sum

/-- The limits on what waits. -/
structure Bounded (frames : OrderedCiphertextFrames) : Prop where
  window : ∀ seq ∈ frames.pending.keys,
    frames.nextSeq < seq ∧ seq ≤ frames.nextSeq + maxReorderDistance
  bytes : frames.pendingBytes ≤ maxPendingBytes

variable {payloads : List Bytes} {arrived : Finset ℕ} {seq : ℕ} {payload : Bytes}

lemma holds_new (payloads : List Bytes) : Holds payloads ∅ new where
  next := Finset.notMem_empty _
  before := fun _ hlt => absurd hlt (Nat.not_lt_zero _)
  buffers := buffers_nil _ _
  waiting := by simp [new]
  bytes := rfl

lemma bounded_new : Bounded new := ⟨by simp [new], by simp [new]⟩

lemma Holds.firstMissing (h : Holds payloads arrived frames) :
    firstMissing arrived = frames.nextSeq :=
  firstMissing_eq h.next h.before

/-- The bytes of the records that have arrived after the first one that is missing. -/
def bufferedBytes (payloads : List Bytes) (arrived : Finset ℕ) : ℕ :=
  ∑ seq ∈ arrived with Reorder.firstMissing arrived < seq, (payloads[seq]?.getD []).length

section

variable (h : Holds payloads arrived frames)
include h

lemma Holds.pendingBytes : frames.pendingBytes = bufferedBytes payloads arrived := by
  have hkeys : frames.pending.keys.toFinset =
      arrived.filter (Reorder.firstMissing arrived < ·) := by
    ext seq
    rw [mem_toFinset, ← dlookup_isSome, h.waiting, Finset.mem_filter, h.firstMissing, and_comm]
  rw [h.bytes, h.buffers.sorted.sum_map, hkeys, bufferedBytes]
  refine Finset.sum_congr rfl fun seq hseq => ?_
  rw [← hkeys, mem_toFinset, ← dlookup_isSome, Option.isSome_iff_exists] at hseq
  obtain ⟨payload, hpayload⟩ := hseq
  rw [hpayload, (h.buffers.item seq payload hpayload).2]
  rfl

variable (hfit : payloads.length ≤ maxSeq)
include hfit

/-- The record at the next number, and what it releases. -/
lemma Holds.releaseNext (hpayload : payloads[frames.nextSeq]? = some payload) :
    ∃ released next, (frames.advance.bind fun next => next.release [payload]) =
        .ok (released, next) ∧ Holds payloads (insert frames.nextSeq arrived) next ∧
      payloads.take frames.nextSeq ++ released = payloads.take next.nextSeq ∧
      (frames.Bounded → next.Bounded) := by
  have hlength := (List.getElem?_eq_some_iff.1 hpayload).1
  obtain ⟨htake, hle, hbuffers, hnone, hrest⟩ := h.buffers.drain
  have hdrained := drain_length (frames.nextSeq + 1) frames.pending
  have hwaited : ∀ number, frames.nextSeq + 1 ≤ number →
      number < (drain (frames.nextSeq + 1) frames.pending).2.1 → number ∈ arrived :=
    fun number hge hlt => ((h.waiting number).1 (isSome_of_lt_drain hge hlt)).2
  have hsum := sum_drain List.length (frames.nextSeq + 1) frames.pending
  set drained := drain (frames.nextSeq + 1) frames.pending
  have hfits : drained.2.1 ≤ maxSeq := by
    have hcount := congrArg List.length htake
    rw [length_append, length_take, length_take] at hcount
    omega
  have hadvance : frames.advance = .ok { frames with nextSeq := frames.nextSeq + 1 } :=
    advance_of_lt (by omega)
  have hrelease : { frames with nextSeq := frames.nextSeq + 1 : OrderedCiphertextFrames }.release
      [payload] = .ok ([payload] ++ drained.1, ⟨drained.2.1, drained.2.2,
        frames.pendingBytes - (drained.1.map List.length).sum⟩) :=
    @release_eq { frames with nextSeq := frames.nextSeq + 1 } [payload] hfits
  have hfound : ∀ seq, (dlookup seq drained.2.2).isSome ↔
      drained.2.1 < seq ∧ (dlookup seq frames.pending).isSome := by
    intro seq
    rcases eq_or_ne seq drained.2.1 with rfl | hne
    · simp [hnone]
    · rw [hrest]
      split_ifs with hlt
      · simp [hlt.le]
      · have hgt : drained.2.1 < seq := by omega
        simp [hgt]
  refine ⟨_, _, by rw [hadvance]; exact hrelease, ?_, ?_, fun hbounded => ⟨?_, ?_⟩⟩
  · constructor <;> dsimp only
    case next =>
      rw [Finset.mem_insert, not_or]
      refine ⟨by omega, fun hmem => ?_⟩
      have hsome := (h.waiting drained.2.1).2 ⟨hle, hmem⟩
      rw [hrest, if_neg (lt_irrefl _)] at hnone
      simp [hnone] at hsome
    case before =>
      intro seq hlt
      rw [Finset.mem_insert]
      rcases lt_trichotomy seq frames.nextSeq with hbefore | heq | hafter
      · exact .inr (h.before seq hbefore)
      · exact .inl heq
      · exact .inr (hwaited seq hafter hlt)
    case buffers =>
      refine ⟨hbuffers.sorted, fun seq item hitem => ?_⟩
      have hsome := (hfound seq).1 (by simp [hitem])
      exact ⟨hsome.1, (hbuffers.item seq item hitem).2⟩
    case waiting =>
      intro seq
      rw [hfound, h.waiting, Finset.mem_insert]
      constructor
      · exact fun hseq => ⟨hseq.1, .inr hseq.2.2⟩
      · rintro ⟨hgt, rfl | hmem⟩
        · omega
        · exact ⟨hgt, by omega, hmem⟩
    case bytes =>
      rw [h.bytes, ← hsum, Nat.add_sub_cancel_left]
  · rw [take_add_one, hpayload, List.append_assoc] at htake
    exact htake
  · intro seq hseq
    dsimp only at hseq ⊢
    rw [← dlookup_isSome, hfound, dlookup_isSome] at hseq
    have hwindow := hbounded.window seq hseq.2
    omega
  · exact (Nat.sub_le _ _).trans hbounded.bytes

omit hfit in
/-- An early record waits. -/
lemma Holds.insertPending (hearly : frames.nextSeq < seq)
    (hnew : dlookup seq frames.pending = none) (hpayload : payloads[seq]? = some payload) :
    Holds payloads (insert seq arrived) { frames with
      pending := insertEntry seq payload frames.pending
      pendingBytes := frames.pendingBytes + payload.length } where
  next := by
    rw [Finset.mem_insert, not_or]
    exact ⟨hearly.ne, h.next⟩
  before := fun other hlt => Finset.mem_insert_of_mem (h.before other hlt)
  buffers := h.buffers.insert hearly hpayload
  waiting := fun other => by
    rw [SortedMap.dlookup_insertEntry, Finset.mem_insert]
    split_ifs with heq
    · simp [heq, hearly]
    · simp [heq, h.waiting]
  bytes := by rw [h.bytes, SortedMap.sum_insertEntry List.length hnew, Nat.add_comm]

omit hfit in
/-- The number of a record that is neither old nor waits has not arrived. -/
lemma Holds.arrived_of_ignored
    (hignored : seq < frames.nextSeq ∨ (dlookup seq frames.pending).isSome) : seq ∈ arrived := by
  rcases hignored with hold | hwaits
  · exact h.before seq hold
  · exact ((h.waiting seq).1 hwaits).2

variable (hpayload : payloads[seq]? = some payload)
include hpayload

/-- **A push.**  What is released are the next records in order. -/
lemma Holds.push {released : List Bytes}
    {next : OrderedCiphertextFrames} (hpush : frames.push seq payload = .ok (released, next)) :
    Holds payloads (insert seq arrived) next ∧
      payloads.take frames.nextSeq ++ released = payloads.take next.nextSeq ∧
      (frames.Bounded → next.Bounded) := by
  unfold OrderedCiphertextFrames.push at hpush
  split_ifs at hpush with hignored hearly hfar hfull
  · -- A duplicate.
    obtain ⟨rfl, rfl⟩ := Prod.mk.inj (Except.ok.inj hpush)
    rw [Finset.insert_eq_of_mem (h.arrived_of_ignored hignored)]
    exact ⟨h, append_nil _, id⟩
  · obtain ⟨rfl, rfl⟩ := Prod.mk.inj (Except.ok.inj hpush)
    simp only [not_or, Option.not_isSome_iff_eq_none] at hignored
    refine ⟨h.insertPending hearly hignored.2 hpayload, append_nil _, fun hbounded => ?_⟩
    refine ⟨fun other hother => ?_, not_lt.1 hfull⟩
    rw [← dlookup_isSome, SortedMap.dlookup_insertEntry] at hother
    dsimp only
    split_ifs at hother with heq
    · omega
    · exact hbounded.window other (dlookup_isSome.1 hother)
  · obtain rfl : seq = frames.nextSeq := by omega
    obtain ⟨released', next', hrelease, hholds, htake, hbounded⟩ := h.releaseNext hfit hpayload
    obtain ⟨rfl, rfl⟩ := Prod.mk.inj (Except.ok.inj (hrelease.symm.trans hpush))
    exact ⟨hholds, htake, hbounded⟩

/-- A push within the limits succeeds. -/
lemma Holds.push_ok (hwindow : seq ≤ Reorder.firstMissing arrived + maxReorderDistance)
    (hbytes : bufferedBytes payloads (insert seq arrived) ≤ maxPendingBytes) :
    ∃ released next, frames.push seq payload = .ok (released, next) := by
  rw [h.firstMissing] at hwindow
  unfold OrderedCiphertextFrames.push
  split_ifs with hignored hearly hfar hfull
  · exact ⟨_, _, rfl⟩
  · omega
  · simp only [not_or, Option.not_isSome_iff_eq_none] at hignored
    have hsum := (h.insertPending hearly hignored.2 hpayload).pendingBytes
    dsimp only at hsum
    omega
  · exact ⟨_, _, rfl⟩
  · obtain rfl : seq = frames.nextSeq := by omega
    obtain ⟨released, next, hrelease, -⟩ := h.releaseNext hfit hpayload
    exact ⟨released, next, hrelease⟩

end

end OrderedCiphertextFrames

end TokenCode.NoiseRelay
