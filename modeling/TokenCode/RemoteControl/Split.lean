/-
Server envelopes that are too long are cut into chunks
(`app-server-transport/src/transport/remote_control/segment.rs`).

The number of chunks grows until each of them fits. An envelope that cannot be cut so that all chunks
fit is dropped. Whatever comes out belongs to the stream and has the sequence number of the envelope,
and its segments are in order (`isSplitOf_split`). Nothing is lost (`split_lossless`): the chunks are
the message, and a message that may be reassembled is not dropped unless its envelopes are long.
-/
import TokenCode.Lib.Chunks
import TokenCode.Lib.Results
import TokenCode.Lib.Steps
import TokenCode.RemoteControl.Websocket

namespace TokenCode.RemoteControl

open List

variable {Outgoing : Type}

/-- How envelopes and messages are written. -/
structure Writing (Outgoing : Type) where
  envelopeJson : ServerEnvelope Outgoing → Except Text Bytes
  messageJson : Outgoing → Except Text Bytes
  encodeBase64 : Bytes → Text

variable (writing : Writing Outgoing)

def segmentCountError : Text := "remote-control segment count exceeds maximum".toList

/-- `serialized_len`. -/
def serializedLen (envelope : ServerEnvelope Outgoing) : Except Text ℕ :=
  (writing.envelopeJson envelope).map List.length

/-- `build_chunk_envelope`. -/
def buildChunkEnvelope (envelope : ServerEnvelope Outgoing)
    (segmentId segmentCount messageSizeBytes : ℕ) (chunk : Bytes) :
    Except Text (ServerEnvelope Outgoing) :=
  if segmentCount > segmentCountMax then .error segmentCountError
  else .ok { envelope with
    event := .serverMessageChunk segmentId segmentCount messageSizeBytes
      (writing.encodeBase64 chunk) }

/-- `serialized_chunk_len`. -/
def serializedChunkLen (envelope : ServerEnvelope Outgoing)
    (segmentId segmentCount messageSizeBytes : ℕ) (chunk : Bytes) : Except Text ℕ :=
  (buildChunkEnvelope writing envelope segmentId segmentCount messageSizeBytes chunk).bind
    (serializedLen writing)

/-- Whether all chunks of this size fit. -/
def segmentsFit (envelope : ServerEnvelope Outgoing) (raw : Bytes) (chunkSize segmentCount : ℕ) :
    Bool :=
  (chunks chunkSize raw).zipIdx.all fun chunk =>
    match serializedChunkLen writing envelope chunk.2 segmentCount raw.length chunk.1 with
    | .ok size => size ≤ segmentMaxBytes
    | .error _ => false

/-- The chunks of this size as envelopes. -/
def buildChunks (envelope : ServerEnvelope Outgoing) (raw : Bytes) (chunkSize segmentCount : ℕ) :
    Except Text (List (ServerEnvelope Outgoing)) :=
  (chunks chunkSize raw).zipIdx.mapM fun chunk =>
    buildChunkEnvelope writing envelope chunk.2 segmentCount raw.length chunk.1

/-- The size of the chunks when there are to be so many. -/
def chunkSizeFor (messageSizeBytes segmentCount : ℕ) : ℕ := max 1 (messageSizeBytes ⌈/⌉ segmentCount)

lemma chunkSizeFor_pos (size segmentCount : ℕ) : 0 < chunkSizeFor size segmentCount :=
  Nat.lt_of_lt_of_le Nat.one_pos (le_max_left _ _)

/-- With one chunk more than needed the chunks do not get longer. -/
lemma chunkSizeFor_succ_le (size chunkSize : ℕ) (hpos : 0 < chunkSize) :
    chunkSizeFor size (size ⌈/⌉ chunkSize + 1) ≤ chunkSize := by
  refine max_le hpos ?_
  rw [ceilDiv_le_iff_le_mul (Nat.succ_pos _)]
  have hle : size ≤ chunkSize * (size ⌈/⌉ chunkSize) := (ceilDiv_le_iff_le_mul hpos).1 le_rfl
  calc size ≤ chunkSize * (size ⌈/⌉ chunkSize) := hle
    _ ≤ (size ⌈/⌉ chunkSize + 1) * chunkSize := by
      rw [Nat.mul_comm]
      exact Nat.mul_le_mul_right _ (Nat.le_succ _)

/-- The number of chunks of the next round. -/
def nextSegmentCount (messageSizeBytes chunkSize : ℕ) : ℕ :=
  if chunkSizeFor messageSizeBytes (messageSizeBytes ⌈/⌉ chunkSize + 1) = chunkSize then
    messageSizeBytes
  else messageSizeBytes ⌈/⌉ chunkSize + 1

variable {size : ℕ}

/-- In each round the chunks get shorter. -/
lemma chunkSizeFor_nextSegmentCount_lt {chunkSize : ℕ} (h : 1 < chunkSize) :
    chunkSizeFor size (nextSegmentCount size chunkSize) < chunkSize := by
  unfold nextSegmentCount
  split_ifs with heq
  · refine max_lt h (lt_of_le_of_lt ?_ h)
    rcases Nat.eq_zero_or_pos size with rfl | hpos
    · simp
    · exact (ceilDiv_le_iff_le_mul hpos).2 (by omega)
  · exact lt_of_le_of_ne (chunkSizeFor_succ_le size chunkSize (by omega)) heq

/-- The loop of `split_server_envelope_for_transport`. -/
def splitLoop (envelope : ServerEnvelope Outgoing) (raw : Bytes) (segmentCount : ℕ) :
    Except Text (List (ServerEnvelope Outgoing)) :=
  let chunkSize := chunkSizeFor raw.length segmentCount
  if segmentsFit writing envelope raw chunkSize (raw.length ⌈/⌉ chunkSize) then
    buildChunks writing envelope raw chunkSize (raw.length ⌈/⌉ chunkSize)
  else if _h : chunkSize = 1 then .ok []
  else splitLoop envelope raw (nextSegmentCount raw.length chunkSize)
termination_by chunkSizeFor raw.length segmentCount
decreasing_by
  refine chunkSizeFor_nextSegmentCount_lt (lt_of_le_of_ne ?_ (Ne.symm _h))
  exact le_max_left _ _

/-- A message that has to be cut. -/
def splitMessage (envelope : ServerEnvelope Outgoing) (raw : Bytes) :
    Except Text (List (ServerEnvelope Outgoing)) :=
  if raw.length > reassembledMaxBytes then .ok []
  else
    (serializedChunkLen writing envelope 0 (min (max raw.length 1) segmentCountMax) raw.length
      (raw.take 1)).bind fun minimal =>
      if minimal > segmentMaxBytes then .ok []
      else splitLoop writing envelope raw (max 2 (raw.length ⌈/⌉ segmentTargetBytes))

/-- `split_server_envelope_for_transport`. -/
def splitServerEnvelopeForTransport (envelope : ServerEnvelope Outgoing) :
    Except Text (List (ServerEnvelope Outgoing)) :=
  match envelope.event with
  | .serverMessage message =>
    (serializedLen writing envelope).bind fun size =>
      if size ≤ segmentMaxBytes then .ok [envelope]
      else (writing.messageJson message).bind (splitMessage writing envelope)
  | _ => .ok [envelope]

/-! ### What comes out -/

open BoundedOutboundBuffer (keyOf cursorOf)

variable {writing} {envelope : ServerEnvelope Outgoing} {envelopes : List (ServerEnvelope Outgoing)}

/-- The envelopes belong to the stream and have the number of `envelope`, and their segments are in
order. -/
structure IsSplitOf (envelope : ServerEnvelope Outgoing) (envelopes : List (ServerEnvelope Outgoing)) :
    Prop where
  key : ∀ part ∈ envelopes, keyOf part = keyOf envelope
  seqId : ∀ part ∈ envelopes, part.seqId = envelope.seqId
  cursor : envelopes.Pairwise fun a b => cursorOf a < cursorOf b

variable (envelope)

lemma isSplitOf_nil : IsSplitOf envelope [] :=
  ⟨by simp, by simp, .nil⟩

lemma isSplitOf_singleton : IsSplitOf envelope [envelope] :=
  ⟨by simp, by simp, pairwise_singleton _ _⟩

variable {envelope}

lemma IsSplitOf.sublist {parts : List (ServerEnvelope Outgoing)} (h : IsSplitOf envelope envelopes)
    (hparts : parts.Sublist envelopes) : IsSplitOf envelope parts :=
  ⟨fun part hpart => h.key part (hparts.subset hpart),
    fun part hpart => h.seqId part (hparts.subset hpart), h.cursor.sublist hparts⟩

/-- The envelope of a chunk. -/
def chunkEnvelope (envelope : ServerEnvelope Outgoing) (segmentId segmentCount messageSizeBytes : ℕ)
    (messageChunkBase64 : Text) : ServerEnvelope Outgoing :=
  { envelope with
    event := .serverMessageChunk segmentId segmentCount messageSizeBytes messageChunkBase64 }

/-- The pieces of a message, in envelopes. -/
def chunkEnvelopes (writing : Writing Outgoing) (envelope : ServerEnvelope Outgoing)
    (messageSizeBytes segmentCount : ℕ) (pieces : List Bytes) : List (ServerEnvelope Outgoing) :=
  pieces.zipIdx.map fun piece => chunkEnvelope envelope piece.2 segmentCount messageSizeBytes
    (writing.encodeBase64 piece.1)

variable {raw : Bytes} {chunkSize segmentCount : ℕ}

section

variable (h : buildChunks writing envelope raw chunkSize segmentCount = .ok envelopes)
include h

lemma buildChunks_eq_ok :
    envelopes = chunkEnvelopes writing envelope raw.length segmentCount (chunks chunkSize raw) := by
  refine eq_map_of_mapM (fun chunk built hbuilt => ?_) h
  unfold buildChunkEnvelope at hbuilt
  split_ifs at hbuilt
  exact (Except.ok.inj hbuilt).symm

lemma isSplitOf_buildChunks : IsSplitOf envelope envelopes := by
  obtain rfl := buildChunks_eq_ok h
  refine ⟨?_, ?_, pairwise_map.2 ?_⟩
  · intro part hpart
    obtain ⟨chunk, -, rfl⟩ := mem_map.1 hpart
    rfl
  · intro part hpart
    obtain ⟨chunk, -, rfl⟩ := mem_map.1 hpart
    rfl
  · have hindices : ((chunks chunkSize raw).zipIdx.map Prod.snd).Pairwise (· < ·) := by
      rw [zipIdx_map_snd]
      exact pairwise_lt_range'
    refine (pairwise_map.1 hindices).imp fun {a b} hlt => ?_
    exact Prod.Lex.toLex_lt_toLex.2 (.inr ⟨rfl, hlt⟩)

end

lemma isSplitOf_splitLoop (h : splitLoop writing envelope raw segmentCount = .ok envelopes) :
    IsSplitOf envelope envelopes := by
  fun_induction splitLoop writing envelope raw segmentCount with
  | case1 => exact isSplitOf_buildChunks h
  | case2 =>
    obtain rfl := Except.ok.inj h
    exact isSplitOf_nil envelope
  | case3 _ _ _ _ ih => exact ih h

/-- A message that is not dropped goes through the loop. -/
lemma splitMessage_eq_ok (h : splitMessage writing envelope raw = .ok envelopes)
    (hne : envelopes ≠ []) :
    splitLoop writing envelope raw (max 2 (raw.length ⌈/⌉ segmentTargetBytes)) = .ok envelopes := by
  unfold splitMessage at h
  split_ifs at h
  · exact absurd (Except.ok.inj h).symm hne
  · obtain ⟨minimal, -, h⟩ := except_bind_eq_ok.1 h
    split_ifs at h
    · exact absurd (Except.ok.inj h).symm hne
    · exact h

/-- **What a cut envelope becomes.** -/
theorem isSplitOf_split (h : splitServerEnvelopeForTransport writing envelope = .ok envelopes) :
    IsSplitOf envelope envelopes := by
  unfold splitServerEnvelopeForTransport at h
  split at h
  · next message _ =>
    obtain ⟨size, -, h⟩ := except_bind_eq_ok.1 h
    split_ifs at h
    · obtain rfl := Except.ok.inj h
      exact isSplitOf_singleton envelope
    · obtain ⟨raw, -, h⟩ := except_bind_eq_ok.1 h
      rcases eq_or_ne envelopes [] with rfl | hne
      · exact isSplitOf_nil envelope
      · exact isSplitOf_splitLoop (splitMessage_eq_ok h hne)
  · obtain rfl := Except.ok.inj h
    exact isSplitOf_singleton envelope

/-! ### Nothing is lost -/

variable {segmentId : ℕ} {chunk : Bytes}

lemma serializedChunkLen_eq_ok {envelope : ServerEnvelope Outgoing}
    {segmentCount messageSizeBytes : ℕ} :
    serializedChunkLen writing envelope segmentId segmentCount messageSizeBytes chunk = .ok size ↔
      segmentCount ≤ segmentCountMax ∧ serializedLen writing (chunkEnvelope envelope segmentId
        segmentCount messageSizeBytes (writing.encodeBase64 chunk)) = .ok size := by
  unfold serializedChunkLen buildChunkEnvelope
  split_ifs with hcount
  · exact iff_of_false nofun fun h => absurd h.1 (Nat.not_le.2 hcount)
  · exact ⟨fun h => ⟨Nat.not_lt.1 hcount, h⟩, fun h => h.2⟩

lemma segmentsFit_iff : segmentsFit writing envelope raw chunkSize segmentCount = true ↔
      ∀ chunk ∈ (chunks chunkSize raw).zipIdx, segmentCount ≤ segmentCountMax ∧
        ∃ size ≤ segmentMaxBytes, serializedLen writing (chunkEnvelope envelope chunk.2
          segmentCount raw.length (writing.encodeBase64 chunk.1)) = .ok size := by
  rw [segmentsFit, all_eq_true]
  refine forall₂_congr fun chunk _ => ⟨fun h => ?_, ?_⟩
  · split at h
    · next size hsize =>
      obtain ⟨hcount, hlen⟩ := serializedChunkLen_eq_ok.1 hsize
      exact ⟨hcount, size, of_decide_eq_true h, hlen⟩
    · cases h
  · rintro ⟨hcount, size, hle, hlen⟩
    rw [serializedChunkLen_eq_ok.2 ⟨hcount, hlen⟩]
    exact decide_eq_true hle

/-- A message that is cut has two chunks at least. -/
lemma two_le_ceilDiv_chunkSizeFor (hsize : 2 ≤ size) (hcount : 2 ≤ segmentCount) :
    2 ≤ size ⌈/⌉ chunkSizeFor size segmentCount := by
  by_contra hlt
  have hle := (ceilDiv_le_iff_le_mul (a := chunkSizeFor size segmentCount) (c := 1)
    (chunkSizeFor_pos _ _)).1 (show size ⌈/⌉ _ ≤ 1 by omega)
  -- a single chunk would hold the whole message, but it is shorter
  have hhalf : size ⌈/⌉ segmentCount ≤ size - 1 := by
    refine (ceilDiv_le_iff_le_mul (by omega)).2 ?_
    calc size ≤ 2 * (size - 1) := by omega
      _ ≤ segmentCount * (size - 1) := Nat.mul_le_mul_right _ hcount
  unfold chunkSizeFor at hle
  omega

lemma buildChunks_of_le (h : segmentCount ≤ segmentCountMax) :
    buildChunks writing envelope raw chunkSize segmentCount =
      .ok (chunkEnvelopes writing envelope raw.length segmentCount (chunks chunkSize raw)) := by
  simp only [buildChunks, buildChunkEnvelope, if_neg (Nat.not_lt.2 h)]
  exact mapM_pure

/-- What comes out of the loop. -/
lemma splitLoop_eq_ok (h : splitLoop writing envelope raw segmentCount = .ok envelopes)
    (hne : envelopes ≠ []) (hraw : 2 ≤ raw.length) (hcount : 2 ≤ segmentCount) :
    ∃ pieces : List Bytes, pieces.flatten = raw ∧ 2 ≤ pieces.length ∧
      pieces.length ≤ segmentCountMax ∧
      envelopes = chunkEnvelopes writing envelope raw.length pieces.length pieces ∧
      ∀ part ∈ envelopes, ∃ size ≤ segmentMaxBytes, serializedLen writing part = .ok size := by
  fun_induction splitLoop writing envelope raw segmentCount with
  | case1 segmentCount chunkSize hfit =>
    have hpos : 0 < chunkSize := chunkSizeFor_pos _ _
    have hlength := length_chunks hpos raw
    have htwo := two_le_ceilDiv_chunkSizeFor hraw hcount
    have henvelopes := buildChunks_eq_ok h
    rw [← hlength] at hfit henvelopes
    refine ⟨chunks chunkSize raw, flatten_chunks hpos raw, hlength ▸ htwo, ?_, henvelopes, ?_⟩
    -- the check of any chunk shows that there are not too many
    · obtain ⟨part, hpart⟩ := exists_mem_of_ne_nil _ hne
      rw [henvelopes] at hpart
      obtain ⟨piece, hpiece, -⟩ := mem_map.1 hpart
      exact (segmentsFit_iff.1 hfit piece hpiece).1
    · intro part hpart
      rw [henvelopes] at hpart
      obtain ⟨piece, hpiece, rfl⟩ := mem_map.1 hpart
      exact (segmentsFit_iff.1 hfit piece hpiece).2
  | case2 => exact absurd (Except.ok.inj h).symm hne
  | case3 segmentCount chunkSize _ _ ih =>
    -- the next round has at least as many chunks
    refine ih h ?_
    have htwo := two_le_ceilDiv_chunkSizeFor hraw hcount
    change 2 ≤ raw.length ⌈/⌉ chunkSize at htwo
    unfold nextSegmentCount
    split_ifs <;> omega

/-- What is known of JSON and base64: base64 is read back, is not longer than four characters for
three bytes and needs no escapes in JSON; the JSON of a message, an object, is `{}` at least. -/
structure Writing.Lawful (writing : Writing Outgoing) (decodeBase64 : Text → Option Bytes) :
    Prop where
  decode_encode : ∀ bytes, decodeBase64 (writing.encodeBase64 bytes) = some bytes
  length_encode : ∀ bytes, (writing.encodeBase64 bytes).length ≤ 4 * (bytes.length ⌈/⌉ 3)
  serializedLen_chunk : ∀ envelope segmentId segmentCount messageSizeBytes bytes,
    serializedLen writing (chunkEnvelope envelope segmentId segmentCount messageSizeBytes
      (writing.encodeBase64 bytes)) =
    (serializedLen writing (chunkEnvelope envelope segmentId segmentCount messageSizeBytes [])).map
      (· + (writing.encodeBase64 bytes).length)
  two_le_message : ∀ message raw, writing.messageJson message = .ok raw → 2 ≤ raw.length

/-- What a chunk decodes to. -/
def decodedChunk (decodeBase64 : Text → Option Bytes) (envelope : ServerEnvelope Outgoing) :
    Option Bytes :=
  match envelope.event with
  | .serverMessageChunk _ _ _ messageChunkBase64 => decodeBase64 messageChunkBase64
  | _ => none

/-- The envelope of a chunk without its data is not longer than this, whichever chunk it is. -/
def OverheadAtMost (writing : Writing Outgoing) (envelope : ServerEnvelope Outgoing)
    (messageSizeBytes bound : ℕ) : Prop :=
  ∀ segmentId segmentCount, segmentId < segmentCount → segmentCount ≤ segmentCountMax →
    ∃ size ≤ bound, serializedLen writing
      (chunkEnvelope envelope segmentId segmentCount messageSizeBytes []) = .ok size

variable {decodeBase64 : Text → Option Bytes}

/-- A chunk of the target size fits. -/
lemma Writing.Lawful.chunk_fits (hlawful : writing.Lawful decodeBase64)
    (hoverhead : OverheadAtMost writing envelope raw.length (16 * 1024))
    (hid : segmentId < segmentCount) (hcount : segmentCount ≤ segmentCountMax)
    (hchunk : chunk.length ≤ segmentTargetBytes) :
    ∃ size ≤ segmentMaxBytes, serializedLen writing (chunkEnvelope envelope segmentId segmentCount
      raw.length (writing.encodeBase64 chunk)) = .ok size := by
  obtain ⟨overhead, hle, hlen⟩ := hoverhead segmentId segmentCount hid hcount
  refine ⟨overhead + (writing.encodeBase64 chunk).length, ?_, ?_⟩
  · have hencoded := hlawful.length_encode chunk
    rw [Nat.ceilDiv_eq_add_pred_div] at hencoded
    unfold segmentTargetBytes at hchunk
    unfold segmentMaxBytes
    omega
  · rw [hlawful.serializedLen_chunk, hlen]
    rfl

/-- In the first round there are not too many chunks, and none is longer than the target. -/
lemma firstRound (hcount : 2 ≤ segmentCount) (hmax : segmentCount ≤ segmentCountMax)
    (hsize : size ≤ segmentCount * segmentTargetBytes) :
    chunkSizeFor size segmentCount ≤ segmentTargetBytes ∧
      size ⌈/⌉ chunkSizeFor size segmentCount ≤ segmentCountMax := by
  have hpos : 0 < segmentCount := by omega
  refine ⟨max_le (by decide) ((ceilDiv_le_iff_le_mul hpos).2 hsize), le_trans ?_ hmax⟩
  refine (ceilDiv_le_iff_le_mul (chunkSizeFor_pos _ _)).2 ?_
  rw [Nat.mul_comm]
  exact ((ceilDiv_le_iff_le_mul hpos).1 le_rfl).trans (Nat.mul_le_mul_left _ (le_max_right _ _))

section

variable (hlawful : writing.Lawful decodeBase64)
include hlawful

section

variable (hoverhead : OverheadAtMost writing envelope raw.length (16 * 1024))
include hoverhead

/-- The first round of the loop gives chunks that fit. -/
lemma Writing.Lawful.exists_splitLoop
    (hraw : 2 ≤ raw.length) (hcount : 2 ≤ segmentCount) (hmax : segmentCount ≤ segmentCountMax)
    (hsize : raw.length ≤ segmentCount * segmentTargetBytes) :
    ∃ envelopes, splitLoop writing envelope raw segmentCount = .ok envelopes ∧ envelopes ≠ [] := by
  obtain ⟨htarget, hsegments⟩ := firstRound hcount hmax hsize
  have hlength := length_chunks (chunkSizeFor_pos raw.length segmentCount) raw
  rw [splitLoop, if_pos, buildChunks_of_le hsegments]
  · refine ⟨_, rfl, ne_nil_of_length_pos ?_⟩
    rw [chunkEnvelopes, length_map, length_zipIdx, hlength]
    exact Nat.lt_of_lt_of_le Nat.two_pos (two_le_ceilDiv_chunkSizeFor hraw hcount)
  · refine segmentsFit_iff.2 fun chunk hchunk => ⟨hsegments, ?_⟩
    have hid := snd_lt_of_mem_zipIdx hchunk
    rw [hlength] at hid
    exact hlawful.chunk_fits hoverhead hid hsegments
      ((length_le_of_mem_chunks (fst_mem_of_mem_zipIdx hchunk)).trans htarget)

lemma Writing.Lawful.exists_splitMessage
    (hraw : 2 ≤ raw.length) (hmax : raw.length ≤ reassembledMaxBytes) :
    ∃ envelopes, splitMessage writing envelope raw = .ok envelopes ∧ envelopes ≠ [] := by
  have hcount : 0 < min (max raw.length 1) segmentCountMax :=
    lt_min (lt_max_of_lt_right Nat.one_pos) (by decide)
  obtain ⟨size, hle, hlen⟩ := hlawful.chunk_fits hoverhead hcount (min_le_right _ _)
    ((length_take_le 1 raw).trans (by decide))
  rw [splitMessage, if_neg (Nat.not_lt.2 hmax), serializedChunkLen_eq_ok.2 ⟨min_le_right _ _, hlen⟩]
  dsimp only [Except.bind]
  rw [if_neg (Nat.not_lt.2 hle)]
  have htarget : 0 < segmentTargetBytes := by decide
  have hsegments : raw.length ⌈/⌉ segmentTargetBytes ≤ segmentCountMax :=
    (ceilDiv_le_iff_le_mul htarget).2 (hmax.trans_eq (by decide))
  refine hlawful.exists_splitLoop hoverhead hraw (le_max_left _ _) (max_le (by decide) hsegments) ?_
  rw [Nat.mul_comm]
  exact ((ceilDiv_le_iff_le_mul htarget).1 le_rfl).trans (Nat.mul_le_mul_left _ (le_max_right _ _))

end

lemma decodedChunk_chunkEnvelopes (messageSizeBytes segmentCount : ℕ) (pieces : List Bytes) :
    (chunkEnvelopes writing envelope messageSizeBytes segmentCount pieces).map
      (decodedChunk decodeBase64) = pieces.map some := by
  rw [chunkEnvelopes, map_map, ← zipIdx_map_fst 0 pieces, map_map, zipIdx_map_fst]
  exact map_congr_left fun piece _ => hlawful.decode_encode piece.1

end

/-- **Nothing is lost.**  In every round of the loop but the last the chunks get shorter.  What comes
out, if anything does, is the envelope itself, which fits if it is one of a message, or the pieces of
the message, in chunks that fit and can be decoded.  Something comes out unless the message or the
envelope of a chunk is too long. -/
theorem split_lossless (hlawful : writing.Lawful decodeBase64)
    (envelope : ServerEnvelope Outgoing) : (∀ size chunkSize, 1 < chunkSize →
      chunkSizeFor size (nextSegmentCount size chunkSize) < chunkSize) ∧
    (∀ envelopes, splitServerEnvelopeForTransport writing envelope = .ok envelopes →
      envelopes ≠ [] → (envelopes = [envelope] ∧ ∀ message, envelope.event = .serverMessage message →
          ∃ size ≤ segmentMaxBytes, serializedLen writing envelope = .ok size) ∨
        ∃ (message : Outgoing) (raw : Bytes) (pieces : List Bytes),
          envelope.event = .serverMessage message ∧ writing.messageJson message = .ok raw ∧
          2 ≤ pieces.length ∧ pieces.length ≤ segmentCountMax ∧
          envelopes = chunkEnvelopes writing envelope raw.length pieces.length pieces ∧
          (∀ part ∈ envelopes, ∃ size ≤ segmentMaxBytes, serializedLen writing part = .ok size) ∧
          envelopes.map (decodedChunk decodeBase64) = pieces.map some ∧ pieces.flatten = raw) ∧
    ∀ message raw size, envelope.event = .serverMessage message →
      serializedLen writing envelope = .ok size → writing.messageJson message = .ok raw →
      raw.length ≤ reassembledMaxBytes → OverheadAtMost writing envelope raw.length (16 * 1024) →
      ∃ envelopes, splitServerEnvelopeForTransport writing envelope = .ok envelopes ∧
        envelopes ≠ [] := by
  refine ⟨fun _ _ => chunkSizeFor_nextSegmentCount_lt, fun envelopes h hne => ?_, ?_⟩
  · unfold splitServerEnvelopeForTransport at h
    split at h
    · next message hevent =>
      obtain ⟨size, hsize, h⟩ := except_bind_eq_ok.1 h
      split_ifs at h with hfits
      · exact .inl ⟨(Except.ok.inj h).symm, fun _ _ => ⟨size, hfits, hsize⟩⟩
      · obtain ⟨raw, hraw, h⟩ := except_bind_eq_ok.1 h
        obtain ⟨pieces, hflatten, htwo, hmax, rfl, hfit⟩ := splitLoop_eq_ok
          (splitMessage_eq_ok h hne) hne (hlawful.two_le_message _ _ hraw) (le_max_left _ _)
        exact .inr ⟨message, raw, pieces, hevent, hraw, htwo, hmax, rfl, hfit,
          decodedChunk_chunkEnvelopes hlawful _ _ pieces, hflatten⟩
    · next hother =>
      exact .inl ⟨(Except.ok.inj h).symm, fun message hevent => absurd hevent (hother message)⟩
  · intro message raw size hevent hsize hraw hmax hoverhead
    unfold splitServerEnvelopeForTransport
    rw [hevent, hsize]
    dsimp only [Except.bind]
    split_ifs
    · exact ⟨[envelope], rfl, cons_ne_nil _ _⟩
    · rw [hraw]
      exact hlawful.exists_splitMessage hoverhead (hlawful.two_le_message _ _ hraw) hmax

def base64Alphabet : Text :=
  "ABCDEFGHIJKLMNOPQRSTUVWXYZabcdefghijklmnopqrstuvwxyz0123456789+/".toList

def base64Char (sextet : ℕ) : Char := base64Alphabet.getD sextet '='

def toBase64 : Bytes → Text
  | a :: b :: c :: rest =>
    base64Char (a.toNat / 4) :: base64Char (a.toNat % 4 * 16 + b.toNat / 16) ::
      base64Char (b.toNat % 16 * 4 + c.toNat / 64) :: base64Char (c.toNat % 64) :: toBase64 rest
  | [a, b] =>
    [base64Char (a.toNat / 4), base64Char (a.toNat % 4 * 16 + b.toNat / 16),
      base64Char (b.toNat % 16 * 4), '=']
  | [a] => [base64Char (a.toNat / 4), base64Char (a.toNat % 4 * 16), '=', '=']
  | [] => []

/-- The bytes of groups of four characters, without the padding. -/
def ofBase64 : Text → Bytes
  | a :: b :: c :: d :: rest =>
    let sextet := (base64Alphabet.idxOf ·)
    [UInt8.ofNat (sextet a * 4 + sextet b / 16), UInt8.ofNat (sextet b % 16 * 16 + sextet c / 4),
      UInt8.ofNat (sextet c % 4 * 64 + sextet d)].take
        (if c = '=' then 1 else if d = '=' then 2 else 3) ++ ofBase64 rest
  | _ => []

lemma idxOf_base64Char : ∀ sextet < 64, base64Alphabet.idxOf (base64Char sextet) = sextet := by
  decide +kernel

lemma base64Char_ne : ∀ sextet < 64, base64Char sextet ≠ '=' := by decide +kernel

lemma ofNat_eq {n : ℕ} {byte : UInt8} (h : n = byte.toNat) : UInt8.ofNat n = byte := by
  rw [h, UInt8.ofNat_toNat]

lemma ofBase64_toBase64 (bytes : Bytes) : ofBase64 (toBase64 bytes) = bytes := by
  fun_induction toBase64 bytes with
  | case1 a b c rest ih =>
    have ha := a.toNat_lt
    have hb := b.toNat_lt
    have hc := c.toNat_lt
    simp only [ofBase64, ih, idxOf_base64Char (a.toNat / 4) (by omega),
      idxOf_base64Char (a.toNat % 4 * 16 + b.toNat / 16) (by omega),
      idxOf_base64Char (b.toNat % 16 * 4 + c.toNat / 64) (by omega),
      idxOf_base64Char (c.toNat % 64) (by omega)]
    rw [if_neg (base64Char_ne _ (by omega)), if_neg (base64Char_ne _ (by omega))]
    simp only [take_succ_cons, take_zero, cons_append, nil_append, cons.injEq, and_true]
    exact ⟨ofNat_eq (by omega), ofNat_eq (by omega), ofNat_eq (by omega)⟩
  | case2 a b =>
    have ha := a.toNat_lt
    have hb := b.toNat_lt
    simp only [ofBase64, idxOf_base64Char (a.toNat / 4) (by omega),
      idxOf_base64Char (a.toNat % 4 * 16 + b.toNat / 16) (by omega),
      idxOf_base64Char (b.toNat % 16 * 4) (by omega)]
    rw [if_neg (base64Char_ne _ (by omega))]
    simp only [if_true, take_succ_cons, take_zero, append_nil, cons.injEq, and_true]
    exact ⟨ofNat_eq (by omega), ofNat_eq (by omega)⟩
  | case3 a =>
    have ha := a.toNat_lt
    simp only [ofBase64, idxOf_base64Char (a.toNat / 4) (by omega),
      idxOf_base64Char (a.toNat % 4 * 16) (by omega), if_true, take_succ_cons, take_zero,
      append_nil, cons.injEq, and_true]
    exact ofNat_eq (by omega)
  | case4 => rfl

lemma length_toBase64 (bytes : Bytes) : (toBase64 bytes).length = 4 * (bytes.length ⌈/⌉ 3) := by
  rw [Nat.ceilDiv_eq_add_pred_div]
  fun_induction toBase64 bytes with
  | case1 a b c rest ih =>
    simp only [length_cons, ih]
    omega
  | case2 a b | case3 a | case4 => simp

/-- Messages of so many bytes, and envelopes with 100 bytes beside the data. -/
def plainWriting : Writing ℕ where
  envelopeJson envelope := .ok (List.replicate (100 + match envelope.event with
    | .serverMessage message => message + 2
    | .serverMessageChunk _ _ _ messageChunkBase64 => messageChunkBase64.length
    | .ack | .pong _ => 0) 0)
  messageJson message := .ok (List.replicate (message + 2) 0)
  encodeBase64 := toBase64

lemma plainWriting_lawful : plainWriting.Lawful fun text => some (ofBase64 text) where
  decode_encode bytes := congrArg some (ofBase64_toBase64 bytes)
  length_encode bytes := (length_toBase64 bytes).le
  serializedLen_chunk _ _ _ _ _ := by
    simp [serializedLen, plainWriting, chunkEnvelope, Except.map, Nat.add_comm]
  two_le_message message raw h := by
    obtain rfl := Except.ok.inj h
    simp

theorem split_lossless_plain : ∃ envelopes, splitServerEnvelopeForTransport plainWriting
    ⟨.serverMessage (200 * 1024), [], [], 0⟩ = .ok envelopes ∧ envelopes ≠ [] := by
  refine (split_lossless plainWriting_lawful _).2.2 (200 * 1024) _ _ rfl rfl rfl ?_
    fun _ _ _ _ => ⟨100, by decide, rfl⟩
  rw [length_replicate]
  exact Nat.le_of_ble_eq_true rfl

end TokenCode.RemoteControl
