/-
Messages in the encrypted record stream (`exec-server/src/noise_relay/message_framing.rs`).

A message is sent as four bytes with its length, then its JSON. The receiver puts the records of the
stream together again and takes out every message that is complete. Where the records end has nothing
to do with where the messages end: whatever piece of a sequence of frames has arrived, the decoder has
taken out exactly the messages whose frames are complete (`takeMessages_spec`).
-/
import TokenCode.NoiseRelay.OrderedCiphertext

namespace TokenCode.NoiseRelay

open List

/-- The serialisation of the messages that are read back as they were written. (Parameters
`Some(Null)` are not: they are written as `null`, which is read as `None`.) -/
structure Json (Message : Type) where
  toBytes : Message → Bytes
  fromBytes : Bytes → Except Text Message
  fromBytes_toBytes : ∀ message, fromBytes (toBytes message) = .ok message

def lengthPrefixBytes : ℕ := 4

/-- `MAX_NOISE_JSONRPC_MESSAGE_LEN`. -/
def maxMessageLen : ℕ := 64 * 1024 * 1024

/-- `NOISE_RECORD_PLAINTEXT_LEN`. -/
def recordPlaintextLen : ℕ := 60 * 1024

/-- `u32::to_be_bytes`. -/
def toBeBytes (n : ℕ) : Bytes :=
  [UInt8.ofNat (n / 2 ^ 24), UInt8.ofNat (n / 2 ^ 16), UInt8.ofNat (n / 2 ^ 8), UInt8.ofNat n]

/-- `u32::from_be_bytes`. -/
def fromBeBytes (bytes : Bytes) : ℕ :=
  bytes.foldl (fun number byte => number * 2 ^ 8 + byte.toNat) 0

lemma length_toBeBytes (n : ℕ) : (toBeBytes n).length = lengthPrefixBytes := rfl

lemma fromBeBytes_toBeBytes {n : ℕ} (h : n < 2 ^ 32) : fromBeBytes (toBeBytes n) = n := by
  simp only [fromBeBytes, toBeBytes, foldl_cons, foldl_nil, UInt8.toNat_ofNat']
  omega

variable {Message : Type} (json : Json Message)

def messageTooLongError : Text := "Noise relay JSON-RPC message exceeds maximum length".toList

/-- `frame_jsonrpc_message`. -/
def frameJsonrpcMessage (message : Message) : Except Text Bytes :=
  let bytes := json.toBytes message
  if bytes.length > maxMessageLen then .error messageTooLongError
  else .ok (toBeBytes bytes.length ++ bytes)

/-! ### The decoder -/

def recordTooLongError : Text := "Noise relay plaintext record exceeds maximum length".toList

def invalidLengthError : Text := "Noise relay JSON-RPC message has invalid length".toList

def reassemblyError : Text :=
  "Noise relay JSON-RPC reassembly buffer exceeds maximum length".toList

/-- The loop of `JsonRpcMessageDecoder::push`: the messages that are complete, and what remains in
the buffer. -/
def takeMessages (buffered : Bytes) : Except Text (List Message × Bytes) :=
  if buffered.length < lengthPrefixBytes then .ok ([], buffered)
  else
    let messageLen := fromBeBytes (buffered.take lengthPrefixBytes)
    if messageLen = 0 ∨ messageLen > maxMessageLen then .error invalidLengthError
    else
      let framedLen := lengthPrefixBytes + messageLen
      if buffered.length < framedLen then .ok ([], buffered)
      else
        match json.fromBytes ((buffered.take framedLen).drop lengthPrefixBytes) with
        | .error err => .error err
        | .ok message =>
          (takeMessages (buffered.drop framedLen)).map fun rest => (message :: rest.1, rest.2)
termination_by buffered.length
decreasing_by
  rw [List.length_drop]
  simp only [lengthPrefixBytes] at *
  omega

/-- `JsonRpcMessageDecoder::push`: the messages, and the new buffer. -/
def decoderPush (buffered plaintextRecord : Bytes) : Except Text (List Message × Bytes) :=
  if plaintextRecord.length > recordPlaintextLen then .error recordTooLongError
  else
    (takeMessages json (buffered ++ plaintextRecord)).bind fun taken =>
      if taken.2.length > lengthPrefixBytes + maxMessageLen then .error reassemblyError
      else .ok taken

/-! ### What the decoder takes out -/

/-- The frame of a message of a valid length. -/
def frame (message : Message) : Bytes :=
  toBeBytes (json.toBytes message).length ++ json.toBytes message

/-- The serialised message is neither empty nor longer than the limit. -/
def Sendable (message : Message) : Prop :=
  1 ≤ (json.toBytes message).length ∧ (json.toBytes message).length ≤ maxMessageLen

variable {json} {message : Message} (h : Sendable json message)
include h

lemma Sendable.frameJsonrpcMessage :
    frameJsonrpcMessage json message = .ok (frame json message) := by
  simp only [NoiseRelay.frameJsonrpcMessage, if_neg (not_lt.2 h.2)]
  rfl

omit h in
lemma length_frame (message : Message) :
    (frame json message).length = lengthPrefixBytes + (json.toBytes message).length := by
  rw [frame, length_append, length_toBeBytes]

variable (later : Bytes)

lemma Sendable.fromBeBytes : fromBeBytes ((frame json message ++ later).take lengthPrefixBytes) =
      (json.toBytes message).length := by
  have hlength : (json.toBytes message).length < 2 ^ 32 :=
    h.2.trans_lt (by decide)
  rw [frame, List.append_assoc, ← length_toBeBytes (json.toBytes message).length,
    take_left, fromBeBytes_toBeBytes hlength]

lemma Sendable.not_invalid :
    ¬ ((json.toBytes message).length = 0 ∨ (json.toBytes message).length > maxMessageLen) := by
  have := h.1
  have := h.2
  omega

/-- A complete frame is taken out. -/
lemma Sendable.takeMessages_frame : takeMessages json (frame json message ++ later) =
      (takeMessages json later).map fun rest => (message :: rest.1, rest.2) := by
  have hlength : (frame json message ++ later).length =
      lengthPrefixBytes + (json.toBytes message).length + later.length := by
    rw [length_append, length_frame]
  have hdrop : (frame json message ++ later).drop
      (lengthPrefixBytes + (json.toBytes message).length) = later := by
    rw [← length_frame, drop_left]
  have hbytes : ((frame json message ++ later).take
      (lengthPrefixBytes + (json.toBytes message).length)).drop lengthPrefixBytes =
        json.toBytes message := by
    rw [← length_frame, take_left, frame,
      ← length_toBeBytes (json.toBytes message).length, drop_left]
  rw [takeMessages, if_neg (by omega)]
  simp only [h.fromBeBytes, if_neg h.not_invalid]
  rw [if_neg (by omega), hbytes, hdrop, json.fromBytes_toBytes]

variable {buffered later : Bytes}

/-- A piece of a frame stays in the buffer. -/
lemma Sendable.takeMessages_piece
    (hframe : buffered ++ later = frame json message) (hlater : later ≠ []) :
    takeMessages json buffered = .ok ([], buffered) := by
  rw [takeMessages]
  split_ifs with hshort
  · rfl
  · have htake : buffered.take lengthPrefixBytes =
        (frame json message ++ []).take lengthPrefixBytes := by
      rw [append_nil, ← hframe, take_append_of_le_length (not_lt.1 hshort)]
    have hlength : buffered.length < lengthPrefixBytes + (json.toBytes message).length := by
      have hpos := length_pos_of_ne_nil hlater
      rw [← length_frame, ← hframe, length_append]
      omega
    simp only [htake, h.fromBeBytes, if_neg h.not_invalid, if_pos hlength]

omit h

/-- **The decoder takes out the messages that are complete.**  If a piece of a sequence of frames has
arrived, the messages of the first frames are taken out; what stays is a piece of the other frames,
and nothing stays once everything has arrived. -/
theorem takeMessages_spec {messages : List Message} (h : ∀ message ∈ messages, Sendable json message)
    (hframes : buffered ++ later = messages.flatMap (frame json)) :
    ∃ taken todo rest, messages = taken ++ todo ∧
      takeMessages json buffered = .ok (taken, rest) ∧ rest ++ later = todo.flatMap (frame json) ∧
      rest.length ≤ lengthPrefixBytes + maxMessageLen ∧ (later = [] → todo = []) := by
  induction messages generalizing buffered with
  | nil =>
    obtain ⟨rfl, rfl⟩ := append_eq_nil_iff.1 hframes
    refine ⟨[], [], [], rfl, ?_, rfl, Nat.zero_le _, fun _ => rfl⟩
    rw [takeMessages]
    rfl
  | cons message messages ih =>
    have hmessage := h message mem_cons_self
    rw [flatMap_cons] at hframes
    rcases append_eq_append_iff.1 hframes with ⟨piece, hpiece, hlater⟩ | ⟨rest, rfl, hrest⟩
    · rcases eq_or_ne piece [] with rfl | hne
      · -- The frame has just been completed.
        rw [append_nil] at hpiece
        obtain ⟨taken, todo, rest, hsplit, htake, hbytes, hlength, hdone⟩ :=
          ih (forall_mem_cons.1 h).2 ((nil_append later).trans hlater)
        refine ⟨message :: taken, todo, rest, by rw [hsplit, cons_append], ?_, hbytes, hlength,
          hdone⟩
        rw [← hpiece, ← append_nil (frame json message), hmessage.takeMessages_frame, htake]
        rfl
      · refine ⟨[], message :: messages, buffered, rfl,
          hmessage.takeMessages_piece hpiece.symm hne, ?_, ?_, fun hnil => ?_⟩
        · rw [flatMap_cons, hframes]
        · have hlength := congrArg List.length hpiece
          have := hmessage.2
          rw [length_frame, length_append] at hlength
          omega
        · rw [hnil] at hlater
          exact absurd (append_eq_nil_iff.1 hlater.symm).1 hne
    · obtain ⟨taken, todo, left, hsplit, htake, hbytes, hlength, hdone⟩ :=
        ih (forall_mem_cons.1 h).2 hrest.symm
      refine ⟨message :: taken, todo, left, by rw [hsplit, cons_append], ?_, hbytes, hlength, hdone⟩
      rw [hmessage.takeMessages_frame, htake]
      rfl

/-- What a record adds. -/
lemma decoderPush_spec {messages : List Message}
    (h : ∀ message ∈ messages, Sendable json message) {record : Bytes}
    (hframes : buffered ++ record ++ later = messages.flatMap (frame json))
    (hrecord : record.length ≤ recordPlaintextLen) : ∃ taken todo rest, messages = taken ++ todo ∧
      decoderPush json buffered record = .ok (taken, rest) ∧
      rest ++ later = todo.flatMap (frame json) ∧ (later = [] → todo = []) := by
  obtain ⟨taken, todo, rest, hsplit, htake, hbytes, hlength, hdone⟩ := takeMessages_spec h hframes
  refine ⟨taken, todo, rest, hsplit, ?_, hbytes, hdone⟩
  rw [decoderPush, if_neg (not_lt.2 hrecord), htake]
  exact if_neg (not_lt.2 hlength)

end TokenCode.NoiseRelay
