/-
The encrypted stream delivers every message once and in order
(`exec-server/src/noise_relay/executor_stream.rs`).

The writer frames each message, cuts the frame into records and numbers them; the receiver puts the
records back into their order, decrypts them and decodes the messages. The cipher counts on both
sides, so a record that is decrypted out of turn fails.

`Receives` relates the receiver to the set of the records that have arrived. It is kept by every
arrival (`Receives.receiveData`), and once all records have arrived all messages are delivered
(`stream_delivers`).
-/
import TokenCode.Lib.Chunks
import TokenCode.NoiseRelay.MessageFraming

namespace TokenCode.NoiseRelay

open List

open OrderedCiphertextFrames (Holds Bounded bufferedBytes)
open Reorder (firstMissing)

/-- `NoiseTransport`: the record is encrypted and decrypted with its position, and decryption at the
same position gives back what was encrypted. -/
structure Cipher where
  encrypt : ℕ → Bytes → Bytes
  decrypt : ℕ → Bytes → Except Text Bytes
  decrypt_encrypt : ∀ nonce plaintext, decrypt nonce (encrypt nonce plaintext) = .ok plaintext

/-- `RelayData`. -/
structure RelayData where
  seq : ℕ
  payload : Bytes
deriving DecidableEq, Repr

variable {Message : Type} (json : Json Message) (cipher : Cipher)

/-! ### The writer -/

/-- The counters of the writer and the records that it has sent. -/
structure Writer where
  nextSeq : ℕ
  sendNonce : ℕ
  sent : List RelayData
deriving DecidableEq, Repr

/-- `take_next_sequence`. -/
def takeNextSequence (nextSeq : ℕ) : Except Text (ℕ × ℕ) :=
  if nextSeq < maxSeq then .ok (nextSeq, nextSeq + 1) else .error exhaustedError

/-- One record of the writer task. -/
def Writer.writeRecord (writer : Writer) (plaintext : Bytes) : Except Text Writer :=
  (takeNextSequence writer.nextSeq).map fun taken =>
    { nextSeq := taken.2
      sendNonce := writer.sendNonce + 1
      sent := writer.sent ++ [⟨taken.1, cipher.encrypt writer.sendNonce plaintext⟩] }

/-- One message of the writer task. -/
def Writer.writeMessage (writer : Writer) (message : Message) : Except Text Writer :=
  (frameJsonrpcMessage json message).bind fun framed =>
    (chunks recordPlaintextLen framed).foldlM (writeRecord cipher) writer

/-- The records of these messages; the writer stops at an error. -/
def writeMessages (messages : List Message) : Except Text (List RelayData) :=
  (messages.foldlM (Writer.writeMessage json cipher) ⟨0, 0, []⟩).map Writer.sent

/-! ### The receiver -/

/-- The inbound half of `NoiseVirtualStream`, with the ciphertexts that were released to the cipher
and the messages that were queued. -/
structure NoiseVirtualStream (Message : Type) where
  inboundCiphertexts : OrderedCiphertextFrames
  receiveNonce : ℕ
  buffered : Bytes
  released : List Bytes
  delivered : List Message

def NoiseVirtualStream.new : NoiseVirtualStream Message := ⟨.new, 0, [], [], []⟩

def decryptionError (err : Text) : Text := "Noise relay decryption failed: ".toList ++ err

/-- One ciphertext in `receive_data`. -/
def NoiseVirtualStream.decryptRecord (stream : NoiseVirtualStream Message) (ciphertext : Bytes) :
    Except Text (NoiseVirtualStream Message) :=
  ((cipher.decrypt stream.receiveNonce ciphertext).mapError decryptionError).bind fun plaintext =>
    (decoderPush json stream.buffered plaintext).map fun decoded =>
      { stream with
        receiveNonce := stream.receiveNonce + 1
        buffered := decoded.2
        released := stream.released ++ [ciphertext]
        delivered := stream.delivered ++ decoded.1 }

/-- `receive_data`. The capacity of the queue that the messages are put into is left out. -/
def NoiseVirtualStream.receiveData (stream : NoiseVirtualStream Message) (data : RelayData) :
    Except Text (NoiseVirtualStream Message) :=
  (stream.inboundCiphertexts.push data.seq data.payload).bind fun pushed =>
    pushed.1.foldlM (decryptRecord json cipher) { stream with inboundCiphertexts := pushed.2 }

def receiveAll (arrivals : List RelayData) : Except Text (NoiseVirtualStream Message) :=
  arrivals.foldlM (NoiseVirtualStream.receiveData json cipher) .new

/-! ### What the writer sends -/

/-- The records before their encryption. -/
def plaintexts (messages : List Message) : List Bytes :=
  messages.flatMap fun message => chunks recordPlaintextLen (frame json message)

/-- The records by their numbers. -/
def encrypted (plain : List Bytes) : List RelayData :=
  plain.mapIdx fun seq plaintext => ⟨seq, cipher.encrypt seq plaintext⟩

variable {json cipher}

/-- The writer after these records. -/
def Writer.after (cipher : Cipher) (plain : List Bytes) : Writer :=
  ⟨plain.length, plain.length, encrypted cipher plain⟩

variable (plain : List Bytes)

open Writer

lemma writeRecord_after (plaintext : Bytes) :
    (Writer.after cipher plain).writeRecord cipher plaintext =
      if (plain ++ [plaintext]).length ≤ maxSeq then .ok (.after cipher (plain ++ [plaintext]))
      else .error exhaustedError := by
  have hlength : (plain ++ [plaintext]).length = plain.length + 1 := by simp
  have hseq : (Writer.after cipher plain).nextSeq = plain.length := rfl
  simp only [writeRecord, takeNextSequence, hseq, hlength, Nat.succ_le_iff]
  split_ifs
  · simp [Except.map, Writer.after, encrypted, mapIdx_append]
  · rfl

lemma foldlM_writeRecord {plain : List Bytes} (hfit : plain.length ≤ maxSeq) (later : List Bytes) :
    later.foldlM (writeRecord cipher) (.after cipher plain) =
      if (plain ++ later).length ≤ maxSeq then .ok (.after cipher (plain ++ later))
      else .error exhaustedError := by
  induction later generalizing plain with
  | nil =>
    rw [append_nil, if_pos hfit]
    rfl
  | cons plaintext later ih =>
    rw [foldlM_cons, writeRecord_after]
    by_cases hnext : (plain ++ [plaintext]).length ≤ maxSeq
    · rw [if_pos hnext]
      change later.foldlM _ _ = _
      rw [ih hnext, List.append_assoc, singleton_append]
    · rw [if_neg hnext, if_neg]
      · rfl
      · simp only [length_append, length_cons, length_nil] at hnext ⊢
        omega

variable {messages : List Message} (h : ∀ message ∈ messages, Sendable json message)
include h

lemma foldlM_writeMessage {plain : List Bytes} (hfit : plain.length ≤ maxSeq) :
    messages.foldlM (writeMessage json cipher) (.after cipher plain) =
      if (plain ++ plaintexts json messages).length ≤ maxSeq then
        .ok (.after cipher (plain ++ plaintexts json messages)) else .error exhaustedError := by
  induction messages generalizing plain with
  | nil =>
    rw [plaintexts, flatMap_nil, append_nil, if_pos hfit]
    rfl
  | cons message messages ih =>
    have hwrite : writeMessage json cipher (.after cipher plain) message =
        (chunks recordPlaintextLen (frame json message)).foldlM (writeRecord cipher)
          (.after cipher plain) := by
      rw [writeMessage, (h message mem_cons_self).frameJsonrpcMessage]
      rfl
    have hplain : plaintexts json (message :: messages) =
        chunks recordPlaintextLen (frame json message) ++ plaintexts json messages :=
      flatMap_cons
    rw [foldlM_cons, hwrite, foldlM_writeRecord hfit, hplain, ← List.append_assoc]
    split_ifs with hnext hall hall
    · change messages.foldlM _ _ = _
      rw [ih (forall_mem_cons.1 h).2 hnext, if_pos hall]
    · change messages.foldlM _ _ = _
      rw [ih (forall_mem_cons.1 h).2 hnext, if_neg hall]
    · rw [length_append] at hall
      omega
    · rfl

/-- The writer numbers the records from 0, as long as the numbers fit. -/
lemma writeMessages_eq :
    writeMessages json cipher messages = if (plaintexts json messages).length ≤ maxSeq then
        .ok (encrypted cipher (plaintexts json messages)) else .error exhaustedError := by
  have hrun := @foldlM_writeMessage _ _ cipher _ h [] (Nat.zero_le _)
  rw [nil_append] at hrun
  change Except.map Writer.sent (messages.foldlM _ (.after cipher [])) = _
  rw [hrun]
  split_ifs
  · rfl
  · rfl

omit h

/-- The records make up the frames. -/
lemma flatten_plaintexts (messages : List Message) :
    (plaintexts json messages).flatten = messages.flatMap (frame json) := by
  induction messages with
  | nil => rfl
  | cons message messages ih =>
    rw [plaintexts, flatMap_cons, flatten_append, ← plaintexts, ih, flatMap_cons,
      flatten_chunks (by decide)]

lemma length_le_of_mem_plaintexts {plaintext : Bytes}
    (h : plaintext ∈ plaintexts json messages) : plaintext.length ≤ recordPlaintextLen := by
  obtain ⟨message, -, hpiece⟩ := mem_flatMap.1 h
  exact length_le_of_mem_chunks hpiece

lemma getElem?_encrypted (seq : ℕ) :
    (encrypted cipher plain)[seq]? = plain[seq]?.map fun plaintext =>
      ⟨seq, cipher.encrypt seq plaintext⟩ := by
  rw [encrypted, getElem?_mapIdx]

/-! ### What the receiver has -/

/-- The ciphertexts by their numbers. -/
def ciphertexts (cipher : Cipher) (plain : List Bytes) : List Bytes :=
  (encrypted cipher plain).map RelayData.payload

/-- The messages whose frames are complete have been delivered, in order; the records that have been
decrypted are the first ones. -/
structure Decoded (json : Json Message) (cipher : Cipher) (messages : List Message)
    (stream : NoiseVirtualStream Message) : Prop where
  released : stream.released = (ciphertexts cipher (plaintexts json messages)).take
    stream.receiveNonce
  delivered : ∃ todo, messages = stream.delivered ++ todo ∧
    stream.buffered ++ ((plaintexts json messages).drop stream.receiveNonce).flatten =
      todo.flatMap (frame json) ∧
    ((plaintexts json messages).length ≤ stream.receiveNonce → todo = [])

variable {messages : List Message} {stream : NoiseVirtualStream Message} {arrived : Finset ℕ}

lemma getElem?_ciphertexts (seq : ℕ) :
    (ciphertexts cipher plain)[seq]? = plain[seq]?.map (cipher.encrypt seq) := by
  rw [ciphertexts, getElem?_map, getElem?_encrypted, Option.map_map]
  rfl

lemma decoded_new (messages : List Message) : Decoded json cipher messages .new where
  released := rfl
  delivered := by
    refine ⟨messages, rfl, ?_, fun hnone => ?_⟩
    · exact flatten_plaintexts messages
    · have hnil : messages.flatMap (frame json) = [] := by
        rw [← flatten_plaintexts, length_eq_zero_iff.1 (Nat.le_zero.1 hnone)]
        rfl
      cases messages with
      | nil => rfl
      | cons message messages =>
        have hlength := congrArg List.length (append_eq_nil_iff.1 hnil).1
        rw [length_frame] at hlength
        simp [lengthPrefixBytes] at hlength

/-- The next ciphertext is decrypted and decoded. -/
lemma Decoded.decryptRecord (h : Decoded json cipher messages stream)
    (hmessages : ∀ message ∈ messages, Sendable json message) {ciphertext : Bytes}
    (hnext : (ciphertexts cipher (plaintexts json messages))[stream.receiveNonce]? =
      some ciphertext) : ∃ next, stream.decryptRecord json cipher ciphertext = .ok next ∧
      Decoded json cipher messages next ∧ next.receiveNonce = stream.receiveNonce + 1 ∧
      next.inboundCiphertexts = stream.inboundCiphertexts := by
  obtain ⟨plaintext, hplain, rfl⟩ :=
    Option.map_eq_some_iff.1 ((getElem?_ciphertexts _ _).symm.trans hnext)
  obtain ⟨hlt, hget⟩ := List.getElem?_eq_some_iff.1 hplain
  obtain ⟨todo, hsplit, hbytes, -⟩ := h.delivered
  have hdrop : (plaintexts json messages).drop stream.receiveNonce =
      plaintext :: (plaintexts json messages).drop (stream.receiveNonce + 1) := by
    rw [drop_eq_getElem_cons hlt, hget]
  rw [hdrop, flatten_cons, ← List.append_assoc] at hbytes
  have hsendable : ∀ message ∈ todo, Sendable json message := fun message hmem =>
    hmessages message (hsplit ▸ mem_append_right _ hmem)
  obtain ⟨taken, rest, buffered, rfl, hpush, hrest, hdone⟩ := decoderPush_spec hsendable hbytes
    (length_le_of_mem_plaintexts (mem_of_getElem? hplain))
  refine ⟨{ stream with
      receiveNonce := stream.receiveNonce + 1
      buffered := buffered
      released := stream.released ++ [cipher.encrypt stream.receiveNonce plaintext]
      delivered := stream.delivered ++ taken }, ?_, ⟨?_, rest, ?_, hrest, fun hall => hdone ?_⟩,
    rfl, rfl⟩
  · simp only [NoiseVirtualStream.decryptRecord, cipher.decrypt_encrypt, Except.mapError,
      Except.bind, hpush]
    rfl
  · rw [h.released, take_add_one, hnext]
    rfl
  · rw [hsplit, List.append_assoc]
  · rw [drop_eq_nil_of_le hall]
    rfl

/-- The ciphertexts that are released together. -/
lemma Decoded.decryptRecords (h : Decoded json cipher messages stream)
    (hmessages : ∀ message ∈ messages, Sendable json message) {released later : List Bytes}
    (hreleased : (ciphertexts cipher (plaintexts json messages)).drop stream.receiveNonce =
      released ++ later) :
    ∃ next, released.foldlM (NoiseVirtualStream.decryptRecord json cipher) stream = .ok next ∧
      Decoded json cipher messages next ∧
      next.receiveNonce = stream.receiveNonce + released.length ∧
      next.inboundCiphertexts = stream.inboundCiphertexts := by
  induction released generalizing stream with
  | nil => exact ⟨stream, rfl, h, rfl, rfl⟩
  | cons ciphertext released ih =>
    have hhead := congrArg List.head? hreleased
    rw [head?_drop] at hhead
    obtain ⟨next, hdecrypt, hnext, hnonce, hframes⟩ := h.decryptRecord hmessages hhead
    have htail := congrArg List.tail hreleased
    rw [tail_drop, ← hnonce] at htail
    obtain ⟨last, hfold, hlast, hcount, hsame⟩ := ih hnext htail
    refine ⟨last, ?_, hlast, ?_, hsame.trans hframes⟩
    · rw [foldlM_cons, hdecrypt]
      exact hfold
    · rw [hcount, hnonce, length_cons]
      omega

/-- The receiver after the arrivals with these numbers. -/
structure Receives (json : Json Message) (cipher : Cipher) (messages : List Message)
    (arrived : Finset ℕ) (stream : NoiseVirtualStream Message) : Prop where
  frames : Holds (ciphertexts cipher (plaintexts json messages)) arrived stream.inboundCiphertexts
  bounded : Bounded stream.inboundCiphertexts
  receiveNonce : stream.receiveNonce = stream.inboundCiphertexts.nextSeq
  arrived : ∀ seq ∈ arrived, seq < (plaintexts json messages).length
  decoded : Decoded json cipher messages stream

lemma receives_new (messages : List Message) : Receives json cipher messages ∅ .new :=
  ⟨OrderedCiphertextFrames.holds_new _, OrderedCiphertextFrames.bounded_new, rfl,
    fun seq hseq => absurd hseq (Finset.notMem_empty seq), decoded_new messages⟩

variable {data : RelayData}

lemma length_ciphertexts : (ciphertexts cipher plain).length = plain.length := by
  simp [ciphertexts, encrypted]

/-- A record of the writer, by its number. -/
lemma getElem?_of_mem_encrypted {plain : List Bytes} (h : data ∈ encrypted cipher plain) :
    (ciphertexts cipher plain)[data.seq]? = some data.payload := by
  obtain ⟨seq, hseq⟩ := mem_iff_getElem?.1 h
  have hpayload : (ciphertexts cipher plain)[seq]? = some data.payload := by
    rw [ciphertexts, getElem?_map, hseq]
    rfl
  rw [getElem?_encrypted, Option.map_eq_some_iff] at hseq
  obtain ⟨plaintext, -, rfl⟩ := hseq
  exact hpayload

/-- **An arrival.**  If it is accepted, the receiver has what the numbers that have arrived determine;
it is accepted if it is within the limits. -/
lemma Receives.receiveData (h : Receives json cipher messages arrived stream)
    (hmessages : ∀ message ∈ messages, Sendable json message)
    (hfit : (plaintexts json messages).length ≤ maxSeq)
    (hdata : data ∈ encrypted cipher (plaintexts json messages)) :
    (∀ next, stream.receiveData json cipher data = .ok next →
      Receives json cipher messages (insert data.seq arrived) next) ∧
    (data.seq ≤ firstMissing arrived + maxReorderDistance →
      bufferedBytes (ciphertexts cipher (plaintexts json messages)) (insert data.seq arrived) ≤
        maxPendingBytes → ∃ next, stream.receiveData json cipher data = .ok next) := by
  have hpayload := getElem?_of_mem_encrypted hdata
  have hlength : (ciphertexts cipher (plaintexts json messages)).length =
      (plaintexts json messages).length := length_ciphertexts _
  have hfits : (ciphertexts cipher _).length ≤ maxSeq := hlength ▸ hfit
  have harrived : ∀ seq ∈ insert data.seq arrived, seq < (plaintexts json messages).length := by
    intro seq hseq
    rcases Finset.mem_insert.1 hseq with rfl | hseq
    · exact hlength ▸ (List.getElem?_eq_some_iff.1 hpayload).1
    · exact h.arrived seq hseq
  -- Once the record is accepted, the ciphertexts that it releases are decrypted without errors.
  have hpushed : ∀ released frames,
      stream.inboundCiphertexts.push data.seq data.payload = .ok (released, frames) →
        ∃ next, stream.receiveData json cipher data = .ok next ∧
          Receives json cipher messages (insert data.seq arrived) next := by
    intro released frames hpush
    obtain ⟨hholds, htake, hbounded⟩ := h.frames.push hfits hpayload hpush
    have hle : frames.nextSeq ≤ (plaintexts json messages).length := by
      by_contra hgt
      exact lt_irrefl _ (harrived _ (hholds.before _ (not_le.1 hgt)))
    have hdrop := Reorder.drop_eq_append_drop htake
    have hcount := congrArg List.length hdrop
    rw [length_append, length_drop, length_drop, hlength] at hcount
    rw [← h.receiveNonce] at hdrop
    have hdecoded : Decoded json cipher messages
        { stream with inboundCiphertexts := frames } := ⟨h.decoded.released, h.decoded.delivered⟩
    obtain ⟨next, hfold, hnext, hnonce, hframes⟩ := hdecoded.decryptRecords hmessages hdrop
    refine ⟨next, ?_, hframes ▸ hholds, hframes ▸ hbounded h.bounded, ?_, harrived, hnext⟩
    · rw [NoiseVirtualStream.receiveData, hpush]
      exact hfold
    · have hgrows : stream.inboundCiphertexts.nextSeq ≤ frames.nextSeq := by
        by_contra hlt
        exact hholds.next (Finset.mem_insert_of_mem (h.frames.before _ (not_le.1 hlt)))
      rw [hnonce, hframes]
      dsimp only
      rw [h.receiveNonce]
      omega
  refine ⟨fun next hnext => ?_, fun hwindow hbytes => ?_⟩
  · cases hpush : stream.inboundCiphertexts.push data.seq data.payload with
    | error err =>
      rw [NoiseVirtualStream.receiveData, hpush] at hnext
      exact absurd hnext nofun
    | ok pushed =>
      obtain ⟨next', hreceive, hreceives⟩ := hpushed pushed.1 pushed.2 hpush
      obtain rfl := Except.ok.inj (hreceive.symm.trans hnext)
      exact hreceives
  · obtain ⟨released, frames, hpush⟩ := h.frames.push_ok hfits hpayload hwindow hbytes
    obtain ⟨next, hreceive, -⟩ := hpushed released frames hpush
    exact ⟨next, hreceive⟩

/-! ### Arrivals -/

/-- The numbers of the records. -/
def seqs (arrivals : List RelayData) : Finset ℕ := (arrivals.map RelayData.seq).toFinset

lemma seqs_concat (arrivals : List RelayData) (data : RelayData) :
    seqs (arrivals ++ [data]) = insert data.seq (seqs arrivals) := by
  ext seq
  simp [seqs]

/-- Every record is, when it arrives, at most 64 ahead of the first one that is missing, and the
records that have to wait then do not have more bytes than may wait. -/
def WithinLimits (payloads : List Bytes) (arrivals : List RelayData) : Prop :=
  ∀ before data after, arrivals = before ++ data :: after →
    data.seq ≤ firstMissing (seqs before) + maxReorderDistance ∧
      bufferedBytes payloads (seqs (before ++ [data])) ≤ maxPendingBytes

/-- A stream of few small records is always within the limits. -/
lemma withinLimits_of_small {payloads : List Bytes} {arrivals : List RelayData}
    (harrivals : ∀ data ∈ arrivals, data.seq < payloads.length)
    (hcount : payloads.length ≤ maxReorderDistance)
    (hbytes : (payloads.map List.length).sum ≤ maxPendingBytes) : WithinLimits payloads arrivals := by
  intro before data after hsplit
  refine ⟨?_, ?_⟩
  · have hseq := harrivals data (by rw [hsplit]; simp)
    omega
  · have hsubset : (seqs (before ++ [data])).filter
        (firstMissing (seqs (before ++ [data])) < ·) ⊆ Finset.range payloads.length := by
      intro seq hseq
      obtain ⟨other, hother, rfl⟩ :=
        mem_map.1 (mem_toFinset.1 (Finset.mem_filter.1 hseq).1)
      refine Finset.mem_range.2 (harrivals other ?_)
      rw [hsplit, ← singleton_append, ← List.append_assoc]
      exact mem_append_left _ hother
    calc bufferedBytes payloads (seqs (before ++ [data]))
        ≤ ∑ seq ∈ Finset.range payloads.length, (payloads[seq]?.getD []).length :=
          Finset.sum_le_sum_of_subset hsubset
      _ = ∑ seq : Fin payloads.length, payloads[seq].length := by
          rw [Finset.sum_range]
          refine Finset.sum_congr rfl fun seq _ => ?_
          rw [getElem?_eq_getElem seq.2]
          rfl
      _ = (payloads.map List.length).sum := Fin.sum_univ_fun_getElem payloads List.length
      _ ≤ maxPendingBytes := hbytes

lemma receives_receiveAll (hmessages : ∀ message ∈ messages, Sendable json message)
    (hfit : (plaintexts json messages).length ≤ maxSeq) {arrivals : List RelayData}
    (harrivals : ∀ data ∈ arrivals, data ∈ encrypted cipher (plaintexts json messages)) :
    (∀ stream, receiveAll json cipher arrivals = .ok stream →
      Receives json cipher messages (seqs arrivals) stream) ∧
    (WithinLimits (ciphertexts cipher (plaintexts json messages)) arrivals →
      ∃ stream, receiveAll json cipher arrivals = .ok stream) := by
  induction arrivals using reverseRecOn with
  | nil =>
    refine ⟨fun stream hstream => ?_, fun _ => ⟨.new, rfl⟩⟩
    obtain rfl := Except.ok.inj hstream
    exact receives_new messages
  | append_singleton arrivals data ih =>
    obtain ⟨ihreceives, ihok⟩ := ih fun other hother => harrivals other (mem_append_left _ hother)
    have hdata := harrivals data (mem_append_right _ (mem_singleton_self data))
    have hstep : receiveAll json cipher (arrivals ++ [data]) =
        (receiveAll json cipher arrivals).bind fun stream =>
          stream.receiveData json cipher data := by
      rw [receiveAll, foldlM_append, ← receiveAll]
      simp only [foldlM_cons, foldlM_nil, bind_pure]
      rfl
    rw [seqs_concat, hstep]
    refine ⟨fun next hnext => ?_, fun hlimits => ?_⟩
    · cases hrun : receiveAll json cipher arrivals with
      | error err =>
        rw [hrun] at hnext
        exact absurd hnext nofun
      | ok stream =>
        rw [hrun] at hnext
        exact ((ihreceives stream hrun).receiveData hmessages hfit hdata).1 next hnext
    · obtain ⟨stream, hrun⟩ := ihok fun before other after hsplit =>
        hlimits before other (after ++ [data]) (by rw [hsplit]; simp)
      obtain ⟨hwindow, hbytes⟩ := hlimits arrivals data [] rfl
      rw [seqs_concat] at hbytes
      rw [hrun]
      exact ((ihreceives stream hrun).receiveData hmessages hfit hdata).2 hwindow hbytes

/-- **The stream delivers every message once and in order.**  The writer succeeds if the records can
be numbered.  Whatever arrives, in any order and any number of times, as long as no error is reported
the messages that are delivered are the first ones that were sent, and all of them once every record
has arrived.  The records that wait are within the limits, and the ciphertexts that were released are
those of the records before the next number, each once.  Arrivals within the limits give no error. -/
theorem stream_delivers (json : Json Message) (cipher : Cipher) (messages : List Message)
    (h : ∀ message ∈ messages, Sendable json message) :
    ((∃ records, writeMessages json cipher messages = .ok records) ↔
      (plaintexts json messages).length ≤ maxSeq) ∧
    ∀ records, writeMessages json cipher messages = .ok records →
      ∀ arrivals : List RelayData, (∀ data ∈ arrivals, data ∈ records) →
        (∀ stream, receiveAll json cipher arrivals = .ok stream →
          ((∀ data ∈ records, data ∈ arrivals) → stream.delivered = messages) ∧
          stream.delivered <+: messages ∧
          (∀ seq ∈ stream.inboundCiphertexts.pending.keys, stream.inboundCiphertexts.nextSeq < seq ∧
            seq ≤ stream.inboundCiphertexts.nextSeq + maxReorderDistance) ∧
          stream.inboundCiphertexts.pendingBytes =
            (stream.inboundCiphertexts.pending.map fun entry => entry.2.length).sum ∧
          stream.inboundCiphertexts.pendingBytes ≤ maxPendingBytes ∧ stream.released =
            (records.take stream.inboundCiphertexts.nextSeq).map RelayData.payload) ∧
        (WithinLimits (records.map RelayData.payload) arrivals →
          ∃ stream, receiveAll json cipher arrivals = .ok stream) := by
  rw [writeMessages_eq h]
  refine ⟨?_, fun records hrecords arrivals harrivals => ?_⟩
  · split_ifs with hfit
    all_goals simp [hfit]
  split_ifs at hrecords with hfit
  obtain rfl := Except.ok.inj hrecords
  obtain ⟨hreceives, hok⟩ := receives_receiveAll h hfit harrivals
  refine ⟨fun stream hstream => ?_, hok⟩
  have hinv := hreceives stream hstream
  obtain ⟨todo, hsplit, -, hdone⟩ := hinv.decoded.delivered
  refine ⟨fun hall => ?_, ⟨todo, hsplit.symm⟩, hinv.bounded.window, hinv.frames.bytes,
    hinv.bounded.bytes, ?_⟩
  · -- Otherwise the next record would have arrived.
    have hnext : (plaintexts json messages).length ≤ stream.receiveNonce := by
      by_contra hlt
      rw [hinv.receiveNonce, not_le] at hlt
      have hget := @getElem?_encrypted cipher (plaintexts json messages)
        stream.inboundCiphertexts.nextSeq
      rw [getElem?_eq_getElem hlt, Option.map_some] at hget
      have harrived := hall _ (mem_of_getElem? hget)
      exact hinv.frames.next (mem_toFinset.2 (mem_map.2 ⟨_, harrived, rfl⟩))
    rw [hdone hnext, append_nil] at hsplit
    exact hsplit.symm
  · rw [hinv.decoded.released, hinv.receiveNonce, ciphertexts, map_take]

/-- The text of the notification without parameters that has the method `a` or `b`. -/
def notification (method : Bool) : Bytes :=
  [123, 34, 109, 101, 116, 104, 111, 100, 34, 58, 34, if method then 98 else 97, 34, 125]

def notificationJson : Json Bool where
  toBytes := notification
  fromBytes bytes :=
    if bytes = notification false then .ok false
    else if bytes = notification true then .ok true
    else .error "unknown method".toList
  fromBytes_toBytes := by decide

/-- A cipher that only writes the position in front. -/
def countingCipher : Cipher where
  encrypt nonce plaintext := UInt8.ofNat nonce :: plaintext
  decrypt nonce ciphertext :=
    if ciphertext.head? = some (UInt8.ofNat nonce) then .ok ciphertext.tail
    else .error "wrong position".toList
  decrypt_encrypt _ _ := if_pos rfl

theorem stream_delivers_two_notifications : ∃ records stream,
    writeMessages notificationJson countingCipher [false, true] = .ok records ∧
      records.length = 2 ∧
      receiveAll notificationJson countingCipher (records.reverse ++ records) = .ok stream ∧
      stream.delivered = [false, true] := by
  have hsendable : ∀ message ∈ [false, true], Sendable notificationJson message := by
    intro message _
    have hlength : (notificationJson.toBytes message).length = 14 := rfl
    rw [Sendable, hlength, maxMessageLen]
    omega
  have hplain : plaintexts notificationJson [false, true] =
      [frame notificationJson false, frame notificationJson true] := by
    have hframe : ∀ message, chunks recordPlaintextLen (frame notificationJson message) =
        [frame notificationJson message] := by
      intro message
      have hshort : (frame notificationJson message).length ≤ recordPlaintextLen := by
        have hlength : (frame notificationJson message).length = 18 := rfl
        rw [hlength, recordPlaintextLen]
        omega
      have hne : frame notificationJson message ≠ [] := cons_ne_nil _ _
      rw [chunks_of_ne_nil (by decide) hne, take_of_length_le hshort,
        drop_eq_nil_of_le hshort, chunks_nil]
    simp only [plaintexts, flatMap_cons, flatMap_nil, hframe, singleton_append, append_nil]
  obtain ⟨hwrites, hruns⟩ := stream_delivers notificationJson countingCipher [false, true] hsendable
  obtain ⟨records, hrecords⟩ := hwrites.2 (by rw [hplain]; decide)
  have hvalue : records = [⟨0, 0 :: frame notificationJson false⟩,
      ⟨1, 1 :: frame notificationJson true⟩] := by
    rw [writeMessages_eq hsendable, hplain, if_pos (by decide)] at hrecords
    exact (Except.ok.inj hrecords).symm
  obtain ⟨hdelivers, hok⟩ := hruns records hrecords (records.reverse ++ records) (by simp)
  have hlimits : WithinLimits (records.map RelayData.payload) (records.reverse ++ records) := by
    subst hvalue
    exact withinLimits_of_small (by decide) (by decide) (by decide)
  obtain ⟨stream, hstream⟩ := hok hlimits
  exact ⟨records, stream, hrecords, by rw [hvalue]; rfl, hstream,
    (hdelivers stream hstream).1 (by simp)⟩

end TokenCode.NoiseRelay
