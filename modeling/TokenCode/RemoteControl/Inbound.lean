/-
Segmented client messages are delivered once under replay.

A client sends messages in chunks. After a reconnect it goes back and sends chunks again, and
envelopes of other clients come in between. What the state knows about the client is how many of its
chunks have arrived (`Progress`): a chunk that came before changes nothing, the next one extends the
assembly, and the last one of a message forwards it (`segmented_exactly_once`).
-/
import TokenCode.RemoteControl.Websocket

namespace TokenCode.RemoteControl

open List WebsocketState

variable {Message Outgoing : Type}

/-! ### What one client sends -/

/-- Base64 and JSON in both directions; reading gives back what was written. -/
structure Codec (Message : Type) extends Reading Message where
  encodeBase64 : Bytes → Text
  toVec : Message → Bytes
  decode_encode : ∀ bytes, decodeBase64 (encodeBase64 bytes) = some bytes
  fromSlice_toVec : ∀ message, fromSlice (toVec message) = some message

/-- A message that is cut into pieces. -/
structure SentMessage (Message : Type) where
  seqId : ℕ
  message : Message
  pieces : List Bytes

namespace SentMessage

/-- The pieces make up the message and are within the limits of the reassembler. -/
structure Valid (codec : Codec Message) (sent : SentMessage Message) : Prop where
  flatten : sent.pieces.flatten = codec.toVec sent.message
  ne_nil : sent.pieces ≠ []
  count : sent.pieces.length ≤ segmentCountMax
  pos : 0 < (codec.toVec sent.message).length
  size : (codec.toVec sent.message).length ≤ reassembledMaxBytes
  pieces : ∀ piece ∈ sent.pieces, codec.encodeBase64 piece ≠ []

/-- The metadata that all chunks carry. -/
def metadata (sent : SentMessage Message) : ClientSegmentMetadata :=
  ⟨sent.seqId, sent.pieces.length, sent.pieces.flatten.length⟩

/-- A chunk of the message; its cursor may differ from one sending to the next. -/
def chunk (codec : Codec Message) (sent : SentMessage Message) (key : StreamKey) (segmentId : ℕ)
    (cursor : Option Text) : ClientEnvelope Message where
  event := .clientMessageChunk segmentId sent.pieces.length sent.pieces.flatten.length
    (codec.encodeBase64 (sent.pieces[segmentId]?.getD []))
  clientId := key.1
  streamId := some key.2
  seqId := some sent.seqId
  cursor := cursor

end SentMessage

/-- The messages of one client on one stream, with increasing sequence numbers. -/
structure Sending (codec : Codec Message) where
  key : StreamKey
  messages : List (SentMessage Message)
  valid : ∀ sent ∈ messages, sent.Valid codec
  increasing : messages.Pairwise fun a b => a.seqId < b.seqId

/-- All chunks in the order of the sender. -/
def chunksOf (messages : List (SentMessage Message)) : List (SentMessage Message × ℕ) :=
  messages.flatMap fun sent => (List.range sent.pieces.length).map fun segmentId => (sent, segmentId)

/-- The messages all of whose chunks are among the first `high`. -/
def completed : List (SentMessage Message) → ℕ → List (SentMessage Message)
  | [], _ => []
  | sent :: messages, high =>
    if sent.pieces.length ≤ high then sent :: completed messages (high - sent.pieces.length) else []

/-- An envelope on the wire, with its size and the time of its arrival. -/
structure Incoming (Message : Type) where
  envelope : ClientEnvelope Message
  wireSizeBytes : ℕ
  now : ℕ

/-- What arrives, when the first `high` chunks of the sender have come. Each of its chunks is one that
has come before or the next one; envelopes of other clients are arbitrary. -/
inductive Wire {codec : Codec Message} (sending : Sending codec) (others : Finset ClientId) :
    ℕ → List (Incoming Message) → Prop
  | nil : Wire sending others 0 []
  | own {high : ℕ} {arrivals : List (Incoming Message)} {position segmentId : ℕ}
      {sent : SentMessage Message} {cursor : Option Text} {incoming : Incoming Message} :
      Wire sending others high arrivals → position ≤ high →
      (chunksOf sending.messages)[position]? = some (sent, segmentId) →
      incoming.envelope = sent.chunk codec sending.key segmentId cursor →
      incoming.wireSizeBytes ≤ segmentMaxBytes →
      Wire sending others (max high (position + 1)) (arrivals ++ [incoming])
  | other {high : ℕ} {arrivals : List (Incoming Message)} {incoming : Incoming Message} :
      Wire sending others high arrivals → incoming.envelope.clientId ∈ others →
      Wire sending others high (arrivals ++ [incoming])

/-- What is forwarded, and the state afterwards. -/
def receiveAll (reading : Reading Message) (arrivals : List (Incoming Message)) :
    List (ClientEnvelope Message) × WebsocketState Outgoing :=
  arrivals.foldl (fun run incoming =>
    let received := run.2.receive reading incoming.envelope incoming.wireSizeBytes incoming.now
    (run.1 ++ received.1.toList, received.2)) ([], .new)

/-! ### Envelopes of other clients -/

/-- Only the assembly of this client may differ. -/
def AgreeOff (clientId : ClientId) (before after : Assemblies) : Prop :=
  ∀ other, other ≠ clientId → after.lookup other = before.lookup other

variable {clientId : ClientId} {streamId : StreamId} {before middle after : Assemblies}

lemma AgreeOff.refl (clientId : ClientId) (assemblies : Assemblies) :
    AgreeOff clientId assemblies assemblies := fun _ _ => rfl

lemma AgreeOff.trans (h : AgreeOff clientId before middle) (h' : AgreeOff clientId middle after) :
    AgreeOff clientId before after := fun other hother => (h' other hother).trans (h other hother)

lemma agreeOff_insert (clientId : ClientId) (assembly : ClientSegmentAssembly)
    (assemblies : Assemblies) : AgreeOff clientId assemblies (assemblies.insert clientId assembly) :=
  fun _ hother => AList.lookup_insert_ne hother

lemma agreeOff_erase (clientId : ClientId) (assemblies : Assemblies) :
    AgreeOff clientId assemblies (assemblies.erase clientId) :=
  fun _ hother => AList.lookup_erase_ne hother

lemma agreeOff_removeAssembly (assemblies : Assemblies) (clientId : ClientId) (streamId : StreamId) :
    AgreeOff clientId assemblies (assemblies.removeAssembly clientId streamId) := by
  unfold Assemblies.removeAssembly
  split_ifs
  · exact agreeOff_erase clientId assemblies
  · exact .refl clientId assemblies

variable {assemblies : Assemblies}

/-- Nothing is evicted while there is room. -/
lemma evictAssembliesIfFull_of_lt (h : assemblies.entries.length < segmentAssemblyMaxCount) :
    assemblies.evictAssembliesIfFull = assemblies := by
  unfold Assemblies.evictAssembliesIfFull
  cases assemblies.entries.length with
  | zero => rfl
  | succ rounds => rw [Assemblies.evict, if_neg (not_le.2 h)]

lemma agreeOff_openAssembly (h : assemblies.entries.length < segmentAssemblyMaxCount)
    (clientId : ClientId) (streamId : StreamId) (metadata : ClientSegmentMetadata) (now : ℕ) :
    AgreeOff clientId assemblies (assemblies.openAssembly clientId streamId metadata now) := by
  unfold Assemblies.openAssembly
  split
  · split_ifs
    · exact agreeOff_insert _ _ _
    · exact .refl _ _
  · rw [evictAssembliesIfFull_of_lt h]
    exact agreeOff_insert _ _ _

variable {reading : Reading Message} {envelope : ClientEnvelope Message}

section

variable (h : assemblies.entries.length < segmentAssemblyMaxCount)
include h

lemma agreeOff_observeChunk (envelope : ClientEnvelope Message) (streamId : StreamId)
    (metadata : ClientSegmentMetadata) (segmentId : ℕ) (messageChunkBase64 : Text) (now : ℕ) :
    AgreeOff envelope.clientId assemblies (assemblies.observeChunk reading envelope streamId metadata
      segmentId messageChunkBase64 now).2 := by
  have hopened := agreeOff_openAssembly h envelope.clientId streamId metadata now
  unfold Assemblies.observeChunk
  dsimp only
  split
  · exact hopened
  · have hkept := fun assembly => hopened.trans (agreeOff_insert envelope.clientId assembly _)
    split
    · exact hkept _
    · exact hkept _
    all_goals exact (hkept _).trans (agreeOff_removeAssembly _ _ _)

lemma agreeOff_observe (envelope : ClientEnvelope Message) (now : ℕ) :
    AgreeOff envelope.clientId assemblies (assemblies.observe reading envelope now).2 := by
  unfold Assemblies.observe
  split
  · split_ifs
    · exact .refl _ _
    · exact agreeOff_removeAssembly _ _ _
    · exact agreeOff_observeChunk h envelope _ _ _ _ now
  all_goals exact .refl _ _

end

variable {forwarded : ClientEnvelope Message}

/-- What is forwarded comes from the client of the envelope. -/
lemma clientId_of_forward {now : ℕ}
    (h : (assemblies.observe reading envelope now).1 = .forward forwarded) :
    forwarded.clientId = envelope.clientId := by
  unfold Assemblies.observe at h
  split at h
  · split_ifs at h
    unfold Assemblies.observeChunk at h
    dsimp only at h
    split at h
    · exact absurd h nofun
    · split at h
      · exact absurd h nofun
      · exact absurd h nofun
      · exact absurd h nofun
      · obtain rfl := ClientSegmentObservation.forward.inj h
        rfl
  · exact absurd h nofun
  · obtain rfl := ClientSegmentObservation.forward.inj h
    rfl

variable {current : SentMessage Message} {more : List (SentMessage Message)}

namespace WebsocketState

variable {state : WebsocketState Outgoing}

/-- The states know the same about a client. -/
structure SameFor (clientId : ClientId) (before after : WebsocketState Outgoing) : Prop where
  assembly : after.clientSegmentReassembler.lookup clientId =
    before.clientSegmentReassembler.lookup clientId
  completed : ∀ stream, after.lastCompletedClientChunkSeqIdByStream.lookup (clientId, stream) =
    before.lastCompletedClientChunkSeqIdByStream.lookup (clientId, stream)

lemma SameFor.refl (clientId : ClientId) (state : WebsocketState Outgoing) :
    SameFor clientId state state := ⟨rfl, fun _ => rfl⟩

lemma SameFor.trans {before middle after : WebsocketState Outgoing}
    (h : SameFor clientId before middle) (h' : SameFor clientId middle after) :
    SameFor clientId before after :=
  ⟨h'.assembly.trans h.assembly, fun stream => (h'.completed stream).trans (h.completed stream)⟩

variable {other : ClientId}

lemma sameFor_observeClientMessage
    (h : state.clientSegmentReassembler.entries.length < segmentAssemblyMaxCount)
    (hother : other ≠ envelope.clientId) (wireSizeBytes now : ℕ) :
    SameFor other state (state.observeClientMessage reading envelope wireSizeBytes now).2 ∧
      ∀ forwarded, (state.observeClientMessage reading envelope wireSizeBytes now).1 =
        .forward forwarded → forwarded.clientId = envelope.clientId := by
  unfold observeClientMessage
  split_ifs
  · exact ⟨.refl other state, nofun⟩
  · exact ⟨.refl other state, nofun⟩
  · split
    · exact ⟨⟨agreeOff_removeAssembly _ _ _ other hother, fun _ => rfl⟩, nofun⟩
    · exact ⟨.refl other state, nofun⟩
  · exact ⟨⟨agreeOff_observe h envelope now other hother, fun _ => rfl⟩,
      fun forwarded hforward => clientId_of_forward hforward⟩

lemma clientId_of_clientMessageKey {key : (ClientId × Option StreamId) × ℕ}
    (h : clientMessageKey envelope = some key) : key.1.1 = envelope.clientId := by
  unfold clientMessageKey at h
  split at h
  · obtain rfl := Option.some.inj h
    rfl
  · exact absurd h nofun

lemma sameFor_recordClientMessageDelivery {key : Option ((ClientId × Option StreamId) × ℕ)}
    (hkey : ∀ k, key = some k → other ≠ k.1.1) :
    SameFor other state (state.recordClientMessageDelivery forwarded key) := by
  refine ⟨rfl, fun stream => ?_⟩
  cases key with
  | none => rfl
  | some key =>
    refine AList.lookup_insert_ne fun heq => hkey key rfl ?_
    rw [← heq]

lemma lookup_foldl_erase {keys : List (ClientId × Option StreamId)}
    {map : AList fun _ : ClientId × Option StreamId => ℕ} {key : ClientId × Option StreamId}
    (h : key ∉ keys) : (keys.foldl (fun map key => map.erase key) map).lookup key =
      map.lookup key := by
  induction keys generalizing map with
  | nil => rfl
  | cons head keys ih =>
    obtain ⟨hne, hkeys⟩ := ne_and_not_mem_of_not_mem_cons h
    rw [foldl_cons, ih hkeys, AList.lookup_erase_ne hne]

lemma sameFor_forgetClosed (hother : other ≠ clientId) (stream : Option StreamId) :
    SameFor other state (state.forgetClosed clientId stream) := by
  cases stream with
  | some stream =>
    refine ⟨agreeOff_removeAssembly _ _ _ other hother, fun _ => AList.lookup_erase_ne ?_⟩
    exact fun heq => hother (congrArg Prod.fst heq)
  | none =>
    refine ⟨agreeOff_erase _ _ other hother, fun _ => lookup_foldl_erase ?_⟩
    simp [hother]

/-- An envelope of one client leaves what is known about the others. -/
lemma sameFor_receive (h : state.clientSegmentReassembler.entries.length < segmentAssemblyMaxCount)
    (hother : other ≠ envelope.clientId) (wireSizeBytes now : ℕ) :
    SameFor other state (state.receive reading envelope wireSizeBytes now).2 ∧
      ∀ forwarded, (state.receive reading envelope wireSizeBytes now).1 = some forwarded →
        forwarded.clientId = envelope.clientId := by
  obtain ⟨hobserved, hclient⟩ :=
    @sameFor_observeClientMessage _ _ reading envelope state other h hother wireSizeBytes now
  unfold receive
  dsimp only
  split
  · exact ⟨hobserved, nofun⟩
  · exact ⟨hobserved, nofun⟩
  · next forwarded hforwarded =>
    have hdelivered : SameFor other state
        ((state.observeClientMessage reading envelope wireSizeBytes now).2.recordClientMessageDelivery
          forwarded (clientMessageKey envelope)) :=
      hobserved.trans (sameFor_recordClientMessageDelivery fun key hkey =>
        (clientId_of_clientMessageKey hkey).symm ▸ hother)
    have hforwardedId := hclient forwarded hforwarded
    split
    · refine ⟨hdelivered.trans (sameFor_forgetClosed (hforwardedId ▸ hother) _), ?_⟩
      rintro _ ⟨⟩
      exact hforwardedId
    · refine ⟨hdelivered, ?_⟩
      rintro _ ⟨⟩
      exact hforwardedId

/-- There is room as long as there are few clients. -/
lemma length_lt_of_forall_mem {clients : Finset ClientId}
    (hmem : ∀ clientId, (assemblies.lookup clientId).isSome → clientId ∈ clients)
    (hcard : clients.card < segmentAssemblyMaxCount) :
    assemblies.entries.length < segmentAssemblyMaxCount := by
  have hsubset : assemblies.keys.toFinset ⊆ clients := fun clientId hclient =>
    hmem clientId (AList.lookup_isSome.2 (AList.mem_keys.2 (mem_toFinset.1 hclient)))
  have hkeys := Finset.card_le_card hsubset
  rw [toFinset_card_of_nodup assemblies.keys_nodup] at hkeys
  have hlength : assemblies.keys.length = assemblies.entries.length := length_map _
  omega

/-! ### Chunks of the sender -/

variable {codec : Codec Message} {sending : Sending codec} {done todo : List (SentMessage Message)}
  {rest : ℕ}

/-- The messages of `done` have been delivered, and `rest` chunks of the next one have arrived. -/
structure Progress (codec : Codec Message) (sending : Sending codec)
    (done todo : List (SentMessage Message)) (rest : ℕ) (state : WebsocketState Outgoing) : Prop where
  messages : sending.messages = done ++ todo
  completed : state.lastCompletedClientChunkSeqIdByStream.lookup
    (sending.key.1, some sending.key.2) = done.getLast?.map SentMessage.seqId
  rest_nil : todo = [] → rest = 0
  rest_lt : ∀ current more, todo = current :: more → rest < current.pieces.length
  idle : rest = 0 → state.clientSegmentReassembler.lookup sending.key.1 = none
  assembly : ∀ current more, todo = current :: more → rest ≠ 0 → ∃ seenAt,
    state.clientSegmentReassembler.lookup sending.key.1 =
      some ⟨sending.key.2, current.metadata, (current.pieces.take rest).flatten, rest, seenAt⟩

lemma progress_new (sending : Sending codec) :
    Progress codec sending [] sending.messages 0 (new : WebsocketState Outgoing) where
  messages := rfl
  completed := rfl
  rest_nil := fun _ => rfl
  rest_lt := fun current _ hmessages => length_pos_of_ne_nil
    (sending.valid current (hmessages ▸ mem_cons_self)).ne_nil
  idle := fun _ => rfl
  assembly := fun _ _ _ hne => absurd rfl hne

/-- Other clients do not disturb the progress. -/
lemma Progress.of_sameFor {next : WebsocketState Outgoing}
    (h : Progress codec sending done todo rest state) (hsame : SameFor sending.key.1 state next) :
    Progress codec sending done todo rest next where
  messages := h.messages
  completed := (hsame.completed _).trans h.completed
  rest_nil := h.rest_nil
  rest_lt := h.rest_lt
  idle := fun hrest => hsame.assembly.trans (h.idle hrest)
  assembly := fun current more htodo hrest => by
    rw [hsame.assembly]
    exact h.assembly current more htodo hrest

variable {sent : SentMessage Message} {segmentId : ℕ} {cursor : Option Text} {wireSizeBytes : ℕ}

/-- A chunk of a message that has been delivered is dropped. -/
lemma Progress.receive_done (h : Progress codec sending done todo rest state) (hsent : sent ∈ done)
    (now : ℕ) :
    state.receive codec.toReading (sent.chunk codec sending.key segmentId cursor) wireSizeBytes now =
      (none, state) := by
  have hcompleted : state.isCompleted (sent.chunk codec sending.key segmentId cursor) = true := by
    obtain ⟨before, last, rfl⟩ := eq_nil_or_concat' done |>.resolve_left (ne_nil_of_mem hsent)
    have hlast : sent.seqId ≤ last.seqId := by
      rcases mem_append.1 hsent with hbefore | hlast
      · have hpairs := h.messages ▸ sending.increasing
        rw [List.append_assoc, pairwise_append] at hpairs
        exact (hpairs.2.2 sent hbefore last (by simp)).le
      · rw [mem_singleton.1 hlast]
    have hlookup := h.completed
    simp [isCompleted, clientMessageKey, SentMessage.chunk, hlookup, hlast]
  simp [receive, observeClientMessage, hcompleted]

/-- A chunk that the assembly has is dropped. -/
lemma Progress.receive_assembled (h : Progress codec sending done (current :: more) rest state)
    (hsegment : segmentId < rest) (now : ℕ) :
    state.receive codec.toReading (current.chunk codec sending.key segmentId cursor) wireSizeBytes
      now = (none, state) := by
  obtain ⟨seenAt, hlookup⟩ := h.assembly current more rfl (by omega)
  have hassembled : state.isAssembled (current.chunk codec sending.key segmentId cursor) = true := by
    simp [isAssembled, SentMessage.chunk, Assemblies.shouldIgnoreChunk, hlookup,
      SentMessage.metadata, hsegment]
  simp [receive, observeClientMessage, hassembled]

/-- The assembly of a message with its first chunks. -/
def assemblyOf (stream : StreamId) (sent : SentMessage Message) (count seenAt : ℕ) :
    ClientSegmentAssembly :=
  ⟨stream, sent.metadata, (sent.pieces.take count).flatten, count, seenAt⟩

/-- The next chunk of a message extends its assembly; the last one completes it. -/
lemma append_assemblyOf (hvalid : sent.Valid codec) (hsegment : segmentId < sent.pieces.length)
    (stream : StreamId) (seenAt now : ℕ) :
    (assemblyOf stream sent segmentId seenAt).append codec.toReading sent.metadata
        (codec.encodeBase64 (sent.pieces[segmentId]?.getD [])) now =
      (if segmentId + 1 < sent.pieces.length then .pending else .complete sent.message,
        assemblyOf stream sent (segmentId + 1) now) := by
  have hraw : (sent.pieces.take segmentId).flatten ++ sent.pieces[segmentId] =
      (sent.pieces.take (segmentId + 1)).flatten := by
    rw [take_add_one, getElem?_eq_getElem hsegment, flatten_append]
    simp
  have hroom : ¬ (sent.pieces.take segmentId).flatten.length + sent.pieces[segmentId].length >
      sent.pieces.flatten.length := by
    rw [← length_append, hraw, not_lt]
    have hsplit := congrArg (fun pieces => pieces.flatten.length)
      (take_append_drop (segmentId + 1) sent.pieces)
    simp only [flatten_append, length_append] at hsplit
    omega
  rw [getElem?_eq_getElem hsegment, Option.getD_some, ClientSegmentAssembly.append,
    codec.decode_encode]
  simp only [assemblyOf, SentMessage.metadata, if_neg hroom, hraw]
  split_ifs with hmore hlength
  · rfl
  · exfalso
    rw [take_of_length_le (not_lt.1 hmore)] at hlength
    exact hlength rfl
  · rw [take_of_length_le (not_lt.1 hmore), hvalid.flatten, codec.fromSlice_toVec]

section

variable (h : Progress codec sending done (current :: more) rest state)
include h

/-- The next chunk finds the assembly open. -/
lemma Progress.lookup_openAssembly (now : ℕ) :
    ∃ seenAt, (state.clientSegmentReassembler.openAssembly sending.key.1 sending.key.2
      current.metadata now).lookup sending.key.1 =
        some (assemblyOf sending.key.2 current rest seenAt) := by
  unfold Assemblies.openAssembly
  by_cases hrest : rest = 0
  · subst hrest
    refine ⟨now, ?_⟩
    rw [h.idle rfl]
    rw [AList.lookup_insert]
    rfl
  · obtain ⟨seenAt, hlookup⟩ := h.assembly current more rfl hrest
    refine ⟨seenAt, ?_⟩
    rw [hlookup]
    dsimp only
    rw [if_neg (not_not.2 rfl), hlookup]
    rfl

/-- What the reassembler does with the next chunk. -/
lemma Progress.observeChunk (cursor : Option Text) (now : ℕ) :
    let observed := state.clientSegmentReassembler.observeChunk codec.toReading
      (current.chunk codec sending.key rest cursor) sending.key.2 current.metadata rest
      (codec.encodeBase64 (current.pieces[rest]?.getD [])) now
    if rest + 1 < current.pieces.length then
      observed.1 = .pending ∧
        observed.2.lookup sending.key.1 = some (assemblyOf sending.key.2 current (rest + 1) now)
    else
      observed.1 = .forward { current.chunk codec sending.key rest cursor with
        event := .clientMessage current.message } ∧ observed.2.lookup sending.key.1 = none := by
  obtain ⟨seenAt, hopen⟩ := h.lookup_openAssembly now
  have hvalid : current.Valid codec := sending.valid current (by simp [h.messages])
  have hlt := h.rest_lt current more rfl
  have hupdate : (assemblyOf sending.key.2 current rest seenAt).update codec.toReading
      current.metadata rest (codec.encodeBase64 (current.pieces[rest]?.getD [])) now =
        (if rest + 1 < current.pieces.length then .pending else .complete current.message,
          assemblyOf sending.key.2 current (rest + 1) now) := by
    rw [ClientSegmentAssembly.update, ← append_assemblyOf hvalid hlt sending.key.2 seenAt now]
    simp [assemblyOf]
  have hremove : ∀ (assemblies : Assemblies) (assembly : ClientSegmentAssembly),
      assemblies.lookup sending.key.1 = some assembly → assembly.streamId = sending.key.2 →
        (assemblies.removeAssembly sending.key.1 sending.key.2).lookup sending.key.1 = none := by
    intro assemblies assembly hlookup hstream
    rw [Assemblies.removeAssembly, if_pos (by simp [hlookup, hstream]), AList.lookup_erase]
  dsimp only [Assemblies.observeChunk, SentMessage.chunk] at hopen ⊢
  rw [hopen]
  dsimp only
  rw [hupdate]
  split_ifs with hmore
  · exact ⟨rfl, AList.lookup_insert _⟩
  · exact ⟨rfl, hremove _ _ (AList.lookup_insert _) rfl⟩

variable (hwire : wireSizeBytes ≤ segmentMaxBytes)
include hwire

/-- The next chunk reaches the reassembler. -/
lemma Progress.observeClientMessage (cursor : Option Text) (now : ℕ) :
    let observed := state.clientSegmentReassembler.observeChunk codec.toReading
      (current.chunk codec sending.key rest cursor) sending.key.2 current.metadata rest
      (codec.encodeBase64 (current.pieces[rest]?.getD [])) now
    state.observeClientMessage codec.toReading (current.chunk codec sending.key rest cursor)
      wireSizeBytes now = (observed.1, { state with clientSegmentReassembler := observed.2 }) := by
  have hvalid : current.Valid codec := sending.valid current (by simp [h.messages])
  have hlt := h.rest_lt current more rfl
  have hcompleted : state.isCompleted (current.chunk codec sending.key rest cursor) = false := by
    have hnewer : ∀ last, done.getLast? = some last → last.seqId < current.seqId := by
      intro last hlast
      have hpairs := h.messages ▸ sending.increasing
      exact (pairwise_append.1 hpairs).2.2 last (mem_of_getLast? hlast) current mem_cons_self
    have hlookup := h.completed
    cases hlast : done.getLast? with
    | none => simp [isCompleted, clientMessageKey, SentMessage.chunk, hlookup, hlast]
    | some last =>
      simp [isCompleted, clientMessageKey, SentMessage.chunk, hlookup, hlast, hnewer last hlast]
  have hnew : state.clientSegmentReassembler.shouldIgnoreChunk sending.key.1 sending.key.2
      current.seqId rest = false := by
    by_cases hrest : rest = 0
    · simp [Assemblies.shouldIgnoreChunk, h.idle hrest]
    · obtain ⟨seenAt, hlookup⟩ := h.assembly current more rfl hrest
      simp [Assemblies.shouldIgnoreChunk, hlookup, SentMessage.metadata]
  have hassembled : state.isAssembled (current.chunk codec sending.key rest cursor) = false := hnew
  have hinvalid : isInvalidChunk rest current.pieces.length current.pieces.flatten.length
      (codec.encodeBase64 (current.pieces[rest]?.getD [])) = false := by
    have hpiece := hvalid.pieces current.pieces[rest] (getElem_mem hlt)
    have hcount := hvalid.count
    have hpos := hvalid.pos
    have hsize := hvalid.size
    rw [isInvalidChunk, getElem?_eq_getElem hlt, Option.getD_some, hvalid.flatten]
    simp only [decide_eq_false_iff_not, not_or]
    exact ⟨by omega, by omega, by omega, by omega, by omega, hpiece⟩
  intro observed
  have hobserve : state.clientSegmentReassembler.observe codec.toReading
      (current.chunk codec sending.key rest cursor) now = observed := by
    simp only [Assemblies.observe, SentMessage.chunk, hnew, hinvalid]
    rfl
  rw [WebsocketState.observeClientMessage, hcompleted, hassembled, hobserve,
    if_neg Bool.false_ne_true, if_neg Bool.false_ne_true, if_neg (by omega)]

/-- **The next chunk.**  It extends the assembly; if it is the last one its message is forwarded. -/
lemma Progress.receive_next (now : ℕ) :
    let received := state.receive codec.toReading (current.chunk codec sending.key rest cursor)
      wireSizeBytes now
    if rest + 1 < current.pieces.length then
      received.1 = none ∧ Progress codec sending done (current :: more) (rest + 1) received.2
    else
      received.1 = some { current.chunk codec sending.key rest cursor with
        event := .clientMessage current.message } ∧
        Progress codec sending (done ++ [current]) more 0 received.2 := by
  have hobserve := h.observeClientMessage hwire cursor now
  have hchunk := h.observeChunk cursor now
  dsimp only at hobserve hchunk ⊢
  rw [receive, hobserve]
  dsimp only
  split_ifs with hmore
  · rw [if_pos hmore] at hchunk
    rw [hchunk.1]
    refine ⟨rfl, h.messages, h.completed, fun hnil => absurd hnil nofun, ?_, nofun, ?_⟩
    · rintro _ _ ⟨⟩
      exact hmore
    · rintro _ _ ⟨⟩ -
      exact ⟨now, hchunk.2⟩
  · rw [if_neg hmore] at hchunk
    rw [hchunk.1]
    refine ⟨rfl, by simp [h.messages], ?_, fun _ => rfl, fun next later hmessages => ?_,
      fun _ => hchunk.2, fun _ _ _ hne => absurd rfl hne⟩
    · rw [getLast?_concat]
      exact AList.lookup_insert _
    · refine length_pos_of_ne_nil (sending.valid next ?_).ne_nil
      simp [h.messages, hmessages]

end

end WebsocketState

/-! ### Whole runs -/

section

variable {messages done todo : List (SentMessage Message)} {sent : SentMessage Message}
  {position segmentId : ℕ}

/-- The number of chunks of some messages. -/
def chunkCount (messages : List (SentMessage Message)) : ℕ :=
  (messages.map fun sent => sent.pieces.length).sum

lemma length_chunksOf (messages : List (SentMessage Message)) :
    (chunksOf messages).length = chunkCount messages := by
  simp [chunksOf, chunkCount]

lemma mem_of_getElem?_chunksOf (h : (chunksOf messages)[position]? = some (sent, segmentId)) :
    sent ∈ messages := by
  obtain ⟨other, hother, hpair⟩ := mem_flatMap.1 (mem_of_getElem? h)
  obtain ⟨_, -, hpair⟩ := mem_map.1 hpair
  obtain ⟨rfl, -⟩ := Prod.mk.inj hpair
  exact hother

/-- A position is in one of the first messages or among the chunks of the others. -/
lemma getElem?_chunksOf_append (h : (chunksOf (done ++ todo))[position]? = some (sent, segmentId)) :
    (position < chunkCount done ∧ sent ∈ done) ∨ (chunkCount done ≤ position ∧
        (chunksOf todo)[position - chunkCount done]? = some (sent, segmentId)) := by
  rw [chunksOf, flatMap_append, ← chunksOf, ← chunksOf] at h
  rcases lt_or_ge position (chunkCount done) with hlt | hge
  · rw [getElem?_append_left (length_chunksOf done ▸ hlt)] at h
    exact .inl ⟨hlt, mem_of_getElem?_chunksOf h⟩
  · rw [getElem?_append_right (length_chunksOf done ▸ hge), length_chunksOf] at h
    exact .inr ⟨hge, h⟩

lemma getElem?_chunksOf_cons (hlt : position < current.pieces.length)
    (h : (chunksOf (current :: more))[position]? = some (sent, segmentId)) :
    sent = current ∧ segmentId = position := by
  rw [chunksOf, flatMap_cons, getElem?_append_left (by simpa using hlt),
    getElem?_map, getElem?_range hlt] at h
  obtain ⟨hsent, hsegment⟩ := Prod.mk.inj (Option.some.inj h)
  exact ⟨hsent.symm, hsegment.symm⟩

lemma completed_append {rest : ℕ} (hnil : todo = [] → rest = 0)
    (hlt : ∀ current more, todo = current :: more → rest < current.pieces.length) :
    completed (done ++ todo) (chunkCount done + rest) = done := by
  induction done with
  | nil =>
    cases todo with
    | nil => rfl
    | cons current more =>
      have := hlt current more rfl
      rw [nil_append, completed, if_neg]
      simp only [chunkCount, map_nil, sum_nil]
      omega
  | cons sent done ih =>
    have hcount : chunkCount (sent :: done) = sent.pieces.length + chunkCount done := by
      simp [chunkCount]
    rw [cons_append, completed, if_pos (by omega), hcount, Nat.add_assoc,
      Nat.add_sub_cancel_left, ih]

end

variable {codec : Codec Message} {sending : Sending codec} {others : Finset ClientId}

/-- What is forwarded for a client: stream, number and event. -/
def forwardedFor (clientId : ClientId) (forwarded : List (ClientEnvelope Message)) :
    List (Option StreamId × Option ℕ × ClientEvent Message) :=
  (forwarded.filter fun envelope => envelope.clientId = clientId).map fun envelope =>
    (envelope.streamId, envelope.seqId, envelope.event)

/-- The messages as they are forwarded. -/
def asForwarded (stream : StreamId) (messages : List (SentMessage Message)) :
    List (Option StreamId × Option ℕ × ClientEvent Message) :=
  messages.map fun sent => (some stream, some sent.seqId, .clientMessage sent.message)

/-- What holds when the first `high` chunks of the sender have arrived. -/
structure Follows (sending : Sending codec) (others : Finset ClientId) (high : ℕ)
    (run : List (ClientEnvelope Message) × WebsocketState Outgoing) : Prop where
  clients : ∀ clientId, (run.2.clientSegmentReassembler.lookup clientId).isSome →
    clientId ∈ insert sending.key.1 others
  progress : ∃ done todo rest, WebsocketState.Progress codec sending done todo rest run.2 ∧
    high = chunkCount done + rest ∧
    forwardedFor sending.key.1 run.1 = asForwarded sending.key.2 done

variable {run : List (ClientEnvelope Message) × WebsocketState Outgoing}

lemma Follows.room {high : ℕ} (h : Follows sending others high run) (hothers : others.card < 127) :
    run.2.clientSegmentReassembler.entries.length < segmentAssemblyMaxCount := by
  refine length_lt_of_forall_mem h.clients ?_
  have hcard := Finset.card_insert_le sending.key.1 others
  simp only [segmentAssemblyMaxCount]
  omega

/-- The clients with an assembly stay the same, up to the one of the envelope. -/
lemma Follows.clients_receive {high : ℕ} (h : Follows sending others high run)
    (hothers : others.card < 127)
    {envelope : ClientEnvelope Message} (henvelope : envelope.clientId ∈ insert sending.key.1 others)
    (wireSizeBytes now : ℕ) (clientId : ClientId)
    (hsome : ((run.2.receive codec.toReading envelope wireSizeBytes
      now).2.clientSegmentReassembler.lookup clientId).isSome) :
    clientId ∈ insert sending.key.1 others := by
  rcases eq_or_ne clientId envelope.clientId with rfl | hne
  · exact henvelope
  · have hsame := (@sameFor_receive _ _ codec.toReading _ _ _ (h.room hothers) hne
      wireSizeBytes now).1
    exact h.clients clientId (hsame.assembly ▸ hsome)

lemma receiveAll_concat (reading : Reading Message) (arrivals : List (Incoming Message))
    (incoming : Incoming Message) :
    (receiveAll reading (arrivals ++ [incoming]) :
      List (ClientEnvelope Message) × WebsocketState Outgoing) =
      let run := receiveAll reading arrivals
      let received := run.2.receive reading incoming.envelope incoming.wireSizeBytes incoming.now
      (run.1 ++ received.1.toList, received.2) := by
  simp [receiveAll]

lemma forwardedFor_append (clientId : ClientId) (forwarded more : List (ClientEnvelope Message)) :
    forwardedFor clientId (forwarded ++ more) =
      forwardedFor clientId forwarded ++ forwardedFor clientId more := by
  simp [forwardedFor]

variable {high : ℕ} {incoming : Incoming Message} (h : Follows sending others high run)
include h

/-- An envelope of another client. -/
lemma Follows.receive_other (hothers : others.card < 127)
    (hsender : sending.key.1 ∉ others) (hclient : incoming.envelope.clientId ∈ others) :
    let received := run.2.receive codec.toReading incoming.envelope incoming.wireSizeBytes incoming.now
    Follows sending others high (run.1 ++ received.1.toList, received.2) := by
  obtain ⟨done, todo, rest, hprogress, hhigh, hforwarded⟩ := h.progress
  have hne : sending.key.1 ≠ incoming.envelope.clientId := fun heq => hsender (heq ▸ hclient)
  obtain ⟨hsame, hid⟩ := @sameFor_receive _ _ codec.toReading _ _ _
    (h.room hothers) hne incoming.wireSizeBytes incoming.now
  refine ⟨h.clients_receive hothers (Finset.mem_insert_of_mem hclient) _ _, done, todo, rest,
    hprogress.of_sameFor hsame, hhigh, ?_⟩
  rw [forwardedFor_append, hforwarded]
  have hnone : forwardedFor sending.key.1 (run.2.receive codec.toReading incoming.envelope
      incoming.wireSizeBytes incoming.now).1.toList = [] := by
    cases hreceived : (run.2.receive codec.toReading incoming.envelope incoming.wireSizeBytes
        incoming.now).1 with
    | none => rfl
    | some forwarded =>
      have hother : forwarded.clientId ≠ sending.key.1 := hid forwarded hreceived ▸ hne.symm
      simp [forwardedFor, hother]
  rw [hnone, append_nil]

/-- A chunk of the sender: one that has come before, or the next one. -/
lemma Follows.receive_own (hothers : others.card < 127)
    {position segmentId : ℕ} {sent : SentMessage Message} {cursor : Option Text}
    (hposition : position ≤ high)
    (hchunk : (chunksOf sending.messages)[position]? = some (sent, segmentId))
    (henvelope : incoming.envelope = sent.chunk codec sending.key segmentId cursor)
    (hwire : incoming.wireSizeBytes ≤ segmentMaxBytes) :
    let received := run.2.receive codec.toReading incoming.envelope incoming.wireSizeBytes incoming.now
    Follows sending others (max high (position + 1)) (run.1 ++ received.1.toList, received.2) := by
  obtain ⟨done, todo, rest, hprogress, rfl, hforwarded⟩ := h.progress
  have hclient : incoming.envelope.clientId ∈ insert sending.key.1 others := by
    simp [henvelope, SentMessage.chunk]
  have hclients := h.clients_receive hothers hclient incoming.wireSizeBytes incoming.now
  rw [hprogress.messages] at hchunk
  rw [henvelope] at hclients ⊢
  -- A chunk that changes nothing.
  have hsame : position < chunkCount done + rest →
      run.2.receive codec.toReading (sent.chunk codec sending.key segmentId cursor)
        incoming.wireSizeBytes incoming.now = (none, run.2) →
      Follows sending others (max (chunkCount done + rest) (position + 1))
        (run.1 ++ (run.2.receive codec.toReading (sent.chunk codec sending.key segmentId cursor)
          incoming.wireSizeBytes incoming.now).1.toList, (run.2.receive codec.toReading
            (sent.chunk codec sending.key segmentId cursor) incoming.wireSizeBytes
              incoming.now).2) := by
    intro hlt hreceive
    rw [hreceive, max_eq_left hlt]
    simpa using h
  rcases getElem?_chunksOf_append hchunk with ⟨hlt, hdone⟩ | ⟨hge, hchunk⟩
  · exact hsame (by omega) (hprogress.receive_done hdone incoming.now)
  · cases todo with
    | nil => exact absurd hchunk (by simp [chunksOf])
    | cons current more =>
      have hrest := hprogress.rest_lt current more rfl
      obtain ⟨rfl, rfl⟩ := getElem?_chunksOf_cons (by omega) hchunk
      rcases Nat.lt_or_ge position (chunkCount done + rest) with hlt | hnext
      · exact hsame hlt (hprogress.receive_assembled (by omega) incoming.now)
      · obtain rfl : position = chunkCount done + rest := by omega
        have hreceive := @WebsocketState.Progress.receive_next _ _ _ _ _ _ _ _ _ cursor _
          hprogress hwire incoming.now
        rw [Nat.add_sub_cancel_left] at hclients ⊢
        rw [max_eq_right (Nat.le_succ _)]
        dsimp only at hreceive ⊢
        refine ⟨hclients, ?_⟩
        split_ifs at hreceive with hmore
        · refine ⟨done, sent :: more, rest + 1, hreceive.2, rfl, ?_⟩
          rw [hreceive.1, Option.toList_none, append_nil, hforwarded]
        · refine ⟨done ++ [sent], more, 0, hreceive.2, ?_, ?_⟩
          · simp only [chunkCount, map_append, sum_append, map_cons, map_nil, sum_cons, sum_nil]
            omega
          · rw [hreceive.1, forwardedFor_append, hforwarded, asForwarded, asForwarded, map_append]
            simp [forwardedFor, SentMessage.chunk]

omit h

lemma follows_receiveAll (hothers : others.card < 127) (hsender : sending.key.1 ∉ others)
    {arrivals : List (Incoming Message)} (h : Wire sending others high arrivals) :
    Follows sending others high (receiveAll codec.toReading arrivals :
        List (ClientEnvelope Message) × WebsocketState Outgoing) := by
  induction h with
  | nil =>
    exact ⟨fun clientId hsome => absurd hsome (by simp [receiveAll, WebsocketState.new]), [],
      sending.messages, 0, progress_new sending, rfl, rfl⟩
  | own _ hposition hchunk henvelope hwire ih =>
    rw [receiveAll_concat]
    exact ih.receive_own hothers hposition hchunk henvelope hwire
  | other _ hclient ih =>
    rw [receiveAll_concat]
    exact ih.receive_other hothers hsender hclient

/-- **Segmented messages are delivered once under replay.**  Whatever is sent again and whatever the
other clients send, what is forwarded for the sender are exactly the messages whose chunks have all
arrived, in order; these are all messages once all chunks have arrived. -/
theorem segmented_exactly_once (Outgoing : Type) (codec : Codec Message) (sending : Sending codec)
    (others : Finset ClientId) (hothers : others.card < 127) (hsender : sending.key.1 ∉ others)
    (high : ℕ) (arrivals : List (Incoming Message)) (h : Wire sending others high arrivals) :
    forwardedFor sending.key.1 (receiveAll codec.toReading arrivals :
          List (ClientEnvelope Message) × WebsocketState Outgoing).1 =
      asForwarded sending.key.2 (completed sending.messages high) ∧
    (high = chunkCount sending.messages → completed sending.messages high = sending.messages) := by
  have hfollows : Follows sending others high (receiveAll codec.toReading arrivals :
      List (ClientEnvelope Message) × WebsocketState Outgoing) :=
    follows_receiveAll hothers hsender h
  obtain ⟨done, todo, rest, hprogress, rfl, hforwarded⟩ := hfollows.progress
  refine ⟨?_, fun hall => ?_⟩
  · rw [hforwarded, hprogress.messages, completed_append hprogress.rest_nil hprogress.rest_lt]
  · have hdone := @completed_append _ sending.messages [] 0 (fun _ => rfl) nofun
    rwa [append_nil, Nat.add_zero, ← hall] at hdone

/-- Bytes as characters. -/
def byteCodec : Codec Bytes where
  decodeBase64 text := some (text.map fun c => UInt8.ofNat c.toNat)
  fromSlice := some
  encodeBase64 bytes := bytes.map fun byte => Char.ofNat byte.toNat
  toVec bytes := bytes
  decode_encode bytes := by
    have hbyte : ∀ byte : UInt8, UInt8.ofNat (Char.ofNat byte.toNat).toNat = byte := by
      intro byte
      have hlt := byte.toNat_lt
      rw [Char.toNat_ofNat, if_pos (.inl (by omega)), UInt8.ofNat_toNat]
    rw [List.map_map]
    exact congrArg some ((List.map_congr_left fun byte _ => hbyte byte).trans (List.map_id' bytes))
  fromSlice_toVec _ := rfl

/-- One message of three bytes in two chunks. -/
def twoChunks : Sending byteCodec where
  key := ("c".toList, "s".toList)
  messages := [⟨5, [1, 2, 3], [[1, 2], [3]]⟩]
  valid sent hsent := by
    obtain rfl := List.mem_singleton.1 hsent
    constructor <;> decide
  increasing := List.pairwise_singleton _ _

/-- The first chunk, a ping of another client, the first chunk again, then the rest twice. -/
def replayed : List (Incoming Bytes) :=
  let sent : SentMessage Bytes := ⟨5, [1, 2, 3], [[1, 2], [3]]⟩
  let chunk := fun segmentId => sent.chunk byteCodec twoChunks.key segmentId none
  [⟨chunk 0, 100, 1⟩, ⟨⟨.ping, "d".toList, none, none, none⟩, 10, 2⟩, ⟨chunk 0, 100, 3⟩,
    ⟨chunk 1, 100, 4⟩, ⟨chunk 0, 100, 5⟩, ⟨chunk 1, 100, 6⟩]

theorem segmented_exactly_once_replayed : forwardedFor "c".toList
        (receiveAll byteCodec.toReading replayed :
          List (ClientEnvelope Bytes) × WebsocketState Unit).1 =
      [(some "s".toList, some 5, .clientMessage [1, 2, 3])] := by
  have hwire : Wire twoChunks {"d".toList} 2 replayed := by
    have hown := fun {high arrivals incoming} position =>
      @Wire.own _ _ twoChunks {"d".toList} high arrivals position position
        ⟨5, [1, 2, 3], [[1, 2], [3]]⟩ none incoming
    have hfirst := @hown 0 [] ⟨_, 100, 1⟩ 0 .nil le_rfl rfl rfl (by decide)
    have hping := @Wire.other _ _ twoChunks {"d".toList} _ _
      ⟨⟨.ping, "d".toList, none, none, none⟩, 10, 2⟩ hfirst (by decide)
    have hagain := @hown _ _ ⟨_, 100, 3⟩ 0 hping (by decide) rfl rfl (by decide)
    have hsecond := @hown _ _ ⟨_, 100, 4⟩ 1 hagain (by decide) rfl rfl (by decide)
    have hback := @hown _ _ ⟨_, 100, 5⟩ 0 hsecond (by decide) rfl rfl (by decide)
    exact @hown _ _ ⟨_, 100, 6⟩ 1 hback (by decide) rfl rfl (by decide)
  exact (segmented_exactly_once Unit byteCodec twoChunks {"d".toList} (by decide) (by decide) 2
    replayed hwire).1

end TokenCode.RemoteControl
