/-
The state behind the websocket of remote control
(`app-server-transport/src/transport/remote_control/websocket.rs`).

It outlives connections: what has been sent and not been acknowledged, the next sequence number of
each stream, and which client messages have been delivered. The reader handles what clients send
(`WebsocketState.receive`).
-/
import TokenCode.RemoteControl.Reassembler

namespace TokenCode.RemoteControl

variable {Message Outgoing : Type}

/-- `usize::MAX`, on a machine of 64 bits. -/
def maxUsize : ℕ := 2 ^ 64 - 1

/-- A stream of a client. -/
abbrev StreamKey := ClientId × StreamId

/-! ### The outbound buffer -/

/-- `BoundedOutboundBuffer`. -/
structure BoundedOutboundBuffer (Outgoing : Type) where
  bufferByStream : AList fun _ : StreamKey => List (ServerEnvelope Outgoing)
  used : ℕ

namespace BoundedOutboundBuffer

def new : BoundedOutboundBuffer Outgoing := ⟨∅, 0⟩

/-- The stream to which an envelope belongs. -/
def keyOf (envelope : ServerEnvelope Outgoing) : StreamKey := (envelope.clientId, envelope.streamId)

/-- What is buffered for a stream. -/
def stream (buffer : BoundedOutboundBuffer Outgoing) (key : StreamKey) :
    List (ServerEnvelope Outgoing) :=
  (buffer.bufferByStream.lookup key).getD []

def insert (buffer : BoundedOutboundBuffer Outgoing) (envelope : ServerEnvelope Outgoing) :
    BoundedOutboundBuffer Outgoing :=
  { bufferByStream := buffer.bufferByStream.insert (keyOf envelope)
      (buffer.stream (keyOf envelope) ++ [envelope])
    used := buffer.used + 1 }

/-- The position of an envelope among those of its stream. -/
def cursorOf (envelope : ServerEnvelope Outgoing) : ℕ ×ₗ ℕ :=
  toLex (envelope.seqId, envelope.event.segmentId.getD 0)

/-- The position up to which an acknowledgement reaches. -/
def ackedCursor (ackedSeqId : ℕ) (ackedSegmentId : Option ℕ) : ℕ ×ₗ ℕ :=
  toLex (ackedSeqId, ackedSegmentId.getD maxUsize)

def ack (buffer : BoundedOutboundBuffer Outgoing) (key : StreamKey) (ackedSeqId : ℕ)
    (ackedSegmentId : Option ℕ) : BoundedOutboundBuffer Outgoing :=
  match buffer.bufferByStream.lookup key with
  | none => buffer
  | some envelopes =>
    let acked := envelopes.filter fun envelope =>
      cursorOf envelope ≤ ackedCursor ackedSeqId ackedSegmentId
    let retained := envelopes.filter fun envelope =>
      ¬ cursorOf envelope ≤ ackedCursor ackedSeqId ackedSegmentId
    { bufferByStream :=
        if retained = [] then buffer.bufferByStream.erase key
        else buffer.bufferByStream.insert key retained
      used := buffer.used - acked.length }

end BoundedOutboundBuffer

/-! ### The state -/

structure WebsocketState (Outgoing : Type) where
  outboundBuffer : BoundedOutboundBuffer Outgoing
  subscribeCursor : Option Text
  nextSeqIdByStream : AList fun _ : StreamKey => ℕ
  lastCompletedClientChunkSeqIdByStream : AList fun _ : ClientId × Option StreamId => ℕ
  clientSegmentReassembler : Assemblies

/-- `client_message_key`. -/
def clientMessageKey (envelope : ClientEnvelope Message) :
    Option ((ClientId × Option StreamId) × ℕ) :=
  match envelope.event, envelope.seqId with
  | .clientMessageChunk _ _ _ _, some seqId => some ((envelope.clientId, envelope.streamId), seqId)
  | _, _ => none

namespace WebsocketState

def new : WebsocketState Outgoing := ⟨.new, none, ∅, ∅, ∅⟩

/-- Whether the message of a chunk has been delivered. -/
def isCompleted (state : WebsocketState Outgoing) (envelope : ClientEnvelope Message) : Bool :=
  (clientMessageKey envelope).any fun key =>
    (state.lastCompletedClientChunkSeqIdByStream.lookup key.1).any fun last => last ≥ key.2

/-- Whether the assembly of the client has the chunk already. -/
def isAssembled (state : WebsocketState Outgoing) (envelope : ClientEnvelope Message) : Bool :=
  match envelope.event, envelope.seqId, envelope.streamId with
  | .clientMessageChunk segmentId _ _ _, some seqId, some streamId =>
    state.clientSegmentReassembler.shouldIgnoreChunk envelope.clientId streamId seqId segmentId
  | _, _, _ => false

/-- `observe_client_message`. -/
def observeClientMessage (reading : Reading Message) (state : WebsocketState Outgoing)
    (envelope : ClientEnvelope Message) (wireSizeBytes now : ℕ) :
    ClientSegmentObservation Message × WebsocketState Outgoing :=
  if state.isCompleted envelope then (.dropped, state)
  else if state.isAssembled envelope then (.dropped, state)
  else if (clientMessageKey envelope).isSome ∧ wireSizeBytes > segmentMaxBytes then
    match envelope.streamId with
    | some streamId =>
      (.dropped, { state with
        clientSegmentReassembler :=
          state.clientSegmentReassembler.removeAssembly envelope.clientId streamId })
    | none => (.dropped, state)
  else
    let observed := state.clientSegmentReassembler.observe reading envelope now
    (observed.1, { state with clientSegmentReassembler := observed.2 })

/-- The acknowledgement in `record_client_message_delivery`. -/
def recordAck (buffer : BoundedOutboundBuffer Outgoing) (envelope : ClientEnvelope Message) :
    BoundedOutboundBuffer Outgoing :=
  match envelope.event, envelope.seqId, envelope.streamId with
  | .ack segmentId, some ackedSeqId, some streamId =>
    buffer.ack (envelope.clientId, streamId) ackedSeqId segmentId
  | _, _, _ => buffer

/-- `record_client_message_delivery`. -/
def recordClientMessageDelivery (state : WebsocketState Outgoing)
    (envelope : ClientEnvelope Message) (key : Option ((ClientId × Option StreamId) × ℕ)) :
    WebsocketState Outgoing :=
  { state with
    subscribeCursor := envelope.cursor.or state.subscribeCursor
    lastCompletedClientChunkSeqIdByStream :=
      match key with
      | some key => state.lastCompletedClientChunkSeqIdByStream.insert key.1 key.2
      | none => state.lastCompletedClientChunkSeqIdByStream
    outboundBuffer := recordAck state.outboundBuffer envelope }

/-- What the reader forgets about a client that has closed. -/
def forgetClosed (state : WebsocketState Outgoing) (clientId : ClientId) :
    Option StreamId → WebsocketState Outgoing
  | some streamId =>
    { state with
      clientSegmentReassembler := state.clientSegmentReassembler.removeAssembly clientId streamId
      lastCompletedClientChunkSeqIdByStream :=
        state.lastCompletedClientChunkSeqIdByStream.erase (clientId, some streamId) }
  | none =>
    { state with
      clientSegmentReassembler := state.clientSegmentReassembler.invalidateClient clientId
      lastCompletedClientChunkSeqIdByStream :=
        (state.lastCompletedClientChunkSeqIdByStream.keys.filter fun key =>
          key.1 = clientId).foldl (fun map key => map.erase key)
            state.lastCompletedClientChunkSeqIdByStream }

/-- One envelope in `run_websocket_reader_inner`: what is forwarded, and the new state. -/
def receive (reading : Reading Message) (state : WebsocketState Outgoing)
    (envelope : ClientEnvelope Message) (wireSizeBytes now : ℕ) :
    Option (ClientEnvelope Message) × WebsocketState Outgoing :=
  let observed := state.observeClientMessage reading envelope wireSizeBytes now
  match observed.1 with
  | .pending | .dropped => (none, observed.2)
  | .forward forwarded =>
    let delivered := observed.2.recordClientMessageDelivery forwarded (clientMessageKey envelope)
    match forwarded.event with
    | .clientClosed => (some forwarded, delivered.forgetClosed forwarded.clientId forwarded.streamId)
    | _ => (some forwarded, delivered)

end WebsocketState

end TokenCode.RemoteControl
