/-
The envelopes of remote control (`app-server-transport/src/transport/remote_control/protocol.rs`).

A client and the app server exchange envelopes over a websocket. A message that is too long for one
envelope is cut into chunks, which share its sequence number and count their segments.
-/
import TokenCode.Lib.Text

namespace TokenCode.RemoteControl

abbrev Bytes := List UInt8

abbrev ClientId := Text

abbrev StreamId := Text

inductive ClientEvent (Message : Type) where
  | clientMessage (message : Message)
  | clientMessageChunk (segmentId segmentCount messageSizeBytes : ℕ) (messageChunkBase64 : Text)
  | ack (segmentId : Option ℕ)
  | ping
  | clientClosed
deriving DecidableEq, Repr

structure ClientEnvelope (Message : Type) where
  event : ClientEvent Message
  clientId : ClientId
  streamId : Option StreamId
  seqId : Option ℕ
  cursor : Option Text
deriving DecidableEq, Repr

inductive PongStatus where
  | active
  | unknown
deriving DecidableEq, Repr

inductive ServerEvent (Outgoing : Type) where
  | serverMessage (message : Outgoing)
  | serverMessageChunk (segmentId segmentCount messageSizeBytes : ℕ) (messageChunkBase64 : Text)
  | ack
  | pong (status : PongStatus)
deriving DecidableEq, Repr

/-- `ServerEvent::segment_id`. -/
def ServerEvent.segmentId {Outgoing : Type} : ServerEvent Outgoing → Option ℕ
  | serverMessageChunk segmentId _ _ _ => some segmentId
  | serverMessage _ | ack | pong _ => none

structure ServerEnvelope (Outgoing : Type) where
  event : ServerEvent Outgoing
  clientId : ClientId
  streamId : StreamId
  seqId : ℕ
deriving DecidableEq, Repr

/-- `REMOTE_CONTROL_SEGMENT_TARGET_BYTES`. -/
def segmentTargetBytes : ℕ := 100 * 1024

/-- `REMOTE_CONTROL_SEGMENT_MAX_BYTES`. -/
def segmentMaxBytes : ℕ := 150 * 1024

/-- `REMOTE_CONTROL_REASSEMBLED_MAX_BYTES`. -/
def reassembledMaxBytes : ℕ := 100 * 1024 * 1024

/-- `REMOTE_CONTROL_SEGMENT_COUNT_MAX`. -/
def segmentCountMax : ℕ := 1024

/-- `REMOTE_CONTROL_SEGMENT_ASSEMBLY_MAX_COUNT`. -/
def segmentAssemblyMaxCount : ℕ := 128

end TokenCode.RemoteControl
