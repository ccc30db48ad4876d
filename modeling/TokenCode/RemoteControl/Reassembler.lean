/-
Client messages are put together from their chunks
(`app-server-transport/src/transport/remote_control/segment.rs`).

There is at most one assembly for each client. Chunks that it has already are ignored; a chunk that
does not fit drops it. When there are too many assemblies the oldest are evicted.
-/
import TokenCode.RemoteControl.Protocol

namespace TokenCode.RemoteControl

variable {Message : Type}

/-- Base64 and the JSON of messages, as they are read. -/
structure Reading (Message : Type) where
  decodeBase64 : Text → Option Bytes
  fromSlice : Bytes → Option Message

structure ClientSegmentMetadata where
  seqId : ℕ
  segmentCount : ℕ
  messageSizeBytes : ℕ
deriving DecidableEq, Repr

structure ClientSegmentAssembly where
  streamId : StreamId
  metadata : ClientSegmentMetadata
  raw : Bytes
  nextSegmentId : ℕ
  lastChunkSeenAt : ℕ
deriving DecidableEq, Repr

/-- `ClientSegmentReassembler`: the assemblies by their clients. -/
abbrev Assemblies := AList fun _ : ClientId => ClientSegmentAssembly

inductive ClientSegmentObservation (Message : Type) where
  | forward (envelope : ClientEnvelope Message)
  | pending
  | dropped
deriving DecidableEq, Repr

inductive AssemblyUpdate (Message : Type) where
  | pending
  | ignore
  | drop
  | complete (message : Message)
deriving DecidableEq, Repr

namespace Assemblies

/-- `should_ignore_chunk`. -/
def shouldIgnoreChunk (assemblies : Assemblies) (clientId : ClientId) (streamId : StreamId)
    (seqId segmentId : ℕ) : Bool :=
  (assemblies.lookup clientId).any fun assembly =>
    assembly.streamId = streamId ∧ (seqId < assembly.metadata.seqId ∨
      (seqId = assembly.metadata.seqId ∧ segmentId < assembly.nextSegmentId))

/-- `remove_assembly`, also `invalidate_stream`. -/
def removeAssembly (assemblies : Assemblies) (clientId : ClientId) (streamId : StreamId) :
    Assemblies :=
  if (assemblies.lookup clientId).any fun assembly => assembly.streamId = streamId then
    assemblies.erase clientId
  else assemblies

/-- `invalidate_client`. -/
def invalidateClient (assemblies : Assemblies) (clientId : ClientId) : Assemblies :=
  assemblies.erase clientId

/-- The loop of `evict_assemblies_if_full`, which removes one assembly in each round. -/
def evict : ℕ → Assemblies → Assemblies
  | 0, assemblies => assemblies
  | rounds + 1, assemblies =>
    if assemblies.entries.length ≥ segmentAssemblyMaxCount then
      match assemblies.entries.argmin fun entry => entry.2.lastChunkSeenAt with
      | none => assemblies
      | some oldest => evict rounds (assemblies.erase oldest.1)
    else assemblies

/-- `evict_assemblies_if_full`. -/
def evictAssembliesIfFull (assemblies : Assemblies) : Assemblies :=
  evict assemblies.entries.length assemblies

/-- The assembly of the client, a new one if it has none for the stream. -/
def openAssembly (assemblies : Assemblies) (clientId : ClientId) (streamId : StreamId)
    (metadata : ClientSegmentMetadata) (now : ℕ) : Assemblies :=
  let fresh : ClientSegmentAssembly := ⟨streamId, metadata, [], 0, now⟩
  match assemblies.lookup clientId with
  | some assembly =>
    if assembly.streamId ≠ streamId then assemblies.insert clientId fresh else assemblies
  | none => assemblies.evictAssembliesIfFull.insert clientId fresh

end Assemblies

/-- A chunk that is refused whatever the assembly is. -/
def isInvalidChunk (segmentId segmentCount messageSizeBytes : ℕ) (messageChunkBase64 : Text) :
    Bool :=
  segmentCount = 0 ∨ segmentCount > segmentCountMax ∨ segmentId ≥ segmentCount ∨
    messageSizeBytes = 0 ∨ messageSizeBytes > reassembledMaxBytes ∨ messageChunkBase64 = []

/-- The next chunk joins an assembly. Decoding fails if there is no room for the bytes. -/
def ClientSegmentAssembly.append (reading : Reading Message) (assembly : ClientSegmentAssembly)
    (metadata : ClientSegmentMetadata) (messageChunkBase64 : Text) (now : ℕ) :
    AssemblyUpdate Message × ClientSegmentAssembly :=
  match reading.decodeBase64 messageChunkBase64 with
  | none => (.drop, assembly)
  | some chunk =>
    if assembly.raw.length + chunk.length > metadata.messageSizeBytes then (.drop, assembly)
    else
      let next : ClientSegmentAssembly :=
        { assembly with
          raw := assembly.raw ++ chunk
          nextSegmentId := assembly.nextSegmentId + 1
          lastChunkSeenAt := now }
      if next.nextSegmentId < metadata.segmentCount then (.pending, next)
      else if next.raw.length ≠ metadata.messageSizeBytes then (.drop, next)
      else
        match reading.fromSlice next.raw with
        | some message => (.complete message, next)
        | none => (.drop, next)

/-- What a chunk does to the assembly of its client. -/
def ClientSegmentAssembly.update (reading : Reading Message) (assembly : ClientSegmentAssembly)
    (metadata : ClientSegmentMetadata) (segmentId : ℕ) (messageChunkBase64 : Text) (now : ℕ) :
    AssemblyUpdate Message × ClientSegmentAssembly :=
  if metadata.seqId < assembly.metadata.seqId then (.ignore, assembly)
  else if assembly.metadata ≠ metadata then (.drop, assembly)
  else if segmentId < assembly.nextSegmentId then (.pending, assembly)
  else if segmentId ≠ assembly.nextSegmentId then (.drop, assembly)
  else assembly.append reading metadata messageChunkBase64 now

/-- The rest of `observe` for a valid chunk. -/
def Assemblies.observeChunk (reading : Reading Message) (assemblies : Assemblies)
    (envelope : ClientEnvelope Message) (streamId : StreamId) (metadata : ClientSegmentMetadata)
    (segmentId : ℕ) (messageChunkBase64 : Text) (now : ℕ) :
    ClientSegmentObservation Message × Assemblies :=
  let opened := assemblies.openAssembly envelope.clientId streamId metadata now
  match opened.lookup envelope.clientId with
  | none => (.dropped, opened)
  | some assembly =>
    let updated := assembly.update reading metadata segmentId messageChunkBase64 now
    let kept : Assemblies := opened.insert envelope.clientId updated.2
    match updated.1 with
    | .pending => (.pending, kept)
    | .ignore => (.dropped, kept)
    | .drop => (.dropped, kept.removeAssembly envelope.clientId streamId)
    | .complete message =>
      (.forward { envelope with event := .clientMessage message },
        kept.removeAssembly envelope.clientId streamId)

/-- `ClientSegmentReassembler::observe`. -/
def Assemblies.observe (reading : Reading Message) (assemblies : Assemblies)
    (envelope : ClientEnvelope Message) (now : ℕ) :
    ClientSegmentObservation Message × Assemblies :=
  match envelope.event, envelope.seqId, envelope.streamId with
  | .clientMessageChunk segmentId segmentCount messageSizeBytes messageChunkBase64, some seqId,
      some streamId =>
    if assemblies.shouldIgnoreChunk envelope.clientId streamId seqId segmentId then
      (.dropped, assemblies)
    else if isInvalidChunk segmentId segmentCount messageSizeBytes messageChunkBase64 then
      (.dropped, assemblies.removeAssembly envelope.clientId streamId)
    else
      assemblies.observeChunk reading envelope streamId ⟨seqId, segmentCount, messageSizeBytes⟩
        segmentId messageChunkBase64 now
  | .clientMessageChunk _ _ _ _, _, _ => (.dropped, assemblies)
  | _, _, _ => (.forward envelope, assemblies)

end TokenCode.RemoteControl
