/-
Remote-control output can be resumed, and where its numbers have holes.

A system is the state behind the websocket with everything that has been put on the wire. Events are
queued, clients acknowledge what they have received, and connections break and are made again.

As long as clients acknowledge only what they have been sent, the buffer of a stream holds what has
been sent and not been acknowledged, in order, and the counter is its size. The numbers on the wire
then follow each other without a hole exactly if no event that was dropped as too long was queued
before one that was sent (`outbound_iff`): such an event takes a number that never appears
(`dropped_event_leaves_hole`).
-/
import TokenCode.RemoteControl.Split

namespace TokenCode.RemoteControl

open List WebsocketState BoundedOutboundBuffer

variable {Message Outgoing : Type}

/-! ### The writer -/

/-- `QueuedServerEnvelope`. -/
structure QueuedServerEnvelope (Outgoing : Type) where
  event : ServerEvent Outgoing
  clientId : ClientId
  streamId : StreamId

/-- An event that has got a number, with the envelopes that are sent for it. -/
structure SentEvent (Outgoing : Type) where
  key : StreamKey
  seqId : ℕ
  envelopes : List (ServerEnvelope Outgoing)

/-- `CHANNEL_CAPACITY`. -/
def channelCapacity : ℕ := 128

namespace WebsocketState

/-- The next number of a stream. -/
def nextSeqId (state : WebsocketState Outgoing) (key : StreamKey) : ℕ :=
  (state.nextSeqIdByStream.lookup key).getD 1

/-- One event in `run_server_writer_inner`. If it cannot be split it does not take its number. -/
def enqueue (writing : Writing Outgoing) (state : WebsocketState Outgoing)
    (queued : QueuedServerEnvelope Outgoing) :
    Option (SentEvent Outgoing) × WebsocketState Outgoing :=
  let key := (queued.clientId, queued.streamId)
  let seqId := state.nextSeqId key
  match splitServerEnvelopeForTransport writing
      ⟨queued.event, queued.clientId, queued.streamId, seqId⟩ with
  | .error _ =>
    (none, { state with nextSeqIdByStream := state.nextSeqIdByStream.insert key seqId })
  | .ok envelopes =>
    let written := envelopes.filter fun envelope => (writing.envelopeJson envelope).toBool
    (some ⟨key, seqId, written⟩,
      { state with
        outboundBuffer := written.foldl BoundedOutboundBuffer.insert state.outboundBuffer
        nextSeqIdByStream := state.nextSeqIdByStream.insert key (seqId + 1) })

end WebsocketState

/-! ### The system -/

/-- The acknowledgement that an envelope carries. -/
def ackOf (envelope : ClientEnvelope Message) : Option (StreamKey × (ℕ ×ₗ ℕ)) :=
  match envelope.event, envelope.seqId, envelope.streamId with
  | .ack segmentId, some ackedSeqId, some streamId =>
    some ((envelope.clientId, streamId), BoundedOutboundBuffer.ackedCursor ackedSeqId segmentId)
  | _, _, _ => none

/-- The state, whether there is a connection, everything that was put on the wire, the events that
have got numbers, the acknowledgements that have come, and whether each of them was honest. -/
structure System (Outgoing : Type) where
  state : WebsocketState Outgoing
  connected : Bool
  wire : List (ServerEnvelope Outgoing)
  events : List (SentEvent Outgoing)
  acks : List (StreamKey × (ℕ ×ₗ ℕ))
  honest : Prop

namespace System

open BoundedOutboundBuffer (keyOf cursorOf)

def start : System Outgoing := ⟨.new, false, [], [], [], True⟩

/-- What was sent on a stream, in order. -/
def sentTo (system : System Outgoing) (key : StreamKey) : List (ServerEnvelope Outgoing) :=
  (system.events.filter fun event => event.key = key).flatMap SentEvent.envelopes

/-- What was put on the wire for a stream. -/
def onWire (system : System Outgoing) (key : StreamKey) : List (ServerEnvelope Outgoing) :=
  system.wire.filter fun envelope => keyOf envelope = key

/-- No acknowledgement has reached this position of the stream. -/
def Unacked (acks : List (StreamKey × (ℕ ×ₗ ℕ))) (key : StreamKey)
    (envelope : ServerEnvelope Outgoing) : Prop :=
  ∀ ack ∈ acks, ack.1 = key → ack.2 < cursorOf envelope

instance (acks : List (StreamKey × (ℕ ×ₗ ℕ))) (key : StreamKey)
    (envelope : ServerEnvelope Outgoing) : Decidable (Unacked acks key envelope) :=
  inferInstanceAs (Decidable (∀ ack ∈ acks, ack.1 = key → ack.2 < cursorOf envelope))

/-- A client acknowledges what it has received: the number has been given, and the envelopes that
it covers have been put on the wire. -/
def Honest (system : System Outgoing) (ack : StreamKey × (ℕ ×ₗ ℕ)) : Prop :=
  (ofLex ack.2).1 < system.state.nextSeqId ack.1 ∧
    ∀ envelope ∈ system.state.outboundBuffer.stream ack.1, cursorOf envelope ≤ ack.2 →
      envelope ∈ system.wire

/-- A new connection sends what is buffered, in any order of the streams; while it lasts, events are
sent as long as there is room. It may break at any moment, and then only some envelopes have been
written. Envelopes of clients may come at any time. -/
inductive Step (writing : Writing Outgoing) (reading : Reading Message) :
    System Outgoing → System Outgoing → Prop
  | connect (system : System Outgoing) (order : List ((_ : StreamKey) × List (ServerEnvelope Outgoing)))
      (written : ℕ) (horder : order.Perm system.state.outboundBuffer.bufferByStream.entries) :
      Step writing reading system { system with
        wire := system.wire ++ (order.flatMap fun entry => entry.2).take written
        connected := (order.flatMap fun entry => entry.2).length ≤ written }
  | disconnect (system : System Outgoing) :
      Step writing reading system { system with connected := false }
  | queue (system : System Outgoing) (queued : QueuedServerEnvelope Outgoing) (written : ℕ)
      (hconnected : system.connected = true)
      (hroom : system.state.outboundBuffer.used < channelCapacity) :
      Step writing reading system
        (let enqueued := system.state.enqueue writing queued
        let envelopes := enqueued.1.toList.flatMap SentEvent.envelopes
        { system with
          state := enqueued.2
          connected := envelopes.length ≤ written
          wire := system.wire ++ envelopes.take written
          events := system.events ++ enqueued.1.toList })
  | receive (system : System Outgoing) (envelope : ClientEnvelope Message) (wireSizeBytes now : ℕ) :
      Step writing reading system { system with
        state := (system.state.receive reading envelope wireSizeBytes now).2
        acks := system.acks ++ (ackOf envelope).toList
        honest := system.honest ∧ ∀ ack, ackOf envelope = some ack → system.Honest ack }

inductive Reachable (writing : Writing Outgoing) (reading : Reading Message) : System Outgoing → Prop
  | start : Reachable writing reading start
  | step {system next : System Outgoing} : Reachable writing reading system →
      Step writing reading system next → Reachable writing reading next

end System

/-! ### The buffer -/

variable {order : List ((_ : StreamKey) × List (ServerEnvelope Outgoing))}

namespace BoundedOutboundBuffer

variable {buffer : BoundedOutboundBuffer Outgoing} {key : StreamKey}

/-- All envelopes that are buffered. -/
def total (buffer : BoundedOutboundBuffer Outgoing) : ℕ :=
  (buffer.bufferByStream.entries.map fun entry => entry.2.length).sum

variable (buffer) (envelope : ServerEnvelope Outgoing) (key)

lemma stream_insert : (buffer.insert envelope).stream key =
      buffer.stream key ++ if keyOf envelope = key then [envelope] else [] := by
  unfold insert stream
  split_ifs with heq
  · subst heq
    rw [AList.lookup_insert]
    rfl
  · rw [AList.lookup_insert_ne (Ne.symm heq), append_nil]

/-- The total, split at one stream. -/
lemma total_eq : buffer.total = (buffer.stream key).length +
      ((buffer.bufferByStream.erase key).entries.map fun entry => entry.2.length).sum := by
  unfold total stream
  cases hlookup : buffer.bufferByStream.lookup key with
  | none =>
    have herase : (buffer.bufferByStream.erase key).entries = buffer.bufferByStream.entries :=
      kerase_of_notMem_keys (AList.lookup_eq_none.1 hlookup)
    rw [herase]
    simp
  | some envelopes => exact sum_map_kerase List.length hlookup

lemma total_insert : (buffer.insert envelope).total = buffer.total + 1 := by
  rw [buffer.total_eq (keyOf envelope)]
  have hentries : (buffer.insert envelope).bufferByStream.entries =
      ⟨keyOf envelope, buffer.stream (keyOf envelope) ++ [envelope]⟩ ::
        (buffer.bufferByStream.erase (keyOf envelope)).entries := rfl
  rw [total, hentries, map_cons, sum_cons, length_append, length_singleton]
  omega

lemma foldl_insert (envelopes : List (ServerEnvelope Outgoing))
    (buffer : BoundedOutboundBuffer Outgoing) (key : StreamKey)
    (henvelopes : ∀ envelope ∈ envelopes, keyOf envelope = key) :
    let after := envelopes.foldl insert buffer
    after.used = buffer.used + envelopes.length ∧ after.total = buffer.total + envelopes.length ∧
      (after.stream key = buffer.stream key ++ envelopes) ∧
      ∀ other ≠ key, after.stream other = buffer.stream other := by
  induction envelopes generalizing buffer with
  | nil => simp
  | cons envelope envelopes ih =>
    obtain ⟨hused, htotal, hstream, hother⟩ :=
      ih (buffer.insert envelope) (forall_mem_cons.1 henvelopes).2
    have hkey := henvelopes envelope mem_cons_self
    dsimp only at hused htotal hstream hother ⊢
    rw [foldl_cons, hused, htotal, hstream, total_insert, stream_insert, if_pos hkey]
    refine ⟨?_, ?_, by simp, fun other hne => ?_⟩
    · simp only [insert, length_cons]
      omega
    · simp only [length_cons]
      omega
    · rw [hother other hne, stream_insert, if_neg (hkey ▸ hne.symm), append_nil]

/-- An acknowledgement removes what it covers on its stream. -/
lemma stream_ack (seqId : ℕ)
    (segmentId : Option ℕ) (other : StreamKey) : (buffer.ack key seqId segmentId).stream other =
      if other = key then (buffer.stream key).filter fun envelope =>
        ¬ cursorOf envelope ≤ ackedCursor seqId segmentId else buffer.stream other := by
  unfold ack
  split
  · next hnone =>
    split_ifs with heq
    · subst heq
      simp [stream, hnone]
    · rfl
  · next envelopes hsome =>
    have hstream : buffer.stream key = envelopes := by simp [stream, hsome]
    split_ifs with heq
    · subst heq
      rw [hstream]
      unfold stream
      dsimp only
      split_ifs with hempty
      · rw [AList.lookup_erase, hempty]
        rfl
      · rw [AList.lookup_insert]
        rfl
    · unfold stream
      dsimp only
      split_ifs with hempty
      · rw [AList.lookup_erase_ne heq]
      · rw [AList.lookup_insert_ne heq]

variable {buffer}

lemma used_ack (h : buffer.used = buffer.total) (key : StreamKey) (seqId : ℕ)
    (segmentId : Option ℕ) :
    (buffer.ack key seqId segmentId).used = (buffer.ack key seqId segmentId).total := by
  have hstream := buffer.stream_ack key seqId segmentId key
  have htotal := (buffer.ack key seqId segmentId).total_eq key
  have hbefore := buffer.total_eq key
  rw [if_pos rfl] at hstream
  rw [hstream] at htotal
  have hrest : ((buffer.ack key seqId segmentId).bufferByStream.erase key).entries =
      (buffer.bufferByStream.erase key).entries := by
    unfold ack
    split
    · rfl
    · dsimp only
      split_ifs with hempty
      · exact kerase_of_notMem_keys fun hmem =>
          (AList.mem_erase.1 (AList.mem_keys.2 hmem)).1 rfl
      · exact kerase_cons_eq rfl
  have hused : (buffer.ack key seqId segmentId).used = buffer.used -
      ((buffer.stream key).filter fun envelope =>
        cursorOf envelope ≤ ackedCursor seqId segmentId).length := by
    unfold ack stream
    split
    · next hnone => simp [hnone]
    · next envelopes hsome => simp [hsome]
  have hparts := length_eq_length_filter_add
    (fun envelope => decide (cursorOf envelope ≤ ackedCursor seqId segmentId)) (l := buffer.stream key)
  simp only [← decide_not] at hparts
  rw [hused, htotal, hrest]
  omega

/-- Envelopes are buffered under their own streams. -/
def WellKeyed (entries : List ((_ : StreamKey) × List (ServerEnvelope Outgoing))) : Prop :=
  ∀ entry ∈ entries, ∀ envelope ∈ entry.2, keyOf envelope = entry.1

lemma filter_flatMap {entries : List ((_ : StreamKey) × List (ServerEnvelope Outgoing))}
    (hnodup : entries.NodupKeys) (hkeyed : WellKeyed entries) (key : StreamKey) :
    ((entries.flatMap fun entry => entry.2).filter fun envelope => keyOf envelope = key) =
      (entries.dlookup key).getD [] := by
  induction entries with
  | nil => rfl
  | cons entry entries ih =>
    obtain ⟨other, envelopes⟩ := entry
    rw [nodupKeys_cons] at hnodup
    have hrest := ih hnodup.2 (forall_mem_cons.1 hkeyed).2
    have hhead : ∀ envelope ∈ envelopes, keyOf envelope = other :=
      hkeyed ⟨other, envelopes⟩ mem_cons_self
    rw [flatMap_cons, filter_append, hrest]
    by_cases heq : key = other
    · subst heq
      rw [dlookup_cons_eq, dlookup_eq_none.2 hnodup.1]
      simp only [Option.getD_none, append_nil, Option.getD_some]
      exact filter_eq_self.2 fun envelope he => by simp [hhead envelope he]
    · have hnone : (envelopes.filter fun envelope => decide (keyOf envelope = key)) = [] :=
        filter_eq_nil_iff.2 fun envelope he => by simp [hhead envelope he, Ne.symm heq]
      rw [hnone, nil_append, dlookup_cons_ne _
        (⟨other, envelopes⟩ : (_ : StreamKey) × List (ServerEnvelope Outgoing)) heq]

/-- Whatever the order of the streams, a new connection sends the buffer of each stream. -/
lemma filter_resend (horder : order.Perm buffer.bufferByStream.entries)
    (hkeyed : WellKeyed buffer.bufferByStream.entries) (key : StreamKey) :
    ((order.flatMap fun entry => entry.2).filter fun envelope => keyOf envelope = key) =
      buffer.stream key := by
  have hnodup : order.NodupKeys := (perm_nodupKeys horder).2 buffer.bufferByStream.nodupKeys
  rw [filter_flatMap hnodup (fun entry he => hkeyed entry (horder.subset he)) key,
    perm_dlookup key hnodup horder]
  rfl

end BoundedOutboundBuffer

/-! ### What every run satisfies -/

variable {writing : Writing Outgoing} {reading : Reading Message}
  {incoming : ClientEnvelope Message}

namespace System

open BoundedOutboundBuffer (keyOf cursorOf ackedCursor)

variable {system next : System Outgoing} {key : StreamKey} {envelope : ServerEnvelope Outgoing}

/-- What is known about one stream. Its events are numbered from 1; acknowledgements name numbers
that were given; the buffer is what was sent and not been acknowledged; and what was put on the wire
is the beginning of what was sent, all of it while there is a connection. -/
structure StreamInvariant (system : System Outgoing) (key : StreamKey) : Prop where
  numbers : (system.events.filter fun event => event.key = key).map SentEvent.seqId =
    List.range' 1 (system.state.nextSeqId key - 1)
  pos : 1 ≤ system.state.nextSeqId key
  acks : ∀ ack ∈ system.acks, ack.1 = key → (ofLex ack.2).1 < system.state.nextSeqId key
  buffer : system.state.outboundBuffer.stream key =
    (system.sentTo key).filter fun envelope => Unacked system.acks key envelope
  wire : ∃ count ≤ (system.sentTo key).length,
    (∀ envelope, envelope ∈ system.onWire key ↔ envelope ∈ (system.sentTo key).take count) ∧
    (system.connected = true → count = (system.sentTo key).length) ∧
    ∀ envelope ∈ (system.sentTo key).drop count, Unacked system.acks key envelope

structure Invariant (system : System Outgoing) : Prop where
  events : ∀ event ∈ system.events, (∀ envelope ∈ event.envelopes,
    keyOf envelope = event.key ∧ envelope.seqId = event.seqId) ∧
      event.envelopes.Pairwise fun a b => cursorOf a < cursorOf b
  streams : ∀ key, system.StreamInvariant key
  used : system.state.outboundBuffer.used = system.state.outboundBuffer.total

lemma invariant_start : (start : System Outgoing).Invariant where
  events := by simp [start]
  streams := fun key => ⟨rfl, le_rfl, by simp [start], rfl, 0, le_rfl, by simp [start, onWire, sentTo],
    fun _ => rfl, by simp [start, sentTo]⟩
  used := rfl

lemma mem_sentTo : envelope ∈ system.sentTo key ↔
    ∃ event ∈ system.events, event.key = key ∧ envelope ∈ event.envelopes := by
  simp [sentTo, and_assoc]

section

variable (h : system.Invariant)
include h

lemma Invariant.keyOf_of_mem (henvelope : envelope ∈ system.sentTo key) : keyOf envelope = key := by
  obtain ⟨event, hevent, rfl, hmem⟩ := mem_sentTo.1 henvelope
  exact ((h.events event hevent).1 envelope hmem).1

variable (key : StreamKey)

/-- What is sent on a stream has increasing positions. -/
lemma Invariant.pairwise_sentTo :
    (system.sentTo key).Pairwise fun a b => cursorOf a < cursorOf b := by
  rw [sentTo, pairwise_flatMap]
  refine ⟨fun event hevent => (h.events event (mem_of_mem_filter hevent)).2, ?_⟩
  have hnumbers : ((system.events.filter fun event => event.key = key).map
      SentEvent.seqId).Pairwise (· < ·) := by
    rw [(h.streams key).numbers]
    exact pairwise_lt_range'
  refine (pairwise_map.1 hnumbers).imp_of_mem fun {a b} ha hb hlt x hx y hy => ?_
  refine Prod.Lex.toLex_lt_toLex.2 (.inl ?_)
  rw [((h.events a (mem_of_mem_filter ha)).1 x hx).2,
    ((h.events b (mem_of_mem_filter hb)).1 y hy).2]
  exact hlt

lemma Invariant.nodup_sentTo : (system.sentTo key).Nodup :=
  (h.pairwise_sentTo key).imp fun hlt => ne_of_apply_ne cursorOf hlt.ne

/-- Envelopes are buffered under their own streams. -/
lemma Invariant.wellKeyed : BoundedOutboundBuffer.WellKeyed
    system.state.outboundBuffer.bufferByStream.entries := by
  intro entry hentry envelope henvelope
  have hlookup : system.state.outboundBuffer.bufferByStream.lookup entry.1 = some entry.2 :=
    AList.mem_lookup_iff.2 hentry
  have hstream : system.state.outboundBuffer.stream entry.1 = entry.2 := by
    rw [BoundedOutboundBuffer.stream, hlookup, Option.getD_some]
  rw [← hstream, (h.streams entry.1).buffer] at henvelope
  exact h.keyOf_of_mem (mem_of_mem_filter henvelope)

end

lemma mem_onWire : envelope ∈ system.onWire key ↔ envelope ∈ system.wire ∧ keyOf envelope = key := by
  simp [onWire]

/-! ### Steps -/

/-- A piece of what is buffered that goes out extends what is on the wire. -/
lemma StreamInvariant.extend (h : system.StreamInvariant key)
    {piece : List (ServerEnvelope Outgoing)}
    (hpiece : piece <+: system.state.outboundBuffer.stream key) :
    ∃ count ≤ (system.sentTo key).length,
      (∀ envelope, envelope ∈ system.onWire key ∨ envelope ∈ piece ↔
        envelope ∈ (system.sentTo key).take count) ∧
      (piece = system.state.outboundBuffer.stream key → count = (system.sentTo key).length) ∧
      ∀ envelope ∈ (system.sentTo key).drop count, Unacked system.acks key envelope := by
  obtain ⟨count, hcount, hwire, -, hunacked⟩ := h.wire
  -- What is buffered are some envelopes that were on the wire, then those that were not.
  have hbuffer : system.state.outboundBuffer.stream key =
      ((system.sentTo key).take count).filter (fun envelope => Unacked system.acks key envelope) ++
        (system.sentTo key).drop count := by
    conv_lhs => rw [h.buffer, ← take_append_drop count (system.sentTo key), filter_append]
    congr 1
    exact filter_eq_self.2 fun envelope he => by simpa using hunacked envelope he
  set old := ((system.sentTo key).take count).filter
    (fun envelope => Unacked system.acks key envelope)
  have holdMem : ∀ envelope ∈ old, envelope ∈ (system.sentTo key).take count :=
    fun envelope he => mem_of_mem_filter he
  have hsplit : piece = old.take piece.length ++
      ((system.sentTo key).drop count).take (piece.length - old.length) := by
    rw [← take_append, ← hbuffer]
    exact prefix_iff_eq_take.1 hpiece
  have hlength := hpiece.length_le
  rw [hbuffer, length_append, length_drop] at hlength
  refine ⟨count + (piece.length - old.length), by omega, fun envelope => ?_, fun hall => ?_,
    fun envelope he => hunacked envelope ?_⟩
  · have hpieceMem : envelope ∈ piece ↔ envelope ∈ old.take piece.length ∨
        envelope ∈ ((system.sentTo key).drop count).take (piece.length - old.length) := by
      rw [← mem_append, ← hsplit]
    rw [take_add, mem_append, hwire, hpieceMem]
    constructor
    · rintro (hmem | hmem | hmem)
      · exact .inl hmem
      · exact .inl (holdMem envelope (mem_of_mem_take hmem))
      · exact .inr hmem
    · rintro (hmem | hmem)
      · exact .inl hmem
      · exact .inr (.inr hmem)
  · have hsame := congrArg List.length (hall.trans hbuffer)
    rw [length_append, length_drop] at hsame
    omega
  · rw [← drop_drop] at he
    exact mem_of_mem_drop he

lemma Invariant.connect (h : system.Invariant)
    (horder : order.Perm system.state.outboundBuffer.bufferByStream.entries) (written : ℕ) :
    { system with
      wire := system.wire ++ (order.flatMap fun entry => entry.2).take written
      connected := (order.flatMap fun entry => entry.2).length ≤ written :
        System Outgoing }.Invariant := by
  refine ⟨h.events, fun key => ?_, h.used⟩
  have hstream := h.streams key
  set resend := order.flatMap fun entry => entry.2
  have hfilter : (resend.filter fun envelope => decide (keyOf envelope = key)) =
      system.state.outboundBuffer.stream key :=
    filter_resend horder h.wellKeyed key
  obtain ⟨count, hcount, hwire, hall, hunacked⟩ :=
    hstream.extend (hfilter ▸ (List.take_prefix written resend).filter _)
  refine ⟨hstream.numbers, hstream.pos, hstream.acks, hstream.buffer, count, hcount,
    fun envelope => ?_, fun hconnected => hall ?_, hunacked⟩
  · refine Iff.trans ?_ (hwire envelope)
    rw [onWire, filter_append, mem_append]
    rfl
  · rw [take_of_length_le (of_decide_eq_true hconnected), hfilter]

lemma Invariant.disconnect (h : system.Invariant) :
    { system with connected := false : System Outgoing }.Invariant := by
  refine ⟨h.events, fun key => ?_, h.used⟩
  have hstream := h.streams key
  obtain ⟨count, hcount, hwire, -, hunacked⟩ := hstream.wire
  exact ⟨hstream.numbers, hstream.pos, hstream.acks, hstream.buffer, count, hcount, hwire, nofun,
    hunacked⟩

/-- What becomes of a queued event. -/
lemma enqueue_spec (writing : Writing Outgoing) (state : WebsocketState Outgoing)
    (queued : QueuedServerEnvelope Outgoing) :
    let enqueued := state.enqueue writing queued
    (enqueued.1 = none ∧ enqueued.2.outboundBuffer = state.outboundBuffer ∧
      ∀ key, enqueued.2.nextSeqId key = state.nextSeqId key) ∨
    ∃ event, enqueued.1 = some event ∧ event.seqId = state.nextSeqId event.key ∧
      (∀ envelope ∈ event.envelopes, keyOf envelope = event.key ∧ envelope.seqId = event.seqId) ∧
      event.envelopes.Pairwise (fun a b => cursorOf a < cursorOf b) ∧
      enqueued.2.outboundBuffer =
        event.envelopes.foldl BoundedOutboundBuffer.insert state.outboundBuffer ∧
      enqueued.2.nextSeqId event.key = state.nextSeqId event.key + 1 ∧
      ∀ key ≠ event.key, enqueued.2.nextSeqId key = state.nextSeqId key := by
  dsimp only [WebsocketState.enqueue]
  set stream : StreamKey := (queued.clientId, queued.streamId)
  split
  · refine .inl ⟨rfl, rfl, fun key => ?_⟩
    unfold nextSeqId
    dsimp only
    rcases eq_or_ne key stream with rfl | hne
    · rw [AList.lookup_insert]
      rfl
    · rw [AList.lookup_insert_ne hne]
  · next envelopes hsplit =>
    have hparts := (isSplitOf_split hsplit).sublist
      (filter_sublist (p := fun envelope => (writing.envelopeJson envelope).toBool))
    refine .inr ⟨_, rfl, rfl, fun envelope he => ⟨hparts.key envelope he, hparts.seqId envelope he⟩,
      hparts.cursor, rfl, ?_, fun key hne => ?_⟩
    · unfold nextSeqId
      dsimp only
      rw [AList.lookup_insert]
      rfl
    · unfold nextSeqId
      dsimp only
      rw [AList.lookup_insert_ne hne]

/-- The envelopes of a new event are not acknowledged yet. -/
lemma StreamInvariant.unacked_new (h : system.StreamInvariant key)
    (hseqId : envelope.seqId = system.state.nextSeqId key) : Unacked system.acks key envelope := by
  intro ack hack hkey
  have hlt := h.acks ack hack hkey
  refine Prod.Lex.lt_iff.2 (.inl ?_)
  change _ < envelope.seqId
  rw [hseqId]
  exact hlt

/-- A stream that is not touched. -/
lemma StreamInvariant.of_eq (h : system.StreamInvariant key)
    (hevents : (next.events.filter fun event => event.key = key) =
      system.events.filter fun event => event.key = key)
    (hnext : next.state.nextSeqId key = system.state.nextSeqId key)
    (hacks : ∀ ack, ack.1 = key → (ack ∈ next.acks ↔ ack ∈ system.acks))
    (hstream : next.state.outboundBuffer.stream key = system.state.outboundBuffer.stream key)
    (hwire : next.onWire key = system.onWire key)
    (hconnected : next.connected = true → system.connected = true) : next.StreamInvariant key := by
  have hsent : next.sentTo key = system.sentTo key := congrArg (List.flatMap _) hevents
  have hsame : ∀ envelope : ServerEnvelope Outgoing,
      Unacked next.acks key envelope ↔ Unacked system.acks key envelope := fun envelope =>
    ⟨fun hun ack hack hkey => hun ack ((hacks ack hkey).2 hack) hkey,
      fun hun ack hack hkey => hun ack ((hacks ack hkey).1 hack) hkey⟩
  obtain ⟨count, hcount, hwired, hall, hunacked⟩ := h.wire
  constructor
  case numbers => rw [hevents, hnext, h.numbers]
  case pos => exact hnext ▸ h.pos
  case acks => exact fun ack hack hkey => hnext ▸ h.acks ack ((hacks ack hkey).1 hack) hkey
  case buffer => simp only [hstream, hsent, hsame, h.buffer]
  case wire =>
    simp only [hsent, hsame, hwire]
    exact ⟨count, hcount, hwired, fun hnow => hall (hconnected hnow), hunacked⟩

/-- The stream of an event that is sent. -/
lemma StreamInvariant.send {event : SentEvent Outgoing} {written : ℕ}
    (h : system.StreamInvariant event.key) (hconnected : system.connected = true)
    (hseqId : event.seqId = system.state.nextSeqId event.key)
    (henvelopes : ∀ envelope ∈ event.envelopes,
      keyOf envelope = event.key ∧ envelope.seqId = event.seqId)
    (hevents : next.events = system.events ++ [event])
    (hnext : next.state.nextSeqId event.key = system.state.nextSeqId event.key + 1)
    (hacks : next.acks = system.acks) (hstream : next.state.outboundBuffer.stream event.key =
      system.state.outboundBuffer.stream event.key ++ event.envelopes)
    (hwire : next.wire = system.wire ++ event.envelopes.take written)
    (hnow : next.connected = true → event.envelopes.length ≤ written) :
    next.StreamInvariant event.key := by
  have hfilter : (next.events.filter fun other => other.key = event.key) =
      (system.events.filter fun other => other.key = event.key) ++ [event] := by
    simp [hevents]
  have hsent : next.sentTo event.key = system.sentTo event.key ++ event.envelopes := by
    rw [sentTo, hfilter, flatMap_append]
    simp [sentTo]
  have hnew : ∀ envelope ∈ event.envelopes, Unacked system.acks event.key envelope :=
    fun envelope he => h.unacked_new ((henvelopes envelope he).2.trans hseqId)
  obtain ⟨count, -, hwired, hall, -⟩ := h.wire
  obtain rfl := hall hconnected
  rw [take_length] at hwired
  have hlt := h.pos
  constructor
  case numbers =>
    have hrange : system.state.nextSeqId event.key + 1 - 1 =
        (system.state.nextSeqId event.key - 1) + 1 := by omega
    rw [hfilter, hnext, map_append, h.numbers, hrange, range'_1_concat]
    simp only [map_cons, map_nil, append_cancel_left_eq, cons.injEq, and_true]
    omega
  case pos => omega
  case acks =>
    intro ack hack hkey
    have := h.acks ack (hacks ▸ hack) hkey
    omega
  case buffer =>
    rw [hstream, hsent, hacks, h.buffer, filter_append]
    congr 1
    exact (filter_eq_self.2 fun envelope he => by simpa using hnew envelope he).symm
  case wire =>
    refine ⟨(system.sentTo event.key).length + min written event.envelopes.length, ?_, ?_, ?_, ?_⟩
    · rw [hsent, length_append]
      omega
    · intro envelope
      have htake : (next.sentTo event.key).take
          ((system.sentTo event.key).length + min written event.envelopes.length) =
            system.sentTo event.key ++ event.envelopes.take written := by
        rw [hsent, take_length_add_append, ← take_eq_take_min]
      rw [htake, mem_append, mem_onWire, hwire, mem_append, ← hwired, mem_onWire]
      constructor
      · rintro ⟨hold | hwritten, hkey⟩
        · exact .inl ⟨hold, hkey⟩
        · exact .inr hwritten
      · rintro (⟨hold, hkey⟩ | hwritten)
        · exact ⟨.inl hold, hkey⟩
        · exact ⟨.inr hwritten, (henvelopes envelope (mem_of_mem_take hwritten)).1⟩
    · intro hconnected
      have := hnow hconnected
      rw [hsent, length_append]
      omega
    · intro envelope he
      rw [hsent, drop_length_add_append] at he
      exact hacks ▸ hnew envelope (mem_of_mem_drop he)

lemma Invariant.queue (h : system.Invariant)
    (hconnected : system.connected = true) (queued : QueuedServerEnvelope Outgoing) (written : ℕ) :
    (let enqueued := system.state.enqueue writing queued
    let envelopes := enqueued.1.toList.flatMap SentEvent.envelopes
    { system with
      state := enqueued.2
      connected := envelopes.length ≤ written
      wire := system.wire ++ envelopes.take written
      events := system.events ++ enqueued.1.toList : System Outgoing }).Invariant := by
  have hspec := enqueue_spec writing system.state queued
  dsimp only at hspec ⊢
  rcases hspec with ⟨hnone, hbuffer, hnext⟩ |
    ⟨event, hsome, hseqId, henvelopes, hcursor, hbuffer, hnextKey, hnext⟩
  · rw [hnone]
    refine ⟨by simpa using h.events, fun key => ?_, by simpa only [hbuffer] using h.used⟩
    exact (h.streams key).of_eq (by simp) (hnext key) (by simp) (congrArg (·.stream key) hbuffer)
      (by simp [onWire]) fun _ => hconnected
  · obtain ⟨hused, htotal, hstream, hother⟩ := foldl_insert event.envelopes
      system.state.outboundBuffer event.key fun envelope he => (henvelopes envelope he).1
    rw [← hbuffer] at hused htotal hstream hother
    rw [hsome]
    simp only [Option.toList_some, flatMap_singleton]
    refine ⟨?_, fun key => ?_, by rw [hused, htotal, h.used]⟩
    · intro other hmem
      rcases mem_append.1 hmem with hold | hnew
      · exact h.events other hold
      · obtain rfl := mem_singleton.1 hnew
        exact ⟨henvelopes, hcursor⟩
    · rcases eq_or_ne key event.key with rfl | hne
      · exact (h.streams event.key).send hconnected hseqId henvelopes rfl hnextKey rfl hstream rfl
          of_decide_eq_true
      · refine (h.streams key).of_eq ?_ (hnext key hne) (by simp) (hother key hne) ?_ fun _ => hconnected
        · simp [hne.symm]
        · have hnone : ((event.envelopes.take written).filter fun envelope =>
              decide (keyOf envelope = key)) = [] :=
            filter_eq_nil_iff.2 fun envelope he => by
              simp [(henvelopes envelope (mem_of_mem_take he)).1, hne.symm]
          simp [onWire, hnone]

/-- What an observed chunk forwards is a message, and everything else is forwarded as it is. -/
lemma observe_forward {assemblies : Assemblies} {now : ℕ} (hkind : ackOf incoming = none)
    {forwarded : ClientEnvelope Message}
    (h : (assemblies.observe reading incoming now).1 = .forward forwarded) :
    ackOf forwarded = none := by
  unfold Assemblies.observe at h
  split at h
  · split_ifs at h
    unfold Assemblies.observeChunk at h
    dsimp only at h
    split at h
    · cases h
    · split at h
      · cases h
      · cases h
      · cases h
      · obtain rfl := ClientSegmentObservation.forward.inj h
        rfl
  · cases h
  · obtain rfl := ClientSegmentObservation.forward.inj h
    exact hkind

lemma recordAck_of_ackOf_none (h : ackOf incoming = none)
    (buffer : BoundedOutboundBuffer Outgoing) : recordAck buffer incoming = buffer := by
  unfold recordAck
  split
  · next hevent hseqId hstream => simp [ackOf, hevent, hseqId, hstream] at h
  · rfl

lemma observeClientMessage_outbound (reading : Reading Message) (state : WebsocketState Outgoing)
    (incoming : ClientEnvelope Message) (wireSizeBytes now : ℕ) :
    let observed := state.observeClientMessage reading incoming wireSizeBytes now
    observed.2.outboundBuffer = state.outboundBuffer ∧
      observed.2.nextSeqIdByStream = state.nextSeqIdByStream ∧
      (ackOf incoming = none → ∀ forwarded, observed.1 = .forward forwarded →
        ackOf forwarded = none) := by
  unfold observeClientMessage
  dsimp only
  split_ifs
  · exact ⟨rfl, rfl, fun _ _ h => nomatch h⟩
  · exact ⟨rfl, rfl, fun _ _ h => nomatch h⟩
  · split
    all_goals exact ⟨rfl, rfl, fun _ _ h => nomatch h⟩
  · exact ⟨rfl, rfl, fun hnone _ h => observe_forward hnone h⟩

/-- The reader changes of the outbound state only what an acknowledgement covers. -/
lemma receive_outbound (reading : Reading Message) (state : WebsocketState Outgoing)
    (incoming : ClientEnvelope Message) (wireSizeBytes now : ℕ) :
    let received := (state.receive reading incoming wireSizeBytes now).2
    received.outboundBuffer = recordAck state.outboundBuffer incoming ∧
      received.nextSeqIdByStream = state.nextSeqIdByStream := by
  cases hack : ackOf incoming with
  | some ack =>
    unfold ackOf at hack
    split at hack
    · next segmentId seqId streamId hevent hseqId hstream =>
      obtain ⟨event, clientId, stream, number, cursor⟩ := incoming
      dsimp only at hevent hseqId hstream
      subst hevent hseqId hstream
      exact ⟨rfl, rfl⟩
    · cases hack
  | none =>
    obtain ⟨hbuffer, hnext, hforward⟩ :=
      observeClientMessage_outbound reading state incoming wireSizeBytes now
    dsimp only at hbuffer hnext hforward ⊢
    rw [recordAck_of_ackOf_none hack]
    unfold WebsocketState.receive
    dsimp only
    split
    · exact ⟨hbuffer, hnext⟩
    · exact ⟨hbuffer, hnext⟩
    · next forwarded hobserved =>
      have hdelivered := recordAck_of_ackOf_none (hforward hack forwarded hobserved)
        state.outboundBuffer
      rw [← hbuffer] at hdelivered
      split
      · cases hstream : forwarded.streamId with
        | some _ | none => exact ⟨hdelivered.trans hbuffer, hnext⟩
      · exact ⟨hdelivered.trans hbuffer, hnext⟩

variable (h : system.Invariant)
include h

/-- The stream on which an acknowledgement comes. -/
lemma Invariant.streamAcked {ack : StreamKey × (ℕ ×ₗ ℕ)}
    (hhonest : system.Honest ack) (hevents : next.events = system.events)
    (hnext : next.state.nextSeqId ack.1 = system.state.nextSeqId ack.1)
    (hacks : next.acks = system.acks ++ [ack]) (hstream : next.state.outboundBuffer.stream ack.1 =
      (system.state.outboundBuffer.stream ack.1).filter fun envelope => ¬ cursorOf envelope ≤ ack.2)
    (hwire : next.wire = system.wire) (hconnected : next.connected = system.connected) :
    next.StreamInvariant ack.1 := by
  have hold := h.streams ack.1
  have hsent : next.sentTo ack.1 = system.sentTo ack.1 := by rw [sentTo, hevents, sentTo]
  have hon : next.onWire ack.1 = system.onWire ack.1 := by rw [onWire, hwire, onWire]
  have hunacked : ∀ envelope : ServerEnvelope Outgoing, Unacked next.acks ack.1 envelope ↔
      ¬ cursorOf envelope ≤ ack.2 ∧ Unacked system.acks ack.1 envelope := fun envelope => by
    simp only [Unacked, hacks, forall_mem_append, forall_mem_singleton, true_implies, not_le]
    exact and_comm
  obtain ⟨count, hcount, hwired, hall, hrest⟩ := hold.wire
  constructor
  case numbers => rw [hevents, hnext, hold.numbers]
  case pos => exact hnext ▸ hold.pos
  case acks =>
    intro other hother hkey
    rw [hnext]
    rw [hacks] at hother
    rcases mem_append.1 hother with hmem | hmem
    · exact hold.acks other hmem hkey
    · obtain rfl := mem_singleton.1 hmem
      exact hhonest.1
  case buffer =>
    rw [hstream, hold.buffer, hsent, filter_filter]
    refine filter_congr fun envelope _ => ?_
    rw [← Bool.decide_and]
    exact decide_eq_decide.2 (hunacked envelope).symm
  case wire =>
    rw [hsent, hon, hconnected]
    refine ⟨count, hcount, hwired, hall, fun envelope hmem => (hunacked envelope).2 ⟨?_, ?_⟩⟩
    · -- An envelope that was never written is not covered by an honest acknowledgement.
      intro hle
      have hsentTo := mem_of_mem_drop hmem
      have hbuffered : envelope ∈ system.state.outboundBuffer.stream ack.1 := by
        rw [hold.buffer, mem_filter]
        exact ⟨hsentTo, decide_eq_true (hrest envelope hmem)⟩
      have htaken := (hwired envelope).1
        (mem_onWire.2 ⟨hhonest.2 envelope hbuffered hle, h.keyOf_of_mem hsentTo⟩)
      exact disjoint_take_drop (h.nodup_sentTo ack.1) le_rfl htaken hmem
    · exact hrest envelope hmem

lemma Invariant.receive (incoming : ClientEnvelope Message) (wireSizeBytes now : ℕ)
    (hack : ∀ ack, ackOf incoming = some ack → system.Honest ack) (honest : Prop) : { system with
      state := (system.state.receive reading incoming wireSizeBytes now).2
      acks := system.acks ++ (ackOf incoming).toList
      honest : System Outgoing }.Invariant := by
  obtain ⟨hbuffer, hnumbers⟩ :=
    receive_outbound reading system.state incoming wireSizeBytes now
  have hnext : ∀ key, (system.state.receive reading incoming wireSizeBytes now).2.nextSeqId key =
      system.state.nextSeqId key := fun key => by
    rw [nextSeqId, hnumbers, nextSeqId]
  cases hincoming : ackOf incoming with
  | none =>
    rw [recordAck_of_ackOf_none hincoming] at hbuffer
    exact ⟨h.events, fun key => (h.streams key).of_eq rfl (hnext key) (by simp)
      (congrArg (·.stream key) hbuffer) rfl id, by simpa only [hbuffer] using h.used⟩
  | some ack =>
    obtain ⟨seqId, segmentId, hcursor, hrecord⟩ : ∃ seqId segmentId,
        ack.2 = ackedCursor seqId segmentId ∧
          recordAck system.state.outboundBuffer incoming =
            system.state.outboundBuffer.ack ack.1 seqId segmentId := by
      unfold ackOf at hincoming
      split at hincoming
      · next segmentId seqId streamId hevent hseqId hstream =>
        obtain rfl := Option.some.inj hincoming
        refine ⟨seqId, segmentId, rfl, ?_⟩
        unfold recordAck
        rw [hevent, hseqId, hstream]
      · cases hincoming
    rw [hrecord] at hbuffer
    have hstream : ∀ key, (system.state.receive reading incoming wireSizeBytes
        now).2.outboundBuffer.stream key = if key = ack.1 then
          (system.state.outboundBuffer.stream ack.1).filter fun envelope =>
            ¬ cursorOf envelope ≤ ack.2
        else system.state.outboundBuffer.stream key := fun key => by
      rw [hbuffer, stream_ack, hcursor]
    refine ⟨h.events, fun key => ?_, ?_⟩
    · rcases eq_or_ne key ack.1 with rfl | hne
      · exact h.streamAcked (hack ack hincoming) rfl (hnext ack.1) rfl
          ((hstream ack.1).trans (if_pos rfl)) rfl rfl
      · refine (h.streams key).of_eq rfl (hnext key) (fun other hother => ?_)
          ((hstream key).trans (if_neg hne)) rfl id
        have hdiff : other ≠ ack := fun heq => hne (heq ▸ hother.symm)
        simp [hdiff]
    · rw [hbuffer]
      exact used_ack h.used ack.1 seqId segmentId

lemma Invariant.step (hstep : Step writing reading system next) (hhonest : next.honest) :
    next.Invariant := by
  cases hstep with
  | connect order written horder => exact h.connect horder written
  | disconnect => exact h.disconnect
  | queue queued written hconnected _ => exact h.queue hconnected queued written
  | receive incoming wireSizeBytes now => exact h.receive incoming wireSizeBytes now hhonest.2 _

omit h

/-- An acknowledgement that was not honest is not forgotten. -/
lemma Step.honest (hstep : Step writing reading system next) (hhonest : next.honest) :
    system.honest := by
  cases hstep with
  | receive => exact hhonest.1
  | _ => exact hhonest

lemma Reachable.invariant (h : Reachable writing reading system) (hhonest : system.honest) :
    system.Invariant := by
  induction h with
  | start => exact invariant_start
  | step _ hstep ih => exact (ih (hstep.honest hhonest)).step hstep hhonest

/-! ### The numbers on the wire -/

/-- Every number below the next one was given to an event of the stream. -/
lemma StreamInvariant.exists_event (h : system.StreamInvariant key) {number : ℕ} :
    (∃ event ∈ system.events, event.key = key ∧ event.seqId = number) ↔
      1 ≤ number ∧ number < system.state.nextSeqId key := by
  have hmem : number ∈ (system.events.filter fun event => event.key = key).map SentEvent.seqId ↔
      1 ≤ number ∧ number < system.state.nextSeqId key := by
    rw [h.numbers, mem_range'_1]
    have := h.pos
    omega
  simpa [and_assoc] using hmem

/-- A number belongs to one event of the stream. -/
lemma StreamInvariant.event_unique (h : system.StreamInvariant key) {a b : SentEvent Outgoing}
    (ha : a ∈ system.events) (hb : b ∈ system.events) (hakey : a.key = key) (hbkey : b.key = key)
    (hseqId : a.seqId = b.seqId) : a = b := by
  have hnodup : ((system.events.filter fun event => event.key = key).map SentEvent.seqId).Nodup := by
    rw [h.numbers]
    exact nodup_range'
  exact inj_on_of_nodup_map hnodup (mem_filter.2 ⟨ha, decide_eq_true hakey⟩)
    (mem_filter.2 ⟨hb, decide_eq_true hbkey⟩) hseqId

/-- The event from which an envelope on the wire comes. -/
lemma Invariant.event_of_onWire (h : system.Invariant) (henvelope : envelope ∈ system.onWire key) :
    ∃ event ∈ system.events, event.key = key ∧ envelope ∈ event.envelopes ∧
      event.seqId = envelope.seqId := by
  obtain ⟨count, -, hwire, -⟩ := (h.streams key).wire
  obtain ⟨event, hevent, hkey, hmem⟩ :=
    mem_sentTo.1 (mem_of_mem_take ((hwire envelope).1 henvelope))
  exact ⟨event, hevent, hkey, hmem, ((h.events event hevent).1 envelope hmem).2.symm⟩

/-- Envelopes with smaller numbers than one on the wire are on the wire. -/
lemma Invariant.onWire_of_lt (h : system.Invariant) {top : ServerEnvelope Outgoing}
    (htop : top ∈ system.onWire key) (hsent : envelope ∈ system.sentTo key)
    (hlt : envelope.seqId < top.seqId) : envelope ∈ system.onWire key := by
  obtain ⟨count, -, hwire, -⟩ := (h.streams key).wire
  rw [hwire] at htop ⊢
  have hsorted := h.pairwise_sentTo key
  rw [← take_append_drop count (system.sentTo key), mem_append] at hsent
  rw [← take_append_drop count (system.sentTo key), pairwise_append] at hsorted
  rcases hsent with hmem | hmem
  · exact hmem
  · have hafter : top.seqId < envelope.seqId ∨ top.seqId = envelope.seqId ∧ _ :=
      Prod.Lex.toLex_lt_toLex.1 (hsorted.2.2 top htop envelope hmem)
    omega

/-- The numbers on the wire of a stream are those up to some last one. -/
def Contiguous (system : System Outgoing) (key : StreamKey) : Prop :=
  ∃ last, ∀ number, (∃ envelope ∈ system.onWire key, envelope.seqId = number) ↔
    1 ≤ number ∧ number ≤ last

lemma Invariant.contiguous_iff (h : system.Invariant) (key : StreamKey) :
    system.Contiguous key ↔ ∀ event ∈ system.events, event.key = key → event.envelopes = [] →
      ∀ envelope ∈ system.onWire key, envelope.seqId < event.seqId := by
  have hstream := h.streams key
  constructor
  · rintro ⟨last, hlast⟩ event hevent hkey hempty envelope henvelope
    by_contra hge
    -- The number of the empty event would be on the wire, but nothing was sent for it.
    have hpos := (hstream.exists_event.1 ⟨event, hevent, hkey, rfl⟩).1
    have hle := ((hlast envelope.seqId).1 ⟨envelope, henvelope, rfl⟩).2
    obtain ⟨other, hother, hnumber⟩ := (hlast event.seqId).2 ⟨hpos, by omega⟩
    obtain ⟨source, hsource, hsourceKey, hmem, hseqId⟩ := h.event_of_onWire hother
    obtain rfl := hstream.event_unique hsource hevent hsourceKey hkey (hseqId.trans hnumber)
    rw [hempty] at hmem
    exact not_mem_nil hmem
  · intro hdropped
    rcases eq_or_ne (system.onWire key) [] with hnil | hne
    · refine ⟨0, fun number => ?_⟩
      rw [hnil]
      simp only [not_mem_nil, false_and, exists_false, false_iff]
      omega
    · obtain ⟨top, hargmax⟩ := Option.ne_none_iff_exists'.1
        (mt (argmax_eq_none (f := ServerEnvelope.seqId)).1 hne)
      have htop := argmax_mem hargmax
      have hmax := fun envelope henvelope =>
        le_of_mem_argmax (a := envelope) henvelope hargmax
      refine ⟨top.seqId, fun number => ⟨?_, fun ⟨hpos, hle⟩ => ?_⟩⟩
      · rintro ⟨envelope, henvelope, rfl⟩
        obtain ⟨event, hevent, hkey, -, hseqId⟩ := h.event_of_onWire henvelope
        exact ⟨(hstream.exists_event.1 ⟨event, hevent, hkey, hseqId⟩).1, hmax envelope henvelope⟩
      · rcases hle.eq_or_lt with rfl | hlt
        · exact ⟨top, htop, rfl⟩
        · obtain ⟨last, hlast, hlastKey, -, hlastSeqId⟩ := h.event_of_onWire htop
          have hgiven := (hstream.exists_event.1 ⟨last, hlast, hlastKey, hlastSeqId⟩).2
          obtain ⟨event, hevent, hkey, rfl⟩ := hstream.exists_event.2 ⟨hpos, hlt.trans hgiven⟩
          obtain ⟨envelope, hmem⟩ := exists_mem_of_ne_nil event.envelopes fun hempty =>
            absurd (hdropped event hevent hkey hempty top htop) (by omega)
          have hnumber := ((h.events event hevent).1 envelope hmem).2
          exact ⟨envelope, h.onWire_of_lt htop (mem_sentTo.2 ⟨event, hevent, hkey, hmem⟩)
            (hnumber ▸ hlt), hnumber⟩

/-- Behind an event whose split is empty nothing of its stream was put on the wire. -/
def DroppedLast (system : System Outgoing) : Prop :=
  ∀ before event after, system.events = before ++ event :: after → event.envelopes = [] →
    ∀ later ∈ after, later.key = event.key → ∀ envelope ∈ later.envelopes, envelope ∉ system.wire

/-- The events of a stream are queued in the order of their numbers. -/
lemma StreamInvariant.pairwise_events (h : system.StreamInvariant key) :
    system.events.Pairwise fun a b => a.key = key → b.key = key → a.seqId < b.seqId := by
  have hnumbers : ((system.events.filter fun event => event.key = key).map
      SentEvent.seqId).Pairwise (· < ·) := by
    rw [h.numbers]
    exact pairwise_lt_range'
  rw [pairwise_map, pairwise_filter] at hnumbers
  exact hnumbers.imp fun hab ha hb => hab (decide_eq_true ha) (decide_eq_true hb)

lemma Invariant.droppedLast_iff (h : system.Invariant) :
    system.DroppedLast ↔ ∀ event ∈ system.events, event.envelopes = [] →
      ∀ envelope ∈ system.onWire event.key, envelope.seqId < event.seqId := by
  constructor
  · intro hlast event hevent hempty envelope henvelope
    obtain ⟨source, hsource, hkey, hmem, hseqId⟩ := h.event_of_onWire henvelope
    obtain ⟨before, after, hsplit⟩ := append_of_mem hevent
    have hordered := (h.streams event.key).pairwise_events
    rw [hsplit, pairwise_append] at hordered
    rw [hsplit, mem_append, mem_cons] at hsource
    rw [← hseqId]
    rcases hsource with hbefore | rfl | hafter
    · exact hordered.2.2 source hbefore event mem_cons_self hkey rfl
    · rw [hempty] at hmem
      exact absurd hmem not_mem_nil
    · exact absurd (mem_onWire.1 henvelope).1
        (hlast before event after hsplit hempty source hafter hkey envelope hmem)
  · intro hall before event after hsplit hempty later hlater hkey envelope hmem hwire
    have hordered := (h.streams event.key).pairwise_events
    rw [hsplit, pairwise_append, pairwise_cons] at hordered
    have hlt := hordered.2.1.1 later hlater rfl hkey
    have hparts := (h.events later (hsplit ▸ by simp [hlater])).1 envelope hmem
    have hle := hall event (hsplit ▸ by simp) hempty envelope
      (mem_onWire.2 ⟨hwire, hparts.1.trans hkey⟩)
    omega

/-- **Remote-control output can be resumed.**  As long as clients acknowledge only what they have been
sent, the buffer of a stream is what was sent and not been acknowledged, a new connection sends just
that, and the counter is right; and the numbers on the wire have no hole just in case no event whose
split is empty was queued before one that was sent. -/
theorem outbound_iff {writing : Writing Outgoing} {reading : Reading Message}
    (h : Reachable writing reading system) :
    let Resumable := (∀ key, system.Contiguous key) ∧
      (∀ key, system.state.outboundBuffer.stream key =
        (system.sentTo key).filter fun envelope => Unacked system.acks key envelope) ∧
      (∀ order : List ((_ : StreamKey) × List (ServerEnvelope Outgoing)),
        order.Perm system.state.outboundBuffer.bufferByStream.entries →
          ∀ key, ((order.flatMap fun entry => entry.2).filter fun envelope => keyOf envelope = key) =
            system.state.outboundBuffer.stream key) ∧
      system.state.outboundBuffer.used = system.state.outboundBuffer.total
    (system.honest ∧ system.DroppedLast → Resumable) ∧
      (system.honest → Resumable → system.DroppedLast) := by
  refine ⟨fun ⟨hhonest, hdropped⟩ => ?_, fun hhonest ⟨hcontiguous, _⟩ => ?_⟩
  · have hinv := h.invariant hhonest
    rw [hinv.droppedLast_iff] at hdropped
    refine ⟨fun key => (hinv.contiguous_iff key).2 ?_, fun key => (hinv.streams key).buffer,
      fun order horder key => filter_resend horder hinv.wellKeyed key,
      hinv.used⟩
    rintro event hevent rfl hempty
    exact hdropped event hevent hempty
  · have hinv := h.invariant hhonest
    refine hinv.droppedLast_iff.2 fun event hevent hempty => ?_
    exact (hinv.contiguous_iff event.key).1 (hcontiguous event.key) event hevent rfl hempty

/-! ### An event that is dropped -/

/-- An event that is sent while the connection holds. -/
lemma Reachable.send (h : Reachable writing reading system) (hconnected : system.connected = true)
    (hroom : system.state.outboundBuffer.used < channelCapacity) (event : ServerEvent Outgoing)
    (key : StreamKey) {envelopes : List (ServerEnvelope Outgoing)}
    (hsplit : splitServerEnvelopeForTransport writing
      ⟨event, key.1, key.2, system.state.nextSeqId key⟩ = .ok envelopes)
    (hjson : ∀ envelope ∈ envelopes, (writing.envelopeJson envelope).toBool) :
    ∃ next, Reachable writing reading next ∧ next.connected = true ∧
      next.wire = system.wire ++ envelopes ∧
      next.events = system.events ++ [⟨key, system.state.nextSeqId key, envelopes⟩] ∧
      next.state.nextSeqId key = system.state.nextSeqId key + 1 ∧
      next.state.outboundBuffer.used = system.state.outboundBuffer.used + envelopes.length ∧
      next.honest = system.honest := by
  have hstep : Step writing reading system _ :=
    .queue system ⟨event, key.1, key.2⟩ envelopes.length hconnected hroom
  have henqueued : system.state.enqueue writing ⟨event, key.1, key.2⟩ =
      (some ⟨key, system.state.nextSeqId key, envelopes⟩, { system.state with
        outboundBuffer := envelopes.foldl BoundedOutboundBuffer.insert system.state.outboundBuffer
        nextSeqIdByStream := system.state.nextSeqIdByStream.insert key
          (system.state.nextSeqId key + 1) }) := by
    unfold WebsocketState.enqueue
    dsimp only
    rw [hsplit]
    dsimp only
    rw [filter_eq_self.2 hjson]
  rw [henqueued] at hstep
  refine ⟨_, h.step hstep, by simp, by simp, rfl, ?_, ?_⟩
  · simp [nextSeqId]
  · exact ⟨(foldl_insert envelopes system.state.outboundBuffer _ (isSplitOf_split hsplit).key).1, rfl⟩

/-- Messages are given by the lengths of their JSON. -/
def lengthWriting : Writing ℕ where
  envelopeJson := fun envelope =>
    match envelope.event with
    | .serverMessage length => .ok (List.replicate (length + 100) 0)
    | _ => .ok (List.replicate 100 0)
  messageJson := fun length => .ok (List.replicate length 0)
  encodeBase64 := fun _ => []

lemma split_short {length : ℕ} (h : length ≤ 1000) (clientId : ClientId) (streamId : StreamId)
    (seqId : ℕ) : splitServerEnvelopeForTransport lengthWriting
      ⟨.serverMessage length, clientId, streamId, seqId⟩ =
        .ok [⟨.serverMessage length, clientId, streamId, seqId⟩] := by
  have hfits : length + 100 ≤ segmentMaxBytes := by
    unfold segmentMaxBytes
    omega
  simp [splitServerEnvelopeForTransport, serializedLen, lengthWriting, Except.map, Except.bind, hfits]

lemma split_long {length : ℕ} (h : reassembledMaxBytes < length) (clientId : ClientId)
    (streamId : StreamId) (seqId : ℕ) : splitServerEnvelopeForTransport lengthWriting
      ⟨.serverMessage length, clientId, streamId, seqId⟩ = .ok [] := by
  have hlong : ¬ length + 100 ≤ segmentMaxBytes := by
    unfold reassembledMaxBytes at h
    unfold segmentMaxBytes
    omega
  simp [splitServerEnvelopeForTransport, splitMessage, serializedLen, lengthWriting, Except.map,
    Except.bind, hlong, h]

/-- Nothing can be read. -/
def noReading : Reading Unit := ⟨fun _ => none, fun _ => none⟩

lemma reachable_connected : ∃ system : System ℕ, Reachable lengthWriting noReading system ∧
    system.connected = true ∧ system.wire = [] ∧ system.events = [] ∧
      system.state = (start : System ℕ).state ∧ system.honest :=
  ⟨_, .step .start (.connect start [] 0 .nil), rfl, rfl, rfl, rfl, trivial⟩

/-- Two short events get the numbers 1 and 2. -/
theorem outbound_iff_two_events : ∃ system : System ℕ, Reachable lengthWriting noReading system ∧
    system.wire.map ServerEnvelope.seqId = [1, 2] ∧ (∀ key, system.Contiguous key) ∧
      system.state.outboundBuffer.used = system.state.outboundBuffer.total := by
  obtain ⟨first, h, hconnected, hwire, hevents, hstate, hhonest⟩ := reachable_connected
  let key : StreamKey := ("client".toList, "stream".toList)
  obtain ⟨second, h, hconnected, hwire', hevents', hnext', hused', hhonest'⟩ := h.send hconnected
    (by rw [hstate]; decide) (.serverMessage 10) key (split_short (by omega) _ _ _)
    (by simp [lengthWriting]; rfl)
  obtain ⟨third, h, -, hwire3, hevents3, -, -, hhonest3⟩ := h.send hconnected
    (by rw [hused', hstate]; decide) (.serverMessage 10) key (split_short (by omega) _ _ _)
    (by simp [lengthWriting]; rfl)
  have hlast : third.DroppedLast := by
    intro before event after hsplit hempty
    have hevent : event ∈ third.events := by simp [hsplit]
    rw [hevents3, hevents', hevents] at hevent
    simp only [nil_append, cons_append, mem_cons, not_mem_nil, or_false] at hevent
    rcases hevent with rfl | rfl <;> cases hempty
  obtain ⟨hcontiguous, -, -, hused⟩ :=
    (outbound_iff h).1 ⟨hhonest3 ▸ hhonest' ▸ hhonest, hlast⟩
  refine ⟨third, h, ?_, hcontiguous, hused⟩
  rw [hwire3, hwire', hwire, hnext', hstate]
  rfl

/-- Between two short events one is too long: it takes the number 2, which is never on the wire. -/
theorem dropped_event_leaves_hole : ∃ system : System ℕ, Reachable lengthWriting noReading system ∧
    system.honest ∧ system.wire.map ServerEnvelope.seqId = [1, 3] ∧
      ¬ system.Contiguous ("client".toList, "stream".toList) := by
  obtain ⟨first, h, hconnected, hwire, hevents, hstate, hhonest⟩ := reachable_connected
  let key : StreamKey := ("client".toList, "stream".toList)
  obtain ⟨second, h, hconnected, hwire', -, hnext', hused', hhonest'⟩ := h.send hconnected
    (by rw [hstate]; decide) (.serverMessage 10) key (split_short (by omega) _ _ _)
    (by simp [lengthWriting]; rfl)
  obtain ⟨third, h, hconnected, hwire3, -, hnext3, hused3, hhonest3⟩ := h.send hconnected
    (by rw [hused', hstate]; decide) (.serverMessage (reassembledMaxBytes + 1)) key
    (split_long (Nat.lt_succ_self _) _ _ _) (by simp)
  obtain ⟨fourth, h, -, hwire4, -, -, -, hhonest4⟩ := h.send hconnected
    (by rw [hused3, hused', hstate]; decide) (.serverMessage 10) key (split_short (by omega) _ _ _)
    (by simp [lengthWriting]; rfl)
  have hfourth : fourth.wire = [⟨.serverMessage 10, "client".toList, "stream".toList, 1⟩,
      ⟨.serverMessage 10, "client".toList, "stream".toList, 3⟩] := by
    rw [hwire4, hwire3, hwire', hwire, hnext3, hnext', hstate]
    rfl
  refine ⟨fourth, h, hhonest4 ▸ hhonest3 ▸ hhonest' ▸ hhonest, by rw [hfourth]; rfl, ?_⟩
  rintro ⟨last, hlast⟩
  have honWire : fourth.onWire ("client".toList, "stream".toList) = fourth.wire :=
    filter_eq_self.2 (by rw [hfourth]; decide)
  simp only [honWire, hfourth, mem_cons, not_mem_nil, or_false, exists_eq_or_imp,
    exists_eq_left] at hlast
  have htwo := hlast 2
  have hthree := hlast 3
  omega

end System

end TokenCode.RemoteControl
