/-
The client's side of a process: events in their order, and their recovery after a reconnect
(`exec-server/src/client.rs`, `exec-server/src/client_recovery.rs`).

Notifications may arrive in any order. Those that are early wait until all events before them have
been published. After a reconnect the client reads the process and fills in what it has missed; the
exit, whose number the answer does not contain, is put where a single event is missing.
-/
import TokenCode.ExecServer.Process
import TokenCode.Lib.Reorder

namespace TokenCode.ExecServer

open List (dlookup)
open SortedMap (insertEntry)
open Reorder (Waiting drain firstGap)

/-- `OrderedSessionEvents`, and the events that the subscribers have seen. -/
structure SessionState where
  lastPublishedSeq : ℕ
  exitPublished : Bool
  closedPublished : Bool
  pending : Waiting ExecProcessEvent
  failure : Option Text
  published : List ExecProcessEvent
deriving DecidableEq, Repr

namespace SessionState

def new : SessionState := ⟨0, false, false, [], none, []⟩

/-- `publish_ready`: the loop takes out what is contiguous. The result says whether the close was
published. -/
def publishReady (state : SessionState) : Bool × SessionState :=
  let ready := drain (state.lastPublishedSeq + 1) state.pending
  let publishedClosed := ready.1.any ExecProcessEvent.isClosed
  (publishedClosed,
    { state with
      lastPublishedSeq := ready.2.1 - 1
      pending := ready.2.2
      exitPublished := state.exitPublished || ready.1.any ExecProcessEvent.isExited
      closedPublished := state.closedPublished || publishedClosed
      published := state.published ++ ready.1 })

/-- Whether events with this number are no longer accepted. -/
def ignores (state : SessionState) (seq : ℕ) : Bool :=
  state.failure.isSome || state.closedPublished || seq ≤ state.lastPublishedSeq

/-- `pending.entry(seq).or_insert(event)`. -/
def insertPending (state : SessionState) (seq : ℕ) (event : ExecProcessEvent) : SessionState :=
  { state with pending := if (dlookup seq state.pending).isSome then state.pending
      else insertEntry seq event state.pending }

/-- `publish_ordered_event`. -/
def publishOrderedEvent (state : SessionState) (event : ExecProcessEvent) : Bool × SessionState :=
  match event.seq with
  | none => (false, { state with published := state.published ++ [event] })
  | some seq =>
    if state.ignores seq then (false, state) else (state.insertPending seq event).publishReady

/-! ### Recovery -/

/-- The chunks of the answer that have not been published. -/
def insertChunks (state : SessionState) (chunks : List ProcessOutputChunk) : SessionState :=
  chunks.foldl (fun state chunk =>
    if chunk.seq > state.lastPublishedSeq then state.insertPending chunk.seq (.output chunk)
    else state) state

def closeConflictError (targetSeq : ℕ) : Text :=
  "process close sequence ".toList ++ Nat.toDigits 10 targetSeq
    ++ " conflicts with recovered output".toList

/-- The close of a process stands at the end. -/
def insertClosed (state : SessionState) (targetSeq : ℕ) : Except Text SessionState :=
  match dlookup targetSeq state.pending with
  | some (.closed _) => .ok state
  | some _ => .error (closeConflictError targetSeq)
  | none =>
    .ok { state with pending := insertEntry targetSeq (.closed targetSeq) state.pending }

/-- The first exit that waits up to the target gets the verdict of the answer. -/
def mergeExit (targetSeq : ℕ) (sandboxDenied : Bool) :
    Waiting ExecProcessEvent → Waiting ExecProcessEvent × Bool
  | [] => ([], false)
  | ⟨key, .exited seq exitCode pendingDenied⟩ :: rest =>
    if key ≤ targetSeq then
      (⟨key, .exited seq exitCode (some (pendingDenied.getD false || sandboxDenied))⟩ :: rest, true)
    else
      let merged := mergeExit targetSeq sandboxDenied rest
      (⟨key, .exited seq exitCode pendingDenied⟩ :: merged.1, merged.2)
  | entry :: rest =>
    let merged := mergeExit targetSeq sandboxDenied rest
    (entry :: merged.1, merged.2)

/-- The numbers that wait after the last published one, up to the target. -/
def retainedSeqs (state : SessionState) (targetSeq : ℕ) : List ℕ :=
  (state.pending.keys).filter fun seq => state.lastPublishedSeq < seq ∧ seq ≤ targetSeq

def missingCount (state : SessionState) (targetSeq : ℕ) : ℕ :=
  (targetSeq - state.lastPublishedSeq) - (state.retainedSeqs targetSeq).length

/-- `first_missing_seq`. -/
def firstMissingSeq (state : SessionState) (targetSeq : ℕ) : ℕ :=
  firstGap (state.lastPublishedSeq + 1) (state.retainedSeqs targetSeq)

def recoveryGapError (targetSeq : ℕ) : Text :=
  "process events are no longer retained while recovering through sequence ".toList
    ++ Nat.toDigits 10 targetSeq

def missingExitCodeError : Text := "recovering exited process did not include its exit code".toList

/-- The last part of `recover_events`: the exit, if it is not known yet, and what is ready. -/
def recoverExit (state : SessionState) (exitPending : Bool) (targetSeq : ℕ)
    (response : ReadResponse) : Except Text Bool × SessionState :=
  let missing := state.missingCount targetSeq
  if response.exited ∧ ¬ (state.exitPublished || exitPending) then
    if missing ≠ 1 then (.error (recoveryGapError targetSeq), state)
    else
      let seq := state.firstMissingSeq targetSeq
      match response.exitCode with
      | none => (.error missingExitCodeError, state)
      | some exitCode =>
        let exited : ExecProcessEvent := .exited seq exitCode (some response.sandboxDenied)
        let ready :=
          { state with pending := insertEntry seq exited state.pending : SessionState }.publishReady
        (.ok ready.1, ready.2)
  else if missing ≠ 0 then (.error (recoveryGapError targetSeq), state)
  else (.ok state.publishReady.1, state.publishReady.2)

/-- `recover_events`. The events that were inserted before an error stay. -/
def recoverEvents (state : SessionState) (response : ReadResponse) :
    Except Text Bool × SessionState :=
  match response.failure with
  | some message => (.error ("process failed while recovering: ".toList ++ message), state)
  | none =>
    let targetSeq := response.nextSeq - 1
    if state.ignores targetSeq then (.ok false, state)
    else
      let received := state.insertChunks response.chunks
      match if response.closed then received.insertClosed targetSeq else .ok received with
      | .error err => (.error err, received)
      | .ok closed =>
        let merged := mergeExit targetSeq response.sandboxDenied closed.pending
        { closed with pending := merged.1 : SessionState }.recoverExit merged.2 targetSeq response

/-- A response that tells nothing new. -/
lemma recoverEvents_of_ignores {state : SessionState} {response : ReadResponse}
    (hfailure : response.failure = none) (hignored : state.ignores (response.nextSeq - 1) = true) :
    state.recoverEvents response = (.ok false, state) := by
  simp [recoverEvents, hfailure, hignored]

/-- A response whose `closed` can be inserted. -/
lemma recoverEvents_of_insertClosed {state closed : SessionState} {response : ReadResponse}
    (hfailure : response.failure = none) (hignored : ¬ state.ignores (response.nextSeq - 1) = true)
    (hclosed : (if response.closed then
      (state.insertChunks response.chunks).insertClosed (response.nextSeq - 1)
        else .ok (state.insertChunks response.chunks)) = .ok closed) :
    state.recoverEvents response = { closed with
        pending := (mergeExit (response.nextSeq - 1) response.sandboxDenied closed.pending).1
        : SessionState }.recoverExit
          (mergeExit (response.nextSeq - 1) response.sandboxDenied closed.pending).2
          (response.nextSeq - 1) response := by
  simp only [recoverEvents, hfailure, if_neg hignored, hclosed]

end SessionState

end TokenCode.ExecServer
