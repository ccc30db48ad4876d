/-
A process on the exec server, and what a read of it answers (`exec-server/src/local_process.rs`).

The tasks of a process share one entry: each output stream appends chunks, one task reports the exit,
and the last of them closes the process. Every event takes the next sequence number. Old output is
evicted, so a read answers with the chunks that are still retained and with the state of the process;
it does not say where in the sequence the exit stands.

`RunningProcess.Reachable` is the runs of these tasks, in any interleaving; what is known about the
events and the state after every run is `RunningProcess.WellFormed`.
-/
import TokenCode.Lib.Text

namespace TokenCode.ExecServer

open List

inductive ExecOutputStream where
  | stdout
  | stderr
  | pty
deriving DecidableEq, Repr

structure ProcessOutputChunk where
  seq : ℕ
  stream : ExecOutputStream
  chunk : List UInt8
deriving DecidableEq, Repr

inductive ExecProcessEvent where
  | output (chunk : ProcessOutputChunk)
  | exited (seq : ℕ) (exitCode : ℤ) (sandboxDenied : Option Bool)
  | closed (seq : ℕ)
  | failed (message : Text)
deriving DecidableEq, Repr

namespace ExecProcessEvent

/-- The sequence number; a synthesised failure has none. -/
def seq : ExecProcessEvent → Option ℕ
  | output chunk => some chunk.seq
  | exited seq _ _ => some seq
  | closed seq => some seq
  | failed _ => none

def isExited : ExecProcessEvent → Bool
  | exited _ _ _ => true
  | _ => false

def isClosed : ExecProcessEvent → Bool
  | closed _ => true
  | _ => false

def output? : ExecProcessEvent → Option ProcessOutputChunk
  | output chunk => some chunk
  | _ => none

end ExecProcessEvent

/-- `RETAINED_OUTPUT_BYTES_PER_PROCESS`. -/
def retainedOutputBytesPerProcess : ℕ := 1024 * 1024

/-- The entry of a running process, with the events that it has published. -/
structure RunningProcess where
  output : List ProcessOutputChunk
  retainedBytes : ℕ
  nextSeq : ℕ
  exitCode : Option ℤ
  openStreams : ℕ
  closed : Bool
  sandboxDenied : Bool
  events : List ExecProcessEvent
deriving DecidableEq, Repr

structure ReadResponse where
  chunks : List ProcessOutputChunk
  nextSeq : ℕ
  exited : Bool
  exitCode : Option ℤ
  closed : Bool
  failure : Option Text
  sandboxDenied : Bool
deriving DecidableEq, Repr

namespace RunningProcess

/-- A process that has just been started, with two output streams. -/
def start : RunningProcess := ⟨[], 0, 1, none, 2, false, false, []⟩

/-- The loop that evicts output: the chunks and the bytes that remain. -/
def evict : List ProcessOutputChunk → ℕ → List ProcessOutputChunk × ℕ
  | [], retainedBytes => ([], retainedBytes)
  | chunk :: output, retainedBytes =>
    if retainedBytes > retainedOutputBytesPerProcess then
      evict output (retainedBytes - chunk.chunk.length)
    else (chunk :: output, retainedBytes)

/-- One chunk in `stream_output`. -/
def streamOutput (process : RunningProcess) (stream : ExecOutputStream) (chunk : List UInt8) :
    RunningProcess :=
  let retained : ProcessOutputChunk := ⟨process.nextSeq, stream, chunk⟩
  let evicted := evict (process.output ++ [retained]) (process.retainedBytes + chunk.length)
  { process with
    nextSeq := process.nextSeq + 1
    output := evicted.1
    retainedBytes := evicted.2
    events := process.events ++ [.output retained] }

/-- `watch_exit`; whether the sandbox seems to have denied something is given. -/
def watchExit (process : RunningProcess) (exitCode : ℤ) (sandboxDenied : Bool) : RunningProcess :=
  { process with
    nextSeq := process.nextSeq + 1
    exitCode := some exitCode
    sandboxDenied := sandboxDenied
    events := process.events ++ [.exited process.nextSeq exitCode (some sandboxDenied)] }

/-- `finish_output_stream`. -/
def finishOutputStream (process : RunningProcess) : RunningProcess :=
  { process with openStreams := process.openStreams - 1 }

/-- `maybe_emit_closed`. -/
def maybeEmitClosed (process : RunningProcess) : RunningProcess :=
  if process.closed ∨ process.openStreams ≠ 0 ∨ process.exitCode = none then process
  else
    { process with
      closed := true
      nextSeq := process.nextSeq + 1
      events := process.events ++ [.closed process.nextSeq] }

/-- A step of one of the tasks: a chunk comes from a stream that is open, and the exit is reported
once. -/
inductive Step : RunningProcess → RunningProcess → Prop
  | output (process : RunningProcess) (stream : ExecOutputStream) (chunk : List UInt8)
      (hopen : 0 < process.openStreams) : Step process (process.streamOutput stream chunk)
  | exit (process : RunningProcess) (exitCode : ℤ) (sandboxDenied : Bool)
      (hrunning : process.exitCode = none) : Step process (process.watchExit exitCode sandboxDenied)
  | finish (process : RunningProcess) : Step process process.finishOutputStream
  | close (process : RunningProcess) : Step process process.maybeEmitClosed

/-! ### Reads -/

/-- The chunks that fit into a read, with the bytes that they have taken so far. -/
def takeChunks (maxBytes : Option ℕ) : List ProcessOutputChunk → List ProcessOutputChunk → ℕ →
    List ProcessOutputChunk
  | [], chunks, _ => chunks
  | retained :: output, chunks, totalBytes =>
    let total := totalBytes + retained.chunk.length
    if chunks ≠ [] ∧ (∃ limit ∈ maxBytes, total > limit) then chunks
    else if ∃ limit ∈ maxBytes, total ≥ limit then chunks ++ [retained]
    else takeChunks maxBytes output (chunks ++ [retained]) total

/-- `exec_read`, as it answers at one moment. -/
def execRead (process : RunningProcess) (afterSeq maxBytes : Option ℕ) : ReadResponse :=
  let chunks :=
    takeChunks maxBytes (process.output.filter (·.seq > afterSeq.getD 0)) [] 0
  { chunks := chunks
    nextSeq :=
      if maxBytes = none then process.nextSeq
      else (chunks.getLast?.map (·.seq + 1)).getD process.nextSeq
    exited := process.exitCode.isSome
    exitCode := process.exitCode
    closed := process.closed
    failure := none
    sandboxDenied := process.sandboxDenied }

/-- Without a limit a read answers with all chunks that are retained. -/
lemma takeChunks_none (output chunks : List ProcessOutputChunk) (totalBytes : ℕ) :
    takeChunks none output chunks totalBytes = chunks ++ output := by
  induction output generalizing chunks totalBytes with
  | nil => simp [takeChunks]
  | cons retained output ih => simp [takeChunks, ih]

/-! ### What every run satisfies -/

/-- All output of the process, evicted or not. -/
def outputs (process : RunningProcess) : List ProcessOutputChunk :=
  process.events.filterMap ExecProcessEvent.output?

lemma mem_outputs {process : RunningProcess} {chunk : ProcessOutputChunk} :
    chunk ∈ process.outputs ↔ .output chunk ∈ process.events := by
  simp only [outputs, mem_filterMap]
  constructor
  · rintro ⟨event, hmem, hevent⟩
    cases event with
    | output other =>
      obtain rfl := Option.some.inj hevent
      exact hmem
    | exited | closed | failed => exact absurd hevent nofun
  · exact fun hmem => ⟨_, hmem, rfl⟩

/-- The events are numbered from 1 without gaps; the state says whether and how the process has
exited, once, and whether it has closed, after which nothing comes; the newest output is retained. -/
structure WellFormed (process : RunningProcess) : Prop where
  nextSeq : process.nextSeq = process.events.length + 1
  seq : ∀ i event, process.events[i]? = some event → event.seq = some (i + 1)
  output : process.output <:+ process.outputs
  exited : ∀ seq exitCode denied, .exited seq exitCode denied ∈ process.events →
    process.exitCode = some exitCode ∧ denied = some process.sandboxDenied
  exitCode : process.exitCode.isSome = process.events.any ExecProcessEvent.isExited
  once : process.events.countP ExecProcessEvent.isExited ≤ 1
  closed : process.closed = process.events.any ExecProcessEvent.isClosed
  last : ∀ seq, .closed seq ∈ process.events → seq = process.events.length
  done : process.closed = true → process.openStreams = 0 ∧ process.exitCode.isSome = true

lemma wellFormed_start : start.WellFormed := by
  constructor <;> simp [start, outputs]

variable {process next : RunningProcess}

lemma evict_suffix (output : List ProcessOutputChunk) (retainedBytes : ℕ) :
    (evict output retainedBytes).1 <:+ output := by
  induction output generalizing retainedBytes with
  | nil => simp [evict]
  | cons chunk output ih =>
    rw [evict]
    split_ifs
    · exact (ih _).trans (suffix_cons chunk output)
    · exact suffix_rfl

variable (h : process.WellFormed)
include h

/-- The numbering goes on with the next event. -/
lemma WellFormed.seq_append {event : ExecProcessEvent}
    (hevent : event.seq = some process.nextSeq) (i : ℕ) (other : ExecProcessEvent)
    (hother : (process.events ++ [event])[i]? = some other) : other.seq = some (i + 1) := by
  rcases lt_or_ge i process.events.length with hlt | hge
  · rw [getElem?_append_left hlt] at hother
    exact h.seq i other hother
  · obtain ⟨hi, rfl⟩ : i = process.events.length ∧ event = other := by
      rw [getElem?_append_right hge] at hother
      have hzero : i - process.events.length = 0 := by
        have hlength := (List.getElem?_eq_some_iff.1 hother).1
        simp only [length_singleton] at hlength
        omega
      rw [hzero] at hother
      exact ⟨by omega, Option.some.inj hother⟩
    rw [hevent, h.nextSeq, hi]

/-- Nothing is closed while a stream is open or the exit is missing. -/
lemma WellFormed.not_closed (hopen : 0 < process.openStreams ∨ process.exitCode = none) :
    process.closed = false ∧ ∀ seq, .closed seq ∉ process.events := by
  have hclosed : process.closed = false := by
    by_contra hnot
    obtain ⟨hstreams, hexit⟩ := h.done (by simpa using hnot)
    rcases hopen with hopen | hnone
    · omega
    · simp [hnone] at hexit
  refine ⟨hclosed, fun seq hmem => ?_⟩
  have hany := h.closed.symm.trans hclosed
  rw [any_eq_false] at hany
  exact hany _ hmem rfl

open ExecProcessEvent

lemma WellFormed.step (hstep : Step process next) : next.WellFormed := by
  cases hstep with
  | output stream chunk hopen =>
    obtain ⟨hclosed, hnot⟩ := h.not_closed (.inl hopen)
    constructor <;> simp only [streamOutput]
    case nextSeq => simp [h.nextSeq]
    case seq => exact h.seq_append rfl
    case output =>
      obtain ⟨evicted, hevicted⟩ := h.output
      refine (evict_suffix _ _).trans ⟨evicted, ?_⟩
      rw [outputs, filterMap_append, ← outputs, ← hevicted, List.append_assoc]
      rfl
    case exited => simpa using h.exited
    case exitCode => simpa [isExited] using h.exitCode
    case once => simpa [isExited] using h.once
    case closed => simpa [isClosed] using h.closed
    case last => simpa using fun seq hmem => absurd hmem (hnot seq)
    case done => simp [hclosed]
  | exit exitCode sandboxDenied hrunning =>
    obtain ⟨hclosed, hnot⟩ := h.not_closed (.inr hrunning)
    have hnone : process.events.any isExited = false := by
      rw [← h.exitCode, hrunning]
      rfl
    have hno : ∀ event ∈ process.events, ¬ event.isExited = true := any_eq_false.1 hnone
    constructor <;> simp only [watchExit]
    case nextSeq => simp [h.nextSeq]
    case seq => exact h.seq_append rfl
    case output => simpa [outputs, ExecProcessEvent.output?, filterMap_cons] using h.output
    case exited =>
      intro seq code denied hmem
      rcases mem_append.1 hmem with hold | hnew
      · exact absurd rfl (hno _ hold)
      · obtain ⟨-, rfl, rfl⟩ := ExecProcessEvent.exited.inj (mem_singleton.1 hnew)
        exact ⟨rfl, rfl⟩
    case exitCode => simp [isExited]
    case once => simp [countP_eq_zero.2 hno, isExited]
    case closed => simpa [isClosed] using h.closed
    case last => simpa using fun seq hmem => absurd hmem (hnot seq)
    case done => simp [hclosed]
  | finish =>
    exact { h with done := fun hclosed => ⟨by simp [finishOutputStream, (h.done hclosed).1],
      (h.done hclosed).2⟩ }
  | close =>
    unfold maybeEmitClosed
    split_ifs with hskip
    · exact h
    · simp only [not_or, Bool.not_eq_true, not_not] at hskip
      obtain ⟨hclosed, hstreams, hexit⟩ := hskip
      have hnot : ∀ seq, .closed seq ∉ process.events := by
        intro seq hmem
        have hany := h.closed.symm.trans hclosed
        exact any_eq_false.1 hany _ hmem rfl
      constructor <;> dsimp only
      case nextSeq => simp [h.nextSeq]
      case seq => exact h.seq_append rfl
      case output => simpa [outputs, ExecProcessEvent.output?, filterMap_cons] using h.output
      case exited => simpa using h.exited
      case exitCode => simpa [isExited] using h.exitCode
      case once => simpa [isExited] using h.once
      case closed => simp [isClosed]
      case last =>
        intro seq hmem
        rcases mem_append.1 hmem with hold | hnew
        · exact absurd hold (hnot seq)
        · obtain rfl := ExecProcessEvent.closed.inj (mem_singleton.1 hnew)
          simp [h.nextSeq]
      case done => exact fun _ => ⟨hstreams, Option.isSome_iff_ne_none.2 hexit⟩

omit h

/-- Events are only added at the end. -/
lemma Step.isPrefix_events (hstep : Step process next) : process.events <+: next.events := by
  cases hstep with
  | output stream chunk | exit exitCode sandboxDenied => exact prefix_append _ _
  | finish => exact prefix_rfl
  | close =>
    unfold maybeEmitClosed
    split_ifs
    · exact prefix_rfl
    · exact prefix_append _ _

/-- The runs of the tasks. -/
inductive Reachable : RunningProcess → Prop
  | start : Reachable start
  | step {process next : RunningProcess} : Reachable process → Step process next → Reachable next

theorem Reachable.wellFormed (h : Reachable process) : process.WellFormed := by
  induction h with
  | start => exact wellFormed_start
  | step _ hstep ih => exact ih.step hstep

/-- A process that writes, exits, and closes when both of its streams have ended. -/
theorem wellFormed_streamOutput :
    let process := ((start.streamOutput .stdout [0]).watchExit 0
      false).finishOutputStream.finishOutputStream.maybeEmitClosed
    process.closed = true ∧ process.WellFormed := by
  refine ⟨by decide, Reachable.wellFormed (.step ?_ (.close _))⟩
  refine .step (.step ?_ (.finish _)) (.finish _)
  exact .step (.step .start (.output start .stdout [0] (by decide))) (.exit _ 0 false rfl)

end RunningProcess

end TokenCode.ExecServer
