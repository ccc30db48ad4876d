/-
The rollout writer and the loader of its files (`rollout/src/recorder.rs`).

A rollout file has one JSON line for each item. The writer keeps the items that are not written yet;
when a write or a flush fails it drops its handle, opens the file again and goes on with the item
that failed. What the disk does with each operation is given from outside: a write that fails may
leave a part of its line behind, which may end inside of a character.
-/
import TokenCode.Lib.Text

namespace TokenCode.RolloutStore

open List Text

abbrev Bytes := List UInt8

variable {Item : Type}

/-! ### Lines -/

def newline : UInt8 := 10

def carriageReturn : UInt8 := 13

/-- What `load_rollout_items` makes of a line: bytes that are not UTF-8, a blank line, an item, a legacy
snapshot that is skipped, a text that is no JSON, or JSON that is no rollout line (with the error if
its history mode is unknown). -/
inductive LineReading (Item : Type) where
  | notUtf8
  | blank
  | item (item : Item)
  | skipped
  | invalid
  | foreign (unknownMode : Option Text)

/-- How items are written, with the time of writing, and read. Not everything of an item is written,
such as the success of a call's output; `readBack` is what is read from its line. -/
structure LineFormat (Item : Type) where
  encode : ℕ → Item → Bytes
  read : Bytes → LineReading Item
  readBack : Item → Item
  /-- The thread id of a session meta line. -/
  threadIdOf : Item → Option Text

/-- Lines are read back, and do not end early. -/
structure LineFormat.Faithful (format : LineFormat Item) : Prop where
  read_encode : ∀ time item, format.read (format.encode time item) = .item (format.readBack item)
  newline : ∀ time item, newline ∉ format.encode time item
  cr : ∀ time item, (format.encode time item).getLast? ≠ some carriageReturn

/-- The lines of a file that end in a newline, without it, and what is left after the last one. -/
def cutLines : Bytes → List Bytes × Bytes
  | [] => ([], [])
  | byte :: bytes =>
    if byte = newline then ([] :: (cutLines bytes).1, (cutLines bytes).2)
    else match (cutLines bytes).1 with
      | [] => ([], byte :: (cutLines bytes).2)
      | line :: lines => ((byte :: line) :: lines, (cutLines bytes).2)

/-- A line without the carriage return in front of its newline. -/
def stripCr (line : Bytes) : Bytes :=
  if line.getLast? = some carriageReturn then line.dropLast else line

/-- The lines that `next_line` hands out. -/
def linesOf (file : Bytes) : List Bytes :=
  (cutLines file).1.map stripCr ++ (if (cutLines file).2 = [] then [] else [(cutLines file).2])

/-! ### Loading -/

structure Loading (Item : Type) where
  items : List Item
  threadId : Option Text
  parseErrors : ℕ
  sawNonEmptyLine : Bool

def notFound : Text := "No such file or directory".toList

def emptySessionFile : Text := "empty session file".toList

def invalidUtf8 : Text := "stream did not contain valid UTF-8".toList

variable (format : LineFormat Item)

/-- One line in `load_rollout_items`. -/
def Loading.readLine (loading : Loading Item) (line : Bytes) : Except Text (Loading Item) :=
  let seen := { loading with sawNonEmptyLine := true }
  match format.read line with
  | .notUtf8 => .error invalidUtf8
  | .blank => .ok loading
  | .invalid => .ok { seen with parseErrors := loading.parseErrors + 1 }
  | .skipped => .ok seen
  | .item item =>
    .ok { seen with
      items := loading.items ++ [item]
      threadId := loading.threadId.or (format.threadIdOf item) }
  | .foreign unknownMode =>
    match loading.threadId, unknownMode with
    | none, some error => .error error
    | _, _ => .ok { seen with parseErrors := loading.parseErrors + 1 }

/-- `RolloutRecorder::load_rollout_items`. -/
def loadRolloutItems : Option Bytes → Except Text (List Item × Option Text × ℕ)
  | none => .error notFound
  | some file =>
    ((linesOf file).foldlM (Loading.readLine format) ⟨[], none, 0, false⟩).bind fun loading =>
      if loading.sawNonEmptyLine then .ok (loading.items, loading.threadId, loading.parseErrors)
      else .error emptySessionFile

/-! ### The disk -/

/-- What an operation on the file does. A write that fails has written so much of its line, but not
all of it. -/
inductive Fate where
  | ok
  | fail (written : ℕ)
deriving DecidableEq, Repr

/-- The file and what becomes of the next operations; all others succeed. `torn` and `repeated` say
that a write has left a part of a line, and that a flush has failed behind a line. -/
structure Disk where
  file : Option Bytes
  clock : ℕ
  fates : List Fate
  torn : Bool
  repeated : Bool

namespace Disk

def nextFate (disk : Disk) : Fate := disk.fates.headD .ok

def advance (disk : Disk) : Disk := { disk with fates := disk.fates.tail }

/-- `open_log_file`, in append mode. -/
def openLogFile (disk : Disk) : Bool × Disk :=
  match disk.nextFate with
  | .ok => (true, { disk.advance with file := some (disk.file.getD []) })
  | .fail _ => (false, disk.advance)

/-- `write_all` in `write_line`. -/
def writeAll (disk : Disk) (item : Item) : Bool × Disk :=
  let line := format.encode disk.clock item
  match disk.nextFate with
  | .ok =>
    (true, { disk.advance with
      file := some (disk.file.getD [] ++ (line ++ [newline]))
      clock := disk.clock + 1 })
  | .fail written =>
    let part := line.take written
    (false, { disk.advance with
      file := some (disk.file.getD [] ++ part)
      clock := disk.clock + 1
      torn := disk.torn || part ≠ [] })

/-- `JsonlWriter::write_line`. -/
def writeLine (disk : Disk) (item : Item) : Bool × Disk :=
  match disk.writeAll format item with
  | (false, failed) => (false, failed)
  | (true, written) =>
    match written.nextFate with
    | .ok => (true, written.advance)
    | .fail _ => (false, { written.advance with repeated := true })

/-- `flush`. -/
def flush (disk : Disk) : Bool × Disk :=
  match disk.nextFate with
  | .ok => (true, disk.advance)
  | .fail _ => (false, disk.advance)

/-- `write_pending_items_once`: what is left of the items. -/
def writePendingItems : List Item → Disk → Bool × List Item × Disk
  | [], disk => (true, [], disk)
  | item :: items, disk =>
    match disk.writeLine format item with
    | (true, written) => writePendingItems items written
    | (false, failed) => (false, item :: items, failed)

end Disk

/-! ### The writer -/

/-- `RolloutWriterState` with its disk: whether the file is open, whether it is deferred, and the
session meta line that is not written yet. After a shutdown that succeeds it has stopped. -/
structure Recorder (Item : Type) where
  writer : Bool
  deferredLogFileInfo : Bool
  pendingItems : List Item
  sessionMeta : Option Item
  disk : Disk
  stopped : Bool

inductive RolloutCmd (Item : Type) where
  | addItems (items : List Item)
  | persist
  | flush
  | shutdown

namespace Recorder

/-- The writer of a new session. -/
def create (sessionMeta : Item) (fates : List Fate) : Recorder Item :=
  ⟨false, true, [], some sessionMeta, ⟨none, 0, fates, false, false⟩, false⟩

/-- The writer of a session that is resumed. -/
def resume (file : Bytes) (fates : List Fate) : Recorder Item :=
  ⟨true, false, [], none, ⟨some file, 0, fates, false, false⟩, false⟩

def isDeferred (recorder : Recorder Item) : Bool := !recorder.writer && recorder.deferredLogFileInfo

/-- `ensure_writer_open`. -/
def ensureWriterOpen (recorder : Recorder Item) : Bool × Recorder Item :=
  if recorder.writer then (true, recorder)
  else
    match recorder.disk.openLogFile with
    | (true, disk) => (true, { recorder with writer := true, deferredLogFileInfo := false, disk })
    | (false, disk) => (false, { recorder with disk })

/-- `write_session_meta_if_needed`. -/
def writeSessionMetaIfNeeded (recorder : Recorder Item) : Bool × Recorder Item :=
  match recorder.sessionMeta with
  | none => (true, recorder)
  | some sessionMeta =>
    match recorder.disk.writeLine format sessionMeta with
    | (true, disk) => (true, { recorder with sessionMeta := none, disk })
    | (false, disk) => (false, { recorder with disk })

/-- `write_pending_items_once`. -/
def writePendingItemsOnce (recorder : Recorder Item) : Bool × Recorder Item :=
  match Disk.writePendingItems format recorder.pendingItems recorder.disk with
  | (ok, pendingItems, disk) => (ok, { recorder with pendingItems, disk })

/-- The last flush of `write_pending_once`. -/
def flushWriter (recorder : Recorder Item) : Bool × Recorder Item :=
  match recorder.disk.flush with
  | (ok, disk) => (ok, { recorder with disk })

/-- One operation, and the next one if it succeeds. -/
def andThen (first : Bool × Recorder Item) (next : Recorder Item → Bool × Recorder Item) :
    Bool × Recorder Item :=
  if first.1 then next first.2 else first

/-- `write_pending_once`. -/
def writePendingOnce (recorder : Recorder Item) : Bool × Recorder Item :=
  andThen (andThen (andThen recorder.ensureWriterOpen (writeSessionMetaIfNeeded format))
    (writePendingItemsOnce format)) flushWriter

/-- `enter_recovery_mode`. -/
def enterRecoveryMode (recorder : Recorder Item) : Recorder Item := { recorder with writer := false }

/-- `write_pending_with_recovery`. -/
def writePendingWithRecovery (recorder : Recorder Item) : Bool × Recorder Item :=
  match recorder.writePendingOnce format with
  | (true, written) => (true, written)
  | (false, failed) =>
    match failed.enterRecoveryMode.writePendingOnce format with
    | (true, written) => (true, written)
    | (false, failed) => (false, failed.enterRecoveryMode)

/-- `flush` and `shutdown` of the state. -/
def flushPending (recorder : Recorder Item) : Bool × Recorder Item :=
  if recorder.isDeferred ∧ recorder.pendingItems.isEmpty then (true, recorder)
  else recorder.writePendingWithRecovery format

/-- `add_items`, then `flush_if_materialized`. -/
def addItems (recorder : Recorder Item) (items : List Item) : Recorder Item :=
  let added := { recorder with pendingItems := recorder.pendingItems ++ items }
  if added.isDeferred then added
  else
    match added.flushPending format with
    | (true, flushed) => flushed
    | (false, failed) => failed.enterRecoveryMode

/-- One command in `rollout_writer`: the acknowledgement, if there is one. -/
def handle (recorder : Recorder Item) (cmd : RolloutCmd Item) : Option Bool × Recorder Item :=
  if recorder.stopped then (none, recorder)
  else
    match cmd with
    | .addItems items => (none, recorder.addItems format items)
    | .persist =>
      match recorder.writePendingWithRecovery format with
      | (ok, next) => (some ok, next)
    | .flush =>
      match recorder.flushPending format with
      | (ok, next) => (some ok, next)
    | .shutdown =>
      match recorder.flushPending format with
      | (ok, next) => (some ok, { next with stopped := ok })

def run (recorder : Recorder Item) (cmds : List (RolloutCmd Item)) : Recorder Item :=
  cmds.foldl (fun current cmd => (current.handle format cmd).2) recorder

end Recorder

/-- The items that commands add. -/
def addedBy (cmds : List (RolloutCmd Item)) : List Item :=
  cmds.flatMap fun
    | .addItems items => items
    | _ => []

end TokenCode.RolloutStore
