/-
The streaming patch parser (`apply-patch/src/streaming_parser.rs`).

The parser takes a patch as it arrives. It collects characters into a line and, at each newline,
hands the line to a machine with six modes (`processLine`). In the source a failing
`process_line` returns before it changes anything, so a line gives either an error or the next
state; what `push_delta` did before the failing line stays.
-/
import TokenCode.ApplyPatch.Hunk
import TokenCode.Lib.Steps

namespace TokenCode.ApplyPatch

open Text

inductive StreamingParserMode where
  | notStarted
  | startedPatch
  | addFile
  | deleteFile
  | updateFile (hunkLineNumber : ℕ)
  | endedPatch
deriving DecidableEq, Repr

structure StreamingParserState where
  mode : StreamingParserMode
  hunks : List Hunk
  environmentId : Option Text
deriving DecidableEq, Repr

structure StreamingPatchParser where
  lineBuffer : Text
  state : StreamingParserState
  lineNumber : ℕ
deriving DecidableEq, Repr

/-! ### Error texts -/

def lastLineMessage : Text := "The last line of the patch must be '*** End Patch'".toList

def firstLineMessage : Text := "The first line of the patch must be '*** Begin Patch'".toList

def emptyHunkMessage (path : Text) : Text :=
  "Update file hunk for path '".toList ++ path ++ "' is empty".toList

def noLinesMessage : Text := "Update hunk does not contain any lines".toList

def unexpectedLineMessage (line : Text) : Text :=
  "Unexpected line found in update hunk: '".toList ++ line ++
    ("'. Every line should start with ' ' (context line), '+' (added line), " ++
      "or '-' (removed line)").toList

def expectedContextMessage (line : Text) : Text :=
  "Expected update hunk to start with a @@ context marker, got: '".toList ++ line ++ "'".toList

def invalidHeaderMessage (trimmed : Text) : Text :=
  "'".toList ++ trimmed ++
    ("' is not a valid hunk header. Valid hunk headers: '*** Add File: \x7bpath\x7d', " ++
      "'*** Delete File: \x7bpath\x7d', '*** Update File: \x7bpath\x7d'").toList

def environmentIdTwiceMessage : Text :=
  "apply_patch environment_id cannot be specified more than once".toList

def environmentIdEmptyMessage : Text := "apply_patch environment_id cannot be empty".toList

namespace StreamingPatchParser

/-- `StreamingPatchParser::default()`. -/
def default : StreamingPatchParser := ⟨[], ⟨.notStarted, [], none⟩, 0⟩

/-- `environment_id`. -/
def environmentId (p : StreamingPatchParser) : Option Text := p.state.environmentId

/-- A header or the end of the patch may not follow an update hunk without changes. -/
def ensureUpdateHunkIsNotEmpty (p : StreamingPatchParser) (line : Text) :
    Except ParseError Unit :=
  match p.state.hunks.getLast? with
  | some (.updateFile path _ chunks) =>
    match chunks.getLast?, p.state.mode with
    | none, .updateFile hunkLineNumber =>
        .error (.invalidHunkError (emptyHunkMessage path) hunkLineNumber)
    | none, _ => .ok ()
    | some chunk, _ =>
        if chunk.isEmpty then
          if line = endPatchMarker then
            .error (.invalidHunkError noLinesMessage p.lineNumber)
          else .error (.invalidHunkError (unexpectedLineMessage line) p.lineNumber)
        else .ok ()
  | _ => .ok ()

/-- The hunk that a header line opens, and the mode it is read in. -/
def hunkHeader (lineNumber : ℕ) (trimmed : Text) : Option (Hunk × StreamingParserMode) :=
  match trimmed.dropPrefix? addFileMarker with
  | some path => some (.addFile path [], .addFile)
  | none =>
  match trimmed.dropPrefix? deleteFileMarker with
  | some path => some (.deleteFile path, .deleteFile)
  | none =>
  match trimmed.dropPrefix? updateFileMarker with
  | some path => some (.updateFile path none [], .updateFile lineNumber)
  | none => none

/-- Open a hunk. -/
def pushHunk (p : StreamingPatchParser) (header : Hunk × StreamingParserMode) :
    StreamingParserState :=
  { p.state with hunks := p.state.hunks ++ [header.1], mode := header.2 }

/-- `handle_hunk_headers_and_end_patch`: the state after a header line, and `none` when the line
is not one. -/
def handleHunkHeadersAndEndPatch (p : StreamingPatchParser) (trimmed : Text) :
    Except ParseError (Option StreamingParserState) :=
  match if p.state.mode = .startedPatch then trimmed.dropPrefix? environmentIdMarker else none with
  | some environmentId =>
    if p.state.environmentId.isSome then .error (.invalidPatchError environmentIdTwiceMessage)
    else if trim environmentId = [] then .error (.invalidPatchError environmentIdEmptyMessage)
    else .ok (some { p.state with environmentId := some (trim environmentId) })
  | none =>
  if trimmed = endPatchMarker then do
    ensureUpdateHunkIsNotEmpty p trimmed
    return some { p.state with mode := .endedPatch }
  else match hunkHeader p.lineNumber trimmed with
  | some header => do
    ensureUpdateHunkIsNotEmpty p trimmed
    return some (pushHunk p header)
  | none => .ok none

/-- `update_line == "@@" || update_line.starts_with("@@ ")`. -/
def isContextHeader (updateLine : Text) : Bool :=
  updateLine == emptyChangeContextMarker || changeContextMarker.isPrefixOf updateLine

/-- `chunks.last().is_some_and(|chunk| chunk.is_end_of_file)`. -/
def atEof (chunks : List UpdateFileChunk) : Bool := chunks.getLast?.any (·.isEndOfFile)

/-- `chunks.last().is_some_and(|chunk| chunk.old_lines.is_empty() && chunk.new_lines.is_empty())`. -/
def lastIsEmpty (chunks : List UpdateFileChunk) : Bool := chunks.getLast?.any (·.isEmpty)

/-- What a line does to the update hunk that is being read. -/
inductive LineEffect where
  | skip
  | moveTo (path : Text)
  | openChunk (changeContext : Option Text)
  | endOfFile
  | context (line : Text)
  | added (line : Text)
  | removed (line : Text)
deriving DecidableEq, Repr

/-- The effect of a line that is neither a marker nor a header: its first character decides. -/
def contentEffect (lineNumber : ℕ) (line : Text) (chunks : List UpdateFileChunk) :
    Except ParseError LineEffect :=
  match line with
  | [] => .ok (.context [])
  | ' ' :: lineToAdd => .ok (.context lineToAdd)
  | '+' :: lineToAdd => .ok (.added lineToAdd)
  | '-' :: lineToRemove => .ok (.removed lineToRemove)
  | line =>
    if chunks.getLast?.any (! ·.isEmpty) then
      .error (.invalidHunkError (expectedContextMessage line) lineNumber)
    else .error (.invalidHunkError (unexpectedLineMessage line) lineNumber)

/-- The effect of a line that is no hunk header, in the order of the tests of `process_line`. -/
def updateEffect (lineNumber : ℕ) (line : Text) (movePath : Option Text)
    (chunks : List UpdateFileChunk) : Except ParseError LineEffect :=
  let updateLine := trimEnd line
  if atEof chunks ∧ updateLine = [] then .ok .skip
  else if atEof chunks ∧ ¬ isContextHeader updateLine then
    .error (.invalidHunkError (expectedContextMessage line) lineNumber)
  else
  match if chunks = [] ∧ movePath = none then updateLine.dropPrefix? moveToMarker else none with
  | some moveToPath => .ok (.moveTo moveToPath)
  | none =>
  if isContextHeader updateLine ∧ lastIsEmpty chunks then
    .error (.invalidHunkError (unexpectedLineMessage line) lineNumber)
  else if updateLine = emptyChangeContextMarker then .ok (.openChunk none)
  else match updateLine.dropPrefix? changeContextMarker with
  | some changeContext => .ok (.openChunk (some changeContext))
  | none =>
  if updateLine = eofMarker then
    if lastIsEmpty chunks then .error (.invalidHunkError noLinesMessage lineNumber)
    else .ok .endOfFile
  else contentEffect lineNumber line chunks

/-- Change the last chunk, opening one first when there is none. -/
def changeLastChunk (chunks : List UpdateFileChunk)
    (change : UpdateFileChunk → UpdateFileChunk) : List UpdateFileChunk :=
  chunks.dropLast ++ [change (chunks.getLast?.getD (.opened none))]

/-- The chunks after a line. The end-of-file marker opens no chunk. -/
def LineEffect.chunks (chunks : List UpdateFileChunk) : LineEffect → List UpdateFileChunk
  | .skip => chunks
  | .moveTo _ => chunks
  | .openChunk changeContext => chunks ++ [.opened changeContext]
  | .endOfFile =>
    if chunks = [] then chunks
    else changeLastChunk chunks fun c => { c with isEndOfFile := true }
  | .context line => changeLastChunk chunks fun c =>
      { c with oldLines := c.oldLines ++ [line], newLines := c.newLines ++ [line] }
  | .added line => changeLastChunk chunks fun c => { c with newLines := c.newLines ++ [line] }
  | .removed line => changeLastChunk chunks fun c => { c with oldLines := c.oldLines ++ [line] }

/-- The destination after a line. -/
def LineEffect.movePath (movePath : Option Text) : LineEffect → Option Text
  | .moveTo path => some path
  | _ => movePath

/-- `process_line`: the state after one line. -/
def processLine (p : StreamingPatchParser) (line : Text) :
    Except ParseError StreamingParserState :=
  let trimmed := trim line
  match p.state.mode with
  | .notStarted =>
    if trimmed = beginPatchMarker then .ok { p.state with mode := .startedPatch }
    else .error (.invalidPatchError firstLineMessage)
  | .startedPatch => do
    match ← handleHunkHeadersAndEndPatch p trimmed with
    | some state => return state
    | none => .error (.invalidHunkError (invalidHeaderMessage trimmed) p.lineNumber)
  | .addFile => do
    match ← handleHunkHeadersAndEndPatch p trimmed with
    | some state => return state
    | none =>
      match line, p.state.hunks.getLast? with
      | '+' :: lineToAdd, some (.addFile path contents) =>
        return { p.state with
          hunks := p.state.hunks.dropLast ++ [.addFile path (contents ++ lineToAdd ++ ['\n'])] }
      | _, _ => .error (.invalidHunkError (invalidHeaderMessage trimmed) p.lineNumber)
  | .deleteFile => do
    match ← handleHunkHeadersAndEndPatch p trimmed with
    | some state => return state
    | none => .error (.invalidHunkError (invalidHeaderMessage trimmed) p.lineNumber)
  | .updateFile _ => do
    match ← handleHunkHeadersAndEndPatch p (trimEnd line) with
    | some state => return state
    | none =>
      match p.state.hunks.getLast? with
      | some (.updateFile path movePath chunks) =>
        let effect ← updateEffect p.lineNumber line movePath chunks
        return { p.state with
          hunks := p.state.hunks.dropLast ++
            [.updateFile path (effect.movePath movePath) (effect.chunks chunks)] }
      | _ => .error (.invalidHunkError (unexpectedLineMessage line) p.lineNumber)
  | .endedPatch =>
    if trimmed = [] then .ok p.state else .error (.invalidPatchError lastLineMessage)

/-- The parser with an empty line buffer, about to process one more line. -/
def nextLine (p : StreamingPatchParser) : StreamingPatchParser :=
  { p with lineBuffer := [], lineNumber := p.lineNumber + 1 }

/-- Take a line out of the buffer and process it. -/
def runLine (p : StreamingPatchParser) (line : Text) : StreamingPatchParser × Option ParseError :=
  match processLine (nextLine p) line with
  | .ok state => ({ nextLine p with state := state }, none)
  | .error e => (nextLine p, some e)

/-- The body of the loop of `push_delta`. -/
def pushChar (p : StreamingPatchParser) (ch : Char) : StreamingPatchParser × Option ParseError :=
  if ch = '\n' then runLine p (stripCr p.lineBuffer)
  else ({ p with lineBuffer := p.lineBuffer ++ [ch] }, none)

/-- The loop of `push_delta`. -/
def pushChars : StreamingPatchParser → Text → StreamingPatchParser × Option ParseError :=
  steps pushChar

/-- `push_delta`: the hunks read so far, or the error that stopped the delta. -/
def pushDelta (p : StreamingPatchParser) (delta : Text) :
    StreamingPatchParser × Except ParseError (List Hunk) :=
  match pushChars p delta with
  | (p', none) => (p', .ok p'.state.hunks)
  | (p', some e) => (p', .error e)

/-- The part of `finish` that takes the last line, which has no newline. -/
def finishLine (p : StreamingPatchParser) : StreamingPatchParser × Option ParseError :=
  if p.lineBuffer = [] then (p, none)
  else if trim p.lineBuffer = endPatchMarker then
    match ensureUpdateHunkIsNotEmpty (nextLine p) (trim p.lineBuffer) with
    | .ok _ => ({ nextLine p with state := { p.state with mode := .endedPatch } }, none)
    | .error e => (nextLine p, some e)
  else runLine p p.lineBuffer

/-- `finish`. -/
def finish (p : StreamingPatchParser) : StreamingPatchParser × Except ParseError (List Hunk) :=
  match finishLine p with
  | (p', some e) => (p', .error e)
  | (p', none) =>
    if p'.state.mode = .endedPatch then (p', .ok p'.state.hunks)
    else (p', .error (.invalidPatchError lastLineMessage))

end StreamingPatchParser

end TokenCode.ApplyPatch
