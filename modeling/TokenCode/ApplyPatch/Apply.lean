/-
Applying hunks to files (`apply_hunks_to_files` and its helpers in `apply-patch/src/lib.rs`).

The hunks are applied one after the other; the first error ends the application, and the
`AppliedPatchDelta` keeps what was committed before.
-/
import TokenCode.ApplyPatch.FileSystem

namespace TokenCode.ApplyPatch

open Text

/-! ### Error contexts -/

def deleteContext (path : Text) : Text := "Failed to delete file ".toList ++ path
def removeOriginalContext (path : Text) : Text := "Failed to remove original ".toList ++ path
def writeContext (path : Text) : Text := "Failed to write file ".toList ++ path
def readToUpdateContext (path : Text) : Text := "Failed to read file to update ".toList ++ path
def createParentsContext (path : Text) : Text :=
  "Failed to create parent directories for ".toList ++ path

/-- `AffectedPaths`, with the paths as the patch spells them. -/
structure AffectedPaths where
  added : List Text
  modified : List Text
  deleted : List Text
deriving DecidableEq, Repr

section

variable {Uri Path : Type} [DecidableEq Path] (host : Host Uri Path)

/-- `with_context`. -/
def withContext {α : Type} (context : Text → Text) (path : Uri) (x : Fs Uri Path ErrorKind α) :
    Fs Uri Path ApplyPatchError α :=
  Program.mapError (.ioError (context (host.nativePathString path))) x

/-- `cwd.join(&path)?`. -/
def resolve (cwd : Uri) (path : Text) : Fs Uri Path ApplyPatchError Uri :=
  Program.ofExcept ((host.join cwd path).mapError .pathUri)

/-- `delta.exact = false`. -/
def setInexact {ε : Type} : Fs Uri Path ε Unit := Program.update fun s => { s with exact := false }

/-- `if c { delta.exact = false; }`. -/
def setInexactIf {ε : Type} (c : Prop) [Decidable c] : Fs Uri Path ε Unit :=
  if c then setInexact else return

/-- `delta.exact &= b`. -/
def keepExactIf {ε : Type} (b : Bool) : Fs Uri Path ε Unit :=
  Program.update fun s => { s with exact := s.exact && b }

/-- `delta.changes.push`. -/
def pushChange {ε : Type} (change : AppliedPatchChange Path) : Fs Uri Path ε Unit :=
  Program.update fun s => { s with changes := s.changes ++ [change] }

/-- `note_existing_path_delta_support`. -/
def noteExistingPathDeltaSupport {ε : Type} (path : Uri) : Fs Uri Path ε Unit := do
  match ← Program.attempt (getMetadata host path) with
  | .ok metadata => if metadata.isFile && !metadata.isSymlink then return else setInexact
  | .error .notFound => return
  | .error .other => setInexact

/-- `read_optional_file_text_for_delta`. -/
def readOptionalFileTextForDelta {ε : Type} (path : Uri) : Fs Uri Path ε (Option Text) := do
  noteExistingPathDeltaSupport host path
  match ← Program.attempt (readFileText host path) with
  | .ok content => return some content
  | .error .notFound => return none
  | .error .other => do
    setInexact
    return none

/-- Create the parent directory of a path that could not be written. -/
def createMissingParent (path : Uri) : Fs Uri Path ApplyPatchError Unit :=
  match host.parent path with
  | some parent => withContext host createParentsContext path (createDirectory host parent)
  | none => pure ()

/-- `write_file_with_missing_parent_retry`. -/
def writeFileWithMissingParentRetry (path : Uri) (contents : Text) :
    Fs Uri Path ApplyPatchError Unit := do
  match ← Program.attempt (writeFile host path contents) with
  | .ok () => return
  | .error .notFound => do
    createMissingParent host path
    withContext host writeContext path (writeFile host path contents)
  | .error .other => throw (.ioError (writeContext (host.nativePathString path)) .other)

/-- `try_write!`: a failed write may have changed the file. -/
def tryWrite {ε : Type} (x : Fs Uri Path ε Unit) : Fs Uri Path ε Unit := do
  match ← Program.attempt x with
  | .ok () => return
  | .error e => do
    setInexact
    throw e

/-- `ensure_not_directory`. -/
def ensureNotDirectory (path : Uri) : Fs Uri Path ErrorKind Unit := do
  let metadata ← getMetadata host path
  if metadata.isDirectory then throw .other

/-- `remove_failure_was_side_effect_free`. -/
def removeFailureWasSideEffectFree {ε : Type} (path : Uri) (expectedContent : Option Text) :
    Fs Uri Path ε Bool :=
  match expectedContent with
  | none => return false
  | some expected => do
    match ← Program.attempt (readFileText host path) with
    | .ok content => return content = expected
    | .error _ => return false

/-- `derive_new_contents_from_chunks`. -/
def deriveNewContentsFromChunks (path : Uri) (chunks : List UpdateFileChunk) :
    Fs Uri Path ApplyPatchError AppliedPatch := do
  let originalContents ← withContext host readToUpdateContext path (readFileText host path)
  Program.ofExcept (deriveNewContents (host.nativePathString path) originalContents chunks)

/-- Check that the path is no directory, and remove it. When the removal fails, the delta stays
exact if the file still has the expected content. -/
def removeChecked (path : Uri) (expectedContent : Option Text) (context : Text → Text) :
    Fs Uri Path ApplyPatchError Unit := do
  withContext host context path (ensureNotDirectory host path)
  match ← Program.attempt (withContext host context path (remove host path)) with
  | .ok () => return
  | .error e => do
    let free ← removeFailureWasSideEffectFree host path expectedContent
    keepExactIf free
    throw e

/-- `Hunk::AddFile`. -/
def applyAdd (path : Uri) (contents : Text) : Fs Uri Path ApplyPatchError Unit := do
  let overwrittenContent ← readOptionalFileTextForDelta host path
  tryWrite (writeFileWithMissingParentRetry host path contents)
  pushChange ⟨host.toPathBuf path, .add contents overwrittenContent⟩

/-- `Hunk::DeleteFile`. -/
def applyDelete (path : Uri) : Fs Uri Path ApplyPatchError Unit := do
  noteExistingPathDeltaSupport host path
  let deletedContent := (← Program.attempt (readFileText host path)).toOption
  setInexactIf (deletedContent = none)
  removeChecked host path deletedContent deleteContext
  match deletedContent with
  | some content => pushChange ⟨host.toPathBuf path, .delete content⟩
  | none => return

/-- The move of `Hunk::UpdateFile`: the write of the destination is recorded as an addition,
which becomes an update when the source is gone. -/
def applyMove (path dest : Uri) (applied : AppliedPatch) : Fs Uri Path ApplyPatchError Unit := do
  let overwrittenMoveContent ← readOptionalFileTextForDelta host dest
  tryWrite (writeFileWithMissingParentRetry host dest applied.newContents)
  let destWriteChangeIndex ← Program.inspect fun s => s.changes.length
  pushChange ⟨host.toPathBuf dest, .add applied.newContents overwrittenMoveContent⟩
  removeChecked host path (some applied.originalContents) removeOriginalContext
  Program.update fun s =>
    { s with
      changes := s.changes.set destWriteChangeIndex
        ⟨host.toPathBuf path, .update (some (host.toPathBuf dest)) applied.originalContents
          overwrittenMoveContent applied.newContents⟩ }

/-- `Hunk::UpdateFile` without a destination. -/
def applyInPlace (path : Uri) (applied : AppliedPatch) : Fs Uri Path ApplyPatchError Unit := do
  tryWrite (withContext host writeContext path (writeFile host path applied.newContents))
  pushChange ⟨host.toPathBuf path,
    .update none applied.originalContents none applied.newContents⟩

/-- `Hunk::UpdateFile`. -/
def applyUpdate (cwd path : Uri) (movePath : Option Text) (chunks : List UpdateFileChunk) :
    Fs Uri Path ApplyPatchError Unit := do
  noteExistingPathDeltaSupport host path
  let applied ← deriveNewContentsFromChunks host path chunks
  match movePath with
  | some dest => do
    let dest ← resolve host cwd dest
    applyMove host path dest applied
  | none => applyInPlace host path applied

/-- The body of the loop of `apply_hunks_to_files`. -/
def applyHunk (cwd : Uri) (affected : AffectedPaths) (hunk : Hunk) :
    Fs Uri Path ApplyPatchError AffectedPaths := do
  let path ← resolve host cwd hunk.sourcePath
  match hunk with
  | .addFile _ contents => do
    applyAdd host path contents
    return { affected with added := affected.added ++ [hunk.path] }
  | .deleteFile _ => do
    applyDelete host path
    return { affected with deleted := affected.deleted ++ [hunk.path] }
  | .updateFile _ movePath chunks => do
    applyUpdate host cwd path movePath chunks
    return { affected with modified := affected.modified ++ [hunk.path] }

/-- `apply_hunks_to_files`. -/
def applyHunksToFiles (cwd : Uri) (hunks : List Hunk) :
    Fs Uri Path ApplyPatchError AffectedPaths :=
  if hunks = [] then throw .noFilesModified
  else hunks.foldlM (applyHunk host cwd) ⟨[], [], []⟩

end

/-- An application starts with the files as they are and an empty exact delta. -/
def PatchRun.start {Uri Path : Type} (files : Path → Option Text) : PatchRun Uri Path :=
  ⟨files, 0, [], [], true⟩

/-- A machine on which a path is the text it is written as, and nothing fails. -/
def plainHost : Host Text Text where
  join _ path := .ok path
  toPathBuf path := path
  parent _ := none
  nativePathString path := path
  fault _ := .none

/-- The file map with a single file. -/
def singleFile (path content : Text) : Text → Option Text :=
  Function.update (fun _ => none) path (some content)

end TokenCode.ApplyPatch
