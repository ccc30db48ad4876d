/-
The data of a parsed patch (`apply-patch/src/parser.rs`): the markers of the format, the hunks,
and the two kinds of parse error.

A path of the patch is kept as the text it is written as (`PathBuf::from`); resolving it against
a working directory is the business of `TokenCode.ApplyPatch.FileSystem`.
-/
import TokenCode.Lib.Text

namespace TokenCode.ApplyPatch

/-! ### The markers -/

def beginPatchMarker : Text := "*** Begin Patch".toList
def endPatchMarker : Text := "*** End Patch".toList
def addFileMarker : Text := "*** Add File: ".toList
def deleteFileMarker : Text := "*** Delete File: ".toList
def updateFileMarker : Text := "*** Update File: ".toList
def moveToMarker : Text := "*** Move to: ".toList
def eofMarker : Text := "*** End of File".toList
def changeContextMarker : Text := "@@ ".toList
def emptyChangeContextMarker : Text := "@@".toList

/-- `ENVIRONMENT_ID_MARKER` of `streaming_parser.rs`. -/
def environmentIdMarker : Text := "*** Environment ID:".toList

/-! ### Errors -/

inductive ParseError where
  | invalidPatchError (message : Text)
  | invalidHunkError (message : Text) (lineNumber : ℕ)
deriving DecidableEq, Repr

/-! ### Hunks -/

structure UpdateFileChunk where
  /-- A line that narrows down the position of the chunk. -/
  changeContext : Option Text
  /-- The block of lines that is replaced by `newLines`. -/
  oldLines : List Text
  newLines : List Text
  /-- If set, `oldLines` must occur at the end of the source file. -/
  isEndOfFile : Bool
deriving DecidableEq, Repr

namespace UpdateFileChunk

/-- The chunk that a header opens. -/
def opened (changeContext : Option Text) : UpdateFileChunk := ⟨changeContext, [], [], false⟩

/-- `chunk.old_lines.is_empty() && chunk.new_lines.is_empty()`. -/
def isEmpty (chunk : UpdateFileChunk) : Bool := chunk.oldLines.isEmpty && chunk.newLines.isEmpty

end UpdateFileChunk

inductive Hunk where
  | addFile (path contents : Text)
  | deleteFile (path : Text)
  | updateFile (path : Text) (movePath : Option Text) (chunks : List UpdateFileChunk)
deriving DecidableEq, Repr

namespace Hunk

/-- `Hunk::path`: the path affected by the hunk, the destination for a rename. -/
def path : Hunk → Text
  | addFile path _ => path
  | deleteFile path => path
  | updateFile _ (some path) _ => path
  | updateFile path none _ => path

/-- The text that `Hunk::resolve_path` resolves: the source for a rename. -/
def sourcePath : Hunk → Text
  | addFile path _ => path
  | deleteFile path => path
  | updateFile path _ _ => path

/-- The destination of a rename. -/
def movePath : Hunk → Option Text
  | updateFile _ movePath _ => movePath
  | _ => none

end Hunk

/-- The raw patch together with the hunks it parses into. -/
structure ApplyPatchArgs where
  patch : Text
  hunks : List Hunk
  workdir : Option Text
  environmentId : Option Text
deriving DecidableEq, Repr

end TokenCode.ApplyPatch
