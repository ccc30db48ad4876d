/-
The new contents of an updated file (`compute_replacements`, `apply_replacements` and the pure
part of `derive_new_contents_from_chunks` in `apply-patch/src/lib.rs`, and `seek_sequence.rs`).

A chunk is located in the lines of the file by four searches of decreasing strictness; the located
regions are then replaced, last one first.
-/
import TokenCode.ApplyPatch.Hunk
import TokenCode.Lib.Steps

namespace TokenCode.ApplyPatch

open Text

/-! ### Errors of an application -/

/-- `io::ErrorKind`, as far as the code tells the kinds apart. -/
inductive ErrorKind where
  | notFound
  | other
deriving DecidableEq, Repr

/-- `PathUriParseError`. -/
structure PathUriParseError where
  message : Text
deriving DecidableEq, Repr

/-- `ApplyPatchError` and the errors that `apply_hunks_to_files` reports with a context. -/
inductive ApplyPatchError where
  | noFilesModified
  | ioError (context : Text) (source : ErrorKind)
  | computeReplacements (message : Text)
  | pathUri (error : PathUriParseError)
deriving DecidableEq, Repr

def contextNotFoundMessage (ctxLine path : Text) : Text :=
  "Failed to find context '".toList ++ ctxLine ++ "' in ".toList ++ path

def linesNotFoundMessage (path : Text) (oldLines : List Text) : Text :=
  "Failed to find expected lines in ".toList ++ path ++ ":\n".toList ++ joinNewline oldLines

/-! ### Locating lines -/

/-- The typographic characters that `normalise` replaces: dashes, single quotes, double quotes and
odd spaces. -/
def normaliseChar (c : Char) : Char :=
  if c.toNat ∈ [0x2010, 0x2011, 0x2012, 0x2013, 0x2014, 0x2015, 0x2212] then '-'
  else if c.toNat ∈ [0x2018, 0x2019, 0x201A, 0x201B] then '\''
  else if c.toNat ∈ [0x201C, 0x201D, 0x201E, 0x201F] then '"'
  else if c.toNat ∈ [0x00A0, 0x2002, 0x2003, 0x2004, 0x2005, 0x2006, 0x2007, 0x2008, 0x2009,
      0x200A, 0x202F, 0x205F, 0x3000] then ' '
  else c

/-- `normalise`. -/
def normalise (s : Text) : Text := (trim s).map normaliseChar

/-- One pass of `seek_sequence`: the first position from `searchStart` on at which the pattern
matches up to `view`. -/
def seekPass (lines pattern : List Text) (searchStart : ℕ) (view : Text → Text) : Option ℕ :=
  ((List.range (lines.length - pattern.length + 1)).drop searchStart).find? fun i =>
    ((lines.drop i).take pattern.length).map view = pattern.map view

/-- `seek_sequence`. -/
def seekSequence (lines pattern : List Text) (start : ℕ) (eof : Bool) : Option ℕ :=
  if pattern = [] then some start
  else if lines.length < pattern.length then none
  else
    let searchStart :=
      if eof ∧ pattern.length ≤ lines.length then lines.length - pattern.length else start
    seekPass lines pattern searchStart id <|> seekPass lines pattern searchStart trimEnd <|>
      seekPass lines pattern searchStart trim <|> seekPass lines pattern searchStart normalise

/-! ### Replacements -/

/-- A replacement: `oldLen` lines from `startIndex` on give way to `newLines`. -/
structure Replacement where
  startIndex : ℕ
  oldLen : ℕ
  newLines : List Text
deriving DecidableEq, Repr

/-- `pattern[..pattern.len() - 1]` when the last line is empty. -/
def dropEmptyLast (lines : List Text) : List Text :=
  if lines.getLast? = some [] then lines.dropLast else lines

/-- The replacement of a chunk with old lines, from `lineIndex` on. When the old lines end in an
empty line and are not found, they are searched again without it. -/
def locateChunk (originalLines : List Text) (path : Text) (chunk : UpdateFileChunk)
    (lineIndex : ℕ) : Except ApplyPatchError Replacement :=
  match seekSequence originalLines chunk.oldLines lineIndex chunk.isEndOfFile with
  | some startIndex => .ok ⟨startIndex, chunk.oldLines.length, chunk.newLines⟩
  | none =>
    let pattern := dropEmptyLast chunk.oldLines
    match if chunk.oldLines.getLast? = some [] then
        seekSequence originalLines pattern lineIndex chunk.isEndOfFile else none with
    | some startIndex => .ok ⟨startIndex, pattern.length, dropEmptyLast chunk.newLines⟩
    | none => .error (.computeReplacements (linesNotFoundMessage path chunk.oldLines))

/-- One chunk of `compute_replacements`: the replacements so far, and the line to search from. -/
def computeReplacement (originalLines : List Text) (path : Text) (st : List Replacement × ℕ)
    (chunk : UpdateFileChunk) : Except ApplyPatchError (List Replacement × ℕ) := do
  let lineIndex ← match chunk.changeContext with
    | none => .ok st.2
    | some ctxLine =>
      match seekSequence originalLines [ctxLine] st.2 false with
      | some index => .ok (index + 1)
      | none => .error (.computeReplacements (contextNotFoundMessage ctxLine path))
  if chunk.oldLines = [] then
    -- a pure addition goes to the end, in front of a final empty line
    let insertionIndex :=
      if originalLines.getLast? = some [] then originalLines.length - 1 else originalLines.length
    return (st.1 ++ [⟨insertionIndex, 0, chunk.newLines⟩], lineIndex)
  else
    let replacement ← locateChunk originalLines path chunk lineIndex
    return (st.1 ++ [replacement], replacement.startIndex + replacement.oldLen)

/-- `compute_replacements`. -/
def computeReplacements (originalLines : List Text) (path : Text)
    (chunks : List UpdateFileChunk) : Except ApplyPatchError (List Replacement) := do
  let st ← chunks.foldlM (computeReplacement originalLines path) ([], 0)
  return st.1.mergeSort fun a b => a.startIndex ≤ b.startIndex

/-- The body of the loop of `apply_replacements`. The source panics when the position lies
beyond the end of the lines; here the line is then dropped. -/
def applyReplacement (lines : List Text) (r : Replacement) : List Text :=
  let removed := (fun ls : List Text =>
    if r.startIndex < ls.length then ls.eraseIdx r.startIndex else ls)^[r.oldLen] lines
  r.newLines.zipIdx.foldl (fun ls new => ls.insertIdx (r.startIndex + new.2) new.1) removed

/-- `apply_replacements`. -/
def applyReplacements (lines : List Text) (replacements : List Replacement) : List Text :=
  replacements.reverse.foldl applyReplacement lines

/-- `AppliedPatch`. -/
structure AppliedPatch where
  originalContents : Text
  newContents : Text
deriving DecidableEq, Repr

/-- What `derive_new_contents_from_chunks` makes of the contents of the file. -/
def deriveNewContents (path : Text) (originalContents : Text) (chunks : List UpdateFileChunk) :
    Except ApplyPatchError AppliedPatch := do
  let originalLines := dropEmptyLast (splitNewline originalContents)
  let replacements ← computeReplacements originalLines path chunks
  let newLines := applyReplacements originalLines replacements
  let newLines := if newLines.getLast? = some [] then newLines else newLines ++ [[]]
  return ⟨originalContents, joinNewline newLines⟩

lemma deriveNewContents_original {path original : Text} {chunks : List UpdateFileChunk}
    {applied : AppliedPatch} (h : deriveNewContents path original chunks = .ok applied) :
    applied.originalContents = original := by
  unfold deriveNewContents at h
  obtain ⟨replacements, -, h⟩ := except_bind_eq_ok.1 h
  cases h
  rfl

end TokenCode.ApplyPatch
