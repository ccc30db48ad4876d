/-
The file system that a patch is verified against and applied to (the operations of
`ExecutorFileSystem` that `apply-patch` calls).

The files are regular text files, held in a map from native paths to contents. Every operation
may fail without having changed a file: `Host.fault n` says what happens to the `n`-th one. An
absent file is reported as `NotFound`; a file that is there is never reported so, but a write can
be when the parent directory is missing. Path URIs belong to another crate; joining a path, the
native path and the parent of a URI are parameters.
-/
import TokenCode.ApplyPatch.DeriveContents
import TokenCode.Lib.Program

namespace TokenCode.ApplyPatch

open Text

/-- What can happen to a single operation. -/
inductive Fault where
  | none
  | missingParent
  | failed
deriving DecidableEq, Repr

/-- The paths and the faults of a machine. -/
structure Host (Uri Path : Type) where
  /-- `PathUri::join`. -/
  join : Uri → Text → Except PathUriParseError Uri
  /-- `PathUri::to_path_buf`. -/
  toPathBuf : Uri → Path
  /-- `PathUri::parent`. -/
  parent : Uri → Option Uri
  /-- `PathUri::inferred_native_path_string`. -/
  nativePathString : Uri → Text
  fault : ℕ → Fault

/-- `AppliedPatchFileChange`. -/
inductive AppliedPatchFileChange (Path : Type) where
  | add (content : Text) (overwrittenContent : Option Text)
  | delete (content : Text)
  | update (movePath : Option Path) (oldContent : Text) (overwrittenMoveContent : Option Text)
      (newContent : Text)
deriving DecidableEq, Repr

/-- `AppliedPatchChange`. -/
structure AppliedPatchChange (Path : Type) where
  path : Path
  change : AppliedPatchFileChange Path
deriving DecidableEq, Repr

/-- The files and the `AppliedPatchDelta` of an application. `touched` has the URIs that were
written or removed; the program never looks at it. -/
structure PatchRun (Uri Path : Type) where
  files : Path → Option Text
  clock : ℕ
  touched : List Uri
  changes : List (AppliedPatchChange Path)
  exact : Bool

/-- `fs.get_metadata`. -/
structure Metadata where
  isFile : Bool
  isDirectory : Bool
  isSymlink : Bool
deriving DecidableEq, Repr

section

variable {Uri Path : Type} [DecidableEq Path]

/-- A program that works on files. -/
abbrev Fs (Uri Path ε α : Type) := Program (PatchRun Uri Path) ε α

/-- What happens to the next operation. -/
def nextFault {ε : Type} (host : Host Uri Path) : Fs Uri Path ε Fault := fun s =>
  (.ok (host.fault s.clock), { s with clock := s.clock + 1 })

/-- The file at a path, for the operations that need one. -/
def findFile (host : Host Uri Path) (path : Uri) : Fs Uri Path ErrorKind Text := do
  let fault ← nextFault host
  let file ← Program.inspect fun s => s.files (host.toPathBuf path)
  match file, fault with
  | some content, .none => return content
  | some _, _ => throw .other
  | none, .failed => throw .other
  | none, _ => throw .notFound

/-- `read_file_text`. -/
def readFileText (host : Host Uri Path) (path : Uri) : Fs Uri Path ErrorKind Text :=
  findFile host path

/-- `get_metadata`: what is there is a regular file. -/
def getMetadata (host : Host Uri Path) (path : Uri) : Fs Uri Path ErrorKind Metadata := do
  let _ ← findFile host path
  return ⟨true, false, false⟩

/-- The state after a write. -/
def wrote (host : Host Uri Path) (path : Uri) (contents : Text) (s : PatchRun Uri Path) :
    PatchRun Uri Path :=
  { s with
    files := Function.update s.files (host.toPathBuf path) (some contents)
    touched := s.touched ++ [path] }

/-- The state after a removal. -/
def removed (host : Host Uri Path) (path : Uri) (s : PatchRun Uri Path) : PatchRun Uri Path :=
  { s with
    files := Function.update s.files (host.toPathBuf path) none
    touched := s.touched ++ [path] }

/-- `write_file`. -/
def writeFile (host : Host Uri Path) (path : Uri) (contents : Text) :
    Fs Uri Path ErrorKind Unit := do
  match ← nextFault host with
  | .none => Program.update (wrote host path contents)
  | .missingParent => throw .notFound
  | .failed => throw .other

/-- `create_directory`: directories are not part of the file map. -/
def createDirectory (host : Host Uri Path) (_path : Uri) : Fs Uri Path ErrorKind Unit := do
  match ← nextFault host with
  | .none => return
  | _ => throw .other

/-- `remove`, of a file. -/
def remove (host : Host Uri Path) (path : Uri) : Fs Uri Path ErrorKind Unit := do
  let _ ← findFile host path
  Program.update (removed host path)

/-! ### What the operations do

The operations move the clock, so a condition on the state has to hold for every clock
(`ClockFree`); the conditions that are of interest do not mention it. -/

/-- The condition does not depend on the clock. -/
def ClockFree (P : PatchRun Uri Path → Prop) : Prop := ∀ s n, P s → P { s with clock := n }

variable {host : Host Uri Path} {P : PatchRun Uri Path → Prop}

omit [DecidableEq Path] in
lemma nextFault_triple {ε : Type} {E : ε → PatchRun Uri Path → Prop} (hP : ClockFree P) :
    Program.Triple P (nextFault host : Fs Uri Path ε Fault)
      (fun fault s => P s ∧ ∃ n, fault = host.fault n) E :=
  fun s hs => ⟨hP s _ hs, s.clock, rfl⟩

omit [DecidableEq Path] in
/-- An operation that needs a file finds it, or the file is absent, or the operation failed. -/
lemma findFile_triple (path : Uri) (hP : ClockFree P) : Program.Triple P (findFile host path)
      (fun content s => P s ∧ s.files (host.toPathBuf path) = some content)
      (fun e s => P s ∧ (s.files (host.toPathBuf path) = none ∨
        (e = .other ∧ ∃ n, host.fault n ≠ .none))) := by
  refine (nextFault_triple hP).bind fun fault => ?_
  refine (Program.Triple.inspect (Q := fun file s =>
    P s ∧ (∃ n, fault = host.fault n) ∧ s.files (host.toPathBuf path) = file)
    fun s hs => ⟨hs.1, hs.2, rfl⟩).bind fun file => ?_
  split
  · exact .pure fun s hs => ⟨hs.1, hs.2.2⟩
  · rename_i hfault
    refine .throw fun s hs => ⟨hs.1, Or.inr ⟨rfl, ?_⟩⟩
    obtain ⟨n, rfl⟩ := hs.2.1
    exact ⟨n, hfault⟩
  all_goals exact .throw fun s hs => ⟨hs.1, Or.inl hs.2.2⟩

lemma writeFile_triple {path : Uri} {contents : Text} {Q : PatchRun Uri Path → Prop}
    (hP : ClockFree P) (hQ : ∀ s, P s → Q (wrote host path contents s)) :
    Program.Triple P (writeFile host path contents) (fun _ s => Q s)
      (fun _ s => P s ∧ ∃ n, host.fault n ≠ .none) := by
  refine (nextFault_triple hP).bind fun fault => ?_
  cases fault with
  | none => exact .update fun s hs => hQ s hs.1
  | missingParent | failed =>
    refine .throw fun s hs => ⟨hs.1, ?_⟩
    obtain ⟨n, hn⟩ := hs.2
    exact ⟨n, by simp [← hn]⟩

omit [DecidableEq Path] in
lemma createDirectory_triple (path : Uri) (hP : ClockFree P) :
    Program.Triple P (createDirectory host path) (fun _ s => P s) (fun _ s => P s) := by
  refine (nextFault_triple hP).bind fun fault => ?_
  cases fault with
  | none => exact .pure fun s hs => hs.1
  | missingParent | failed => exact .throw fun s hs => hs.1

lemma remove_triple {path : Uri} {Q : PatchRun Uri Path → Prop} (hP : ClockFree P)
    (hQ : ∀ s, P s → s.files (host.toPathBuf path) ≠ none → Q (removed host path s)) :
    Program.Triple P (remove host path) (fun _ s => Q s)
      (fun e s => P s ∧ (s.files (host.toPathBuf path) = none ∨
        (e = .other ∧ ∃ n, host.fault n ≠ .none))) := by
  refine (findFile_triple path hP).bind fun content => ?_
  exact .update fun s hs => hQ s hs.1 (by simp [hs.2])

end

end TokenCode.ApplyPatch
