/-
File system policies of the sandbox (`protocol/src/permissions.rs`), on a POSIX system without
symbolic links.

A policy is a list of entries, each with a path and the access that it gives or denies. What may be
done with a path is decided by the most specific entry above it; below a writable entry the
directories `.git`, `.agents` and `.tokencode` stay protected unless an entry opens them.

Paths are absolute and in normal form, as `AbsolutePathBuf` keeps them: a path is the list of its
components. What the program asks the system (environment variables, directories, the contents of
`.git` files) is the parameter `Host`.
-/
import TokenCode.Lib.Nearest
import TokenCode.Lib.Text

namespace TokenCode.Permissions

/-! ### Paths (`utils/absolute-path`) -/

abbrev AbsolutePathBuf := List Text

/-- What the program learns from the system. -/
structure Host where
  homeDir : Option AbsolutePathBuf
  /-- The variable `TMPDIR`, if it is set and not empty. -/
  tmpdir : Option AbsolutePathBuf
  isDir : AbsolutePathBuf → Bool
  isFile : AbsolutePathBuf → Bool
  /-- `resolve_gitdir_from_file`: the existing directory that a `.git` file points to. -/
  resolveGitdirFromFile : AbsolutePathBuf → Option AbsolutePathBuf
  /-- `build_glob_matcher`, which may reject a pattern. -/
  buildGlobMatcher : Text → Option (AbsolutePathBuf → Bool)

/-- A system without special directories. -/
def plainHost : Host where
  homeDir := none
  tmpdir := none
  isDir _ := false
  isFile _ := false
  resolveGitdirFromFile _ := none
  buildGlobMatcher _ := none

/-- One component in `normalize_path`. -/
def pushComponent (path : AbsolutePathBuf) (component : Text) : AbsolutePathBuf :=
  if component = [] ∨ component = ".".toList then path
  else if component = "..".toList then path.dropLast
  else path ++ [component]

/-- `absolutize_from`. -/
def absolutizeFrom (path : Text) (base : AbsolutePathBuf) : AbsolutePathBuf :=
  (path.splitOn '/').foldl pushComponent (if path.head? = some '/' then [] else base)

/-- `resolve_path_against_base`, with `maybe_expand_home_directory`. -/
def resolvePathAgainstBase (host : Host) (path : Text) (base : AbsolutePathBuf) :
    AbsolutePathBuf :=
  match host.homeDir, path with
  | some home, ['~'] => home
  | some home, '~' :: '/' :: rest => absolutizeFrom (rest.dropWhile (· == '/')) home
  | _, _ => absolutizeFrom path base

/-- `AbsolutePathBuf::join`. -/
def join (host : Host) (base : AbsolutePathBuf) (path : Text) : AbsolutePathBuf :=
  resolvePathAgainstBase host path base

/-- The first component of the target below the path, after `strip_prefix`. -/
def firstBelow (path target : AbsolutePathBuf) : Option Text :=
  if path <+: target then target[path.length]? else none

/-! ### Policies -/

inductive FileSystemAccessMode where
  | read
  | write
  | deny
deriving DecidableEq, Repr

namespace FileSystemAccessMode

/-- The derived order: among entries for one path `deny` beats `write`, and `write` beats `read`. -/
def precedence : FileSystemAccessMode → ℕ
  | read => 0
  | write => 1
  | deny => 2

lemma precedence_injective : Function.Injective precedence := by
  intro a b h
  cases a <;> cases b <;> first | rfl | cases h

instance : LinearOrder FileSystemAccessMode := LinearOrder.lift' precedence precedence_injective

def canRead : FileSystemAccessMode → Bool
  | deny => false
  | _ => true

def canWrite : FileSystemAccessMode → Bool
  | write => true
  | _ => false

lemma canWrite_iff {access : FileSystemAccessMode} : access.canWrite = true ↔ access = write := by
  cases access <;> decide

end FileSystemAccessMode

inductive FileSystemSpecialPath where
  | root
  | minimal
  | projectRoots (subpath : Option Text)
  | tmpdir
  | slashTmp
  | unknown (path : Text) (subpath : Option Text)
deriving DecidableEq, Repr

inductive FileSystemPath where
  | path (path : AbsolutePathBuf)
  | globPattern (pattern : Text)
  | special (value : FileSystemSpecialPath)
deriving DecidableEq, Repr

structure FileSystemSandboxEntry where
  path : FileSystemPath
  access : FileSystemAccessMode
deriving DecidableEq, Repr

inductive FileSystemSandboxKind where
  | restricted
  | unrestricted
  | externalSandbox
deriving DecidableEq, Repr

structure FileSystemSandboxPolicy where
  kind : FileSystemSandboxKind
  globScanMaxDepth : Option ℕ
  entries : List FileSystemSandboxEntry
deriving DecidableEq, Repr

structure ResolvedFileSystemEntry where
  path : AbsolutePathBuf
  access : FileSystemAccessMode
deriving DecidableEq, Repr

/-- `PROTECTED_METADATA_PATH_NAMES`. -/
def protectedMetadataPathNames : List Text :=
  [".git".toList, ".agents".toList, ".tokencode".toList]

def slashTmp : AbsolutePathBuf := ["tmp".toList]

/-- `resolve_file_system_special_path`. -/
def resolveFileSystemSpecialPath (host : Host) (cwd : AbsolutePathBuf) :
    FileSystemSpecialPath → Option AbsolutePathBuf
  | .root => none
  | .minimal => none
  | .unknown _ _ => none
  | .projectRoots (some subpath) => some (resolvePathAgainstBase host subpath cwd)
  | .projectRoots none => some cwd
  | .tmpdir => host.tmpdir
  | .slashTmp => if host.isDir slashTmp then some slashTmp else none

/-- `resolve_file_system_path`. -/
def resolveFileSystemPath (host : Host) (cwd : AbsolutePathBuf) :
    FileSystemPath → Option AbsolutePathBuf
  | .path path => some path
  | .globPattern _ => none
  | .special value => resolveFileSystemSpecialPath host cwd value

/-- `resolve_entry_path`, with the root of the file system for `Root`. -/
def resolveEntryPath (host : Host) (cwd : AbsolutePathBuf) :
    FileSystemPath → Option AbsolutePathBuf
  | .special .root => some []
  | path => resolveFileSystemPath host cwd path

/-- `special_paths_share_target`: equal tokens. -/
def specialPathsShareTarget (left right : FileSystemSpecialPath) : Bool := left == right

/-- `special_path_matches_absolute_path`. -/
def specialPathMatchesAbsolutePath (value : FileSystemSpecialPath) (path : AbsolutePathBuf) :
    Bool :=
  match value with
  | .root => path.isEmpty
  | .slashTmp => path == slashTmp
  | _ => false

/-- `file_system_paths_share_target`. -/
def fileSystemPathsShareTarget : FileSystemPath → FileSystemPath → Bool
  | .path left, .path right => left == right
  | .special left, .special right => specialPathsShareTarget left right
  | .path path, .special value => specialPathMatchesAbsolutePath value path
  | .special value, .path path => specialPathMatchesAbsolutePath value path
  | .globPattern left, .globPattern right => left == right
  | .globPattern _, _ => false
  | _, .globPattern _ => false

/-- `metadata_path_name`. -/
def metadataPathName (name : Text) : Option Text :=
  protectedMetadataPathNames.find? (· == name)

namespace FileSystemSandboxPolicy

/-- `restricted`. -/
def restricted (entries : List FileSystemSandboxEntry) : FileSystemSandboxPolicy :=
  ⟨.restricted, none, entries⟩

/-- `has_root_access`. -/
def hasRootAccess (policy : FileSystemSandboxPolicy) (check : FileSystemAccessMode → Bool) :
    Bool :=
  policy.kind == .restricted &&
    policy.entries.any fun entry => entry.path == .special .root && check entry.access

/-- `has_denied_read_restrictions`. -/
def hasDeniedReadRestrictions (policy : FileSystemSandboxPolicy) : Bool :=
  policy.kind == .restricted && policy.entries.any fun entry => entry.access == .deny

/-- `has_same_target_write_override`. -/
def hasSameTargetWriteOverride (policy : FileSystemSandboxPolicy) (entry : FileSystemSandboxEntry) :
    Bool :=
  policy.entries.any fun candidate =>
    candidate.access.canWrite && decide (entry.access < candidate.access) &&
      fileSystemPathsShareTarget candidate.path entry.path

/-- `has_write_narrowing_entries`. -/
def hasWriteNarrowingEntries (policy : FileSystemSandboxPolicy) : Bool :=
  policy.kind == .restricted &&
    policy.entries.any fun entry =>
      !entry.access.canWrite &&
        match entry.path with
        | .path _ => !policy.hasSameTargetWriteOverride entry
        | .globPattern _ => true
        | .special .root => entry.access == .deny
        | .special .minimal => false
        | .special (.unknown _ _) => false
        | .special _ => !policy.hasSameTargetWriteOverride entry

/-- `has_full_disk_write_access`. -/
def hasFullDiskWriteAccess (policy : FileSystemSandboxPolicy) : Bool :=
  match policy.kind with
  | .restricted => policy.hasRootAccess FileSystemAccessMode.canWrite && !policy.hasWriteNarrowingEntries
  | _ => true

/-- `resolved_entries_with_cwd`. -/
def resolvedEntriesWithCwd (host : Host) (policy : FileSystemSandboxPolicy)
    (cwd : AbsolutePathBuf) : List ResolvedFileSystemEntry :=
  policy.entries.filterMap fun entry =>
    (resolveEntryPath host cwd entry.path).map fun path => ⟨path, entry.access⟩

/-- `resolve_access_with_cwd`, with `resolved_entry_precedence`. -/
def resolveAccessWithCwd (host : Host) (policy : FileSystemSandboxPolicy)
    (path cwd : AbsolutePathBuf) : FileSystemAccessMode :=
  match policy.kind with
  | .restricted =>
    ((Nearest.winner ResolvedFileSystemEntry.path ResolvedFileSystemEntry.access
      (policy.resolvedEntriesWithCwd host cwd) path).map ResolvedFileSystemEntry.access).getD .deny
  | _ => .write

/-- `can_read_path_with_cwd`. -/
def canReadPathWithCwd (host : Host) (policy : FileSystemSandboxPolicy)
    (path cwd : AbsolutePathBuf) : Bool :=
  (policy.resolveAccessWithCwd host path cwd).canRead

/-- What a writable entry protects of the target: the path of a metadata directory. -/
def metadataChild (host : Host) (target : AbsolutePathBuf) (entry : ResolvedFileSystemEntry) :
    Option (AbsolutePathBuf × Text) := do
  let firstComponent ← firstBelow entry.path target
  let metadataName ← metadataPathName firstComponent
  some (join host entry.path metadataName, metadataName)

/-- `metadata_child_of_writable_root`: the first entry that has one decides. -/
def metadataChildOfWritableRoot (host : Host) (policy : FileSystemSandboxPolicy)
    (target cwd : AbsolutePathBuf) : Option (AbsolutePathBuf × Text) :=
  ((policy.resolvedEntriesWithCwd host cwd).filter (·.access.canWrite)).findSome?
    (metadataChild host target)

/-- `has_explicit_write_entry_for_metadata_path`. -/
def hasExplicitWriteEntryForMetadataPath (host : Host) (policy : FileSystemSandboxPolicy)
    (protectedMetadataPath target cwd : AbsolutePathBuf) : Bool :=
  (policy.resolvedEntriesWithCwd host cwd).any fun entry =>
    entry.access.canWrite && decide (entry.path <+: target) &&
      decide (protectedMetadataPath <+: entry.path)

/-- `is_metadata_write_denied`. -/
def isMetadataWriteDenied (host : Host) (policy : FileSystemSandboxPolicy)
    (path cwd : AbsolutePathBuf) : Bool :=
  match policy.kind with
  | .restricted =>
    match policy.metadataChildOfWritableRoot host path cwd with
    | some (protectedMetadataPath, _) =>
      !policy.hasExplicitWriteEntryForMetadataPath host protectedMetadataPath path cwd
    | none => false
  | _ => false

/-- `can_write_path_with_cwd`. -/
def canWritePathWithCwd (host : Host) (policy : FileSystemSandboxPolicy)
    (path cwd : AbsolutePathBuf) : Bool :=
  if !(policy.resolveAccessWithCwd host path cwd).canWrite then false
  else if policy.hasFullDiskWriteAccess then true
  else !policy.isMetadataWriteDenied host path cwd

end FileSystemSandboxPolicy

end TokenCode.Permissions
