/-
The writable roots of a policy (`get_writable_roots_with_cwd`), which the sandbox of the operating
system enforces.

A policy is compiled to one root for each writable entry, with the subpaths that stay read-only and
the metadata names that stay protected directly below the root. A path is writable if one of the
roots says so; whether that is sound is decided at the metadata directories of the writable entries
(`writableRoots_sound_iff`). A root does not protect the metadata directories of a writable entry
further down, unless something else is read-only in between.
-/
import TokenCode.Permissions.Resolution

namespace TokenCode.Permissions

open Bool (and_eq_true eq_false_iff not_eq_true' false_eq_true)
open List Option FileSystemSandboxPolicy FileSystemAccessMode

structure WritableRoot where
  root : AbsolutePathBuf
  readOnlySubpaths : List AbsolutePathBuf
  protectedMetadataNames : List Text
deriving DecidableEq, Repr

namespace WritableRoot

/-- `path_contains_protected_metadata_name`. -/
def pathContainsProtectedMetadataName (root : WritableRoot) (path : AbsolutePathBuf) : Bool :=
  (firstBelow root.root path).any fun firstComponent =>
    root.protectedMetadataNames.any (· == firstComponent)

/-- `is_path_writable`. -/
def isPathWritable (root : WritableRoot) (path : AbsolutePathBuf) : Bool :=
  decide (root.root <+: path) && root.readOnlySubpaths.all (fun subpath => !decide (subpath <+: path))
    && !root.pathContainsProtectedMetadataName path

end WritableRoot

/-! ### Compiling a policy -/

/-- `dedup_absolute_paths`; without symbolic links paths are their own effective paths. -/
def dedupAbsolutePaths (paths : List AbsolutePathBuf) : List AbsolutePathBuf := paths.eraseDups

/-- `default_read_only_subpaths_for_writable_root`. -/
def defaultReadOnlySubpathsForWritableRoot (host : Host) (writableRoot : AbsolutePathBuf)
    (protectMissingDotCodex : Bool) : List AbsolutePathBuf :=
  let topLevelGit := join host writableRoot ".git".toList
  let gitSubpaths :=
    if host.isDir topLevelGit || host.isFile topLevelGit then
      -- a `.git` file points to the directory of a worktree or a submodule
      (if host.isFile topLevelGit then (host.resolveGitdirFromFile topLevelGit).toList else []) ++
        [topLevelGit]
    else []
  let topLevelAgents := join host writableRoot ".agents".toList
  let agentsSubpaths := if host.isDir topLevelAgents then [topLevelAgents] else []
  let topLevelCodex := join host writableRoot ".tokencode".toList
  let codexSubpaths :=
    if protectMissingDotCodex || host.isDir topLevelCodex then [topLevelCodex] else []
  dedupAbsolutePaths (gitSubpaths ++ agentsSubpaths ++ codexSubpaths)

/-- `has_explicit_resolved_path_entry`. -/
def hasExplicitResolvedPathEntry (entries : List ResolvedFileSystemEntry)
    (path : AbsolutePathBuf) : Bool :=
  entries.any (·.path == path)

/-- `protected_metadata_names_for_writable_root`. -/
def protectedMetadataNamesForWritableRoot (host : Host) (policy : FileSystemSandboxPolicy)
    (root : AbsolutePathBuf) (rawWritableRoots : List AbsolutePathBuf) (cwd : AbsolutePathBuf) :
    List Text :=
  protectedMetadataPathNames.filter fun metadataName =>
    ((root :: rawWritableRoots).map (join host · metadataName)).all fun metadataPath =>
      !policy.canWritePathWithCwd host metadataPath cwd

/-- The path that an entry takes out of a writable root. -/
def carveout (root : AbsolutePathBuf) (rawWritableRoots : List AbsolutePathBuf)
    (entry : ResolvedFileSystemEntry) : Option AbsolutePathBuf :=
  let preserveRawCarveoutPaths := !root.isEmpty
  let rawCarveoutPath :=
    if preserveRawCarveoutPaths then
      if entry.path = root then none
      else if root <+: entry.path then some entry.path
      else rawWritableRoots.findSome? fun rawRoot =>
        if rawRoot <+: entry.path then
          let suffix := entry.path.drop rawRoot.length
          if suffix.isEmpty then none else some (root ++ suffix)
        else none
    else none
  match rawCarveoutPath with
  | some rawCarveoutPath => some rawCarveoutPath
  | none => if entry.path = root ∨ ¬ root <+: entry.path then none else some entry.path

/-- The paths of the writable entries that can be written. -/
def writableEntries (host : Host) (policy : FileSystemSandboxPolicy) (cwd : AbsolutePathBuf) :
    List AbsolutePathBuf :=
  (((policy.resolvedEntriesWithCwd host cwd).filter (·.access.canWrite)).filter fun entry =>
    policy.canWritePathWithCwd host entry.path cwd).map (·.path)

/-- One root of `get_writable_roots_with_cwd`. -/
def writableRoot (host : Host) (policy : FileSystemSandboxPolicy) (cwd root : AbsolutePathBuf) :
    WritableRoot :=
  let resolvedEntries := policy.resolvedEntriesWithCwd host cwd
  let rawWritableRoots := (writableEntries host policy cwd).filter (· == root)
  let defaultSubpaths := (defaultReadOnlySubpathsForWritableRoot host root (cwd == root)).filter
    fun path => !hasExplicitResolvedPathEntry resolvedEntries path
  let carveouts := ((resolvedEntries.filter fun entry => !entry.access.canWrite).filter fun entry =>
    !policy.canWritePathWithCwd host entry.path cwd).filterMap (carveout root rawWritableRoots)
  { root := root
    readOnlySubpaths := dedupAbsolutePaths (defaultSubpaths ++ carveouts)
    protectedMetadataNames :=
      protectedMetadataNamesForWritableRoot host policy root rawWritableRoots cwd }

/-- `get_writable_roots_with_cwd`. -/
def getWritableRootsWithCwd (host : Host) (policy : FileSystemSandboxPolicy)
    (cwd : AbsolutePathBuf) : List WritableRoot :=
  if policy.hasFullDiskWriteAccess then []
  else (dedupAbsolutePaths (writableEntries host policy cwd)).map (writableRoot host policy cwd)

/-! ### Metadata directories -/

variable {host : Host} {depth : Option ℕ} {entries : List FileSystemSandboxEntry}
  {path cwd target below : AbsolutePathBuf} {name : Text} {policy : FileSystemSandboxPolicy}
  {entry resolved : ResolvedFileSystemEntry} {child : AbsolutePathBuf × Text} {root : WritableRoot}
  (h : name ∈ protectedMetadataPathNames)
include h

lemma join_metadataName : join host path name = path ++ [name] := by
  simp only [protectedMetadataPathNames, mem_cons, not_mem_nil, or_false] at h
  rcases h with rfl | rfl | rfl <;>
  · unfold join resolvePathAgainstBase
    cases host.homeDir <;> rfl

omit h in
lemma mem_of_metadataPathName {metadataName : Text} (h : metadataPathName name = some metadataName) :
    metadataName ∈ protectedMetadataPathNames ∧ metadataName = name := by
  refine ⟨mem_of_find?_eq_some h, ?_⟩
  simpa using find?_some h

lemma metadataPathName_of_mem : metadataPathName name = some name := by
  simp only [protectedMetadataPathNames, mem_cons, not_mem_nil, or_false] at h
  rcases h with rfl | rfl | rfl <;> rfl

omit h

lemma firstBelow_eq_some : firstBelow path target = some name ↔ path ++ [name] <+: target := by
  rw [firstBelow]
  constructor
  · intro h
    split_ifs at h with hle
    obtain ⟨rest, rfl⟩ := hle
    cases rest with
    | nil => simp at h
    | cons first rest =>
      obtain rfl : first = name := by simpa using h
      exact ⟨rest, by simp⟩
  · rintro ⟨rest, rfl⟩
    simp

/-- What an entry protects of a target. -/
lemma metadataChild_eq_some : metadataChild host target entry = some child ↔
      child = (entry.path ++ [child.2], child.2) ∧ child.2 ∈ protectedMetadataPathNames ∧
        child.1 <+: target := by
  simp only [metadataChild, bind_eq_bind, bind_eq_some_iff, some.injEq]
  constructor
  · rintro ⟨first, hfirst, name, hname, rfl⟩
    obtain ⟨hmem, rfl⟩ := mem_of_metadataPathName hname
    rw [join_metadataName hmem]
    exact ⟨rfl, hmem, firstBelow_eq_some.1 hfirst⟩
  · rintro ⟨hchild, hmem, htarget⟩
    refine ⟨child.2, firstBelow_eq_some.2 ?_, child.2, metadataPathName_of_mem hmem, ?_⟩
    · rwa [hchild] at htarget
    · rw [join_metadataName hmem]
      exact hchild.symm

/-- The paths of the write entries. -/
def writePaths (resolved : List ResolvedFileSystemEntry) : List AbsolutePathBuf :=
  (resolved.filter (·.access.canWrite)).map (·.path)

lemma mem_writePaths {resolved : List ResolvedFileSystemEntry} :
    path ∈ writePaths resolved ↔ ∃ entry ∈ resolved, entry.access = .write ∧ entry.path = path := by
  simp [writePaths, canWrite_iff, and_assoc]

/-- The first of the write entries with a metadata directory at or above `path/name` is at `path`,
and no write entry opens that directory. -/
def Protects (writes : List AbsolutePathBuf) (path : AbsolutePathBuf) (name : Text) : Prop :=
  path ++ [name] ∉ writes ∧
    ∃ before after, writes = before ++ path :: after ∧
      ∀ other ∈ before, ∀ otherName ∈ protectedMetadataPathNames,
        ¬ other ++ [otherName] <+: path ++ [name]

/-- A path is denied for the sake of a protected directory above it that no write entry opens. -/
lemma exists_protects_of_denied
    (h : isMetadataWriteDenied host ⟨.restricted, depth, entries⟩ path cwd = true) :
    ∃ inner, ∃ name ∈ protectedMetadataPathNames,
      Protects (writePaths (resolvedEntriesWithCwd host ⟨.restricted, depth, entries⟩ cwd)) inner
        name ∧ inner ++ [name] <+: path ∧
      ∀ other ∈ writePaths (resolvedEntriesWithCwd host ⟨.restricted, depth, entries⟩ cwd),
        other <+: path → ¬ inner ++ [name] <+: other := by
  simp only [isMetadataWriteDenied] at h
  cases hchild : metadataChildOfWritableRoot host ⟨.restricted, depth, entries⟩ path cwd with
  | none => simp [hchild] at h
  | some child =>
    simp only [hchild, not_eq_true'] at h
    obtain ⟨before, entry, after, hentries, hentry, hbefore⟩ := findSome?_eq_some_iff.1 hchild
    obtain ⟨heq, hname, htarget⟩ := metadataChild_eq_some.1 hentry
    have hpath : child.1 = entry.path ++ [child.2] := congrArg Prod.fst heq
    rw [hpath] at htarget
    have hclosed : ∀ other ∈
        writePaths (resolvedEntriesWithCwd host ⟨.restricted, depth, entries⟩ cwd),
        other <+: path → ¬ entry.path ++ [child.2] <+: other := by
      intro other hother hcovers hbelow
      obtain ⟨opening, hmem, hwrite, rfl⟩ := mem_writePaths.1 hother
      have hopen : hasExplicitWriteEntryForMetadataPath host ⟨.restricted, depth, entries⟩ child.1
          path cwd = true :=
        List.any_eq_true.2 ⟨opening, hmem, by
          simp [hpath, hcovers, hbelow, canWrite_iff.2 hwrite]⟩
      rw [hopen] at h
      cases h
    refine ⟨entry.path, child.2, hname, ⟨fun hmem => hclosed _ hmem htarget prefix_rfl,
      before.map (·.path), after.map (·.path), by simp [writePaths, hentries], ?_⟩, htarget,
      hclosed⟩
    -- an entry in front that protects something above would have been found
    intro other hother otherName hotherName hbelow
    obtain ⟨otherEntry, hotherEntry, rfl⟩ := List.mem_map.1 hother
    have hsome : metadataChild host path otherEntry =
        some (otherEntry.path ++ [otherName], otherName) :=
      metadataChild_eq_some.2 ⟨rfl, hotherName, hbelow.trans htarget⟩
    exact some_ne_none _ (hsome.symm.trans (hbefore otherEntry hotherEntry))

lemma denied_of_protects (hname : name ∈ protectedMetadataPathNames)
    (h : Protects (writePaths (resolvedEntriesWithCwd host ⟨.restricted, depth, entries⟩ cwd)) path
      name) :
    isMetadataWriteDenied host ⟨.restricted, depth, entries⟩ (path ++ [name]) cwd = true := by
  obtain ⟨hclosed, before, after, hpaths, hbefore⟩ := h
  obtain ⟨beforeEntries, rest, hentries, rfl, hrest⟩ := map_eq_append_iff.1 hpaths
  obtain ⟨entry, afterEntries, rfl, rfl, -⟩ := map_eq_cons_iff.1 hrest
  have hchild : metadataChildOfWritableRoot host ⟨.restricted, depth, entries⟩
      (entry.path ++ [name]) cwd = some (entry.path ++ [name], name) := by
    refine findSome?_eq_some_iff.2 ⟨beforeEntries, entry, afterEntries, hentries,
      metadataChild_eq_some.2 ⟨rfl, hname, prefix_rfl⟩, fun other hother => ?_⟩
    rw [eq_none_iff_forall_ne_some]
    intro child hsome
    obtain ⟨heq, hotherName, hbelow⟩ := metadataChild_eq_some.1 hsome
    rw [heq] at hbelow
    exact hbefore other.path (mem_map_of_mem hother) child.2 hotherName hbelow
  simp only [isMetadataWriteDenied, hchild, not_eq_true', eq_false_iff]
  intro hopen
  obtain ⟨other, hother, hopens⟩ := List.any_eq_true.1 hopen
  simp only [and_eq_true, decide_eq_true_eq] at hopens
  refine hclosed (mem_writePaths.2 ⟨other, hother, canWrite_iff.1 hopens.1.1, ?_⟩)
  exact hopens.1.2.eq_of_length_le hopens.2.length_le

/-! ### Soundness -/

/-- An entry that denies, or that lets only read where no entry lets write, is not writable. -/
lemma canWritePathWithCwd_of_notWrite
    (hentry : entry ∈ resolvedEntriesWithCwd host ⟨.restricted, depth, entries⟩ cwd)
    (h : entry.access = .deny ∨ entry.access = .read ∧
      entry.path ∉ writePaths (resolvedEntriesWithCwd host ⟨.restricted, depth, entries⟩ cwd)) :
    canWritePathWithCwd host ⟨.restricted, depth, entries⟩ entry.path cwd = false := by
  obtain ⟨winner, hwins, hpath, hle⟩ := exists_wins_self hentry
  have hwinner : winner.access ≠ .write := by
    intro hwrite
    rcases h with hdeny | ⟨-, hnone⟩
    · rw [hdeny, hwrite] at hle
      exact absurd hle (by decide)
    · exact hnone (mem_writePaths.2 ⟨winner, hwins.mem, hwrite, hpath⟩)
  rw [canWritePathWithCwd, resolveAccessWithCwd_of_wins hwins,
    eq_false_iff.2 (canWrite_iff.not.2 hwinner)]
  rfl

/-- The path of a write entry can be written unless another entry denies it. -/
lemma mem_writableEntries :
    path ∈ writableEntries host ⟨.restricted, depth, entries⟩ cwd ↔
      path ∈ writePaths (resolvedEntriesWithCwd host ⟨.restricted, depth, entries⟩ cwd) ∧
        ∀ entry ∈ resolvedEntriesWithCwd host ⟨.restricted, depth, entries⟩ cwd,
          entry.path = path → entry.access ≠ .deny := by
  have hiff : path ∈ writableEntries host ⟨.restricted, depth, entries⟩ cwd ↔
      path ∈ writePaths (resolvedEntriesWithCwd host ⟨.restricted, depth, entries⟩ cwd) ∧
        canWritePathWithCwd host ⟨.restricted, depth, entries⟩ path cwd = true := by
    simp only [writableEntries, writePaths, List.mem_map, mem_filter]
    constructor
    · rintro ⟨entry, ⟨hentry, hwrite⟩, rfl⟩
      exact ⟨⟨entry, hentry, rfl⟩, hwrite⟩
    · rintro ⟨⟨entry, hentry, rfl⟩, hwrite⟩
      exact ⟨entry, ⟨hentry, hwrite⟩, rfl⟩
  rw [hiff]
  refine and_congr_right fun hpath => ⟨?_, fun hnone => ?_⟩
  · rintro hwrite entry hentry rfl hdeny
    rw [canWritePathWithCwd_of_notWrite hentry (.inl hdeny)] at hwrite
    cases hwrite
  · obtain ⟨entry, hentry, haccess, rfl⟩ := mem_writePaths.1 hpath
    obtain ⟨winner, hwins, hsame, hle⟩ := exists_wins_self hentry
    have hresolve : resolveAccessWithCwd host ⟨.restricted, depth, entries⟩ entry.path cwd =
        .write := by
      rw [resolveAccessWithCwd_of_wins hwins]
      have hnot := hnone winner hwins.mem hsame
      rw [haccess] at hle
      revert hle hnot
      cases winner.access <;> decide
    -- the entry itself opens every directory above it
    have hopen :
        isMetadataWriteDenied host ⟨.restricted, depth, entries⟩ entry.path cwd ≠ true := by
      intro hdenied
      obtain ⟨inner, name, -, -, hbelow, hclosed⟩ := exists_protects_of_denied hdenied
      exact hclosed entry.path hpath prefix_rfl hbelow
    rw [canWritePathWithCwd, hresolve, eq_false_iff.2 hopen]
    cases hasFullDiskWriteAccess ⟨.restricted, depth, entries⟩ <;> rfl

/-- A root is compiled from a writable entry that can be written. -/
lemma mem_getWritableRootsWithCwd : root ∈ getWritableRootsWithCwd host policy cwd ↔
      policy.hasFullDiskWriteAccess = false ∧ ∃ path ∈ writableEntries host policy cwd,
        root = writableRoot host policy cwd path := by
  rw [getWritableRootsWithCwd]
  split
  next hfull => simp [hfull]
  next hfull =>
    simp [dedupAbsolutePaths, hfull, eq_comm]

lemma carveout_eq_some {rootPath subpath : AbsolutePathBuf} :
    carveout rootPath ((writableEntries host policy cwd).filter (· == rootPath)) entry =
      some subpath ↔ entry.path = subpath ∧ rootPath <+: entry.path ∧ entry.path ≠ rootPath := by
  by_cases hbelow : rootPath <+: entry.path
  · by_cases heq : entry.path = rootPath <;> cases rootPath <;> simp [carveout, heq, hbelow]
  · -- the raw roots are the root itself
    have hraw : ((writableEntries host policy cwd).filter (· == rootPath)).findSome? (fun rawRoot =>
        if rawRoot <+: entry.path then
          if (entry.path.drop rawRoot.length).isEmpty then none
          else some (rootPath ++ entry.path.drop rawRoot.length)
        else none) = none := by
      refine findSome?_eq_none_iff.2 fun rawRoot hmem => ?_
      rw [beq_iff_eq.1 (mem_filter.1 hmem).2, if_neg hbelow]
    simp only [carveout, hraw, hbelow, if_false, not_false_eq_true, or_true, if_true, false_and,
      and_false, ite_self, reduceCtorEq]

/-- What stays read-only below a root: the default subpaths without an entry, and the entries
further down that are not writable. -/
lemma mem_readOnlySubpaths {rootPath subpath : AbsolutePathBuf} :
    subpath ∈ (writableRoot host ⟨.restricted, depth, entries⟩ cwd rootPath).readOnlySubpaths ↔
      (subpath ∈ defaultReadOnlySubpathsForWritableRoot host rootPath (cwd == rootPath) ∧
        ∀ entry ∈ resolvedEntriesWithCwd host ⟨.restricted, depth, entries⟩ cwd,
          entry.path ≠ subpath) ∨
      ∃ entry ∈ resolvedEntriesWithCwd host ⟨.restricted, depth, entries⟩ cwd,
        (entry.access = .deny ∨ entry.access = .read ∧
          entry.path ∉ writePaths (resolvedEntriesWithCwd host ⟨.restricted, depth, entries⟩ cwd)) ∧
        entry.path = subpath ∧ rootPath <+: entry.path ∧ entry.path ≠ rootPath := by
  simp only [writableRoot, dedupAbsolutePaths, mem_eraseDups, mem_append, mem_filterMap, mem_filter,
    carveout_eq_some, hasExplicitResolvedPathEntry, not_eq_true', List.any_eq_false, beq_iff_eq]
  refine or_congr Iff.rfl ⟨?_, ?_⟩
  · rintro ⟨entry, ⟨⟨hentry, hread⟩, hcannot⟩, rfl, hbelow, hne⟩
    by_cases hwrites : entry.path ∈
        writePaths (resolvedEntriesWithCwd host ⟨.restricted, depth, entries⟩ cwd)
    · -- a write entry at the same path is overruled by one that denies
      have hnot : entry.path ∉ writableEntries host ⟨.restricted, depth, entries⟩ cwd := by
        intro hmem
        obtain ⟨other, hother, hsame⟩ := List.mem_map.1 hmem
        have hcan := (mem_filter.1 hother).2
        rw [hsame, hcannot] at hcan
        cases hcan
      simp only [mem_writableEntries, hwrites, true_and, not_forall, not_not] at hnot
      obtain ⟨deny, hdeny, hsame, haccess⟩ := hnot
      exact ⟨deny, hdeny, .inl haccess, hsame, hsame ▸ hbelow, hsame ▸ hne⟩
    · refine ⟨entry, hentry, ?_, rfl, hbelow, hne⟩
      revert hread hwrites
      cases entry.access <;> simp [FileSystemAccessMode.canWrite]
  · rintro ⟨entry, hentry, haccess, rfl, hbelow, hne⟩
    refine ⟨entry, ⟨⟨hentry, ?_⟩, canWritePathWithCwd_of_notWrite hentry haccess⟩, rfl, hbelow, hne⟩
    rcases haccess with haccess | ⟨haccess, -⟩ <;> rw [haccess] <;> rfl

/-- The metadata names that are protected directly below a root. -/
lemma mem_protectedMetadataNames {rootPath : AbsolutePathBuf} :
    name ∈ (writableRoot host policy cwd rootPath).protectedMetadataNames ↔
      name ∈ protectedMetadataPathNames ∧
        policy.canWritePathWithCwd host (rootPath ++ [name]) cwd = false := by
  simp only [writableRoot, protectedMetadataNamesForWritableRoot, mem_filter]
  refine and_congr_right fun hname => ?_
  simp only [List.all_eq_true, List.mem_map, mem_cons, mem_filter, beq_iff_eq, not_eq_true']
  constructor
  · intro h
    rw [← join_metadataName hname]
    exact h _ ⟨rootPath, .inl rfl, rfl⟩
  · rintro h - ⟨raw, hraw | ⟨-, hraw⟩, rfl⟩ <;> rw [hraw, join_metadataName hname, h]

lemma isPathWritable_iff : root.isPathWritable path = true ↔
    root.root <+: path ∧ (∀ subpath ∈ root.readOnlySubpaths, ¬ subpath <+: path) ∧
      ∀ name ∈ root.protectedMetadataNames, ¬ root.root ++ [name] <+: path := by
  simp only [WritableRoot.isPathWritable, WritableRoot.pathContainsProtectedMetadataName,
    and_eq_true, decide_eq_true_eq, List.all_eq_true, not_eq_true', decide_eq_false_iff_not,
    and_assoc]
  refine and_congr_right fun _ => and_congr_right fun _ => ?_
  cases hfirst : firstBelow root.root path with
  | none =>
    simp only [any_none, true_iff]
    intro name _ hname
    rw [firstBelow_eq_some.2 hname] at hfirst
    cases hfirst
  | some first =>
    have hname : ∀ name, root.root ++ [name] <+: path ↔ first = name := by
      intro name
      rw [← firstBelow_eq_some, hfirst, some.injEq]
    simp only [any_some, hname, eq_false_iff, any_beq', ne_eq]
    exact ⟨fun h name hmem heq => h (contains_iff_mem.2 (heq ▸ hmem)),
      fun h hmem => h first (contains_iff_mem.1 hmem) rfl⟩

lemma canWritePathWithCwd_of_denied
    (hfull : hasFullDiskWriteAccess ⟨.restricted, depth, entries⟩ = false)
    (h : isMetadataWriteDenied host ⟨.restricted, depth, entries⟩ path cwd = true) :
    canWritePathWithCwd host ⟨.restricted, depth, entries⟩ path cwd = false := by
  rw [canWritePathWithCwd, hfull, h]
  simp

/-- Something at or above the target and below a write entry at `outer` is read-only: an entry that
denies or lets only read, a metadata directory of `outer`, or a default subpath without an entry. -/
def Shielded (host : Host) (resolved : List ResolvedFileSystemEntry)
    (cwd outer target : AbsolutePathBuf) : Prop :=
  (∃ entry ∈ resolved,
    (entry.access = .deny ∨ entry.access = .read ∧ entry.path ∉ writePaths resolved) ∧
      outer <+: entry.path ∧ entry.path ≠ outer ∧ entry.path <+: target) ∨
  (∃ name ∈ protectedMetadataPathNames,
    Protects (writePaths resolved) outer name ∧ outer ++ [name] <+: target) ∨
  ∃ subpath ∈ defaultReadOnlySubpathsForWritableRoot host outer (cwd == outer),
    (∀ entry ∈ resolved, entry.path ≠ subpath) ∧ subpath <+: target

lemma Shielded.mono {resolved : List ResolvedFileSystemEntry} {outer : AbsolutePathBuf}
    (h : Shielded host resolved cwd outer target) (hle : target <+: path) :
    Shielded host resolved cwd outer path := by
  rcases h with ⟨entry, hentry, haccess, hbelow, hne, hcovers⟩ | ⟨name, hname, hprotects, hcovers⟩ |
    ⟨subpath, hsubpath, hnone, hcovers⟩
  · exact .inl ⟨entry, hentry, haccess, hbelow, hne, hcovers.trans hle⟩
  · exact .inr (.inl ⟨name, hname, hprotects, hcovers.trans hle⟩)
  · exact .inr (.inr ⟨subpath, hsubpath, hnone, hcovers.trans hle⟩)

/-- A path below a root is shielded if an entry decides about it that does not let it be written. -/
lemma shielded_of_wins {outer : AbsolutePathBuf} {winner : ResolvedFileSystemEntry}
    (houter : outer ∈ writableEntries host ⟨.restricted, depth, entries⟩ cwd) (hle : outer <+: path)
    (hwins : Nearest.Wins ResolvedFileSystemEntry.path ResolvedFileSystemEntry.access
      (resolvedEntriesWithCwd host ⟨.restricted, depth, entries⟩ cwd) path winner)
    (hwinner : winner.access ≠ .write) :
    Shielded host (resolvedEntriesWithCwd host ⟨.restricted, depth, entries⟩ cwd) cwd outer
      path := by
  obtain ⟨hwrites, hnone⟩ := mem_writableEntries.1 houter
  obtain ⟨entry, hentry, haccess, rfl⟩ := mem_writePaths.1 hwrites
  -- write entries at the path of the winner would have won against one that lets only read
  have hnot : winner.access = .deny ∨ winner.access = .read ∧ winner.path ∉
      writePaths (resolvedEntriesWithCwd host ⟨.restricted, depth, entries⟩ cwd) := by
    cases hread : winner.access with
    | deny => exact .inl rfl
    | write => exact absurd hread hwinner
    | read =>
      refine .inr ⟨rfl, fun hmem => ?_⟩
      obtain ⟨other, hother, hotherWrite, hsame⟩ := mem_writePaths.1 hmem
      have hstrict := access_le_of_wins hwins hother hsame
      rw [hotherWrite, hread] at hstrict
      exact absurd hstrict (by decide)
  refine .inl ⟨winner, hwins.mem, hnot, hwins.path_le hentry hle, fun heq => ?_, hwins.covers⟩
  rcases hnot with hdeny | ⟨-, hnowrite⟩
  · exact hnone winner hwins.mem heq hdeny
  · exact hnowrite (heq ▸ hwrites)

/-- A metadata directory of a root that cannot be written is shielded. -/
lemma shielded_of_not_canWrite {outer : AbsolutePathBuf} (hname : name ∈ protectedMetadataPathNames)
    (houter : outer ∈ writableEntries host ⟨.restricted, depth, entries⟩ cwd)
    (h : canWritePathWithCwd host ⟨.restricted, depth, entries⟩ (outer ++ [name]) cwd = false) :
    Shielded host (resolvedEntriesWithCwd host ⟨.restricted, depth, entries⟩ cwd) cwd outer
      (outer ++ [name]) := by
  obtain ⟨hwrites, -⟩ := mem_writableEntries.1 houter
  obtain ⟨entry, hentry, -, rfl⟩ := mem_writePaths.1 hwrites
  obtain ⟨winner, hwins⟩ := exists_wins hentry (prefix_append entry.path [name])
  by_cases hwinner : winner.access = .write
  · have hdenied : isMetadataWriteDenied host ⟨.restricted, depth, entries⟩ (entry.path ++ [name])
        cwd = true := by
      rw [canWritePathWithCwd, resolveAccessWithCwd_of_wins hwins, hwinner] at h
      revert h
      cases hasFullDiskWriteAccess ⟨.restricted, depth, entries⟩ <;>
        simp [FileSystemAccessMode.canWrite]
    obtain ⟨inner, innerName, -, hprotects, hle, hclosed⟩ := exists_protects_of_denied hdenied
    -- the protected directory is not above the entry, which would open it
    have heq : inner ++ [innerName] = entry.path ++ [name] := by
      rcases prefix_concat_iff.1 hle with heq | hle
      · exact heq
      · exact absurd hle (hclosed _ hwrites (prefix_append ..))
    obtain ⟨rfl, hsame⟩ := append_inj' heq rfl
    obtain rfl : innerName = name := by simpa using hsame
    exact .inr (.inl ⟨innerName, hname, hprotects, prefix_rfl⟩)
  · exact shielded_of_wins houter (prefix_append ..) hwins hwinner

/-- What a root leaves writable, on the entries of the policy. -/
lemma isPathWritable_writableRoot {outer : AbsolutePathBuf}
    (hfull : hasFullDiskWriteAccess ⟨.restricted, depth, entries⟩ = false)
    (houter : outer ∈ writableEntries host ⟨.restricted, depth, entries⟩ cwd) :
    (writableRoot host ⟨.restricted, depth, entries⟩ cwd outer).isPathWritable path = true ↔
      outer <+: path ∧
        ¬ Shielded host (resolvedEntriesWithCwd host ⟨.restricted, depth, entries⟩ cwd) cwd outer
          path := by
  rw [isPathWritable_iff]
  refine and_congr_right fun _ => ⟨?_, fun h => ⟨fun subpath hsubpath hle => h ?_,
    fun name hname hle => h ?_⟩⟩
  · rintro ⟨hsubpaths, hnames⟩ (⟨entry, hentry, haccess, hbelow, hne, hcovers⟩ |
      ⟨name, hname, hprotects, hcovers⟩ | ⟨subpath, hsubpath, hnone, hcovers⟩)
    · exact hsubpaths _ (mem_readOnlySubpaths.2
        (.inr ⟨entry, hentry, haccess, rfl, hbelow, hne⟩)) hcovers
    · exact hnames name (mem_protectedMetadataNames.2 ⟨hname,
        canWritePathWithCwd_of_denied hfull (denied_of_protects hname hprotects)⟩) hcovers
    · exact hsubpaths _ (mem_readOnlySubpaths.2 (.inl ⟨hsubpath, hnone⟩)) hcovers
  · rcases mem_readOnlySubpaths.1 hsubpath with
      ⟨hdefault, hnone⟩ | ⟨entry, hentry, haccess, rfl, hbelow, hne⟩
    · exact .inr (.inr ⟨subpath, hdefault, hnone, hle⟩)
    · exact .inl ⟨entry, hentry, haccess, hbelow, hne, hle⟩
  · obtain ⟨hmem, hcannot⟩ := mem_protectedMetadataNames.1 hname
    exact (shielded_of_not_canWrite hmem houter hcannot).mono hle

/-- **Whether the writable roots are sound.**  They are exactly if the protected metadata
directories of each write entry are shielded from every write entry strictly above it that nothing
denies. -/
theorem writableRoots_sound_iff (host : Host) (depth : Option ℕ)
    (entries : List FileSystemSandboxEntry) (cwd : AbsolutePathBuf) :
    (∀ path, (∃ root ∈ getWritableRootsWithCwd host ⟨.restricted, depth, entries⟩ cwd,
        root.isPathWritable path = true) →
      canWritePathWithCwd host ⟨.restricted, depth, entries⟩ path cwd = true) ↔
    hasFullDiskWriteAccess ⟨.restricted, depth, entries⟩ = true ∨
    let resolved := resolvedEntriesWithCwd host ⟨.restricted, depth, entries⟩ cwd
    ∀ outer ∈ writePaths resolved, (∀ entry ∈ resolved, entry.path = outer → entry.access ≠ .deny) →
      ∀ inner, outer <+: inner → outer ≠ inner → ∀ name ∈ protectedMetadataPathNames,
        Protects (writePaths resolved) inner name →
          Shielded host resolved cwd outer (inner ++ [name]) := by
  cases hfull : hasFullDiskWriteAccess ⟨.restricted, depth, entries⟩ with
  | true => simp [getWritableRootsWithCwd, hfull]
  | false =>
    simp only [false_eq_true, false_or]
    constructor
    · intro h outer hwrites hnone inner hbelow _ name hname hprotects
      have houter := mem_writableEntries.2 ⟨hwrites, hnone⟩
      by_contra hshielded
      have hwritable := (isPathWritable_writableRoot hfull houter).2
        ⟨hbelow.trans (prefix_append inner [name]), hshielded⟩
      have hcan := h _ ⟨_, mem_getWritableRootsWithCwd.2 ⟨hfull, outer, houter, rfl⟩, hwritable⟩
      rw [canWritePathWithCwd_of_denied hfull (denied_of_protects hname hprotects)] at hcan
      cases hcan
    · rintro h path ⟨root, hroot, hwritable⟩
      obtain ⟨-, outer, houter, rfl⟩ := mem_getWritableRootsWithCwd.1 hroot
      obtain ⟨hcovers, hshielded⟩ := (isPathWritable_writableRoot hfull houter).1 hwritable
      obtain ⟨hwrites, hnone⟩ := mem_writableEntries.1 houter
      obtain ⟨entry, hentry, -, rfl⟩ := mem_writePaths.1 hwrites
      obtain ⟨winner, hwins⟩ := exists_wins hentry hcovers
      have hwrite : winner.access = .write :=
        by_contra fun hwinner => hshielded (shielded_of_wins houter hcovers hwins hwinner)
      rw [canWritePathWithCwd_eq (by rw [resolveAccessWithCwd_of_wins hwins, hwrite]; rfl) hfull,
        not_eq_true', eq_false_iff]
      intro hdenied
      obtain ⟨inner, name, hname, hprotects, hbelow, hclosed⟩ := exists_protects_of_denied hdenied
      -- the root is not below the metadata directory, since its entry would open it
      have habove : entry.path <+: inner := by
        refine prefix_of_prefix_length_le hcovers ((prefix_append ..).trans hbelow) ?_
        by_contra hlength
        refine hclosed entry.path hwrites hcovers (prefix_of_prefix_length_le hbelow hcovers ?_)
        rw [length_append, length_singleton]
        exact Nat.lt_of_not_le hlength
      by_cases heq : entry.path = inner
      · exact hshielded (.inr (.inl ⟨name, hname, heq ▸ hprotects, heq ▸ hbelow⟩))
      · exact hshielded
          ((h entry.path hwrites hnone inner habove heq name hname hprotects).mono hbelow)

/-- A repository inside of a writable directory. -/
def nestedEntries : List FileSystemSandboxEntry :=
  [writeEntry ["w".toList], writeEntry ["w".toList, "r".toList]]

/-- A system on which every path is a directory. -/
def directoriesHost : Host := { plainHost with isDir := fun _ => true }

/-- The outer root leaves the `.git` of the repository writable, which the policy denies. -/
theorem writableRoots_nested :
    let path := ["w".toList, "r".toList, ".git".toList, "hooks".toList]
    (∃ root ∈ getWritableRootsWithCwd directoriesHost ⟨.restricted, none, nestedEntries⟩ [],
        root.isPathWritable path = true) ∧
      canWritePathWithCwd directoriesHost ⟨.restricted, none, nestedEntries⟩ path [] = false := by
  refine ⟨⟨writableRoot directoriesHost ⟨.restricted, none, nestedEntries⟩ [] ["w".toList],
    ?_, ?_⟩, ?_⟩ <;> decide +kernel

end TokenCode.Permissions
