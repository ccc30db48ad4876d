/-
The intersection of a requested and a granted permission profile
(`sandboxing/src/policy_transforms.rs`).

An entry of the grant is accepted if the request gives its path at least the same access; deny
entries of both sides are kept where they overlap with an accepted entry. The result never exceeds
the grant. It may exceed the request: a read entry of the request is dropped, and below an accepted
write entry nothing takes its place unless the grant has a read or deny entry in between
(`intersectPermissionProfiles_le_iff`).
-/
import TokenCode.Permissions.WritableRoots

namespace TokenCode.Permissions

open List FileSystemSandboxPolicy

structure NetworkPermissions where
  enabled : Option Bool
deriving DecidableEq, Repr

structure FileSystemPermissions where
  entries : List FileSystemSandboxEntry
  /-- Not zero. -/
  globScanMaxDepth : Option ℕ
deriving DecidableEq, Repr

structure AdditionalPermissionProfile where
  network : Option NetworkPermissions
  fileSystem : Option FileSystemPermissions
deriving DecidableEq, Repr

namespace FileSystemAccessMode

/-- How much an access mode allows. -/
def strength : FileSystemAccessMode → ℕ
  | deny => 0
  | read => 1
  | write => 2

lemma eq_deny_of_le {access : FileSystemAccessMode} (h : deny ≤ access) : access = deny := by
  revert h
  cases access <;> decide

end FileSystemAccessMode

/-! ### What a policy denies to read -/

/-- `get_unreadable_roots_with_cwd`. -/
def getUnreadableRootsWithCwd (host : Host) (policy : FileSystemSandboxPolicy)
    (cwd : AbsolutePathBuf) : List AbsolutePathBuf :=
  match policy.kind with
  | .restricted =>
    dedupAbsolutePaths ((((policy.resolvedEntriesWithCwd host cwd).filter fun entry =>
      entry.access == .deny && !policy.canReadPathWithCwd host entry.path cwd).map (·.path)).filter
        fun path => path != [])
  | _ => []

/-- The text of a path. -/
def toStringLossy (path : AbsolutePathBuf) : Text :=
  '/' :: ("/".toList).intercalate path

/-- `get_unreadable_globs_with_cwd`; the order of the patterns does not matter. -/
def getUnreadableGlobsWithCwd (host : Host) (policy : FileSystemSandboxPolicy)
    (cwd : AbsolutePathBuf) : List Text :=
  match policy.kind with
  | .restricted => policy.entries.filterMap fun entry =>
    match entry.access, entry.path with
    | .deny, .globPattern pattern => some (toStringLossy (resolvePathAgainstBase host pattern cwd))
    | _, _ => none
  | _ => []

/-- `ReadDenyMatcher::new` and `is_read_denied`; a pattern that is invalid denies everything. -/
def isReadDenied (host : Host) (policy : FileSystemSandboxPolicy) (cwd path : AbsolutePathBuf) :
    Bool :=
  if policy.hasDeniedReadRestrictions then
    let matchers := (getUnreadableGlobsWithCwd host policy cwd).map host.buildGlobMatcher
    matchers.any Option.isNone ||
      (getUnreadableRootsWithCwd host policy cwd).any (fun denied => decide (denied <+: path)) ||
      matchers.any fun matcher => matcher.any fun isMatch => isMatch path
  else false

/-! ### The intersection -/

/-- `resolve_permission_path`. -/
def resolvePermissionPath (host : Host) (cwd : AbsolutePathBuf) :
    FileSystemPath → Option AbsolutePathBuf
  | .path path => some path
  | .globPattern _ => none
  | .special .root => some []
  | .special (.projectRoots (some subpath)) => some (resolvePathAgainstBase host subpath cwd)
  | .special (.projectRoots none) => some cwd
  | .special .tmpdir => host.tmpdir
  | .special .slashTmp => if host.isDir slashTmp then some slashTmp else none
  | .special .minimal => none
  | .special (.unknown _ _) => none

/-- `access_covers`. -/
def accessCovers (requested : FileSystemAccessMode) : FileSystemAccessMode → Bool
  | .read => requested.canRead
  | .write => requested.canWrite
  | .deny => false

/-- `granted_file_system_entry_within_request`. -/
def grantedFileSystemEntryWithinRequest (host : Host) (requested : FileSystemPermissions)
    (cwd : AbsolutePathBuf) (grantedEntry : FileSystemSandboxEntry) : Bool :=
  grantedEntry.access.canRead &&
    match resolvePermissionPath host cwd grantedEntry.path with
    | some path =>
      !isReadDenied host (restricted requested.entries) cwd path &&
        accessCovers ((restricted requested.entries).resolveAccessWithCwd host path cwd)
          grantedEntry.access
    | none => requested.entries.any fun requestedEntry =>
      accessCovers requestedEntry.access grantedEntry.access &&
        requestedEntry.path == grantedEntry.path

/-- `materialize_cwd_dependent_entry`. -/
def materializeCwdDependentEntry (host : Host) (cwd : AbsolutePathBuf)
    (entry : FileSystemSandboxEntry) : FileSystemSandboxEntry :=
  match entry.path with
  | .special (.projectRoots _) =>
    match resolvePermissionPath host cwd entry.path with
    | some path => ⟨.path path, entry.access⟩
    | none => entry
  | .globPattern pattern =>
    ⟨.globPattern (toStringLossy (resolvePathAgainstBase host pattern cwd)), entry.access⟩
  | _ => entry

/-- `paths_overlap`. -/
def pathsOverlap (left right : AbsolutePathBuf) : Bool :=
  decide (right <+: left) || decide (left <+: right)

/-- `glob_static_prefix_path`: the directory above the first wildcard. -/
def globStaticPath (host : Host) (pattern : Text) (cwd : AbsolutePathBuf) :
    Option AbsolutePathBuf :=
  let resolvedPattern := toStringLossy (resolvePathAgainstBase host pattern cwd)
  let isWildcard := fun c => c == '*' || c == '?' || c == '[' || c == ']'
  match resolvedPattern.findIdx? isWildcard with
  | some 0 => none
  | some index =>
    let lead := resolvedPattern.take index
    if lead.getLast? = some '/' ∨ lead.getLast? = some '\\' then some (absolutizeFrom lead [])
    else some (absolutizeFrom lead []).dropLast
  | none => some (absolutizeFrom resolvedPattern [])

/-- `deny_entry_constrains_accepted_grant`. -/
def denyEntryConstrainsAcceptedGrant (host : Host) (cwd : AbsolutePathBuf)
    (acceptedEntries : List FileSystemSandboxEntry) (denyEntry : FileSystemSandboxEntry) : Bool :=
  acceptedEntries.any fun entry =>
    entry.access.canRead && (resolvePermissionPath host cwd entry.path).any fun grantPath =>
      match denyEntry.path with
      | .globPattern pattern => (globStaticPath host pattern cwd).any (pathsOverlap · grantPath)
      | path => (resolvePermissionPath host cwd path).any (pathsOverlap · grantPath)

/-- A list to which new entries are added at the end. -/
def pushNew (entries : List FileSystemSandboxEntry) (entry : FileSystemSandboxEntry) :
    List FileSystemSandboxEntry :=
  if entry ∈ entries then entries else entries ++ [entry]

/-- `retain_constraining_deny_entries`: the entries to retain. -/
def retainedDenyEntries (host : Host) (cwd : AbsolutePathBuf)
    (sourceEntries acceptedEntries : List FileSystemSandboxEntry) : List FileSystemSandboxEntry :=
  (sourceEntries.filter fun entry => entry.access == .deny &&
    denyEntryConstrainsAcceptedGrant host cwd acceptedEntries entry).map
      (materializeCwdDependentEntry host cwd)

/-- `effective_glob_scan_depth`: nothing without deny patterns, and then a bound or none. -/
def effectiveGlobScanDepth (entries : List FileSystemSandboxEntry) (depth : Option ℕ) :
    Option (Option ℕ) :=
  if entries.any fun entry => entry.access == .deny &&
    match entry.path with
    | .globPattern _ => true
    | _ => false
  then some depth else none

/-- `merge_glob_scan_max_depth`. -/
def mergeGlobScanMaxDepth (leftEntries : List FileSystemSandboxEntry) (leftDepth : Option ℕ)
    (rightEntries : List FileSystemSandboxEntry) (rightDepth : Option ℕ) : Option ℕ :=
  match effectiveGlobScanDepth leftEntries leftDepth,
    effectiveGlobScanDepth rightEntries rightDepth with
  | some none, _ => none
  | _, some none => none
  | some (some left), some (some right) => some (max left right)
  | some (some depth), none => some depth
  | none, some (some depth) => some depth
  | none, none => none

/-- The granted entries that are accepted. -/
def acceptedEntries (host : Host) (requested granted : FileSystemPermissions)
    (cwd : AbsolutePathBuf) : List FileSystemSandboxEntry :=
  ((granted.entries.filter (grantedFileSystemEntryWithinRequest host requested cwd)).map
    (materializeCwdDependentEntry host cwd)).foldl pushNew []

/-- The file system part of `intersect_permission_profiles`. -/
def intersectFileSystem (host : Host) (requested granted : FileSystemPermissions)
    (cwd : AbsolutePathBuf) : FileSystemPermissions :=
  let accepted := acceptedEntries host requested granted cwd
  let requestedRetained := retainedDenyEntries host cwd requested.entries accepted
  let grantedRetained := retainedDenyEntries host cwd granted.entries accepted
  { entries := grantedRetained.foldl pushNew (requestedRetained.foldl pushNew accepted)
    globScanMaxDepth := (mergeGlobScanMaxDepth requestedRetained requested.globScanMaxDepth
      grantedRetained granted.globScanMaxDepth).filter (· ≠ 0) }

/-- `intersect_permission_profiles`. -/
def intersectPermissionProfiles (host : Host) (requested granted : AdditionalPermissionProfile)
    (cwd : AbsolutePathBuf) : AdditionalPermissionProfile where
  network := if requested.network = some ⟨some true⟩ ∧ granted.network = some ⟨some true⟩ then
    some ⟨some true⟩ else none
  fileSystem := (requested.fileSystem.map fun requestedFileSystem =>
    intersectFileSystem host requestedFileSystem (granted.fileSystem.getD ⟨[], none⟩) cwd).filter
      fun fileSystem => !fileSystem.entries.isEmpty

/-! ### Profiles with explicit paths -/

/-- Every entry names its path. -/
def Explicit (entries : List FileSystemSandboxEntry) : Prop :=
  ∀ entry ∈ entries, ∃ path, entry.path = .path path

/-- The entry for a path. -/
def explicitEntry (entry : ResolvedFileSystemEntry) : FileSystemSandboxEntry :=
  ⟨.path entry.path, entry.access⟩

section

variable {host : Host} {cwd path : AbsolutePathBuf} {source : FileSystemSandboxEntry}
  {entries : List FileSystemSandboxEntry} {entry : ResolvedFileSystemEntry}
  {requested granted : FileSystemPermissions}

/-- In a profile with explicit paths the entries resolve to themselves. -/
lemma mem_resolved_of_explicit (host : Host) (cwd : AbsolutePathBuf) (h : Explicit entries) :
    entry ∈ (restricted entries).resolvedEntriesWithCwd host cwd ↔
      explicitEntry entry ∈ entries := by
  rw [mem_resolvedEntriesWithCwd]
  constructor
  · rintro ⟨source, hsource, hpath, haccess⟩
    obtain ⟨path, hexplicit⟩ := h source hsource
    rw [hexplicit] at hpath
    have hentry : explicitEntry entry = source := by
      rw [explicitEntry, ← haccess, ← Option.some.inj hpath, ← hexplicit]
    rwa [hentry]
  · exact fun hentry => ⟨explicitEntry entry, hentry, rfl, rfl⟩

lemma mem_resolved_of_mem (host : Host) (cwd : AbsolutePathBuf) (h : Explicit entries)
    {path : AbsolutePathBuf} {access : FileSystemAccessMode}
    (hentry : ⟨.path path, access⟩ ∈ entries) :
    ⟨path, access⟩ ∈ (restricted entries).resolvedEntriesWithCwd host cwd :=
  (mem_resolved_of_explicit host cwd h).2 hentry

lemma exists_explicitEntry (h : Explicit entries)
    (hsource : source ∈ entries) : ∃ entry, source = explicitEntry entry := by
  obtain ⟨path, hpath⟩ := h source hsource
  exact ⟨⟨path, source.access⟩, by rw [explicitEntry, ← hpath]⟩

lemma mem_foldl_pushNew {added : List FileSystemSandboxEntry} :
    source ∈ added.foldl pushNew entries ↔ source ∈ entries ∨ source ∈ added := by
  induction added generalizing entries with
  | nil => simp
  | cons first added ih =>
    rw [foldl_cons, ih, pushNew]
    split_ifs with hfirst
    · simp only [mem_cons]
      constructor
      · exact Or.imp_right .inr
      · rintro (hsource | rfl | hsource)
        · exact .inl hsource
        · exact .inl hfirst
        · exact .inr hsource
    · simp [or_assoc]

/-- What is kept of the deny entries of a profile. -/
lemma mem_retainedDenyEntries (h : Explicit entries) {accepted : List FileSystemSandboxEntry}
    (haccepted : Explicit accepted) :
    explicitEntry entry ∈ retainedDenyEntries host cwd entries accepted ↔
      explicitEntry entry ∈ entries ∧ entry.access = .deny ∧
        ∃ grant, explicitEntry grant ∈ accepted ∧ grant.access.canRead = true ∧
          (entry.path <+: grant.path ∨ grant.path <+: entry.path) := by
  have hconstrains : ∀ entry, denyEntryConstrainsAcceptedGrant host cwd accepted
      (explicitEntry entry) = true ↔ ∃ grant, explicitEntry grant ∈ accepted ∧
        grant.access.canRead = true ∧ (entry.path <+: grant.path ∨ grant.path <+: entry.path) := by
    intro entry
    simp only [denyEntryConstrainsAcceptedGrant, any_eq_true, Bool.and_eq_true]
    constructor
    · rintro ⟨source, hsource, hread, hoverlap⟩
      obtain ⟨grant, rfl⟩ := exists_explicitEntry haccepted hsource
      refine ⟨grant, hsource, hread, ?_⟩
      simpa [explicitEntry, resolvePermissionPath, pathsOverlap, or_comm] using hoverlap
    · rintro ⟨grant, hgrant, hread, hoverlap⟩
      refine ⟨explicitEntry grant, hgrant, hread, ?_⟩
      simpa [explicitEntry, resolvePermissionPath, pathsOverlap, or_comm] using hoverlap
  simp only [retainedDenyEntries, mem_map, mem_filter, Bool.and_eq_true, beq_iff_eq]
  constructor
  · rintro ⟨source, ⟨hsource, hdeny, hconstrain⟩, heq⟩
    obtain ⟨other, rfl⟩ := exists_explicitEntry h hsource
    have hother : explicitEntry other = explicitEntry entry := heq
    rw [hother] at hsource hdeny hconstrain
    exact ⟨hsource, hdeny, (hconstrains entry).1 hconstrain⟩
  · rintro ⟨hentry, hdeny, hgrant⟩
    exact ⟨explicitEntry entry, ⟨hentry, hdeny, (hconstrains entry).2 hgrant⟩, rfl⟩

/-- Only deny entries above the path deny it, unless the request lets it be read there. -/
lemma isReadDenied_iff {host : Host} {cwd path : AbsolutePathBuf}
    {entries : List FileSystemSandboxEntry} (h : Explicit entries) :
    isReadDenied host (restricted entries) cwd path = true ↔
      ∃ deny, explicitEntry deny ∈ entries ∧ deny.access = .deny ∧
        (restricted entries).canReadPathWithCwd host deny.path cwd = false ∧ deny.path ≠ [] ∧
        deny.path <+: path := by
  have hglobs : getUnreadableGlobsWithCwd host (restricted entries) cwd = [] := by
    refine filterMap_eq_nil_iff.2 fun entry hentry => ?_
    obtain ⟨path, hpath⟩ := h entry hentry
    rw [hpath]
    cases entry.access <;> rfl
  have hroots : ∀ denied, denied ∈ getUnreadableRootsWithCwd host (restricted entries) cwd ↔
      ∃ deny, explicitEntry deny ∈ entries ∧ deny.access = .deny ∧
        (restricted entries).canReadPathWithCwd host deny.path cwd = false ∧ deny.path ≠ [] ∧
        deny.path = denied := by
    intro denied
    simp only [getUnreadableRootsWithCwd, restricted, dedupAbsolutePaths, mem_eraseDups,
      mem_filter, mem_map, Bool.and_eq_true, beq_iff_eq, bne_iff_ne, Bool.not_eq_true']
    constructor
    · rintro ⟨⟨deny, ⟨hmem, hdeny, hcannot⟩, rfl⟩, hroot⟩
      exact ⟨deny, (mem_resolved_of_explicit host cwd h).1 hmem, hdeny, hcannot, hroot, rfl⟩
    · rintro ⟨deny, hmem, hdeny, hcannot, hroot, rfl⟩
      exact ⟨⟨deny, ⟨(mem_resolved_of_explicit host cwd h).2 hmem, hdeny, hcannot⟩, rfl⟩, hroot⟩
  rw [isReadDenied, hglobs]
  constructor
  · intro hdenied
    split at hdenied
    · simp only [map_nil, any_nil, Bool.false_or, Bool.or_false, any_eq_true,
        decide_eq_true_eq] at hdenied
      obtain ⟨denied, hmem, hcovers⟩ := hdenied
      obtain ⟨deny, hdeny, haccess, hcannot, hroot, rfl⟩ := (hroots denied).1 hmem
      exact ⟨deny, hdeny, haccess, hcannot, hroot, hcovers⟩
    · cases hdenied
  · rintro ⟨deny, hmem, hdeny, hcannot, hroot, hcovers⟩
    have hrestrictions : (restricted entries).hasDeniedReadRestrictions = true := by
      simp only [hasDeniedReadRestrictions, restricted, Bool.and_eq_true, any_eq_true, beq_iff_eq]
      exact ⟨trivial, explicitEntry deny, hmem, hdeny⟩
    rw [if_pos hrestrictions]
    simp only [map_nil, any_nil, Bool.false_or, Bool.or_false, any_eq_true, decide_eq_true_eq]
    exact ⟨deny.path, (hroots _).2 ⟨deny, hmem, hdeny, hcannot, hroot, rfl⟩, hcovers⟩

/-- The entry of the grant is accepted. -/
structure Accepted (host : Host) (requested granted : FileSystemPermissions)
    (cwd : AbsolutePathBuf) (entry : ResolvedFileSystemEntry) : Prop where
  granted : explicitEntry entry ∈ granted.entries
  canRead : entry.access.canRead = true
  notDenied : isReadDenied host (restricted requested.entries) cwd entry.path = false
  covers : accessCovers
    ((restricted requested.entries).resolveAccessWithCwd host entry.path cwd) entry.access = true

lemma mem_acceptedEntries (hgranted : Explicit granted.entries) :
    explicitEntry entry ∈ acceptedEntries host requested granted cwd ↔
      Accepted host requested granted cwd entry := by
  have hwithin : ∀ entry : ResolvedFileSystemEntry, grantedFileSystemEntryWithinRequest host
      requested cwd (explicitEntry entry) = true ↔ entry.access.canRead = true ∧
        isReadDenied host (restricted requested.entries) cwd entry.path = false ∧
        accessCovers ((restricted requested.entries).resolveAccessWithCwd host entry.path cwd)
          entry.access = true := by
    intro entry
    simp [grantedFileSystemEntryWithinRequest, explicitEntry, resolvePermissionPath]
  simp only [acceptedEntries, mem_foldl_pushNew, not_mem_nil, false_or, mem_map, mem_filter]
  constructor
  · rintro ⟨source, ⟨hsource, hin⟩, heq⟩
    obtain ⟨other, rfl⟩ := exists_explicitEntry hgranted hsource
    have hother : explicitEntry other = explicitEntry entry := heq
    rw [hother] at hsource hin
    obtain ⟨hread, hdenied, hcovers⟩ := (hwithin entry).1 hin
    exact ⟨hsource, hread, hdenied, hcovers⟩
  · intro h
    exact ⟨explicitEntry entry, ⟨h.granted, (hwithin entry).2 ⟨h.canRead, h.notDenied, h.covers⟩⟩,
      rfl⟩

lemma explicit_acceptedEntries (hgranted : Explicit granted.entries) :
    Explicit (acceptedEntries host requested granted cwd) := by
  intro source hsource
  simp only [acceptedEntries, mem_foldl_pushNew, not_mem_nil, false_or, mem_map,
    mem_filter] at hsource
  obtain ⟨other, ⟨hother, -⟩, rfl⟩ := hsource
  obtain ⟨entry, rfl⟩ := exists_explicitEntry hgranted hother
  exact ⟨entry.path, rfl⟩

/-- The entry denies, and overlaps with an accepted one. -/
def Retained (host : Host) (requested granted : FileSystemPermissions) (cwd : AbsolutePathBuf)
    (entry : ResolvedFileSystemEntry) : Prop :=
  entry.access = .deny ∧
    (explicitEntry entry ∈ requested.entries ∨ explicitEntry entry ∈ granted.entries) ∧
    ∃ grant, Accepted host requested granted cwd grant ∧
      (entry.path <+: grant.path ∨ grant.path <+: entry.path)

lemma mem_intersectFileSystem (hrequested : Explicit requested.entries)
    (hgranted : Explicit granted.entries) :
    explicitEntry entry ∈ (intersectFileSystem host requested granted cwd).entries ↔
      Accepted host requested granted cwd entry ∨ Retained host requested granted cwd entry := by
  have haccepted : Explicit (acceptedEntries host requested granted cwd) :=
    explicit_acceptedEntries hgranted
  simp only [intersectFileSystem, mem_foldl_pushNew, mem_retainedDenyEntries hrequested haccepted,
    mem_retainedDenyEntries hgranted haccepted, mem_acceptedEntries hgranted, Retained]
  constructor
  · rintro ((h | ⟨h, hdeny, grant, hgrant, -, hoverlap⟩) | ⟨h, hdeny, grant, hgrant, -, hoverlap⟩)
    · exact .inl h
    · exact .inr ⟨hdeny, .inl h, grant, hgrant, hoverlap⟩
    · exact .inr ⟨hdeny, .inr h, grant, hgrant, hoverlap⟩
  · rintro (h | ⟨hdeny, h | h, grant, hgrant, hoverlap⟩)
    · exact .inl (.inl h)
    · exact .inl (.inr ⟨h, hdeny, grant, hgrant, hgrant.canRead, hoverlap⟩)
    · exact .inr ⟨h, hdeny, grant, hgrant, hgrant.canRead, hoverlap⟩

lemma explicit_intersectFileSystem (hrequested : Explicit requested.entries)
    (hgranted : Explicit granted.entries) :
    Explicit (intersectFileSystem host requested granted cwd).entries := by
  intro source hsource
  simp only [intersectFileSystem, mem_foldl_pushNew, retainedDenyEntries, mem_map,
    mem_filter] at hsource
  rcases hsource with (hsource | ⟨other, ⟨hother, -⟩, rfl⟩) | ⟨other, ⟨hother, -⟩, rfl⟩
  · exact explicit_acceptedEntries hgranted source hsource
  · obtain ⟨entry, rfl⟩ := exists_explicitEntry hrequested hother
    exact ⟨entry.path, rfl⟩
  · obtain ⟨entry, rfl⟩ := exists_explicitEntry hgranted hother
    exact ⟨entry.path, rfl⟩

/-! ### The result and its bounds -/

/-- The entry decides about the path. -/
abbrev Decides (host : Host) (entries : List FileSystemSandboxEntry) (path cwd : AbsolutePathBuf)
    (entry : ResolvedFileSystemEntry) : Prop :=
  Nearest.Wins ResolvedFileSystemEntry.path ResolvedFileSystemEntry.access
    ((restricted entries).resolvedEntriesWithCwd host cwd) path entry

section

variable {grant deny : ResolvedFileSystemEntry}

/-- The request gives the path of an accepted grant what the grant gives. -/
lemma Accepted.exists_decides (h : Accepted host requested granted cwd grant) :
    ∃ entry, Decides host requested.entries grant.path cwd entry ∧
      accessCovers entry.access grant.access = true := by
  have hcovers := h.covers
  cases hwinner : Nearest.winner ResolvedFileSystemEntry.path ResolvedFileSystemEntry.access
      ((restricted requested.entries).resolvedEntriesWithCwd host cwd) grant.path with
  | none =>
    have hdeny : (restricted requested.entries).resolveAccessWithCwd host grant.path cwd =
        .deny := by
      simp only [resolveAccessWithCwd, restricted] at hwinner ⊢
      rw [hwinner]
      rfl
    have hread := h.canRead
    rw [hdeny] at hcovers
    cases haccess : grant.access with
    | read | write => rw [haccess] at hcovers; cases hcovers
    | deny => rw [haccess] at hread; cases hread
  | some entry =>
    have hdecides := Nearest.wins_of_winner hwinner
    refine ⟨entry, hdecides, ?_⟩
    rwa [restricted, resolveAccessWithCwd_of_wins hdecides] at hcovers

variable (hrequested : Explicit requested.entries) (hgranted : Explicit granted.entries)
include hrequested hgranted

lemma mem_resolved_intersectFileSystem :
    entry ∈ (restricted (intersectFileSystem host requested granted cwd).entries
        ).resolvedEntriesWithCwd host cwd ↔
      Accepted host requested granted cwd entry ∨ Retained host requested granted cwd entry :=
  (mem_resolved_of_explicit host cwd (explicit_intersectFileSystem hrequested hgranted)).trans
    (mem_intersectFileSystem hrequested hgranted)

variable
  (hdecides : Decides host (intersectFileSystem host requested granted cwd).entries path cwd grant)
  (haccepted : Accepted host requested granted cwd grant)
include hdecides haccepted

/-- A deny entry above the path of a deciding grant is above the grant: further down it would have
been retained, and decide itself. -/
lemma path_le_of_deny (deny : ResolvedFileSystemEntry) (hdeny : deny.access = .deny)
    (hmem : explicitEntry deny ∈ requested.entries ∨ explicitEntry deny ∈ granted.entries)
    (hcovers : deny.path <+: path) : deny.path <+: grant.path := by
  by_contra hnot
  have hcompare := prefix_or_prefix_of_prefix hcovers hdecides.covers
  have hbelow : grant.path <+: deny.path := hcompare.resolve_left hnot
  have hretained := (mem_resolved_intersectFileSystem hrequested hgranted).2
    (.inr ⟨hdeny, hmem, grant, haccepted, .inr hbelow⟩)
  exact hnot (hdecides.path_le hretained hcovers)

/-- A deny entry does not stand at the path of a deciding grant. -/
lemma path_ne_of_deny (deny : ResolvedFileSystemEntry) (hdeny : deny.access = .deny)
    (hmem : explicitEntry deny ∈ requested.entries ∨ explicitEntry deny ∈ granted.entries) :
    deny.path ≠ grant.path := by
  intro heq
  have hretained := (mem_resolved_intersectFileSystem hrequested hgranted).2
    (.inr ⟨hdeny, hmem, grant, haccepted, .inl (heq ▸ prefix_rfl)⟩)
  have hkey := hdecides.max deny hretained (heq ▸ hdecides.covers)
  rw [Nearest.key, Nearest.key, heq] at hkey
  rcases Prod.Lex.toLex_le_toLex.1 hkey with hlt | ⟨-, hle⟩
  · exact absurd hlt (lt_irrefl _)
  · have hle : FileSystemAccessMode.deny ≤ grant.access := hdeny ▸ hle
    have hread := haccepted.canRead
    rw [FileSystemAccessMode.eq_deny_of_le hle] at hread
    cases hread

/-- What decides about a path below an accepted grant in the request: the entry that covers the
grant, or one further down that does not deny. -/
lemma Accepted.decides_requested (hentry : Decides host requested.entries path cwd entry) :
    accessCovers entry.access grant.access = true ∨
      entry.access ≠ .deny ∧ grant.path <+: entry.path := by
  rcases prefix_or_prefix_of_prefix hentry.covers hdecides.covers with habove | hbelow
  · -- above the grant it also decides about the path of the grant
    obtain ⟨covering, hcovering, hcovers⟩ := haccepted.exists_decides
    have hsame := hentry.of_between habove hdecides.covers
    rw [(hsame.eq hcovering hsame.mem hcovering.mem).2]
    exact .inl hcovers
  · refine .inr ⟨fun hdeny => ?_, hbelow⟩
    have hmem : explicitEntry entry ∈ requested.entries ∨ explicitEntry entry ∈ granted.entries :=
      .inl ((mem_resolved_of_explicit host cwd hrequested).1 hentry.mem)
    have hle := path_le_of_deny hrequested hgranted hdecides haccepted _ hdeny hmem hentry.covers
    exact path_ne_of_deny hrequested hgranted hdecides haccepted _ hdeny hmem
      (hle.eq_of_length_le hbelow.length_le)

/-- A read entry of the grant below a deciding write entry is accepted. -/
lemma Accepted.of_read_below (hentry : explicitEntry entry ∈ granted.entries)
    (hbelow : grant.path <+: entry.path) (habovePath : entry.path <+: path)
    (hread : entry.access = .read) : Accepted host requested granted cwd entry := by
  obtain ⟨covering, hcovering, hcovers⟩ := haccepted.exists_decides
  refine ⟨hentry, by rw [hread]; rfl, ?_, ?_⟩
  · rw [Bool.eq_false_iff]
    intro hdenied
    obtain ⟨deny, hmem, hdeny, hcannot, hroot, habove⟩ := (isReadDenied_iff hrequested).1 hdenied
    have hle := path_le_of_deny hrequested hgranted hdecides haccepted _ hdeny (.inl hmem)
      (habove.trans habovePath)
    have hgrant := (isReadDenied_iff hrequested).2 ⟨deny, hmem, hdeny, hcannot, hroot, hle⟩
    rw [haccepted.notDenied] at hgrant
    cases hgrant
  · obtain ⟨decider, hdecider⟩ := exists_wins hcovering.mem (hcovering.covers.trans hbelow)
    rw [restricted, resolveAccessWithCwd_of_wins hdecider, hread]
    have hnot : decider.access ≠ .deny := by
      intro hdeny
      have hle := path_le_of_deny hrequested hgranted hdecides haccepted _ hdeny
        (.inl ((mem_resolved_of_explicit host cwd hrequested).1 hdecider.mem))
        (hdecider.covers.trans habovePath)
      have hsame := hdecider.of_between hle hbelow
      rw [← (hsame.eq hcovering hsame.mem hcovering.mem).2, hdeny] at hcovers
      cases haccess : grant.access <;> rw [haccess] at hcovers <;> cases hcovers
    cases haccess : decider.access with
    | deny => exact absurd haccess hnot
    | _ => rfl

omit haccepted

/-- In the result an entry that does not deny decides only as an accepted grant. -/
lemma accepted_of_decides (haccess : grant.access ≠ .deny) :
    Accepted host requested granted cwd grant := by
  rcases (mem_resolved_intersectFileSystem hrequested hgranted).1 hdecides.mem with h | ⟨hdeny, -⟩
  · exact h
  · exact absurd hdeny haccess

end

/-- The access that a list of entries gives to a path. -/
def accessAt (host : Host) (entries : List FileSystemSandboxEntry) (path cwd : AbsolutePathBuf) :
    FileSystemAccessMode :=
  (restricted entries).resolveAccessWithCwd host path cwd

lemma accessAt_of_decides
    (h : Decides host entries path cwd entry) : accessAt host entries path cwd = entry.access :=
  resolveAccessWithCwd_of_wins h

/-- The access is denied, or some entry decides. -/
lemma accessAt_cases (host : Host) (entries : List FileSystemSandboxEntry)
    (path cwd : AbsolutePathBuf) : accessAt host entries path cwd = .deny ∨
      ∃ entry, Decides host entries path cwd entry ∧ entry.access ≠ .deny := by
  by_cases h : ∃ entry, Decides host entries path cwd entry
  · obtain ⟨entry, hentry⟩ := h
    by_cases hdeny : entry.access = .deny
    · exact .inl ((accessAt_of_decides hentry).trans hdeny)
    · exact .inr ⟨entry, hentry, hdeny⟩
  · refine .inl ?_
    cases hwinner : Nearest.winner ResolvedFileSystemEntry.path ResolvedFileSystemEntry.access
        ((restricted entries).resolvedEntriesWithCwd host cwd) path with
    | none =>
      simp only [accessAt, resolveAccessWithCwd, restricted] at hwinner ⊢
      rw [hwinner]
      rfl
    | some entry => exact absurd ⟨entry, Nearest.wins_of_winner hwinner⟩ h

variable (hrequested : Explicit requested.entries)
include hrequested

variable (hgranted : Explicit granted.entries)
include hgranted

/-- The result gives no path more than the grant does. -/
lemma strength_le_granted (path : AbsolutePathBuf) :
    (accessAt host (intersectFileSystem host requested granted cwd).entries path cwd).strength ≤
      (accessAt host granted.entries path cwd).strength := by
  rcases accessAt_cases host (intersectFileSystem host requested granted cwd).entries path cwd with
    hdeny | ⟨grant, hdecides, hgrant⟩
  · rw [hdeny]
    exact Nat.zero_le _
  have haccepted := accepted_of_decides hrequested hgranted hdecides hgrant
  have hmem := (mem_resolved_of_explicit host cwd hgranted).2 haccepted.granted
  obtain ⟨entry, hentry⟩ := exists_wins hmem hdecides.covers
  rw [accessAt_of_decides hdecides, accessAt_of_decides hentry]
  cases haccess : entry.access with
  | write => cases grant.access <;> decide
  | deny =>
    -- a deny entry of the grant below the accepted one would decide
    have hdeny := (mem_resolved_of_explicit host cwd hgranted).1 hentry.mem
    have hle := path_le_of_deny hrequested hgranted hdecides haccepted _ haccess (.inr hdeny)
      hentry.covers
    have heq := hle.eq_of_length_le (hentry.path_le hmem hdecides.covers).length_le
    exact absurd heq (path_ne_of_deny hrequested hgranted hdecides haccepted _ haccess (.inr hdeny))
  | read =>
    -- a read entry below it is accepted as well, and decides
    have hread := haccepted.of_read_below hrequested hgranted hdecides
      ((mem_resolved_of_explicit host cwd hgranted).1 hentry.mem)
      (hentry.path_le hmem hdecides.covers) hentry.covers haccess
    have hresult := (mem_resolved_intersectFileSystem hrequested hgranted).2 (.inl hread)
    rw [(hdecides.eq hentry hmem hresult).2, haccess]

omit hrequested hgranted in
/-- A read entry of the request is kept: between it and a write entry of the grant above it that the
request covers there is an entry that denies or lets only read. -/
def ReadsKept (host : Host) (requested granted : List FileSystemSandboxEntry)
    (cwd : AbsolutePathBuf) : Prop :=
  ∀ path, ⟨.path path, .read⟩ ∈ requested → ⟨.path path, .write⟩ ∉ requested →
    ∀ grant, ⟨.path grant, .write⟩ ∈ granted → grant <+: path →
      accessAt host requested grant cwd = .write →
      (∃ deny, ⟨.path deny, .deny⟩ ∈ requested ∧ deny ≠ [] ∧ deny <+: path) ∨
      (∃ deny, ⟨.path deny, .deny⟩ ∈ granted ∧ grant <+: deny ∧ deny <+: path) ∨
      ∃ read, ⟨.path read, .read⟩ ∈ granted ∧ grant <+: read ∧ grant ≠ read ∧ read <+: path

/-- A write entry that decides in the result about a read entry of the request has no such entry
below it. -/
lemma not_readsKept_of_decides {grant : ResolvedFileSystemEntry}
    (hdecides :
      Decides host (intersectFileSystem host requested granted cwd).entries path cwd grant)
    (haccepted : Accepted host requested granted cwd grant) (hwrite : grant.access = .write)
    (hpath : ⟨.path path, .read⟩ ∈ requested.entries)
    (hread : accessAt host requested.entries path cwd = .read) :
    ¬ ReadsKept host requested.entries granted.entries cwd := by
  intro hkept
  have hmem := haccepted.granted
  rw [explicitEntry, hwrite] at hmem
  have hgive : accessAt host requested.entries grant.path cwd = .write := by
    have hcovers := haccepted.covers
    rw [hwrite] at hcovers
    exact FileSystemAccessMode.canWrite_iff.1 hcovers
  have hnotWrite : ⟨.path path, .write⟩ ∉ requested.entries := by
    intro hother
    obtain ⟨entry, hentry, -, hle⟩ := exists_wins_self
      (mem_resolved_of_mem host cwd hrequested hother)
    rw [← accessAt_of_decides hentry, hread] at hle
    exact absurd (show FileSystemAccessMode.write ≤ .read from hle) (by decide)
  rcases hkept path hpath hnotWrite grant.path hmem hdecides.covers hgive with
    ⟨deny, hdeny, hroot, hcovers⟩ | ⟨deny, hdeny, hbelow, hcovers⟩ |
    ⟨read, hreadEntry, hbelow, hne, hcovers⟩
  · -- above the grant it would have kept the grant from being accepted
    have hle := path_le_of_deny hrequested hgranted hdecides haccepted ⟨deny, .deny⟩ rfl
      (.inl hdeny) hcovers
    have hcannot : (restricted requested.entries).canReadPathWithCwd host deny cwd = false := by
      obtain ⟨entry, hentry, -, hle⟩ := exists_wins_self
        (mem_resolved_of_mem host cwd hrequested hdeny)
      have haccess := (accessAt_of_decides hentry).trans (FileSystemAccessMode.eq_deny_of_le hle)
      exact congrArg FileSystemAccessMode.canRead haccess
    have hdenied : isReadDenied host (restricted requested.entries) cwd grant.path = true :=
      (isReadDenied_iff hrequested).2 ⟨⟨deny, .deny⟩, hdeny, rfl, hcannot, hroot, hle⟩
    rw [haccepted.notDenied] at hdenied
    cases hdenied
  · have hle := path_le_of_deny hrequested hgranted hdecides haccepted ⟨deny, .deny⟩ rfl
      (.inr hdeny) hcovers
    exact path_ne_of_deny hrequested hgranted hdecides haccepted ⟨deny, .deny⟩ rfl
      (.inr hdeny) (hle.eq_of_length_le hbelow.length_le)
  · -- it is accepted as well, and nearer
    have hacceptedRead : Accepted host requested granted cwd ⟨read, .read⟩ :=
      haccepted.of_read_below hrequested hgranted hdecides hreadEntry hbelow hcovers rfl
    have hle := hdecides.path_le
      ((mem_resolved_intersectFileSystem hrequested hgranted).2 (.inl hacceptedRead)) hcovers
    exact hne (hbelow.eq_of_length_le hle.length_le)

/-- The result gives a path more than the request does only where the request lets it be read. -/
lemma strength_le_requested (hkept : ReadsKept host requested.entries granted.entries cwd)
    (path : AbsolutePathBuf) :
    (accessAt host (intersectFileSystem host requested granted cwd).entries path cwd).strength ≤
      (accessAt host requested.entries path cwd).strength := by
  rcases accessAt_cases host (intersectFileSystem host requested granted cwd).entries path cwd with
    hdeny | ⟨grant, hdecides, hgrant⟩
  · rw [hdeny]
    exact Nat.zero_le _
  have haccepted := accepted_of_decides hrequested hgranted hdecides hgrant
  obtain ⟨covering, hcovering, -⟩ := haccepted.exists_decides
  obtain ⟨entry, hentry⟩ := exists_wins hcovering.mem (hcovering.covers.trans hdecides.covers)
  rw [accessAt_of_decides hdecides, accessAt_of_decides hentry]
  rcases haccepted.decides_requested hrequested hgranted hdecides hentry with
    hcovers | ⟨hnot, hbelow⟩
  · revert hcovers
    cases entry.access <;> cases grant.access <;> decide
  · cases haccess : entry.access with
    | deny => exact absurd haccess hnot
    | write => cases grant.access <;> decide
    | read =>
      cases hwrite : grant.access with
      | deny | read => decide
      | write =>
        -- both decide at the path of the read entry, too
        have hself := hentry.of_between prefix_rfl hentry.covers
        have hmem := (mem_resolved_of_explicit host cwd hrequested).1 hentry.mem
        rw [explicitEntry, haccess] at hmem
        exact absurd hkept (not_readsKept_of_decides hrequested hgranted
          (hdecides.of_between hbelow hentry.covers) haccepted hwrite hmem
          ((accessAt_of_decides hself).trans haccess))

/-- A read entry that is not kept is exceeded. -/
lemma exists_lt_of_not_readsKept (h : ¬ ReadsKept host requested.entries granted.entries cwd) :
    ∃ path, ⟨.path path, .read⟩ ∈ requested.entries ∧
      accessAt host requested.entries path cwd = .read ∧
      accessAt host (intersectFileSystem host requested granted cwd).entries path cwd = .write := by
  simp only [ReadsKept, not_forall, not_or, not_exists, not_and] at h
  obtain ⟨path, hread, hnotWrite, grant, hgrant, hbelow, hgive, hnoDeny, hnoGrantDeny, hnoRead⟩ := h
  -- the request denies neither at the path nor at the grant
  have hroot : ⟨.path [], .deny⟩ ∈ requested.entries → grant ≠ [] := by
    rintro hdeny rfl
    obtain ⟨entry, hentry, -, hle⟩ := exists_wins_self
      (mem_resolved_of_mem host cwd hrequested hdeny)
    rw [accessAt_of_decides hentry, FileSystemAccessMode.eq_deny_of_le hle] at hgive
    cases hgive
  have hfree : ∀ deny, ⟨.path deny, .deny⟩ ∈ requested.entries → grant <+: deny →
      ¬ deny <+: path := by
    intro deny hdeny hgrantBelow hcovers
    rcases eq_or_ne deny [] with rfl | hne
    · exact hroot hdeny (prefix_nil.1 hgrantBelow)
    · exact hnoDeny deny hdeny hne hcovers
  refine ⟨path, hread, ?_, ?_⟩
  · obtain ⟨entry, hentry, hsame, -⟩ := exists_wins_self
      (mem_resolved_of_mem host cwd hrequested hread)
    have hmem := (mem_resolved_of_explicit host cwd hrequested).1 hentry.mem
    rw [accessAt_of_decides hentry]
    rw [explicitEntry, hsame] at hmem
    cases haccess : entry.access with
    | read => rfl
    | write => exact absurd (haccess ▸ hmem) hnotWrite
    | deny => exact absurd prefix_rfl (hfree path (haccess ▸ hmem) hbelow)
  · have haccepted : Accepted host requested granted cwd ⟨grant, .write⟩ := by
      refine ⟨hgrant, rfl, ?_, FileSystemAccessMode.canWrite_iff.2 hgive⟩
      rw [Bool.eq_false_iff]
      intro hdenied
      obtain ⟨deny, hmem, hdeny, -, hne, habove⟩ := (isReadDenied_iff hrequested).1 hdenied
      rw [explicitEntry, hdeny] at hmem
      exact hnoDeny deny.path hmem hne (habove.trans hbelow)
    have hresult := (mem_resolved_intersectFileSystem hrequested hgranted).2 (.inl haccepted)
    obtain ⟨winner, hwinner⟩ := exists_wins hresult hbelow
    have hwinnerBelow : grant <+: winner.path := hwinner.path_le hresult hbelow
    rw [accessAt_of_decides hwinner]
    rcases (mem_resolved_intersectFileSystem hrequested hgranted).1 hwinner.mem with
      haccepted' | ⟨hdeny, hmem, -⟩
    · have hmem := haccepted'.granted
      rw [explicitEntry] at hmem
      cases haccess : winner.access with
      | write => rfl
      | deny =>
        rw [haccess] at hmem
        exact absurd hwinner.covers (hnoGrantDeny winner.path hmem hwinnerBelow)
      | read =>
        rw [haccess] at hmem
        by_cases heq : grant = winner.path
        · have hle := access_le_of_wins hwinner hresult heq
          rw [haccess] at hle
          exact absurd (show FileSystemAccessMode.write ≤ .read from hle) (by decide)
        · exact absurd hwinner.covers (hnoRead winner.path hmem hwinnerBelow heq)
    · rw [explicitEntry, hdeny] at hmem
      rcases hmem with hmem | hmem
      · exact absurd hwinner.covers (hfree winner.path hmem hwinnerBelow)
      · exact absurd hwinner.covers (hnoGrantDeny winner.path hmem hwinnerBelow)

end

/-- The entries of a profile. -/
def AdditionalPermissionProfile.entries (profile : AdditionalPermissionProfile) :
    List FileSystemSandboxEntry :=
  (profile.fileSystem.map (·.entries)).getD []

/-- **A granted profile and its bounds.**  The intersection gives no path more access than the
grant, and network access only if both sides enable it.  It gives no path more than the request
exactly if the read entries of the request are kept: above each of them, a write entry of the grant
that the request covers is followed by an entry that denies or lets only read. -/
theorem intersectPermissionProfiles_le_iff (host : Host)
    (requested granted : AdditionalPermissionProfile) (cwd : AbsolutePathBuf)
    (hrequested : Explicit requested.entries) (hgranted : Explicit granted.entries) :
    let result := intersectPermissionProfiles host requested granted cwd
    (∀ path, (accessAt host result.entries path cwd).strength ≤
      (accessAt host granted.entries path cwd).strength) ∧
    (result.network = some ⟨some true⟩ →
      requested.network = some ⟨some true⟩ ∧ granted.network = some ⟨some true⟩) ∧
    ((∀ path, (accessAt host result.entries path cwd).strength ≤
        (accessAt host requested.entries path cwd).strength) ↔
      ReadsKept host requested.entries granted.entries cwd) := by
  have hgranted' : Explicit (granted.fileSystem.getD ⟨[], none⟩).entries := by
    cases hfs : granted.fileSystem with
    | none => simp [Explicit]
    | some fileSystem => simpa [AdditionalPermissionProfile.entries, hfs] using hgranted
  have hentries : granted.entries = (granted.fileSystem.getD ⟨[], none⟩).entries := by
    cases hfs : granted.fileSystem <;> simp [AdditionalPermissionProfile.entries, hfs]
  have hnetwork : (intersectPermissionProfiles host requested granted cwd).network =
      some ⟨some true⟩ →
        requested.network = some ⟨some true⟩ ∧ granted.network = some ⟨some true⟩ := by
    intro h
    by_contra hnot
    rw [intersectPermissionProfiles, if_neg hnot] at h
    cases h
  cases hfs : requested.fileSystem with
  | none =>
    have hresult : (intersectPermissionProfiles host requested granted cwd).entries = [] := by
      simp [AdditionalPermissionProfile.entries, intersectPermissionProfiles, hfs]
    have hdeny : ∀ path, accessAt host [] path cwd = .deny := fun _ => rfl
    dsimp only
    rw [hresult]
    simp only [hdeny]
    have hnone : requested.entries = [] := by simp [AdditionalPermissionProfile.entries, hfs]
    refine ⟨fun _ => Nat.zero_le _, hnetwork, fun _ path hread => ?_, fun _ _ => Nat.zero_le _⟩
    rw [hnone] at hread
    cases hread
  | some fileSystem =>
    have hresult : (intersectPermissionProfiles host requested granted cwd).entries =
        (intersectFileSystem host fileSystem (granted.fileSystem.getD ⟨[], none⟩) cwd).entries := by
      cases hempty : (intersectFileSystem host fileSystem (granted.fileSystem.getD ⟨[], none⟩)
          cwd).entries <;>
        simp [AdditionalPermissionProfile.entries, intersectPermissionProfiles, hfs, hempty,
          Option.filter]
    have hrequested' : requested.entries = fileSystem.entries := by
      simp [AdditionalPermissionProfile.entries, hfs]
    rw [hrequested'] at hrequested ⊢
    dsimp only
    rw [hresult, hentries]
    refine ⟨strength_le_granted hrequested hgranted', hnetwork, fun h => by_contra fun hkept => ?_,
      strength_le_requested hrequested hgranted'⟩
    obtain ⟨path, -, hread, hwrite⟩ := exists_lt_of_not_readsKept hrequested hgranted' hkept
    have hle := h path
    rw [hread, hwrite] at hle
    exact absurd hle (by decide)

/-- A directory, with a subdirectory that is only read. -/
def readBelowWrite : AdditionalPermissionProfile :=
  ⟨none, some ⟨[writeEntry ["a".toList], ⟨.path ["a".toList, "b".toList], .read⟩], none⟩⟩

/-- The directory alone. -/
def writeOnly : AdditionalPermissionProfile := ⟨none, some ⟨[writeEntry ["a".toList]], none⟩⟩

theorem intersectPermissionProfiles_le_iff_reads :
    ¬ ReadsKept plainHost readBelowWrite.entries writeOnly.entries [] ∧
      ReadsKept plainHost readBelowWrite.entries readBelowWrite.entries [] := by
  have hrequested : Explicit readBelowWrite.entries := by
    simp [Explicit, readBelowWrite, writeEntry, AdditionalPermissionProfile.entries]
  have hgranted : Explicit writeOnly.entries := by
    simp [Explicit, writeOnly, writeEntry, AdditionalPermissionProfile.entries]
  refine ⟨fun hkept => ?_, ?_⟩
  · have hle := (intersectPermissionProfiles_le_iff plainHost readBelowWrite writeOnly [] hrequested
      hgranted).2.2.2 hkept ["a".toList, "b".toList]
    exact absurd hle (by decide +kernel)
  · refine (intersectPermissionProfiles_le_iff plainHost readBelowWrite readBelowWrite [] hrequested
      hrequested).2.2.1 fun path => ?_
    exact (intersectPermissionProfiles_le_iff plainHost readBelowWrite readBelowWrite [] hrequested
      hrequested).1 path

/-- The subdirectory that was requested to be read can be written. -/
theorem intersectPermissionProfiles_drops_read :
    let result := intersectPermissionProfiles plainHost readBelowWrite writeOnly []
    let path := ["a".toList, "b".toList]
    accessAt plainHost result.entries path [] = .write ∧
      accessAt plainHost readBelowWrite.entries path [] = .read ∧
      accessAt plainHost writeOnly.entries path [] = .write := by
  decide +kernel

end TokenCode.Permissions
