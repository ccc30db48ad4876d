/-
Policies that open the whole disk for writing (`protocol/src/permissions.rs`).

`has_full_disk_write_access` looks at the entries of a policy only: the root is writable, and every entry
that does not allow writing is shadowed by a writable one for the same target. The target is compared by
name, and `:slash_tmp` counts as `/tmp`; but where `/tmp` is no directory, `:slash_tmp` is no entry at all,
and what it seems to shadow is not shadowed. The main result, `hasFullDiskWriteAccess_sound_iff`, says
that this is the only case in which the answer is wrong.
-/
import TokenCode.Permissions.Resolution

namespace TokenCode.Permissions

open FileSystemSandboxPolicy

variable {host : Host} {depth : Option ℕ} {entries : List FileSystemSandboxEntry}
  {cwd path : AbsolutePathBuf} {entry : FileSystemSandboxEntry}

/-- Some entry makes exactly this path writable. -/
def WritableAt (host : Host) (entries : List FileSystemSandboxEntry) (cwd path : AbsolutePathBuf) :
    Prop :=
  ∃ entry ∈ entries, entry.access = .write ∧ resolveEntryPath host cwd entry.path = some path

/-- `/tmp`, to be read only. -/
def readSlashTmp : FileSystemSandboxEntry := ⟨.path slashTmp, .read⟩

/-! ### What the check says about the entries -/

lemma writableAt_root (h : hasFullDiskWriteAccess ⟨.restricted, depth, entries⟩ = true) :
    WritableAt host entries cwd [] := by
  simp only [hasFullDiskWriteAccess, hasRootAccess, Bool.and_eq_true, List.any_eq_true,
    beq_iff_eq] at h
  obtain ⟨⟨-, entry, hentry, hpath, hwrite⟩, -⟩ := h
  exact ⟨entry, hentry, FileSystemAccessMode.canWrite_iff.1 hwrite, by rw [hpath]; rfl⟩

/-- An entry that overrides another one. -/
lemma exists_override (h : hasSameTargetWriteOverride ⟨.restricted, depth, entries⟩ entry = true) :
    entry.access = .read ∧ ∃ candidate ∈ entries, candidate.access = .write ∧
      fileSystemPathsShareTarget candidate.path entry.path = true := by
  simp only [hasSameTargetWriteOverride, List.any_eq_true, Bool.and_eq_true, decide_eq_true_eq,
    FileSystemAccessMode.canWrite_iff] at h
  obtain ⟨candidate, hmem, ⟨hwrite, hlt⟩, htarget⟩ := h
  refine ⟨?_, candidate, hmem, hwrite, htarget⟩
  rw [hwrite] at hlt
  revert hlt
  cases entry.access <;> decide

/-- What the check leaves of the entries that do not allow writing. -/
lemma not_narrowing (h : hasFullDiskWriteAccess ⟨.restricted, depth, entries⟩ = true)
    (hentry : entry ∈ entries) (hread : entry.access ≠ .write) :
    match entry.path with
    | .path _ => hasSameTargetWriteOverride ⟨.restricted, depth, entries⟩ entry = true
    | .globPattern _ => False
    | .special .root => entry.access ≠ .deny
    | .special .minimal | .special (.unknown _ _) => True
    | .special _ => hasSameTargetWriteOverride ⟨.restricted, depth, entries⟩ entry = true := by
  simp only [hasFullDiskWriteAccess, hasWriteNarrowingEntries, Bool.and_eq_true,
    Bool.not_eq_true', Bool.and_eq_false_iff] at h
  rcases h.2 with hkind | hany
  · exact absurd hkind (by decide)
  · have hnot := List.any_eq_false.1 hany entry hentry
    have hwrite : entry.access.canWrite = false := by
      rw [← Bool.not_eq_true, FileSystemAccessMode.canWrite_iff]
      exact hread
    revert hnot
    split <;> simp_all

/-- What has the target of a special path is resolved like it. -/
lemma resolveEntryPath_of_special {value : FileSystemSpecialPath} {other : FileSystemPath}
    (htarget : fileSystemPathsShareTarget other (.special value) = true)
    (hpath : resolveEntryPath host cwd (.special value) = some path) :
    resolveEntryPath host cwd other = some path := by
  cases other with
  | globPattern pattern => cases htarget
  | special other =>
    obtain rfl := beq_iff_eq.1 htarget
    exact hpath
  | path other =>
    cases value with
    | root =>
      obtain rfl := List.isEmpty_iff.1 htarget
      exact hpath
    | slashTmp =>
      obtain rfl := beq_iff_eq.1 htarget
      simp only [resolveEntryPath, resolveFileSystemPath, resolveFileSystemSpecialPath] at hpath ⊢
      split at hpath
      · exact hpath
      · cases hpath
    | _ => cases htarget

/-- **An entry that does not allow writing is shadowed**, unless it is `/tmp` and `:slash_tmp` is what
shadows it. -/
lemma shadowed (h : hasFullDiskWriteAccess ⟨.restricted, depth, entries⟩ = true)
    (hentry : entry ∈ entries) (hread : entry.access ≠ .write)
    (hpath : resolveEntryPath host cwd entry.path = some path) :
    entry.access = .read ∧ (WritableAt host entries cwd path ∨ entry = readSlashTmp) := by
  have hnarrow := not_narrowing h hentry hread
  obtain ⟨target, access⟩ := entry
  cases target with
  | globPattern pattern => exact hnarrow.elim
  | path target =>
    obtain ⟨haccess, candidate, hmem, hwrite, htarget⟩ := exists_override hnarrow
    refine ⟨haccess, ?_⟩
    obtain rfl := Option.some.inj hpath
    obtain ⟨other, mode⟩ := candidate
    cases other with
    | globPattern pattern => cases htarget
    | path other =>
      obtain rfl := beq_iff_eq.1 htarget
      exact .inl ⟨_, hmem, hwrite, rfl⟩
    | special value =>
      cases value with
      | root =>
        obtain rfl := List.isEmpty_iff.1 htarget
        exact .inl ⟨_, hmem, hwrite, rfl⟩
      | slashTmp =>
        -- the writable entry may be none
        obtain rfl := beq_iff_eq.1 htarget
        obtain rfl := haccess
        exact .inr rfl
      | _ => cases htarget
  | special value =>
    cases value with
    | root =>
      obtain rfl := Option.some.inj hpath
      refine ⟨?_, .inl (writableAt_root h)⟩
      cases access with
      | read => rfl
      | write => exact absurd rfl hread
      | deny => exact absurd rfl hnarrow
    | minimal | unknown name subpath => cases hpath
    | _ =>
      obtain ⟨haccess, candidate, hmem, hwrite, htarget⟩ := exists_override hnarrow
      refine ⟨haccess, .inl ⟨candidate, hmem, hwrite, ?_⟩⟩
      exact resolveEntryPath_of_special htarget hpath

/-! ### The access to a path -/

/-- Where every entry that does not allow writing is shadowed, everything is writable. -/
lemma resolveAccessWithCwd_eq_write (hroot : WritableAt host entries cwd [])
    (h : ∀ entry ∈ entries, entry.access ≠ .write → ∀ path,
      resolveEntryPath host cwd entry.path = some path →
        entry.access = .read ∧ WritableAt host entries cwd path) (target : AbsolutePathBuf) :
    resolveAccessWithCwd host ⟨.restricted, depth, entries⟩ target cwd = .write := by
  obtain ⟨root, hroot, hwrite, hrootPath⟩ := hroot
  have hmem : (⟨[], .write⟩ : ResolvedFileSystemEntry) ∈
      resolvedEntriesWithCwd host ⟨.restricted, depth, entries⟩ cwd :=
    mem_resolvedEntriesWithCwd.2 ⟨root, hroot, hrootPath, hwrite⟩
  obtain ⟨winner, hwins⟩ := exists_wins hmem (List.nil_prefix (l := target))
  obtain ⟨entry, hentry, hpath, haccess⟩ := mem_resolvedEntriesWithCwd.1 hwins.mem
  rw [resolveAccessWithCwd_of_wins hwins]
  by_contra hne
  obtain ⟨hread, candidate, hcandidate, hwrite', hpath'⟩ :=
    h entry hentry (haccess ▸ hne) winner.path hpath
  -- the entry that makes the winner's path writable comes before the winner
  have hle := hwins.max ⟨winner.path, .write⟩
    (mem_resolvedEntriesWithCwd.2 ⟨candidate, hcandidate, hpath', hwrite'⟩) hwins.covers
  rcases Prod.Lex.toLex_le_toLex.1 hle with hlt | ⟨-, hle⟩
  · exact absurd hlt (Nat.lt_irrefl _)
  · rw [← haccess, hread] at hle
    exact absurd (show FileSystemAccessMode.write ≤ .read from hle) (by decide)

/-- A path that an entry is about and that is writable is made writable by an entry for it. -/
lemma writableAt_of_resolveAccess {access : FileSystemAccessMode} (hentry : entry ∈ entries)
    (hpath : resolveEntryPath host cwd entry.path = some path) (haccess : entry.access = access)
    (h : resolveAccessWithCwd host ⟨.restricted, depth, entries⟩ path cwd = .write) :
    WritableAt host entries cwd path := by
  have hmem : (⟨path, access⟩ : ResolvedFileSystemEntry) ∈
      resolvedEntriesWithCwd host ⟨.restricted, depth, entries⟩ cwd :=
    mem_resolvedEntriesWithCwd.2 ⟨entry, hentry, hpath, haccess⟩
  obtain ⟨winner, hwins⟩ := exists_wins hmem (List.prefix_refl path)
  rw [resolveAccessWithCwd_of_wins hwins] at h
  have heq : path = winner.path :=
    (hwins.path_le hmem (List.prefix_refl path)).eq_of_length_le hwins.covers.length_le
  obtain ⟨candidate, hcandidate, hpath', haccess'⟩ := mem_resolvedEntriesWithCwd.1 hwins.mem
  exact ⟨candidate, hcandidate, haccess'.trans h, heq ▸ hpath'⟩

/-- **When the whole disk is really open for writing.**  If `has_full_disk_write_access` says so, then
every path is writable exactly if `/tmp`, where the policy has it to be read only, is made writable by an
entry that is one on this system. -/
theorem hasFullDiskWriteAccess_sound_iff (host : Host) (depth : Option ℕ)
    (entries : List FileSystemSandboxEntry) (cwd : AbsolutePathBuf)
    (hfull : hasFullDiskWriteAccess ⟨.restricted, depth, entries⟩ = true) :
    (∀ path, resolveAccessWithCwd host ⟨.restricted, depth, entries⟩ path cwd = .write) ↔
      (readSlashTmp ∈ entries → WritableAt host entries cwd slashTmp) := by
  constructor
  · intro h htmp
    exact writableAt_of_resolveAccess htmp rfl rfl (h slashTmp)
  · intro h
    refine resolveAccessWithCwd_eq_write (writableAt_root hfull) fun entry hentry hne path hpath => ?_
    obtain ⟨hread, hwritable | rfl⟩ := shadowed hfull hentry hne hpath
    · exact ⟨hread, hwritable⟩
    · obtain rfl := Option.some.inj hpath
      exact ⟨hread, h hentry⟩

/-- The disk is writable, `/tmp` is to be read only, and `:slash_tmp` is writable. -/
def slashTmpPolicy : FileSystemSandboxPolicy :=
  restricted [⟨.special .root, .write⟩, readSlashTmp, ⟨.special .slashTmp, .write⟩]

/-- On a system with a directory `/tmp` the policy opens the whole disk. -/
theorem hasFullDiskWriteAccess_sound_iff_slashTmp : hasFullDiskWriteAccess slashTmpPolicy = true ∧
      ∀ path, resolveAccessWithCwd { plainHost with isDir := fun _ => true } slashTmpPolicy path [] =
        .write :=
  ⟨by decide, (hasFullDiskWriteAccess_sound_iff _ none _ [] (by decide)).2 fun _ =>
    ⟨⟨.special .slashTmp, .write⟩, by decide, rfl, by decide⟩⟩

/-- Without one, `/tmp` and what is below it stays read only. -/
theorem missing_slashTmp_is_read_only : hasFullDiskWriteAccess slashTmpPolicy = true ∧
      ¬ ∀ path, resolveAccessWithCwd plainHost slashTmpPolicy path [] = .write :=
  ⟨by decide, fun h => absurd (h slashTmp) (by decide)⟩

end TokenCode.Permissions
