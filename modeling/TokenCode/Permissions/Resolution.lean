/-
The order of the entries of a policy.

The access to a path is that of the most specific entry, and does not depend on the order in which
the entries are listed or on how often. Whether a path can be written does: several writable
entries may protect a metadata directory above the path, the first one in the list decides which of
them is looked at, and only one of them may be opened by a further entry.
-/
import TokenCode.Permissions.Policy

namespace TokenCode.Permissions

open List FileSystemSandboxPolicy

/-- The lists have the same entries, in any order and number. -/
def SameEntries (entries entries' : List FileSystemSandboxEntry) : Prop :=
  ∀ entry, entry ∈ entries' ↔ entry ∈ entries

lemma any_congr_of_mem {α : Type} {l l' : List α} (h : ∀ a, a ∈ l' ↔ a ∈ l) (check : α → Bool) :
    l'.any check = l.any check := by
  rw [Bool.eq_iff_iff]
  simp [h]

variable {host : Host} {depth : Option ℕ} {entries entries' : List FileSystemSandboxEntry}
  {path cwd : AbsolutePathBuf} {resolved : ResolvedFileSystemEntry} {policy : FileSystemSandboxPolicy}

lemma mem_resolvedEntriesWithCwd : resolved ∈ policy.resolvedEntriesWithCwd host cwd ↔
      ∃ entry ∈ policy.entries, resolveEntryPath host cwd entry.path = some resolved.path ∧
        entry.access = resolved.access := by
  simp only [resolvedEntriesWithCwd, mem_filterMap, Option.map_eq_some_iff]
  constructor
  · rintro ⟨entry, hentry, path, hpath, rfl⟩
    exact ⟨entry, hentry, hpath, rfl⟩
  · rintro ⟨entry, hentry, hpath, haccess⟩
    exact ⟨entry, hentry, resolved.path, hpath, by rw [haccess]⟩

open ResolvedFileSystemEntry (access)

lemma resolveAccessWithCwd_of_wins
    (h : Nearest.Wins ResolvedFileSystemEntry.path access
      (resolvedEntriesWithCwd host ⟨.restricted, depth, entries⟩ cwd) path resolved) :
    resolveAccessWithCwd host ⟨.restricted, depth, entries⟩ path cwd = resolved.access := by
  simp [resolveAccessWithCwd, Nearest.map_rank_winner h]

/-- A path below an entry has a most specific one. -/
lemma exists_wins (hresolved : resolved ∈ policy.resolvedEntriesWithCwd host cwd)
    (hcovers : resolved.path <+: path) :
    ∃ winner, Nearest.Wins ResolvedFileSystemEntry.path access
      (policy.resolvedEntriesWithCwd host cwd) path winner := by
  cases hwinner : Nearest.winner ResolvedFileSystemEntry.path access
      (policy.resolvedEntriesWithCwd host cwd) path with
  | none => exact absurd hcovers (Nearest.winner_eq_none.1 hwinner resolved hresolved)
  | some winner => exact ⟨winner, Nearest.wins_of_winner hwinner⟩

/-- Among the entries at one path the strictest one decides. -/
lemma access_le_of_wins {winner : ResolvedFileSystemEntry}
    (h : Nearest.Wins ResolvedFileSystemEntry.path access
      (policy.resolvedEntriesWithCwd host cwd) path winner)
    (hresolved : resolved ∈ policy.resolvedEntriesWithCwd host cwd)
    (hpath : resolved.path = winner.path) : resolved.access ≤ winner.access := by
  have hkey := h.max resolved hresolved (hpath ▸ h.covers)
  rw [Nearest.key, Nearest.key, hpath] at hkey
  rcases Prod.Lex.toLex_le_toLex.1 hkey with hlt | ⟨-, hle⟩
  · exact absurd hlt (lt_irrefl _)
  · exact hle

/-- About the path of an entry an entry at that path decides, one at least as strict. -/
lemma exists_wins_self (hresolved : resolved ∈ policy.resolvedEntriesWithCwd host cwd) :
    ∃ winner, Nearest.Wins ResolvedFileSystemEntry.path access
      (policy.resolvedEntriesWithCwd host cwd) resolved.path winner ∧
        winner.path = resolved.path ∧ resolved.access ≤ winner.access := by
  obtain ⟨winner, hwins⟩ := exists_wins hresolved prefix_rfl
  have hpath : resolved.path = winner.path :=
    (hwins.path_le hresolved prefix_rfl).eq_of_length_le hwins.covers.length_le
  exact ⟨winner, hwins, hpath.symm, access_le_of_wins hwins hresolved hpath⟩

section

variable (h : SameEntries entries entries')
include h

lemma mem_resolvedEntriesWithCwd_congr (resolved : ResolvedFileSystemEntry) :
    resolved ∈ resolvedEntriesWithCwd host ⟨.restricted, depth, entries'⟩ cwd ↔
      resolved ∈ resolvedEntriesWithCwd host ⟨.restricted, depth, entries⟩ cwd := by
  simp only [mem_resolvedEntriesWithCwd, h _]

lemma resolveAccessWithCwd_congr :
    resolveAccessWithCwd host ⟨.restricted, depth, entries'⟩ path cwd =
      resolveAccessWithCwd host ⟨.restricted, depth, entries⟩ path cwd := by
  simp only [resolveAccessWithCwd]
  rw [Nearest.map_rank_winner_congr fun resolved => mem_resolvedEntriesWithCwd_congr h resolved]

lemma hasSameTargetWriteOverride_congr : hasSameTargetWriteOverride ⟨.restricted, depth, entries'⟩ =
      hasSameTargetWriteOverride ⟨.restricted, depth, entries⟩ := by
  funext entry
  exact any_congr_of_mem h _

lemma hasFullDiskWriteAccess_congr : hasFullDiskWriteAccess ⟨.restricted, depth, entries'⟩ =
      hasFullDiskWriteAccess ⟨.restricted, depth, entries⟩ := by
  simp only [hasFullDiskWriteAccess, hasRootAccess, hasWriteNarrowingEntries,
    hasSameTargetWriteOverride_congr h]
  rw [any_congr_of_mem h, any_congr_of_mem h]

lemma hasExplicitWriteEntry_congr (protectedMetadataPath : AbsolutePathBuf) :
    hasExplicitWriteEntryForMetadataPath host ⟨.restricted, depth, entries'⟩ protectedMetadataPath
        path cwd = hasExplicitWriteEntryForMetadataPath host ⟨.restricted, depth, entries⟩
        protectedMetadataPath path cwd :=
  any_congr_of_mem (mem_resolvedEntriesWithCwd_congr h) _

end

/-! ### Protected metadata -/

/-- The metadata directories above the path that some writable entry protects. -/
def metadataChildren (host : Host) (policy : FileSystemSandboxPolicy)
    (path cwd : AbsolutePathBuf) : List (AbsolutePathBuf × Text) :=
  ((policy.resolvedEntriesWithCwd host cwd).filter (·.access.canWrite)).filterMap
    (metadataChild host path)

/-- An entry opens the metadata directory for the path. -/
def opened (host : Host) (policy : FileSystemSandboxPolicy) (path cwd : AbsolutePathBuf)
    (child : AbsolutePathBuf × Text) : Bool :=
  policy.hasExplicitWriteEntryForMetadataPath host child.1 path cwd

/-- Either all of the protected metadata directories above the path are opened, or none. -/
def MetadataAgrees (host : Host) (policy : FileSystemSandboxPolicy)
    (path cwd : AbsolutePathBuf) : Prop :=
  ∀ child ∈ metadataChildren host policy path cwd,
    ∀ child' ∈ metadataChildren host policy path cwd,
      opened host policy path cwd child = opened host policy path cwd child'

variable {child : AbsolutePathBuf × Text}

/-- The first of the directories decides. -/
lemma isMetadataWriteDenied_eq :
    isMetadataWriteDenied host ⟨.restricted, depth, entries⟩ path cwd =
      match (metadataChildren host ⟨.restricted, depth, entries⟩ path cwd).head? with
      | some child => !opened host ⟨.restricted, depth, entries⟩ path cwd child
      | none => false := by
  simp only [isMetadataWriteDenied, metadataChildOfWritableRoot, metadataChildren, head?_filterMap]
  cases List.findSome? (metadataChild host path) _ <;> rfl

lemma mem_metadataChildren : child ∈ metadataChildren host policy path cwd ↔
      ∃ resolved ∈ policy.resolvedEntriesWithCwd host cwd, resolved.access = .write ∧
        metadataChild host path resolved = some child := by
  simp [metadataChildren, FileSystemAccessMode.canWrite_iff, and_assoc]

lemma mem_metadataChildren_congr (h : SameEntries entries entries')
    (child : AbsolutePathBuf × Text) :
    child ∈ metadataChildren host ⟨.restricted, depth, entries'⟩ path cwd ↔
      child ∈ metadataChildren host ⟨.restricted, depth, entries⟩ path cwd := by
  simp only [mem_metadataChildren, mem_resolvedEntriesWithCwd_congr h]

/-- Any of the directories can be made the first one, by listing its entry once more. -/
lemma exists_sameEntries_head
    (h : child ∈ metadataChildren host ⟨.restricted, depth, entries⟩ path cwd) :
    ∃ entries', SameEntries entries entries' ∧
      (metadataChildren host ⟨.restricted, depth, entries'⟩ path cwd).head? = some child := by
  obtain ⟨resolved, hresolved, haccess, hchild⟩ := mem_metadataChildren.1 h
  obtain ⟨entry, hentry, hpath, hentryAccess⟩ := mem_resolvedEntriesWithCwd.1 hresolved
  refine ⟨entry :: entries, fun other => ?_, ?_⟩
  · refine ⟨fun hother => ?_, mem_cons_of_mem _⟩
    rcases mem_cons.1 hother with rfl | hother
    · exact hentry
    · exact hother
  · have hwrite : resolved.access.canWrite = true := FileSystemAccessMode.canWrite_iff.2 haccess
    have hcons : resolvedEntriesWithCwd host ⟨.restricted, depth, entry :: entries⟩ cwd =
        resolved :: resolvedEntriesWithCwd host ⟨.restricted, depth, entries⟩ cwd := by
      simp [resolvedEntriesWithCwd, hpath, hentryAccess]
    simp [metadataChildren, hcons, hwrite, hchild]

/-- The metadata decide whether a path can be written that the entries leave writable. -/
lemma canWritePathWithCwd_eq
    (hresolve : (resolveAccessWithCwd host ⟨.restricted, depth, entries⟩ path cwd).canWrite = true)
    (hfull : hasFullDiskWriteAccess ⟨.restricted, depth, entries⟩ = false) :
    canWritePathWithCwd host ⟨.restricted, depth, entries⟩ path cwd =
      !isMetadataWriteDenied host ⟨.restricted, depth, entries⟩ path cwd := by
  rw [canWritePathWithCwd, hresolve, hfull]
  rfl

lemma isMetadataWriteDenied_congr (h : SameEntries entries entries')
    (hagrees : MetadataAgrees host ⟨.restricted, depth, entries⟩ path cwd) :
    isMetadataWriteDenied host ⟨.restricted, depth, entries'⟩ path cwd =
      isMetadataWriteDenied host ⟨.restricted, depth, entries⟩ path cwd := by
  rw [isMetadataWriteDenied_eq, isMetadataWriteDenied_eq]
  cases hhead : (metadataChildren host ⟨.restricted, depth, entries⟩ path cwd).head? with
  | none =>
    have hnil := head?_eq_none_iff.1 hhead
    have hnil' : metadataChildren host ⟨.restricted, depth, entries'⟩ path cwd = [] := by
      refine eq_nil_iff_forall_not_mem.2 fun child hchild => ?_
      have hmem := (mem_metadataChildren_congr h child).1 hchild
      rw [hnil] at hmem
      cases hmem
    rw [hnil', head?_nil]
  | some child =>
    have hchild := mem_of_mem_head? hhead
    cases hhead' : (metadataChildren host ⟨.restricted, depth, entries'⟩ path cwd).head? with
    | none =>
      have hmem := (mem_metadataChildren_congr h child).2 hchild
      rw [head?_eq_none_iff.1 hhead'] at hmem
      cases hmem
    | some child' =>
      have hchild' := (mem_metadataChildren_congr h child').1 (mem_of_mem_head? hhead')
      dsimp only
      rw [opened, hasExplicitWriteEntry_congr h]
      exact congrArg (!·) (hagrees child' hchild' child hchild)

/-- **What depends on the order of the entries.**  The access to a path, and whether it can be read,
do not; whether it can be written does not exactly if the protected metadata directories above it
are all opened or none of them is (where it matters: the access is to write, and the policy does not
open the whole disk). -/
theorem resolution_sameEntries_iff (host : Host) (depth : Option ℕ)
    (entries : List FileSystemSandboxEntry) (path cwd : AbsolutePathBuf) :
    (∀ entries', SameEntries entries entries' →
      resolveAccessWithCwd host ⟨.restricted, depth, entries'⟩ path cwd =
          resolveAccessWithCwd host ⟨.restricted, depth, entries⟩ path cwd ∧
        canReadPathWithCwd host ⟨.restricted, depth, entries'⟩ path cwd =
          canReadPathWithCwd host ⟨.restricted, depth, entries⟩ path cwd) ∧
    ((∀ entries', SameEntries entries entries' →
        canWritePathWithCwd host ⟨.restricted, depth, entries'⟩ path cwd =
          canWritePathWithCwd host ⟨.restricted, depth, entries⟩ path cwd) ↔
      ((resolveAccessWithCwd host ⟨.restricted, depth, entries⟩ path cwd).canWrite = true →
        hasFullDiskWriteAccess ⟨.restricted, depth, entries⟩ = false →
        MetadataAgrees host ⟨.restricted, depth, entries⟩ path cwd)) := by
  refine ⟨fun entries' h => ?_, fun hsame hresolve hfull child hchild child' hchild' => ?_,
    fun hagrees entries' h => ?_⟩
  · have haccess : resolveAccessWithCwd host ⟨.restricted, depth, entries'⟩ path cwd =
        resolveAccessWithCwd host ⟨.restricted, depth, entries⟩ path cwd :=
      resolveAccessWithCwd_congr h
    exact ⟨haccess, congrArg FileSystemAccessMode.canRead haccess⟩
  · -- with either directory in front the answer is whether that one is opened
    have hopened : ∀ child ∈ metadataChildren host ⟨.restricted, depth, entries⟩ path cwd,
        opened host ⟨.restricted, depth, entries⟩ path cwd child =
          canWritePathWithCwd host ⟨.restricted, depth, entries⟩ path cwd := by
      intro child hchild
      obtain ⟨entries', h, hhead⟩ := exists_sameEntries_head hchild
      rw [← hsame entries' h, canWritePathWithCwd_eq (by rwa [resolveAccessWithCwd_congr h])
        (by rwa [hasFullDiskWriteAccess_congr h]), isMetadataWriteDenied_eq, hhead]
      simp only [Bool.not_not, opened]
      exact (hasExplicitWriteEntry_congr h child.1).symm
    rw [hopened child hchild, hopened child' hchild']
  · simp only [canWritePathWithCwd, resolveAccessWithCwd_congr h, hasFullDiskWriteAccess_congr h]
    split
    · rfl
    next hresolve =>
      split
      · rfl
      next hfull =>
        rw [isMetadataWriteDenied_congr h (hagrees (by simpa using hresolve) (by simpa using hfull))]

/-! ### A policy that depends on the order -/

/-- An entry that makes a path writable. -/
def writeEntry (path : AbsolutePathBuf) : FileSystemSandboxEntry := ⟨.path path, .write⟩

/-- The repository is writable, and so is a module in its `.git`. -/
def moduleEntries : List FileSystemSandboxEntry :=
  [writeEntry ["r".toList], writeEntry ["r".toList, ".git".toList, "m".toList]]

/-- Behind the repository the module opens its path in `.git`; in front of it, it protects a
`.tokencode` directory of its own. -/
theorem canWritePathWithCwd_reverse :
    let path := ["r".toList, ".git".toList, "m".toList, ".tokencode".toList]
    canWritePathWithCwd plainHost ⟨.restricted, none, moduleEntries⟩ path [] = true ∧
      canWritePathWithCwd plainHost ⟨.restricted, none, moduleEntries.reverse⟩ path [] = false ∧
      moduleEntries.reverse.Perm moduleEntries := by
  refine ⟨by decide +kernel, by decide +kernel, moduleEntries.reverse_perm⟩

end TokenCode.Permissions
