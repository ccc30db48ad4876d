/-
Verifying a patch before it is approved (`try_verify_apply_patch_args` in
`apply-patch/src/invocation.rs`).

Every hunk is resolved and computed against the files as they are, and what it would do is put
into a map from URIs to changes; a later hunk for the same URI takes the place of an earlier one.
`Previewed` says what is stored for a hunk, and `tryVerifyApplyPatchArgs_spec` what the map of a
verified patch is.
-/
import TokenCode.ApplyPatch.ApplyStep
import TokenCode.Lib.Maps

namespace TokenCode.ApplyPatch

open Text Program

/-- `ApplyPatchFileChange`. -/
inductive ApplyPatchFileChange (Uri : Type) where
  | add (content : Text)
  | delete (content : Text)
  | update (unifiedDiff : Text) (movePath : Option Uri) (newContent : Text)
deriving DecidableEq, Repr

/-- The destination of a stored update. -/
def ApplyPatchFileChange.movePath {Uri : Type} : ApplyPatchFileChange Uri → Option Uri
  | .update _ movePath _ => movePath
  | _ => none

/-- The map that an action has for its changes. -/
abbrev FileChanges (Uri : Type) := AList fun _ : Uri => ApplyPatchFileChange Uri

/-- `ApplyPatchAction`. -/
structure ApplyPatchAction (Uri : Type) where
  changes : FileChanges Uri
  patch : Text
  cwd : Uri

/-- Actions are compared by the entries of their maps. -/
instance {Uri : Type} [DecidableEq Uri] : DecidableEq (ApplyPatchAction Uri) := fun a b =>
  decidable_of_iff (a.changes.entries = b.changes.entries ∧ a.patch = b.patch ∧ a.cwd = b.cwd) (by
    rcases a with ⟨⟨entries, _⟩, patch, cwd⟩
    rcases b with ⟨⟨entries', _⟩, patch', cwd'⟩
    simp)

/-- `ApplyPatchFileUpdate`. -/
structure ApplyPatchFileUpdate where
  unifiedDiff : Text
  originalContent : Text
  content : Text
deriving DecidableEq, Repr

def readContext (path : Text) : Text := "Failed to read ".toList ++ path

section

variable {Uri Path : Type} [DecidableEq Uri] [DecidableEq Path]
  (host : Host Uri Path) (diff : Text → Text → Text)

/-- `unified_diff_from_chunks`; the diff itself comes from another crate. -/
def unifiedDiffFromChunks (path : Uri) (chunks : List UpdateFileChunk) :
    Fs Uri Path ApplyPatchError ApplyPatchFileUpdate := do
  let applied ← deriveNewContentsFromChunks host path chunks
  return ⟨diff applied.originalContents applied.newContents, applied.originalContents,
    applied.newContents⟩

/-- `move_path.map(|path| cwd.join(path)).transpose()?`. -/
def resolveMove (cwd : Uri) : Option Text → Fs Uri Path ApplyPatchError (Option Uri)
  | none => return none
  | some dest => do
    let target ← resolve host cwd dest
    return some target

/-- The change that is stored for a hunk. -/
def verifiedChange (cwd path : Uri) : Hunk → Fs Uri Path ApplyPatchError (ApplyPatchFileChange Uri)
  | .addFile _ contents => return .add contents
  | .deleteFile _ => do
    let content ← withContext host readContext path (readFileText host path)
    return .delete content
  | .updateFile _ movePath chunks => do
    let update ← unifiedDiffFromChunks host diff path chunks
    let movePath ← resolveMove host cwd movePath
    return .update update.unifiedDiff movePath update.content

/-- The body of the loop of `try_verify_apply_patch_args`. -/
def verifyHunk (cwd : Uri) (changes : FileChanges Uri) (hunk : Hunk) :
    Fs Uri Path ApplyPatchError (FileChanges Uri) := do
  let path ← resolve host cwd hunk.sourcePath
  let change ← verifiedChange host diff cwd path hunk
  return changes.insert path change

/-- The directory that the paths of a patch are relative to. -/
def effectiveCwd (cwd : Uri) : Option Text → Fs Uri Path ApplyPatchError Uri
  | none => return cwd
  | some dir => resolve host cwd dir

/-- `try_verify_apply_patch_args`. -/
def tryVerifyApplyPatchArgs (args : ApplyPatchArgs) (cwd : Uri) :
    Fs Uri Path ApplyPatchError (ApplyPatchAction Uri) := do
  let cwd ← effectiveCwd host cwd args.workdir
  let changes ← args.hunks.foldlM (verifyHunk host diff cwd) ∅
  return ⟨changes, args.patch, cwd⟩

end

variable {hunk : Hunk}

section

variable {Uri Path : Type}
  {host : Host Uri Path} {diff : Text → Text → Text} {cwd : Uri} {files : Path → Option Text}

/-- What verification stores for a hunk: the URI and the change. -/
inductive Previewed (host : Host Uri Path) (diff : Text → Text → Text) (cwd : Uri)
    (files : Path → Option Text) : Hunk → Uri × ApplyPatchFileChange Uri → Prop where
  | add {p contents : Text} {path : Uri} (hpath : host.join cwd p = .ok path) :
      Previewed host diff cwd files (.addFile p contents) (path, .add contents)
  | delete {p content : Text} {path : Uri} (hpath : host.join cwd p = .ok path)
      (hfound : files (host.toPathBuf path) = some content) :
      Previewed host diff cwd files (.deleteFile p) (path, .delete content)
  | update {p : Text} {chunks : List UpdateFileChunk} {path : Uri} {applied : AppliedPatch}
      (hpath : host.join cwd p = .ok path)
      (hfound : files (host.toPathBuf path) = some applied.originalContents)
      (happlied : deriveNewContents (host.nativePathString path) applied.originalContents chunks =
        .ok applied) :
      Previewed host diff cwd files (.updateFile p none chunks)
        (path, .update (diff applied.originalContents applied.newContents) none
          applied.newContents)
  | move {p dest : Text} {chunks : List UpdateFileChunk} {path target : Uri}
      {applied : AppliedPatch} (hpath : host.join cwd p = .ok path)
      (hfound : files (host.toPathBuf path) = some applied.originalContents)
      (happlied : deriveNewContents (host.nativePathString path) applied.originalContents chunks =
        .ok applied) (htarget : host.join cwd dest = .ok target) :
      Previewed host diff cwd files (.updateFile p (some dest) chunks)
        (path, .update (diff applied.originalContents applied.newContents) (some target)
          applied.newContents)

lemma frame_files (files : Path → Option Text) :
    Frame fun t : PatchRun Uri Path => t.files = files :=
  ⟨fun _ _ h => h, fun _ h => h⟩

lemma resolveMove_triple {P : PatchRun Uri Path → Prop} (movePath : Option Text) :
    Triple P (resolveMove host cwd movePath)
      (fun target t => (∀ dest, movePath = some dest → ∃ uri, target = some uri ∧
        host.join cwd dest = .ok uri) ∧ (movePath = none → target = none) ∧ P t)
      (fun _ _ => True) := by
  cases movePath with
  | none => exact .pure fun t ht => ⟨by simp, by simp, ht⟩
  | some dest =>
    refine ((resolve_frame cwd dest).onError fun _ _ _ => trivial).bind fun uri =>
      .pure fun t ht => ⟨?_, by simp, ht.2⟩
    rintro dest' ⟨⟩
    exact ⟨uri, rfl, ht.1⟩

lemma unifiedDiffFromChunks_triple (path : Uri) (chunks : List UpdateFileChunk) :
    Triple (fun t => t.files = files) (unifiedDiffFromChunks host diff path chunks)
      (fun update t => ∃ applied : AppliedPatch,
        update = ⟨diff applied.originalContents applied.newContents, applied.originalContents,
          applied.newContents⟩ ∧
        (t.files = files ∧ t.files (host.toPathBuf path) = some applied.originalContents) ∧
        deriveNewContents (host.nativePathString path) applied.originalContents chunks =
          .ok applied) (fun _ _ => True) := by
  refine ((deriveNewContentsFromChunks_frame (frame_files files) path chunks).onError
    fun _ _ _ => trivial).bind fun applied => ?_
  exact .pure fun t ht => ⟨applied, rfl, ht⟩

lemma verifiedChange_triple {path : Uri} (hpath : host.join cwd hunk.sourcePath = .ok path) :
    Triple (fun t => t.files = files) (verifiedChange host diff cwd path hunk)
      (fun change t => t.files = files ∧ Previewed host diff cwd files hunk (path, change))
      (fun _ _ => True) := by
  cases hunk with
  | addFile p contents => exact .pure fun t ht => ⟨ht, .add hpath⟩
  | deleteFile p =>
    have hread : Triple (fun t => t.files = files) (readFileText host path)
        (fun content t => t.files = files ∧ t.files (host.toPathBuf path) = some content)
        (fun _ _ => True) :=
      (readFileText_frame (frame_files files) path).onError fun _ _ _ => trivial
    refine (withContext_triple hread readContext path).bind fun content => ?_
    exact .pure fun t ht => ⟨ht.1, .delete hpath (by rw [← ht.1, ht.2])⟩
  | updateFile p movePath chunks =>
    refine (unifiedDiffFromChunks_triple path chunks).bind fun update => ?_
    refine (resolveMove_triple movePath).bind fun target => .pure fun t ht => ?_
    obtain ⟨hsome, hnone, applied, rfl, ⟨hfiles, hfound⟩, happlied⟩ := ht
    rw [hfiles] at hfound
    refine ⟨hfiles, ?_⟩
    cases movePath with
    | none =>
      rw [hnone rfl]
      exact .update hpath hfound happlied
    | some dest =>
      obtain ⟨uri, rfl, huri⟩ := hsome dest rfl
      exact .move hpath hfound happlied huri

variable [DecidableEq Uri]

/-- What is known of a verified patch: the entries of its hunks, in order, were inserted. -/
structure Verified (host : Host Uri Path) (diff : Text → Text → Text)
    (files : Path → Option Text) (hunks : List Hunk) (action : ApplyPatchAction Uri) : Prop where
  entries : ∃ entries, List.Forall₂ (Previewed host diff action.cwd files) hunks entries ∧
    action.changes = insertAll entries ∅

lemma foldlM_verifyHunk_triple (hunks : List Hunk) (changes : FileChanges Uri) :
    Triple (fun t => t.files = files) (hunks.foldlM (verifyHunk host diff cwd) changes)
      (fun out t => t.files = files ∧ ∃ entries,
        List.Forall₂ (Previewed host diff cwd files) hunks entries ∧
          out = insertAll entries changes) (fun _ _ => True) := by
  induction hunks generalizing changes with
  | nil => exact .pure fun t ht => ⟨ht, [], .nil, rfl⟩
  | cons hunk hunks ih =>
    rw [List.foldlM_cons]
    -- the first hunk puts its entry into the map, and the others go on from there
    have hfirst : Triple (fun t => t.files = files) (verifyHunk host diff cwd changes hunk)
        (fun out t => (∃ entry, Previewed host diff cwd files hunk entry ∧
          out = changes.insert entry.1 entry.2) ∧ t.files = files) (fun _ _ => True) := by
      refine ((resolve_frame cwd hunk.sourcePath).onError fun _ _ _ => trivial).bind fun path =>
        .assume fun hpath => ?_
      refine (verifiedChange_triple hpath).bind fun change => .pure fun t ht => ?_
      exact ⟨⟨(path, change), ht.2, rfl⟩, ht.1⟩
    refine hfirst.bind fun out => .assume fun ⟨entry, hentry, hout⟩ => ?_
    subst hout
    refine (ih _).post fun out t ht => ?_
    obtain ⟨hfiles, entries, hentries, rfl⟩ := ht
    exact ⟨hfiles, entry :: entries, .cons hentry hentries, rfl⟩

variable {action : ApplyPatchAction Uri}

/-- **What verification returns.** -/
theorem tryVerifyApplyPatchArgs_spec {args : ApplyPatchArgs} {s : PatchRun Uri Path}
    (h : ((tryVerifyApplyPatchArgs host diff args cwd).exec s).1 = .ok action) :
    Verified host diff s.files args.hunks action := by
  have hrun : Triple (fun t => t.files = s.files) (tryVerifyApplyPatchArgs host diff args cwd)
      (fun action _ => Verified host diff s.files args.hunks action) (fun _ _ => True) := by
    have hcwd : Triple (fun t => t.files = s.files) (effectiveCwd host cwd args.workdir)
        (fun _ t => t.files = s.files) (fun _ _ => True) := by
      cases args.workdir with
      | none => exact .pure fun _ h => h
      | some dir =>
        exact (resolve_frame cwd dir).mono (fun _ h => h) (fun _ _ h => h.2) fun _ _ _ => trivial
    refine hcwd.bind fun cwd' => (foldlM_verifyHunk_triple args.hunks ∅).bind fun changes => ?_
    exact .pure fun t ht => ⟨ht.2⟩
  exact hrun.ok rfl (Prod.ext h rfl)

/-! ### The URIs of a hunk -/

/-- The hunk moves its file to the URI. -/
def Hunk.MovesTo (host : Host Uri Path) (cwd : Uri) (hunk : Hunk) (uri : Uri) : Prop :=
  ∃ dest, hunk.movePath = some dest ∧ host.join cwd dest = .ok uri

/-- The hunk is about the URI: its file or the destination of its move. -/
def Hunk.Touches (host : Host Uri Path) (cwd : Uri) (hunk : Hunk) (uri : Uri) : Prop :=
  host.join cwd hunk.sourcePath = .ok uri ∨ hunk.MovesTo host cwd uri

variable {entry : Uri × ApplyPatchFileChange Uri}

omit [DecidableEq Uri] in
lemma Previewed.source (h : Previewed host diff cwd files hunk entry) :
    host.join cwd hunk.sourcePath = .ok entry.1 := by
  cases h <;> assumption

omit [DecidableEq Uri] in
lemma Previewed.movesTo_iff (h : Previewed host diff cwd files hunk entry) {uri : Uri} :
    hunk.MovesTo host cwd uri ↔ entry.2.movePath = some uri := by
  cases h with
  | move hpath hfound happlied htarget =>
    simp [Hunk.MovesTo, Hunk.movePath, ApplyPatchFileChange.movePath, htarget]
  | _ => simp [Hunk.MovesTo, Hunk.movePath, ApplyPatchFileChange.movePath]

omit [DecidableEq Uri] in
/-- Verification has one result. -/
lemma Previewed.unique {entry' : Uri × ApplyPatchFileChange Uri}
    (h : Previewed host diff cwd files hunk entry)
    (h' : Previewed host diff cwd files hunk entry') : entry = entry' := by
  have hpath : entry.1 = entry'.1 := by
    have hsource := h.source.symm.trans h'.source
    simpa using hsource
  cases h with
  | add => cases h'; simp_all
  | delete hp hfound =>
    cases h' with
    | delete hp' hfound' => simp_all
  | update hp hfound happlied =>
    cases h' with
    | update hp' hfound' happlied' => simp_all
  | move hp hfound happlied htarget =>
    cases h' with
    | move hp' hfound' happlied' htarget' => simp_all

/-- No later hunk is about the same URI: the entry of the hunk stays in the map. -/
def Last (host : Host Uri Path) (cwd : Uri) (hunk : Hunk) (after : List Hunk) : Prop :=
  ∀ later ∈ after, host.join cwd later.sourcePath ≠ host.join cwd hunk.sourcePath

/-- The entries of the map are those of the hunks that are the last ones for their URI. -/
lemma Verified.lookup_iff {hunks : List Hunk}
    (h : Verified host diff files hunks action) {uri : Uri} {change : ApplyPatchFileChange Uri} :
    action.changes.lookup uri = some change ↔ ∃ before hunk after, hunks = before ++ hunk :: after ∧
        Previewed host diff action.cwd files hunk (uri, change) ∧
        Last host action.cwd hunk after := by
  obtain ⟨entries, hentries, hchanges⟩ := h.entries
  rw [hchanges, lookup_insertAll]
  constructor
  · rintro ⟨before, after, rfl, hafter⟩
    obtain ⟨before', hunk, after', rfl, -, hhunk, hrest⟩ := forall₂_split_right hentries
    refine ⟨before', hunk, after', rfl, hhunk, fun later hlater hsame => ?_⟩
    obtain ⟨entry, hentry, hpreviewed⟩ := forall₂_mem_left hrest hlater
    rw [hpreviewed.source, hhunk.source, Except.ok.injEq] at hsame
    exact hafter entry hentry hsame
  · rintro ⟨before, hunk, after, rfl, hhunk, hlast⟩
    obtain ⟨before', entry, after', rfl, -, hentry, hrest⟩ := forall₂_split_left hentries
    obtain rfl : entry = (uri, change) := hentry.unique hhunk
    refine ⟨before', after', rfl, fun e he hsame => ?_⟩
    obtain ⟨later, hlater, hpreviewed⟩ := forall₂_mem_right hrest he
    refine hlast later hlater ?_
    rw [hpreviewed.source, hhunk.source, hsame]

end

end TokenCode.ApplyPatch
