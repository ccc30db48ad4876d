/-
What the approval of a patch covers (`is_write_patch_constrained_to_writable_paths` in
`core/src/safety.rs`).

The approval looks at the changes of the verified action, while the application goes through the
hunks. The two see the same URIs unless the entry of a move was replaced by a later hunk for the
same file: its destination is then written without having been looked at. `approval_covers_effect`
says that this is the only way for a URI to be touched that the approval did not see.
-/
import TokenCode.ApplyPatch.Verify
import TokenCode.ApplyPatch.Parser

namespace TokenCode.ApplyPatch

open List Text Program

/-! ### The check -/

/-- The components of a native path. -/
inductive Component where
  | volume (name : Text)
  | rootDir
  | curDir
  | parentDir
  | normal (name : Text)
deriving DecidableEq, Repr

/-- `PathBuf::pop`: a root stays. -/
def popComponent (path : List Component) : List Component :=
  match path.getLast? with
  | some (.volume _) => path
  | some .rootDir => path
  | _ => path.dropLast

/-- `normalize`. A root comes before the other components, so a push appends. -/
def normalize (path : List Component) : List Component :=
  path.foldl (fun out component =>
    match component with
    | .parentDir => popComponent out
    | .curDir => out
    | other => out ++ [other]) []

/-- `FileSystemSandboxPolicy`, as far as the check asks it. -/
structure FileSystemSandboxPolicy where
  hasFullDiskWriteAccess : Bool
  /-- `can_write_path_with_cwd`. -/
  canWritePathWithCwd : List Component → List Component → Bool

section

variable {Uri : Type} [DecidableEq Uri] (toAbsPath : Uri → Option (List Component))
  (policy : FileSystemSandboxPolicy)

/-- `is_path_writable`; `toAbsPath` is `PathUri::to_abs_path`. -/
def isPathWritable (nativeCwd : List Component) (path : Uri) : Bool :=
  match toAbsPath path with
  | none => false
  | some abs => policy.canWritePathWithCwd (normalize abs) nativeCwd

/-- The test of a single change. -/
def isChangeWritable (nativeCwd : List Component) (path : Uri) :
    ApplyPatchFileChange Uri → Bool
  | .add _ => isPathWritable toAbsPath policy nativeCwd path
  | .delete _ => isPathWritable toAbsPath policy nativeCwd path
  | .update _ movePath _ =>
    isPathWritable toAbsPath policy nativeCwd path &&
      match movePath with
      | some dest => isPathWritable toAbsPath policy nativeCwd dest
      | none => true

/-- `is_write_patch_constrained_to_writable_paths`. -/
def isWritePatchConstrainedToWritablePaths (action : ApplyPatchAction Uri) (cwd : Uri) : Bool :=
  if policy.hasFullDiskWriteAccess then true
  else
    match toAbsPath cwd with
    | none => false
    | some nativeCwd =>
      action.changes.entries.all fun entry =>
        isChangeWritable toAbsPath policy nativeCwd entry.1 entry.2

/-- The policy lets the URI be written. -/
def Writable (cwd uri : Uri) : Prop :=
  policy.hasFullDiskWriteAccess = true ∨
    ∃ nativeCwd, toAbsPath cwd = some nativeCwd ∧
      isPathWritable toAbsPath policy nativeCwd uri = true

/-- The URI is a key of the changes, or the destination of a stored update. -/
def Covers (action : ApplyPatchAction Uri) (uri : Uri) : Prop :=
  ∃ entry ∈ action.changes.entries, entry.1 = uri ∨ entry.2.movePath = some uri

instance (action : ApplyPatchAction Uri) (uri : Uri) : Decidable (Covers action uri) :=
  inferInstanceAs (Decidable (∃ entry ∈ action.changes.entries, _))

variable {toAbsPath policy}

omit [DecidableEq Uri] in
lemma isChangeWritable_covers {nativeCwd : List Component} {path uri : Uri}
    {change : ApplyPatchFileChange Uri}
    (h : isChangeWritable toAbsPath policy nativeCwd path change = true)
    (huri : path = uri ∨ change.movePath = some uri) :
    isPathWritable toAbsPath policy nativeCwd uri = true := by
  cases change with
  | add content | delete content =>
    obtain rfl : path = uri := by simpa [ApplyPatchFileChange.movePath] using huri
    exact h
  | update unifiedDiff movePath newContent =>
    obtain ⟨hpath, hdest⟩ := Bool.and_eq_true_iff.1 h
    rcases huri with rfl | hmove
    · exact hpath
    · obtain rfl : movePath = some uri := hmove
      exact hdest

omit [DecidableEq Uri] in
/-- What a checked action covers is writable. -/
lemma writable_of_covers {action : ApplyPatchAction Uri} {cwd uri : Uri}
    (h : isWritePatchConstrainedToWritablePaths toAbsPath policy action cwd = true)
    (huri : Covers action uri) : Writable toAbsPath policy cwd uri := by
  unfold isWritePatchConstrainedToWritablePaths at h
  by_cases hfull : policy.hasFullDiskWriteAccess = true
  · exact Or.inl hfull
  rw [if_neg hfull] at h
  cases hcwd : toAbsPath cwd with
  | none => simp [hcwd] at h
  | some nativeCwd =>
    simp only [hcwd, all_eq_true] at h
    obtain ⟨entry, hentry, hsees⟩ := huri
    exact Or.inr ⟨nativeCwd, hcwd, isChangeWritable_covers (h entry hentry) hsees⟩

end

/-! ### The effect -/

variable {hunks : List Hunk}

section

variable {Uri Path : Type} [DecidableEq Uri] [DecidableEq Path] {host : Host Uri Path}
  {diff : Text → Text → Text} {cwd : Uri} {s t : PatchRun Uri Path}

omit [DecidableEq Uri] in
/-- A step touches URIs of its hunk, and all of them when it succeeds. -/
lemma HunkStep.touched {hunk : Hunk} {ok : Bool} (h : HunkStep host cwd hunk s ok t) :
    ∃ uris, t.touched = s.touched ++ uris ∧ (∀ uri ∈ uris, hunk.Touches host cwd uri) ∧
      (ok = true → ∀ uri, hunk.Touches host cwd uri → uri ∈ uris) := by
  cases h with
  | failed hunchanged => exact ⟨[], by simp [hunchanged.touched], by simp, by simp⟩
  | added hpath hdid | deleted hpath hfound hdid | updated hpath hfound happlied hdid =>
    refine ⟨_, hdid.touched, ?_, fun _ uri huri => ?_⟩
    · simpa [Hunk.Touches, Hunk.sourcePath] using Or.inl hpath
    · rcases huri with hsource | ⟨dest, hdest, -⟩
      · rw [Hunk.sourcePath, hpath, Except.ok.injEq] at hsource
        simp [hsource]
      · simp [Hunk.movePath] at hdest
  | moved hpath htarget hfound happlied hdid =>
    refine ⟨_, hdid.touched, ?_, fun _ uri huri => ?_⟩
    · simp only [mem_cons, not_mem_nil, or_false, forall_eq_or_imp, forall_eq]
      exact ⟨Or.inr ⟨_, rfl, htarget⟩, Or.inl hpath⟩
    · rcases huri with hsource | ⟨dest, hdest, htarget'⟩
      · rw [Hunk.sourcePath, hpath, Except.ok.injEq] at hsource
        simp [hsource]
      · obtain rfl := Option.some.inj hdest
        rw [htarget, Except.ok.injEq] at htarget'
        simp [htarget']
  | halfMoved hfault htarget hdid =>
    refine ⟨_, hdid.touched, ?_, by simp⟩
    simp only [mem_singleton, forall_eq]
    exact Or.inr ⟨_, rfl, htarget⟩

omit [DecidableEq Uri] in
/-- A run touches URIs of its hunks, and all of them when it succeeds. -/
lemma HunkRun.touched {ok : Bool} (h : HunkRun host cwd hunks s ok t) :
    (∀ uri ∈ t.touched, uri ∈ s.touched ∨ ∃ hunk ∈ hunks, hunk.Touches host cwd uri) ∧
      (∀ uri ∈ s.touched, uri ∈ t.touched) ∧
      (ok = true → ∀ hunk ∈ hunks, ∀ uri, hunk.Touches host cwd uri → uri ∈ t.touched) := by
  induction h with
  | done => exact ⟨fun _ h => Or.inl h, fun _ h => h, by simp⟩
  | @next hunk hunks s t u ok hstep hrest ih =>
    obtain ⟨uris, htouched, hsub, hall⟩ := hstep.touched
    rw [htouched] at ih
    refine ⟨fun uri huri => ?_, fun uri huri => ih.2.1 uri (by simp [huri]),
      fun hok other hother uri huri => ?_⟩
    · rcases ih.1 uri huri with hbefore | ⟨other, hother, htouches⟩
      · rcases mem_append.1 hbefore with hs | hnew
        · exact Or.inl hs
        · exact Or.inr ⟨hunk, by simp, hsub uri hnew⟩
      · exact Or.inr ⟨other, by simp [hother], htouches⟩
    · rcases mem_cons.1 hother with rfl | hother
      · exact ih.2.1 uri (by simp [hall rfl uri huri])
      · exact ih.2.2 hok other hother uri huri
  | stop hstep =>
    obtain ⟨uris, htouched, hsub, -⟩ := hstep.touched
    rw [htouched]
    refine ⟨fun uri huri => ?_, fun uri huri => by simp [huri], by simp⟩
    rcases mem_append.1 huri with hs | hnew
    · exact Or.inl hs
    · exact Or.inr ⟨_, by simp, hsub uri hnew⟩

/-- The changes of the hunks show the URI: it is the file of a hunk, or the destination of one
whose entry is not replaced. -/
def Shown (host : Host Uri Path) (cwd : Uri) (hunks : List Hunk) (uri : Uri) : Prop :=
  (∃ hunk ∈ hunks, host.join cwd hunk.sourcePath = .ok uri) ∨
    ∃ before hunk after, hunks = before ++ hunk :: after ∧ hunk.MovesTo host cwd uri ∧
      Last host cwd hunk after

/-- Every destination of a move is shown. -/
def DestinationsShown (host : Host Uri Path) (cwd : Uri) (hunks : List Hunk) : Prop :=
  ∀ hunk ∈ hunks, ∀ uri, hunk.MovesTo host cwd uri → Shown host cwd hunks uri

omit [DecidableEq Path] in
lemma Verified.covers_iff {files : Path → Option Text}
    {action : ApplyPatchAction Uri} (h : Verified host diff files hunks action) {uri : Uri} :
    Covers action uri ↔ Shown host action.cwd hunks uri := by
  constructor
  · rintro ⟨⟨path, change⟩, hentry, hsees⟩
    obtain ⟨before, hunk, after, rfl, hpreviewed, hlast⟩ :=
      h.lookup_iff.1 (AList.mem_lookup_iff.2 hentry)
    rcases hsees with rfl | hmove
    · exact Or.inl ⟨hunk, by simp, hpreviewed.source⟩
    · exact Or.inr ⟨before, hunk, after, rfl, hpreviewed.movesTo_iff.2 hmove, hlast⟩
  · rintro (⟨hunk, hhunk, hsource⟩ | ⟨before, hunk, after, rfl, hmoves, hlast⟩)
    · obtain ⟨entries, hentries, hchanges⟩ := h.entries
      obtain ⟨entry, hentry, hpreviewed⟩ := forall₂_mem_left hentries hhunk
      have hkey : uri ∈ action.changes := by
        rw [hchanges, mem_insertAll]
        refine ⟨entry, hentry, ?_⟩
        have hsame := hpreviewed.source.symm.trans hsource
        simpa using hsame
      obtain ⟨change, hchange⟩ := Option.isSome_iff_exists.1 (AList.lookup_isSome.2 hkey)
      exact ⟨⟨uri, change⟩, AList.mem_lookup_iff.1 hchange, Or.inl rfl⟩
    · obtain ⟨entries, hentries, -⟩ := h.entries
      obtain ⟨before', ⟨path, change⟩, after', rfl, -, hpreviewed, -⟩ := forall₂_split_left hentries
      have hlookup := h.lookup_iff.2 ⟨before, hunk, after, rfl, hpreviewed, hlast⟩
      exact ⟨⟨path, change⟩, AList.mem_lookup_iff.1 hlookup,
        Or.inr (hpreviewed.movesTo_iff.1 hmoves)⟩

/-- **The approval covers the effect if every destination is shown.**  A patch was verified, and
its hunks are then applied to the same files, whatever operations fail.  If every destination of a
move is shown by the changes, then every URI that is written or removed is covered by them, and
writable if the check passed.  For an application that succeeds the condition is also needed. -/
theorem approval_covers_effect (host : Host Uri Path) (diff : Text → Text → Text)
    (args : ApplyPatchArgs) (cwd : Uri) (s : PatchRun Uri Path) (action : ApplyPatchAction Uri)
    (hverify : ((tryVerifyApplyPatchArgs host diff args cwd).exec s).1 = .ok action) (clock : ℕ)
    (result : Except ApplyPatchError AffectedPaths × PatchRun Uri Path)
    (hresult : result = (applyHunksToFiles host action.cwd args.hunks).exec
      { PatchRun.start s.files with clock := clock }) :
    (DestinationsShown host action.cwd args.hunks → (∀ uri ∈ result.2.touched, Covers action uri) ∧
      ∀ toAbsPath policy policyCwd,
        isWritePatchConstrainedToWritablePaths toAbsPath policy action policyCwd = true →
        ∀ uri ∈ result.2.touched, Writable toAbsPath policy policyCwd uri) ∧
    (result.1.isOk = true → (∀ uri ∈ result.2.touched, Covers action uri) →
      DestinationsShown host action.cwd args.hunks) := by
  have hverified := tryVerifyApplyPatchArgs_spec hverify
  by_cases hhunks : args.hunks = []
  · -- nothing is applied
    rw [hhunks] at hresult ⊢
    subst hresult
    exact ⟨fun _ => ⟨by simp [applyHunksToFiles, PatchRun.start],
      by simp [applyHunksToFiles, PatchRun.start]⟩, by simp [DestinationsShown]⟩
  have hrun := applyHunksToFiles_run host action.cwd hhunks
    { PatchRun.start s.files with clock := clock }
  rw [← hresult] at hrun
  obtain ⟨hsub, -, hall⟩ := hrun.touched
  constructor
  · intro hshown
    have hcovers : ∀ uri ∈ result.2.touched, Covers action uri := by
      intro uri huri
      rw [hverified.covers_iff]
      rcases hsub uri huri with hstart | ⟨hunk, hhunk, hsource | hmoves⟩
      · simp [PatchRun.start] at hstart
      · exact Or.inl ⟨hunk, hhunk, hsource⟩
      · exact hshown hunk hhunk uri hmoves
    exact ⟨hcovers, fun _ _ _ hchecked uri huri => writable_of_covers hchecked (hcovers uri huri)⟩
  · intro hok hcovers hunk hhunk uri hmoves
    rw [← hverified.covers_iff]
    exact hcovers uri (hall hok hunk hhunk uri (Or.inr hmoves))

end

/-- A line of `a` is changed and the file moved to `b`. -/
def changeAndMove : Hunk :=
  .updateFile "a".toList (some "b".toList) [⟨none, ["x".toList], ["y".toList], false⟩]

def movePatch : Text :=
  "*** Begin Patch\n*** Update File: a\n*** Move to: b\n@@\n-x\n+y\n*** End Patch".toList

def moveAndAddPatch : Text :=
  ("*** Begin Patch\n*** Update File: a\n*** Move to: b\n@@\n-x\n+y\n" ++
    "*** Add File: a\n+z\n*** End Patch").toList

/-- The file `a`, and nothing else. -/
def onlyFileA : PatchRun Text Text := PatchRun.start (singleFile "a".toList "x\n".toList)

/-- The action after the move of `a` to `b`. -/
def moveAction : ApplyPatchAction Text :=
  ⟨(∅ : FileChanges Text).insert "a".toList (.update [] (some "b".toList) "y\n".toList),
    movePatch, []⟩

theorem approval_covers_move :
    Covers moveAction "b".toList ∧ "b".toList ∈ ((applyHunksToFiles plainHost []
      [changeAndMove]).exec onlyFileA).2.touched := by
  have hverify : ((tryVerifyApplyPatchArgs plainHost (fun _ _ => [])
      ⟨movePatch, [changeAndMove], none, none⟩ []).exec onlyFileA).1 = .ok moveAction := by
    decide +kernel
  have htouched : "b".toList ∈ ((applyHunksToFiles plainHost [] [changeAndMove]).exec
      onlyFileA).2.touched := by
    decide +kernel
  refine ⟨?_, htouched⟩
  refine ((approval_covers_effect plainHost _ _ [] onlyFileA moveAction hverify 0 _ rfl).1
    ?_).1 _ htouched
  intro hunk hhunk uri hmoves
  obtain rfl := mem_singleton.1 hhunk
  exact Or.inr ⟨[], changeAndMove, [], rfl, hmoves, by simp [Last]⟩

/-- A policy under which the file `a` is the only one that can be written. -/
def onlyA : FileSystemSandboxPolicy where
  hasFullDiskWriteAccess := false
  canWritePathWithCwd path _ := path = [.normal "a".toList]

/-- The native path of a name. -/
def nameAbsPath (name : Text) : Option (List Component) := some [.normal name]

/-- The action after the move of `a` to `b` and the addition of a new `a`: the addition has taken
the place of the move. -/
def moveAndAddAction : ApplyPatchAction Text :=
  ⟨(∅ : FileChanges Text).insert "a".toList (.add "z\n".toList), moveAndAddPatch, []⟩

/-- The move of `a` to `b` and the addition of a new `a` pass the check under a policy that forbids
`b`: the changes do not show `b`, which is written. -/
theorem approval_misses_replaced_move : parsePatch moveAndAddPatch =
        .ok ⟨moveAndAddPatch, [changeAndMove, .addFile "a".toList "z\n".toList], none, none⟩ ∧
      ((tryVerifyApplyPatchArgs plainHost (fun _ _ => [])
        ⟨moveAndAddPatch, [changeAndMove, .addFile "a".toList "z\n".toList], none, none⟩
        []).exec onlyFileA).1 = .ok moveAndAddAction ∧
      isWritePatchConstrainedToWritablePaths nameAbsPath onlyA moveAndAddAction [] = true ∧
      "b".toList ∈ ((applyHunksToFiles plainHost moveAndAddAction.cwd
        [changeAndMove, .addFile "a".toList "z\n".toList]).exec onlyFileA).2.touched ∧
      ¬ Covers moveAndAddAction "b".toList ∧ ¬ Writable nameAbsPath onlyA [] "b".toList := by
  refine ⟨by decide +kernel, by decide +kernel, by decide +kernel, by decide +kernel,
    by decide +kernel, ?_⟩
  rintro (hfull | ⟨nativeCwd, -, hwritable⟩)
  · simp [onlyA] at hfull
  · simp [isPathWritable, nameAbsPath, onlyA, normalize] at hwritable

end TokenCode.ApplyPatch
