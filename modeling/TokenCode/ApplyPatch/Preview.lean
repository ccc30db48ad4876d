/-
The preview of a patch and its application.

Verification computes every hunk against the files as they are; the application goes on with what
the hunks before have left. `preview_agrees` says when the application does what the verified
action shows: when no hunk updates or deletes what an earlier one touched or removed, and the files
of an entry are left alone by the later hunks.
-/
import TokenCode.ApplyPatch.Verify
import TokenCode.ApplyPatch.Delta
import TokenCode.ApplyPatch.Parser

namespace TokenCode.ApplyPatch

open Function Text Program

variable {ok : Bool}

section

variable {Uri Path : Type} [DecidableEq Path] {host : Host Uri Path} {diff : Text → Text → Text}
  {cwd : Uri}

/-- The files are as the change says. -/
def ApplyPatchFileChange.HoldsIn (host : Host Uri Path) (files : Path → Option Text) (uri : Uri) :
    ApplyPatchFileChange Uri → Prop
  | .add content => files (host.toPathBuf uri) = some content
  | .delete _ => files (host.toPathBuf uri) = none
  | .update _ none newContent => files (host.toPathBuf uri) = some newContent
  | .update _ (some dest) newContent =>
    files (host.toPathBuf dest) = some newContent ∧ files (host.toPathBuf uri) = none

/-- The application succeeded, and the files are as all the changes say. -/
def PreviewAgrees [DecidableEq Uri] (host : Host Uri Path) (action : ApplyPatchAction Uri)
    (result : Except ApplyPatchError AffectedPaths × PatchRun Uri Path) : Prop :=
  result.1.isOk = true ∧ ∀ uri change, action.changes.lookup uri = some change →
    change.HoldsIn host result.2.files uri

/-! ### The files of a hunk -/

/-- The hunk is about the file. -/
def Hunk.TouchesFile (host : Host Uri Path) (cwd : Uri) (hunk : Hunk) (path : Path) : Prop :=
  ∃ uri, hunk.Touches host cwd uri ∧ host.toPathBuf uri = path

def Hunk.IsDelete (hunk : Hunk) : Prop := ∃ p, hunk = .deleteFile p

def Hunk.IsUpdate (hunk : Hunk) : Prop := ∃ p movePath chunks, hunk = .updateFile p movePath chunks

/-- The hunk deletes the file or moves it away. -/
def Hunk.RemovesFile (host : Host Uri Path) (cwd : Uri) (hunk : Hunk) (path : Path) : Prop :=
  (hunk.IsDelete ∨ hunk.movePath ≠ none) ∧
    ∃ uri, host.join cwd hunk.sourcePath = .ok uri ∧ host.toPathBuf uri = path

variable {s t : PatchRun Uri Path} {path : Path}

lemma HunkStep.files_of_not_touches {hunk : Hunk}
    (h : HunkStep host cwd hunk s ok t) (hpath : ¬ hunk.TouchesFile host cwd path) :
    t.files path = s.files path := by
  -- a path that is not touched is not one of the resolved ones
  have hsource : ∀ uri, host.join cwd hunk.sourcePath = .ok uri → path ≠ host.toPathBuf uri :=
    fun uri huri heq => hpath ⟨uri, Or.inl huri, heq.symm⟩
  have htarget : ∀ dest uri, hunk.movePath = some dest → host.join cwd dest = .ok uri →
      path ≠ host.toPathBuf uri :=
    fun dest uri hdest huri heq => hpath ⟨uri, Or.inr ⟨dest, hdest, huri⟩, heq.symm⟩
  cases h with
  | failed hunchanged => rw [hunchanged.files]
  | added hp hdid | deleted hp hfound hdid | updated hp hfound happlied hdid =>
    rw [hdid.files, update_of_ne (hsource _ hp)]
  | moved hp hdest hfound happlied hdid =>
    rw [hdid.files, update_of_ne (hsource _ hp), update_of_ne (htarget _ _ rfl hdest)]
  | halfMoved hfault hdest hdid =>
    rw [hdid.files, update_of_ne (htarget _ _ rfl hdest)]

lemma HunkRun.files_of_not_touches {hunks : List Hunk} (h : HunkRun host cwd hunks s ok t)
    (hpath : ∀ hunk ∈ hunks, ¬ hunk.TouchesFile host cwd path) : t.files path = s.files path := by
  induction h with
  | done => rfl
  | next hstep hrest ih =>
    rw [ih fun hunk hhunk => hpath hunk (by simp [hhunk]),
      hstep.files_of_not_touches (hpath _ (by simp))]
  | stop hstep => exact hstep.files_of_not_touches (hpath _ (by simp))

lemma HunkStep.present {hunk : Hunk}
    (h : HunkStep host cwd hunk s ok t) (hpath : ¬ hunk.RemovesFile host cwd path)
    (hs : s.files path ≠ none) : t.files path ≠ none := by
  have hwrite : ∀ (files : Path → Option Text) (at' : Path) (content : Text),
      files path ≠ none → Function.update files at' (some content) path ≠ none := by
    intro files at' content hfiles
    by_cases hat : path = at'
    · simp [hat]
    · rwa [update_of_ne hat]
  cases h with
  | failed hunchanged => rwa [hunchanged.files]
  | added hp hdid | updated hp hfound happlied hdid | halfMoved hfault hdest hdid =>
    rw [hdid.files]
    exact hwrite _ _ _ hs
  | deleted hp hfound hdid =>
    rw [hdid.files, update_of_ne]
    · exact hs
    · rintro rfl
      exact hpath ⟨Or.inl ⟨_, rfl⟩, _, hp, rfl⟩
  | moved hp hdest hfound happlied hdid =>
    rw [hdid.files, update_of_ne]
    · exact hwrite _ _ _ hs
    · rintro rfl
      exact hpath ⟨Or.inr (by simp [Hunk.movePath]), _, hp, rfl⟩

lemma HunkRun.present {hunks : List Hunk} (h : HunkRun host cwd hunks s ok t)
    (hpath : ∀ hunk ∈ hunks, ¬ hunk.RemovesFile host cwd path) (hs : s.files path ≠ none) :
    t.files path ≠ none := by
  induction h with
  | done => exact hs
  | next hstep hrest ih =>
    exact ih (fun hunk hhunk => hpath hunk (by simp [hhunk])) (hstep.present (hpath _ (by simp)) hs)
  | stop hstep => exact hstep.present (hpath _ (by simp)) hs

/-! ### The hunks of a verified patch -/

variable {files : Path → Option Text} {hunk : Hunk} {uri : Uri} {change : ApplyPatchFileChange Uri}

/-- A verified hunk that finds what verification found is applied. -/
lemma HunkStep.succeeds (h : HunkStep host cwd hunk s ok t)
    (hhunk : Previewed host diff cwd files hunk (uri, change)) (hfault : ∀ n, host.fault n = .none)
    (hupdate : hunk.IsUpdate → s.files (host.toPathBuf uri) = files (host.toPathBuf uri))
    (hdelete : hunk.IsDelete → s.files (host.toPathBuf uri) ≠ none) : ok = true := by
  have hsource := hhunk.source
  have huri : ∀ path, host.join cwd hunk.sourcePath = .ok path → path = uri :=
    fun path hpath => Except.ok.inj (hpath.symm.trans hsource)
  cases h with
  | halfMoved hn => exact absurd (hfault _) hn
  | added | deleted | updated | moved => rfl
  | failed hunchanged hcause =>
    exfalso
    cases hcause with
    | fault hn => exact hn (hfault _)
    | source herror => simp [hsource] at herror
    | target hdest herror =>
      cases hhunk with
      | move hp hfound happlied htarget =>
        obtain rfl := Option.some.inj hdest
        simp [htarget] at herror
      | add | delete | update => simp [Hunk.movePath] at hdest
    | missing hp hadd hmissing =>
      obtain rfl := huri _ hp
      cases hhunk with
      | add => exact hadd _ _ rfl
      | delete => exact hdelete ⟨_, rfl⟩ hmissing
      | update hp' hfound | move hp' hfound =>
        rw [hupdate ⟨_, _, _, rfl⟩, hfound] at hmissing
        exact Option.some_ne_none _ hmissing
    | mismatch hp hcontent hmismatch =>
      obtain rfl := huri _ hp
      rw [hupdate ⟨_, _, _, rfl⟩] at hcontent
      cases hhunk with
      | update hp' hfound happlied | move hp' hfound happlied =>
        obtain rfl := Option.some.inj (hfound.symm.trans hcontent)
        simp [happlied] at hmismatch

/-- An applied hunk that found what verification found has done what its entry says. -/
lemma HunkStep.holds (h : HunkStep host cwd hunk s true t)
    (hhunk : Previewed host diff cwd files hunk (uri, change))
    (hupdate : hunk.IsUpdate → s.files (host.toPathBuf uri) = files (host.toPathBuf uri))
    (hself : NoSelfMove host cwd hunk) : change.HoldsIn host t.files uri := by
  have huri : ∀ path, host.join cwd hunk.sourcePath = .ok path → path = uri :=
    fun path hpath => Except.ok.inj (hpath.symm.trans hhunk.source)
  cases h with
  | added hp hdid =>
    cases hhunk with
    | add =>
      obtain rfl := huri _ hp
      simp [ApplyPatchFileChange.HoldsIn, hdid.files]
  | deleted hp hfound hdid =>
    cases hhunk with
    | delete =>
      obtain rfl := huri _ hp
      simp [ApplyPatchFileChange.HoldsIn, hdid.files]
  | updated hp hfound happlied hdid =>
    cases hhunk with
    | update hp' hfound' happlied' =>
      obtain rfl := huri _ hp
      rw [hupdate ⟨_, _, _, rfl⟩, hfound', Option.some.injEq] at hfound
      rw [hfound, happlied, Except.ok.injEq] at happlied'
      simp [ApplyPatchFileChange.HoldsIn, hdid.files, happlied']
  | moved hp htarget hfound happlied hdid =>
    cases hhunk with
    | move hp' hfound' happlied' htarget' =>
      obtain rfl := huri _ hp
      rw [htarget, Except.ok.injEq] at htarget'
      subst htarget'
      rw [hupdate ⟨_, _, _, rfl⟩, hfound', Option.some.injEq] at hfound
      rw [hfound, happlied, Except.ok.injEq] at happlied'
      have hne := hself _ rfl _ _ hp htarget
      simp [ApplyPatchFileChange.HoldsIn, hdid.files, happlied', update_of_ne hne]

omit [DecidableEq Path] in
/-- An entry goes on to hold while its files are left alone. -/
lemma Previewed.holdsIn_congr {files₁ files₂ : Path → Option Text}
    (hhunk : Previewed host diff cwd files hunk (uri, change))
    (hsame : ∀ path, hunk.TouchesFile host cwd path → files₂ path = files₁ path)
    (h : change.HoldsIn host files₁ uri) : change.HoldsIn host files₂ uri := by
  have hsource := hsame (host.toPathBuf uri) ⟨uri, Or.inl hhunk.source, rfl⟩
  cases hhunk with
  | add | delete | update => exact hsource.trans h
  | @move _ _ _ _ target _ hp hfound happlied htarget =>
    have htarget := hsame (host.toPathBuf target) ⟨target, Or.inr ⟨_, rfl, htarget⟩, rfl⟩
    exact ⟨htarget.trans h.1, hsource.trans h.2⟩

/-- The hunks do not disturb each other: there are some; none updates a file that an earlier one
touches, or deletes one that an earlier one removes; and if the entry of a hunk is not replaced,
the hunk does not move its file onto itself and the later ones leave its files alone. -/
structure Undisturbed (host : Host Uri Path) (cwd : Uri) (hunks : List Hunk) : Prop where
  nonempty : hunks ≠ []
  update : ∀ before hunk after uri, hunks = before ++ hunk :: after → hunk.IsUpdate →
    host.join cwd hunk.sourcePath = .ok uri →
    ∀ earlier ∈ before, ¬ earlier.TouchesFile host cwd (host.toPathBuf uri)
  delete : ∀ before hunk after uri, hunks = before ++ hunk :: after → hunk.IsDelete →
    host.join cwd hunk.sourcePath = .ok uri →
    ∀ earlier ∈ before, ¬ earlier.RemovesFile host cwd (host.toPathBuf uri)
  selfMove : ∀ before hunk after, hunks = before ++ hunk :: after → Last host cwd hunk after →
    NoSelfMove host cwd hunk
  kept : ∀ before hunk after path, hunks = before ++ hunk :: after → Last host cwd hunk after →
    hunk.TouchesFile host cwd path → ∀ later ∈ after, ¬ later.TouchesFile host cwd path

variable [DecidableEq Uri] {hunks : List Hunk} {action : ApplyPatchAction Uri}

omit [DecidableEq Uri] in
/-- What a hunk of a verified patch finds when the hunks before it have been applied. -/
lemma Undisturbed.finds {before after : List Hunk}
    (h : Undisturbed host cwd (before ++ hunk :: after))
    (hhunk : Previewed host diff cwd s.files hunk (uri, change))
    (hrun : HunkRun host cwd before s ok t) :
    (hunk.IsUpdate → t.files (host.toPathBuf uri) = s.files (host.toPathBuf uri)) ∧
      (hunk.IsDelete → t.files (host.toPathBuf uri) ≠ none) := by
  constructor
  · intro hupdate
    exact hrun.files_of_not_touches (h.update before hunk after uri rfl hupdate hhunk.source)
  · intro hdelete
    refine hrun.present (h.delete before hunk after uri rfl hdelete hhunk.source) ?_
    obtain ⟨p, rfl⟩ := hdelete
    cases hhunk with
    | delete hp hfound => simp [hfound]

lemma Undisturbed.agrees
    (h : Undisturbed host action.cwd hunks) (hrun : HunkRun host action.cwd hunks s ok t)
    (hverified : Verified host diff s.files hunks action) (hfault : ∀ n, host.fault n = .none) :
    ok = true ∧ ∀ uri change, action.changes.lookup uri = some change →
      change.HoldsIn host t.files uri := by
  obtain ⟨entries, hentries, -⟩ := hverified.entries
  have hok : ok = true := by
    by_contra hfalse
    rw [Bool.not_eq_true] at hfalse
    subst hfalse
    obtain ⟨before, hunk, after, u, rfl, hbefore, hstep⟩ := hrun.stopped
    obtain ⟨-, ⟨uri, change⟩, -, -, -, hhunk, -⟩ := forall₂_split_left hentries
    obtain ⟨hupdate, hdelete⟩ := h.finds hhunk hbefore
    exact Bool.false_ne_true (hstep.succeeds hhunk hfault hupdate hdelete)
  subst hok
  refine ⟨rfl, fun uri change hlookup => ?_⟩
  obtain ⟨before, hunk, after, rfl, hhunk, hlast⟩ := hverified.lookup_iff.1 hlookup
  obtain ⟨u, u', hbefore, hstep, hafter⟩ := hrun.split
  have hholds := hstep.holds hhunk (h.finds hhunk hbefore).1 (h.selfMove before hunk after rfl hlast)
  exact hhunk.holdsIn_congr (fun path hpath =>
    hafter.files_of_not_touches (h.kept before hunk after path rfl hlast hpath)) hholds

omit [DecidableEq Path] [DecidableEq Uri] in
/-- An entry that holds does not move a file onto itself. -/
lemma Previewed.noSelfMove_of_holdsIn {files' : Path → Option Text}
    (hhunk : Previewed host diff cwd files hunk (uri, change))
    (h : change.HoldsIn host files' uri) : NoSelfMove host cwd hunk := by
  intro dest hdest source target hsource htarget heq
  cases hhunk with
  | add | delete | update => cases hdest
  | move hp hfound happlied htarget' =>
    obtain rfl := Option.mem_some_iff.1 hdest
    rw [Hunk.sourcePath, hp, Except.ok.injEq] at hsource
    rw [htarget', Except.ok.injEq] at htarget
    subst hsource htarget
    obtain ⟨hnew, hnone⟩ := h
    rw [heq, hnone] at hnew
    exact Option.some_ne_none _ hnew.symm

/-- **The application does what the preview shows if the hunks do not disturb each other.**  A
patch was verified, and its hunks are then applied to the same files; no operation fails.  The
hunks being there and the surviving moves going to other files is also needed. -/
theorem preview_agrees (host : Host Uri Path) (hfault : ∀ n, host.fault n = .none)
    (diff : Text → Text → Text) (args : ApplyPatchArgs) (cwd : Uri) (s : PatchRun Uri Path)
    (action : ApplyPatchAction Uri)
    (hverify : ((tryVerifyApplyPatchArgs host diff args cwd).exec s).1 = .ok action) (clock : ℕ)
    (result : Except ApplyPatchError AffectedPaths × PatchRun Uri Path)
    (hresult : result = (applyHunksToFiles host action.cwd args.hunks).exec
      { PatchRun.start s.files with clock := clock }) :
    (Undisturbed host action.cwd args.hunks → PreviewAgrees host action result) ∧
    (PreviewAgrees host action result → args.hunks ≠ [] ∧
      ∀ before hunk after, args.hunks = before ++ hunk :: after →
        Last host action.cwd hunk after → NoSelfMove host action.cwd hunk) := by
  have hverified := tryVerifyApplyPatchArgs_spec hverify
  constructor
  · intro h
    have hrun := applyHunksToFiles_run host action.cwd h.nonempty
      { PatchRun.start s.files with clock := clock }
    rw [← hresult] at hrun
    exact h.agrees hrun hverified hfault
  · rintro ⟨hok, hholds⟩
    refine ⟨fun hnil => ?_, fun before hunk after hhunks hlast => ?_⟩
    · rw [hresult, hnil] at hok
      simp [applyHunksToFiles, Except.isOk, Except.toBool] at hok
    · obtain ⟨entries, hentries, -⟩ := hverified.entries
      rw [hhunks] at hentries
      obtain ⟨-, ⟨uri, change⟩, -, -, -, hhunk, -⟩ := forall₂_split_left hentries
      exact hhunk.noSelfMove_of_holdsIn
        (hholds uri change (hverified.lookup_iff.2 ⟨before, hunk, after, hhunks, hhunk, hlast⟩))

end

/-- The move of `a` to `b`, and a new file. -/
def moveThenAdd : List Hunk := moveTo "b".toList ++ [.addFile "c".toList "z\n".toList]

def moveThenAddAction : ApplyPatchAction Text :=
  ⟨((∅ : FileChanges Text).insert "a".toList (.update [] (some "b".toList) "y\n".toList)).insert
    "c".toList (.add "z\n".toList), [], []⟩

theorem preview_agrees_move :
    PreviewAgrees plainHost moveThenAddAction ((applyHunksToFiles plainHost [] moveThenAdd).exec
      (PatchRun.start (singleFile "a".toList "x\n".toList))) := by
  have hverify : ((tryVerifyApplyPatchArgs plainHost (fun _ _ => [])
      ⟨[], moveThenAdd, none, none⟩ []).exec
        (PatchRun.start (singleFile "a".toList "x\n".toList))).1 = .ok moveThenAddAction := by
    decide +kernel
  refine (preview_agrees plainHost (fun _ => rfl) _ _ [] _ moveThenAddAction hverify 0 _ rfl).1 ?_
  have hsplits : ∀ before hunk after, moveThenAdd = before ++ hunk :: after →
      (before = [] ∧ hunk ∈ moveTo "b".toList ∧ after = [.addFile "c".toList "z\n".toList]) ∨
        hunk = .addFile "c".toList "z\n".toList ∧ after = [] := by
    intro before hunk after h
    rcases before with _ | ⟨first, _ | ⟨second, before⟩⟩ <;> simp_all [moveThenAdd, moveTo]
  refine ⟨by simp [moveThenAdd], ?_, ?_, ?_, ?_⟩
  · intro before hunk after uri hsplit hupdate
    rcases hsplits before hunk after hsplit with ⟨rfl, -⟩ | ⟨rfl, -⟩
    · simp
    · obtain ⟨_, _, _, hhunk⟩ := hupdate
      cases hhunk
  · intro before hunk after uri hsplit hdelete
    rcases hsplits before hunk after hsplit with ⟨rfl, -⟩ | ⟨rfl, -⟩
    · simp
    · obtain ⟨_, hhunk⟩ := hdelete
      cases hhunk
  · intro before hunk after hsplit _ dest hdest source target hsource htarget
    rcases hsplits before hunk after hsplit with ⟨-, hhunk, -⟩ | ⟨rfl, -⟩
    · obtain rfl := List.mem_singleton.1 hhunk
      obtain rfl := Option.mem_some_iff.1 hdest
      obtain rfl : "a".toList = source := by simpa [plainHost, Hunk.sourcePath] using hsource
      obtain rfl : "b".toList = target := by simpa [plainHost] using htarget
      decide
    · cases hdest
  · intro before hunk after path hsplit _ htouches
    rcases hsplits before hunk after hsplit with ⟨-, hhunk, rfl⟩ | ⟨-, rfl⟩
    · -- the new file is another one
      obtain rfl := List.mem_singleton.1 hhunk
      rintro later hlater ⟨added, hadded, rfl⟩
      obtain rfl := List.mem_singleton.1 hlater
      simp [Hunk.TouchesFile, Hunk.Touches, Hunk.MovesTo, plainHost, Hunk.sourcePath,
        Hunk.movePath] at hadded htouches
      subst hadded
      simp at htouches
    · simp

/-- Two updates of the file `a`, both for the line that it has. -/
def twoUpdatesPatch : Text :=
  ("*** Begin Patch\n*** Update File: a\n@@\n-x\n+y\n" ++
    "*** Update File: a\n@@\n-x\n+z\n*** End Patch").toList

def twoUpdates : List Hunk :=
  [.updateFile "a".toList none [⟨none, ["x".toList], ["y".toList], false⟩],
    .updateFile "a".toList none [⟨none, ["x".toList], ["z".toList], false⟩]]

/-- Both updates are verified against the file as it is; the second one then does not find its
line, and the application fails when the first is done. -/
theorem preview_twoUpdates :
    parsePatch twoUpdatesPatch = .ok ⟨twoUpdatesPatch, twoUpdates, none, none⟩ ∧
      ((tryVerifyApplyPatchArgs plainHost (fun _ _ => [])
        ⟨twoUpdatesPatch, twoUpdates, none, none⟩ []).exec
          (PatchRun.start (singleFile "a".toList "x\n".toList))).1 =
        .ok ⟨(∅ : FileChanges Text).insert "a".toList (.update [] none "z\n".toList),
          twoUpdatesPatch, []⟩ ∧ ((applyHunksToFiles plainHost [] twoUpdates).exec
        (PatchRun.start (singleFile "a".toList "x\n".toList))).1.isOk = false ∧
      ((applyHunksToFiles plainHost [] twoUpdates).exec
        (PatchRun.start (singleFile "a".toList "x\n".toList))).2.files "a".toList =
          some "y\n".toList := by
  decide +kernel

end TokenCode.ApplyPatch
