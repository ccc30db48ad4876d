/-
The delta of an application as a log of what happened to the files.

The main result, `applyHunksToFiles_delta`, is about every application, whatever operations fail:
while the delta is marked exact it is truthful, and replaying it on the initial files gives the
final ones, exactly if no hunk has moved a file onto itself. Such a move writes the destination and
then removes the source, which is the same file.
-/
import TokenCode.ApplyPatch.ApplyStep

namespace TokenCode.ApplyPatch

open Text Program

section

variable {Uri Path : Type} [DecidableEq Path] {host : Host Uri Path} {cwd : Uri}
  {initial : Path → Option Text}

/-- The delta is faithful as long as it is exact. -/
def FaithfulWhileExact (initial : Path → Option Text) (s : PatchRun Uri Path) : Prop :=
  s.exact = true → Faithful initial s.files s.changes

variable {s t : PatchRun Uri Path} (hs : FaithfulWhileExact initial s)
include hs

lemma FaithfulWhileExact.unchanged (h : Unchanged s t) : FaithfulWhileExact initial t := by
  intro hexact
  rw [h.files, h.changes]
  exact hs (h.exact hexact)

lemma FaithfulWhileExact.logged (h : Logged s t) : FaithfulWhileExact initial t := by
  intro hexact
  obtain ⟨hs', c, hchanges, hrecords, hreplay⟩ := h hexact
  rw [hchanges, ← hreplay]
  exact (hs hs').concat hrecords

omit hs

/-- The hunk moves no file onto itself: its destination is another native path than its source. -/
def NoSelfMove (host : Host Uri Path) (cwd : Uri) (hunk : Hunk) : Prop :=
  ∀ dest ∈ hunk.movePath, ∀ source target, host.join cwd hunk.sourcePath = .ok source →
    host.join cwd dest = .ok target → host.toPathBuf target ≠ host.toPathBuf source

/-- A move to another file is logged like every other change. -/
lemma LoggedMove.logged {path target : Path} {applied : AppliedPatch}
    (h : LoggedMove path target applied s t) (hne : target ≠ path)
    (hfound : s.files path = some applied.originalContents) (hfiles : t.files =
      Function.update (Function.update s.files target (some applied.newContents)) path none) :
    Logged s t := by
  intro hexact
  obtain ⟨hs, overwritten, hdest, hchanges⟩ := h hexact
  refine ⟨hs, _, hchanges, ⟨hfound, hdest⟩, ?_⟩
  rw [hfiles, Function.update_comm hne]
  rfl

lemma HunkStep.faithful {hunk : Hunk} {ok : Bool}
    (h : HunkStep host cwd hunk s ok t) (hhunk : ok = true → NoSelfMove host cwd hunk)
    (hs : FaithfulWhileExact initial s) : FaithfulWhileExact initial t := by
  cases h with
  | failed hunchanged => exact hs.unchanged hunchanged
  | added hpath hdid hlog => exact hs.logged hlog
  | deleted hpath hfound hdid hlog => exact hs.logged hlog
  | updated hpath hfound happlied hdid hlog => exact hs.logged hlog
  | moved hpath htarget hfound happlied hdid hlog =>
    exact hs.logged (hlog.logged (hhunk rfl _ rfl _ _ hpath htarget) hfound hdid.files)
  | halfMoved hfault htarget hdid hlog => exact hs.logged hlog

/-! ### After a move onto the file itself -/

/-- The delta is marked exact and cannot be faithful any more. -/
def Misled (initial : Path → Option Text) (s : PatchRun Uri Path) : Prop :=
  s.exact = true → ¬ Faithful initial s.files s.changes

/-- A change that records what two states of the files hold leaves them as different as they were. -/
lemma AppliedPatchChange.Records.replay_ne {c : AppliedPatchChange Path}
    {files files' : Path → Option Text} {p : Path} (h : c.Records files) (h' : c.Records files')
    (hne : files p ≠ files' p) : c.replay files p ≠ c.replay files' p := by
  obtain ⟨path, change⟩ := c
  have hpath : files path = files' path → p ≠ path := fun heq hp => hne (hp ▸ heq)
  unfold AppliedPatchChange.Records at h h'
  unfold AppliedPatchChange.replay
  match change, h, h' with
  | .add content overwritten, h, h' => simpa [hpath (h.trans h'.symm)] using hne
  | .delete content, h, h' => simpa [hpath (h.trans h'.symm)] using hne
  | .update none old overwritten new, h, h' => simpa [hpath (h.trans h'.symm)] using hne
  | .update (some dest) old overwritten new, h, h' =>
    have hdest : p ≠ dest := fun hp => hne (hp ▸ h.2.trans h'.2.symm)
    simpa [hpath (h.1.trans h'.1.symm), hdest] using hne

lemma Misled.unchanged (hs : Misled initial s) (h : Unchanged s t) : Misled initial t := by
  intro hexact
  rw [h.files, h.changes]
  exact hs (h.exact hexact)

lemma Misled.logged (hs : Misled initial s) (h : Logged s t) : Misled initial t := by
  intro hexact hfaithful
  obtain ⟨hs', c, hchanges, hrecords, hreplay⟩ := h hexact
  obtain ⟨htruthful, hfiles⟩ := hfaithful
  rw [hchanges, truthful_concat] at htruthful
  rw [hchanges, replay_concat, ← hreplay] at hfiles
  refine hs hs' ⟨htruthful.1, funext fun p => by_contra fun hne => ?_⟩
  exact htruthful.2.replay_ne hrecords hne (congrFun hfiles p)

/-- The file is gone, and the recorded move says that it is there. -/
lemma LoggedMove.misled {path : Path} {applied : AppliedPatch} (h : LoggedMove path path applied s t)
    (hgone : t.files path = none) : Misled initial t := by
  rintro hexact ⟨-, hfiles⟩
  obtain ⟨-, overwritten, -, hchanges⟩ := h hexact
  have hpath := congrFun hfiles path
  rw [hchanges, replay_concat, hgone] at hpath
  simp [AppliedPatchChange.replay] at hpath

lemma HunkStep.misled {hunk : Hunk} {ok : Bool} (h : HunkStep host cwd hunk s ok t)
    (hs : Misled initial s ∨ ok = true ∧ ¬ NoSelfMove host cwd hunk) : Misled initial t := by
  have hother : hunk.movePath = none ∨ ok = false → Misled initial s := fun hcase =>
    hs.resolve_right fun ⟨hok, hself⟩ => by
      rcases hcase with hnone | hfalse
      · exact hself fun dest hdest => by simp [hnone] at hdest
      · cases hok.symm.trans hfalse
  cases h with
  | failed hunchanged => exact (hother (.inr rfl)).unchanged hunchanged
  | added hpath hdid hlog => exact (hother (.inl rfl)).logged hlog
  | deleted hpath hfound hdid hlog => exact (hother (.inl rfl)).logged hlog
  | updated hpath hfound happlied hdid hlog => exact (hother (.inl rfl)).logged hlog
  | halfMoved hfault htarget hdid hlog => exact (hother (.inr rfl)).logged hlog
  | @moved p dest _ path target applied _ _ hpath htarget hfound happlied hdid hlog =>
    by_cases hsame : host.toPathBuf target = host.toPathBuf path
    · rw [hsame] at hlog
      exact hlog.misled (by rw [hdid.files, Function.update_self])
    · refine (hs.resolve_right fun ⟨_, hself⟩ => hself ?_).logged (hlog.logged hsame hfound hdid.files)
      intro other hdest source target' hsource htarget'
      obtain rfl := Option.some.inj hdest
      obtain rfl := Except.ok.inj (hpath.symm.trans hsource)
      obtain rfl := Except.ok.inj (htarget.symm.trans htarget')
      exact hsame

/-! ### Runs -/

/-- In the run of the hunks one that moves a file onto itself is reached, and succeeds. -/
def SelfMoved (host : Host Uri Path) (cwd : Uri) :
    List Hunk → AffectedPaths → PatchRun Uri Path → Prop
  | [], _, _ => False
  | hunk :: hunks, affected, s =>
    match (applyHunk host cwd affected hunk).exec s with
    | (.error _, _) => False
    | (.ok affected', t) => ¬ NoSelfMove host cwd hunk ∨ SelfMoved host cwd hunks affected' t

/-- A run carries on what was so before it, up to a move onto the file itself. -/
lemma foldlM_applyHunk_faithful (host : Host Uri Path) (cwd : Uri) (initial : Path → Option Text)
    (hunks : List Hunk) (affected : AffectedPaths) (s : PatchRun Uri Path) :
    let final := ((hunks.foldlM (applyHunk host cwd) affected).exec s).2
    (Misled initial s ∨ SelfMoved host cwd hunks affected s → Misled initial final) ∧
      (FaithfulWhileExact initial s → ¬ SelfMoved host cwd hunks affected s →
        FaithfulWhileExact initial final) := by
  induction hunks generalizing affected s with
  | nil => exact ⟨fun h => h.resolve_right fun hself => hself, fun h _ => h⟩
  | cons hunk hunks ih =>
    have hstep := applyHunk_step host cwd affected hunk s
    rw [List.foldlM_cons, SelfMoved]
    rcases hexec : (applyHunk host cwd affected hunk).exec s with ⟨e | affected', t⟩
    · have hfailed := hstep.error (.refl s) hexec
      rw [exec_bind_error hexec]
      exact ⟨fun h => hfailed.misled (.inl (h.resolve_right fun hself => hself)),
        fun h _ => hfailed.faithful nofun h⟩
    · have hdone := hstep.ok (.refl s) hexec
      obtain ⟨hmisled, hfaithful⟩ := ih affected' t
      rw [exec_bind_ok hexec]
      refine ⟨fun h => hmisled ?_, fun h hself => ?_⟩
      · rcases h with hs | hself | hlater
        · exact .inl (hdone.misled (.inl hs))
        · exact .inl (hdone.misled (.inr ⟨rfl, hself⟩))
        · exact .inr hlater
      · obtain ⟨hhunk, hlater⟩ := not_or.1 hself
        exact hfaithful (hdone.faithful (fun _ => not_not.1 hhunk) h) hlater

/-- **An exact delta is a faithful log.**  However an application ends, and whatever operations
failed on the way: if its delta is exact, then the changes record what the files held and replaying
them on the initial files gives the final ones, if and only if no move of a file onto itself was
reached and succeeded. -/
theorem applyHunksToFiles_delta (host : Host Uri Path) (cwd : Uri) (hunks : List Hunk)
    (files : Path → Option Text) (final : PatchRun Uri Path)
    (hfinal : final = ((applyHunksToFiles host cwd hunks).exec (PatchRun.start files)).2)
    (hexact : final.exact = true) :
    (Truthful files final.changes ∧ replay files final.changes = final.files) ↔
      ¬ SelfMoved host cwd hunks ⟨[], [], []⟩ (PatchRun.start files) := by
  have hstart : FaithfulWhileExact files (PatchRun.start files : PatchRun Uri Path) :=
    fun _ => ⟨trivial, rfl⟩
  by_cases hhunks : hunks = []
  · subst hhunks
    subst hfinal
    exact iff_of_true (hstart rfl) fun hself => hself
  · obtain ⟨hmisled, hfaithful⟩ :=
      foldlM_applyHunk_faithful host cwd files hunks ⟨[], [], []⟩ (PatchRun.start files)
    rw [applyHunksToFiles, if_neg hhunks] at hfinal
    rw [← hfinal] at hmisled hfaithful
    exact ⟨fun h hself => hmisled (.inr hself) hexact h, fun hself => hfaithful hstart hself hexact⟩

end

/-- A line of `a` is changed and the file moved to `dest`. -/
def moveTo (dest : Text) : List Hunk :=
  [.updateFile "a".toList (some dest) [⟨none, ["x".toList], ["y".toList], false⟩]]

/-- The application of a move of the only file. -/
def movedTo (dest : Text) : PatchRun Text Text :=
  ((applyHunksToFiles plainHost [] (moveTo dest)).exec
    (PatchRun.start (singleFile "a".toList "x\n".toList))).2

theorem applyHunksToFiles_delta_move :
    Truthful (singleFile "a".toList "x\n".toList) (movedTo "b".toList).changes ∧
      replay (singleFile "a".toList "x\n".toList) (movedTo "b".toList).changes =
        (movedTo "b".toList).files := by
  refine (applyHunksToFiles_delta plainHost [] (moveTo "b".toList) _ _ rfl (by decide +kernel)).2 ?_
  rw [moveTo, SelfMoved]
  split
  · exact fun hself => hself
  rw [SelfMoved, or_false, not_not]
  intro dest hdest source target hsource htarget
  obtain rfl := Option.mem_some_iff.1 hdest
  obtain rfl : "a".toList = source := by simpa [plainHost, Hunk.sourcePath] using hsource
  obtain rfl : "b".toList = target := by simpa [plainHost] using htarget
  decide

/-- A move of a file onto itself removes it, while the delta is exact and records an update. -/
theorem applyHunksToFiles_selfMove :
    (movedTo "a".toList).exact = true ∧ (movedTo "a".toList).files "a".toList = none ∧
      replay (singleFile "a".toList "x\n".toList) (movedTo "a".toList).changes "a".toList =
        some "y\n".toList := by
  decide +kernel

end TokenCode.ApplyPatch
