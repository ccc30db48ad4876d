/-
What the tracker knows after any number of deltas.

Seen from outside, the tracker is a pair of maps to contents: the baselines, captured when a path
is seen for the first time, and the current contents. A change captures what it records and is
then replayed on the current contents (`applyChange_baseline`, `applyChange_current`). If the
changes are truthful, then for every path that was touched the baseline is the initial file and the
current content is the present one (`trackDelta_tracks`).
-/
import TokenCode.TurnDiff.Tracker

namespace TokenCode.ApplyPatch

open Function Text

/-! ### What a change says about paths -/

variable {Path : Type}

/-- The contents that a change records, with their paths. -/
def AppliedPatchChange.recorded (c : AppliedPatchChange Path) : List (Path × Option Text) :=
  match c.change with
  | .add _ overwritten => [(c.path, overwritten)]
  | .delete content => [(c.path, some content)]
  | .update none oldContent _ _ => [(c.path, some oldContent)]
  | .update (some dest) oldContent overwritten _ =>
    [(c.path, some oldContent), (dest, overwritten)]

/-- The paths that a change touches. -/
def AppliedPatchChange.paths (c : AppliedPatchChange Path) : List Path := c.recorded.map Prod.fst

variable {c : AppliedPatchChange Path}

lemma AppliedPatchChange.records_iff {files : Path → Option Text} :
    c.Records files ↔ ∀ entry ∈ c.recorded, files entry.1 = entry.2 := by
  rcases c with ⟨path, _ | _ | ⟨_ | dest, _, _, _⟩⟩ <;> simp [Records, recorded]

instance (c : AppliedPatchChange Path) (files : Path → Option Text) : Decidable (c.Records files) :=
  decidable_of_iff _ AppliedPatchChange.records_iff.symm

variable [DecidableEq Path]

instance decidableTruthful : ∀ (files : Path → Option Text)
    (changes : List (AppliedPatchChange Path)), Decidable (Truthful files changes)
  | _, [] => isTrue trivial
  | files, c :: changes =>
    have := decidableTruthful (c.replay files) changes
    inferInstanceAs (Decidable (_ ∧ _))

variable {path : Path}

/-- A change says what its paths hold afterwards, whatever they held before. -/
lemma AppliedPatchChange.replay_of_mem (h : path ∈ c.paths) (files files' : Path → Option Text) :
    c.replay files path = c.replay files' path := by
  rcases c with ⟨source, _ | _ | ⟨_ | dest, _, _, _⟩⟩ <;> simp [paths, recorded] at h
  · simp [replay, h]
  · simp [replay, h]
  · simp [replay, h]
  · rcases h with rfl | rfl <;> simp [replay, update_apply]

lemma AppliedPatchChange.replay_of_notMem
    (h : path ∉ c.paths) (files : Path → Option Text) : c.replay files path = files path := by
  rcases c with ⟨source, _ | _ | ⟨_ | dest, _, _, _⟩⟩ <;>
    simp_all [paths, recorded, replay, update_of_ne]

end TokenCode.ApplyPatch

namespace TokenCode.TurnDiff

open Function ApplyPatch Text
open AppliedPatchChange (records_iff paths replay_of_mem replay_of_notMem)

variable {Path : Type} [DecidableEq Path]

/-! ### Lazy baselines -/

section

/-- A recorded content becomes the baseline of a path that has neither a baseline nor a current
content. -/
def capture (current baseline : Path → Option Text) (entry : Path × Option Text) :
    Path → Option Text :=
  if baseline entry.1 = none ∧ current entry.1 = none then
    Function.update baseline entry.1 entry.2
  else baseline

/-- The baselines and the current contents are right: for the paths that were touched they are the
initial and the present file, and of the other paths nothing is known, nor has it changed. -/
structure Tracks (initial files : Path → Option Text) (touched : Path → Prop)
    (baseline current : Path → Option Text) : Prop where
  known : ∀ path, touched path → baseline path = initial path ∧ current path = files path
  unknown : ∀ path, ¬ touched path →
    baseline path = none ∧ current path = none ∧ files path = initial path

variable {initial files baseline current : Path → Option Text} {path : Path}

/-- A path whose present content is captured has the initial file as its baseline. A path that
was touched and is absent looks like one that was not, but then there is nothing to capture. -/
lemma capture_self (touched : Path → Prop)
    (hknown : touched path → baseline path = initial path ∧ current path = files path)
    (hunknown : ¬ touched path → (baseline path = none ∨ baseline path = initial path) ∧
      current path = none ∧ files path = initial path) :
    capture current baseline (path, files path) path = initial path := by
  unfold capture
  by_cases htouched : touched path
  · obtain ⟨hbaseline, hcurrent⟩ := hknown htouched
    split_ifs with hnone
    · rw [update_self, ← hcurrent, hnone.2, ← hbaseline, hnone.1]
    · exact hbaseline
  · obtain ⟨hbaseline, hcurrent, hfiles⟩ := hunknown htouched
    split_ifs with hnone
    · rw [update_self, hfiles]
    · exact hbaseline.resolve_left fun hb => hnone ⟨hb, hcurrent⟩

lemma capture_of_ne {entry : Path × Option Text} (h : path ≠ entry.1) :
    capture current baseline entry path = baseline path := by
  unfold capture
  split_ifs
  · exact update_of_ne h _ _
  · rfl

variable {touched : Path → Prop}

/-- Capturing what is there gives the baselines of more paths. -/
lemma capture_foldl (hcurrent : Tracks initial files touched baseline current)
    (known : Path → Prop) {baseline' : Path → Option Text}
    (hknown : ∀ path, touched path ∨ known path → baseline' path = initial path)
    (hunknown : ∀ path, ¬ (touched path ∨ known path) → baseline' path = none)
    {entries : List (Path × Option Text)} (hentries : ∀ entry ∈ entries, files entry.1 = entry.2) :
    (∀ path, touched path ∨ known path ∨ path ∈ entries.map Prod.fst →
      entries.foldl (capture current) baseline' path = initial path) ∧
    (∀ path, ¬ (touched path ∨ known path ∨ path ∈ entries.map Prod.fst) →
      entries.foldl (capture current) baseline' path = none) := by
  induction entries generalizing known baseline' with
  | nil =>
    exact ⟨by simpa using hknown, fun path hpath => hunknown path (by simpa using hpath)⟩
  | cons entry entries ih =>
    have hself : capture current baseline' entry entry.1 = initial entry.1 := by
      rw [← Prod.eta entry, ← hentries entry (by simp)]
      refine capture_self touched (fun h => ⟨hknown _ (Or.inl h), ?_⟩) fun h => ?_
      · exact (hcurrent.known _ h).2
      · refine ⟨?_, (hcurrent.unknown _ h).2⟩
        by_cases hk : known entry.1
        · exact Or.inr (hknown _ (Or.inr hk))
        · exact Or.inl (hunknown _ (by simp [h, hk]))
    have hrest := @ih (fun path => known path ∨ path = entry.1)
      (capture current baseline' entry) (fun path hpath => ?_) (fun path hpath => ?_)
      (fun e he => hentries e (by simp [he]))
    · simpa [or_assoc, eq_comm] using hrest
    · by_cases heq : path = entry.1
      · rw [heq, hself]
      · rw [capture_of_ne heq]
        exact hknown path (by simpa [heq] using hpath)
    · have hne : path ≠ entry.1 := fun heq => hpath (by simp [heq])
      rw [capture_of_ne hne]
      exact hunknown path fun h => hpath (by tauto)

/-- **The step.**  A change that records what is there keeps the tracking right. -/
theorem Tracks.step (h : Tracks initial files touched baseline current)
    {c : AppliedPatchChange Path} (hc : c.Records files) :
    Tracks initial (c.replay files) (fun path => touched path ∨ path ∈ c.paths)
      (c.recorded.foldl (capture current) baseline) (c.replay current) := by
  obtain ⟨hknown, hunknown⟩ := capture_foldl h (fun _ => False)
    (fun path hpath => (h.known path (by simpa using hpath)).1)
    (fun path hpath => (h.unknown path (by simpa using hpath)).1)
    (records_iff.1 hc)
  constructor
  · intro path hpath
    refine ⟨hknown path (by simpa [paths] using hpath), ?_⟩
    by_cases hmem : path ∈ c.paths
    · exact replay_of_mem hmem _ _
    · rw [replay_of_notMem hmem, replay_of_notMem hmem]
      exact (h.known path (hpath.resolve_right hmem)).2
  · intro path hpath
    obtain ⟨htouched, hmem⟩ := not_or.1 hpath
    obtain ⟨-, hcurrent, hfiles⟩ := h.unknown path htouched
    rw [replay_of_notMem hmem, replay_of_notMem hmem]
    exact ⟨hunknown path (by simpa [paths] using hpath), hcurrent, hfiles⟩

end

/-! ### The tracker -/

variable (environmentId : Text)

section

/-- The contents of a map, without the revisions. -/
def view (m : Contents Path) (path : TrackedPath Path) : Option Text :=
  (m.lookup path).map (·.content)

variable (path : TrackedPath Path)

variable (m : Contents Path)

lemma view_insert (path : TrackedPath Path) (content : TrackedContent) :
    view (m.insert path content) = Function.update (view m) path (some content.content) := by
  funext p
  by_cases hp : p = path
  · subst hp
    simp [view]
  · simp [view, hp, update_of_ne]

lemma view_erase (path : TrackedPath Path) :
    view (m.erase path) = Function.update (view m) path none := by
  funext p
  by_cases hp : p = path
  · subst hp
    simp [view]
  · simp [view, hp, update_of_ne]

lemma view_eq_none_iff {m : Contents Path} {path : TrackedPath Path} :
    view m path = none ↔ path ∉ m := by
  simp [view, AList.lookup_eq_none]

variable {log : List (AppliedPatchChange (TrackedPath Path))} (lib : DiffLibrary Path)

namespace TurnDiffTracker

variable (t : TurnDiffTracker Path)

/-- A baseline is captured, and nothing else is changed. -/
lemma captureBaseline_view (content : Option Text) :
    view (t.captureBaseline path content).baselineByPath =
        capture (view t.currentByPath) (view t.baselineByPath) (path, content) ∧
      (t.captureBaseline path content).currentByPath = t.currentByPath ∧
      (t.captureBaseline path content).valid = t.valid := by
  unfold captureBaseline capture
  simp only [view_eq_none_iff, and_comm (a := path ∉ t.baselineByPath)]
  cases content with
  | none =>
    refine ⟨?_, rfl, rfl⟩
    split_ifs with hnew
    · exact (update_eq_self_iff.2 (view_eq_none_iff.2 hnew.2).symm).symm
    · rfl
  | some content =>
    split_ifs with hnew
    · exact ⟨view_insert _ _ _, rfl, rfl⟩
    · exact ⟨rfl, rfl, rfl⟩

/-- The change as one of the environment's paths. -/
def inEnvironment (environmentId : Text) (c : AppliedPatchChange Path) :
    AppliedPatchChange (TrackedPath Path) :=
  ⟨⟨environmentId, c.path⟩, match c.change with
    | .add content overwritten => .add content overwritten
    | .delete content => .delete content
    | .update movePath oldContent overwritten newContent =>
      .update (movePath.map fun path => ⟨environmentId, path⟩) oldContent overwritten newContent⟩

lemma applyDelete_view (content : Text) : view (t.applyDelete path content).baselineByPath =
        capture (view t.currentByPath) (view t.baselineByPath) (path, some content) ∧
      view (t.applyDelete path content).currentByPath =
        Function.update (view t.currentByPath) path none ∧
      (t.applyDelete path content).valid = t.valid := by
  unfold applyDelete capture
  simp only [view_eq_none_iff, AList.lookup_eq_none, removeCurrent,
    and_comm (a := path ∉ t.baselineByPath)]
  split_ifs with hnew
  · exact ⟨view_insert _ _ _, view_erase _ _, rfl⟩
  · exact ⟨rfl, view_erase _ _, rfl⟩

lemma applyMove_view (source dest : TrackedPath Path) (overwritten : Option Text)
    (newContent : Text) : view (t.applyMove source dest overwritten newContent).baselineByPath =
        capture (view t.currentByPath) (view t.baselineByPath) (dest, overwritten) ∧
      view (t.applyMove source dest overwritten newContent).currentByPath =
        Function.update (Function.update (view t.currentByPath) source none) dest
          (some newContent) ∧ (t.applyMove source dest overwritten newContent).valid = t.valid := by
  obtain ⟨hbaseline, hcurrent, hvalid⟩ := t.captureBaseline_view dest overwritten
  rw [← hbaseline, ← view_erase, ← hcurrent, ← hvalid]
  unfold applyMove
  dsimp only
  split_ifs
  all_goals exact ⟨rfl, view_insert _ _ _, rfl⟩

/-- **A change captures what it records, and is replayed on the current contents.** -/
theorem applyChange_view (c : AppliedPatchChange Path) :
    view (t.applyChange environmentId c).baselineByPath =
        (inEnvironment environmentId c).recorded.foldl (capture (view t.currentByPath))
          (view t.baselineByPath) ∧ view (t.applyChange environmentId c).currentByPath =
        (inEnvironment environmentId c).replay (view t.currentByPath) ∧
      (t.applyChange environmentId c).valid = t.valid := by
  rcases c with ⟨path, ⟨content, overwritten⟩ | content | ⟨_ | dest, oldContent, overwritten, new⟩⟩
  · obtain ⟨hbaseline, hcurrent, hvalid⟩ :=
      (t.removeOrigin ⟨environmentId, path⟩).captureBaseline_view ⟨environmentId, path⟩ overwritten
    exact ⟨hbaseline, (view_insert _ _ _).trans (by rw [hcurrent]; rfl), hvalid⟩
  · exact t.applyDelete_view ⟨environmentId, path⟩ content
  · obtain ⟨hbaseline, hcurrent, hvalid⟩ :=
      t.captureBaseline_view ⟨environmentId, path⟩ (some oldContent)
    exact ⟨hbaseline, (view_insert _ _ _).trans (by rw [hcurrent]; rfl), hvalid⟩
  · obtain ⟨hbaseline, hcurrent, hvalid⟩ :=
      t.captureBaseline_view ⟨environmentId, path⟩ (some oldContent)
    obtain ⟨hbaseline', hcurrent', hvalid'⟩ :=
      (t.captureBaseline ⟨environmentId, path⟩ (some oldContent)).applyMove_view
        ⟨environmentId, path⟩ ⟨environmentId, dest⟩ overwritten new
    rw [hbaseline, hcurrent] at hbaseline'
    rw [hcurrent] at hcurrent'
    exact ⟨hbaseline', hcurrent', hvalid'.trans hvalid⟩

/-! ### Runs -/

variable {initial : TrackedPath Path → Option Text}

/-- The path was touched by a change of the log. -/
def TouchedBy (log : List (AppliedPatchChange (TrackedPath Path))) (path : TrackedPath Path) :
    Prop :=
  ∃ c ∈ log, path ∈ c.paths

/-- The tracker is valid and right about a log of changes. -/
structure TracksLog (initial : TrackedPath Path → Option Text)
    (log : List (AppliedPatchChange (TrackedPath Path))) (t : TurnDiffTracker Path) : Prop where
  valid : t.valid = true
  tracks : Tracks initial (replay initial log) (TouchedBy log) (view t.baselineByPath)
    (view t.currentByPath)

lemma tracksLog_start (initial : TrackedPath Path → Option Text) (roots : List (Text × Path)) :
    TracksLog initial [] (withEnvironmentDisplayRoots roots) :=
  ⟨rfl, by simp [TouchedBy], fun path _ => ⟨rfl, rfl, rfl⟩⟩

variable {t}

section

variable (h : TracksLog initial log t)
include h

lemma TracksLog.applyChange {c : AppliedPatchChange Path}
    (hc : (inEnvironment environmentId c).Records (replay initial log)) :
    TracksLog initial (log ++ [inEnvironment environmentId c]) (t.applyChange environmentId c) := by
  obtain ⟨hbaseline, hcurrent, hvalid⟩ := t.applyChange_view environmentId c
  refine ⟨hvalid.trans h.valid, ?_⟩
  have htouched : TouchedBy (log ++ [inEnvironment environmentId c]) =
      fun path => TouchedBy log path ∨ path ∈ (inEnvironment environmentId c).paths := by
    funext path
    simp [TouchedBy, or_and_right, exists_or]
  rw [htouched, replay_concat, hbaseline, hcurrent]
  exact h.tracks.step hc

lemma TracksLog.applyChanges {changes : List (AppliedPatchChange Path)}
    (hchanges : Truthful initial (log ++ changes.map (inEnvironment environmentId))) :
    TracksLog initial (log ++ changes.map (inEnvironment environmentId))
      (changes.foldl (TurnDiffTracker.applyChange environmentId) t) := by
  induction changes generalizing log t with
  | nil => simpa using h
  | cons c changes ih =>
    rw [List.map_cons, List.append_cons] at hchanges ⊢
    have hc := (truthful_append.1 hchanges).1
    exact ih (h.applyChange environmentId (truthful_concat.1 hc).2) hchanges

/-- Rendering changes neither the baselines nor the current contents. -/
lemma TracksLog.refresh : TracksLog initial log (t.refreshUnifiedDiff lib) :=
  ⟨h.valid, h.tracks⟩

lemma TracksLog.trackDelta (environmentId : Text)
    {delta : AppliedPatchDelta Path} (hexact : delta.exact = true)
    (hchanges : Truthful initial (log ++ delta.changes.map (inEnvironment environmentId))) :
    TracksLog initial (log ++ delta.changes.map (inEnvironment environmentId))
      (t.trackDelta lib environmentId delta) := by
  unfold TurnDiffTracker.trackDelta
  simp only [h.valid, hexact, Bool.not_true, Bool.false_eq_true, if_false]
  exact (h.applyChanges environmentId hchanges).refresh lib

end

/-- The changes of a sequence of deltas, each in its environment. -/
def logOf (deltas : List (Text × AppliedPatchDelta Path)) :
    List (AppliedPatchChange (TrackedPath Path)) :=
  deltas.flatMap fun d => d.2.changes.map (inEnvironment d.1)

/-- The tracker after a sequence of deltas. -/
def trackDeltas (lib : DiffLibrary Path) (t : TurnDiffTracker Path)
    (deltas : List (Text × AppliedPatchDelta Path)) : TurnDiffTracker Path :=
  deltas.foldl (fun t d => t.trackDelta lib d.1 d.2) t

lemma TracksLog.trackDeltas (h : TracksLog initial log t) (lib : DiffLibrary Path)
    {deltas : List (Text × AppliedPatchDelta Path)} (hexact : ∀ d ∈ deltas, d.2.exact = true)
    (hchanges : Truthful initial (log ++ logOf deltas)) :
    TracksLog initial (log ++ logOf deltas) (trackDeltas lib t deltas) := by
  induction deltas generalizing log t with
  | nil => simpa [logOf, TurnDiffTracker.trackDeltas] using h
  | cons d deltas ih =>
    have hlog : log ++ logOf (d :: deltas) =
        (log ++ d.2.changes.map (inEnvironment d.1)) ++ logOf deltas := by
      simp [logOf]
    rw [hlog] at hchanges ⊢
    exact ih (h.trackDelta lib d.1 (hexact d (by simp)) (truthful_append.1 hchanges).1)
      (fun d' hd' => hexact d' (by simp [hd'])) hchanges

/-- **The tracker knows the initial and the present files.**  After any sequence of exact deltas
that truthfully describe successive mutations of the files: every baseline is what the initial file
held; a path that was touched and has no baseline was not there; and the current content of a path
that was touched is what the file holds now. -/
theorem trackDeltas_tracks (lib : DiffLibrary Path) (roots : List (Text × Path))
    (initial : TrackedPath Path → Option Text) (deltas : List (Text × AppliedPatchDelta Path))
    (hexact : ∀ d ∈ deltas, d.2.exact = true) (htruthful : Truthful initial (logOf deltas))
    (t : TurnDiffTracker Path) (ht : t = trackDeltas lib (withEnvironmentDisplayRoots roots) deltas) :
    (∀ path content, t.baselineByPath.lookup path = some content →
      initial path = some content.content) ∧
    (∀ path, TouchedBy (logOf deltas) path → path ∉ t.baselineByPath → initial path = none) ∧
    (∀ path, TouchedBy (logOf deltas) path →
      (t.currentByPath.lookup path).map (·.content) = replay initial (logOf deltas) path) := by
  have h := (tracksLog_start initial roots).trackDeltas lib hexact (by simpa using htruthful)
  rw [List.nil_append, ← ht] at h
  refine ⟨fun path content hcontent => ?_, fun path htouched hpath => ?_,
    fun path htouched => (h.tracks.known path htouched).2⟩
  · have hview : view t.baselineByPath path = some content.content := by simp [view, hcontent]
    by_cases htouched : TouchedBy (logOf deltas) path
    · rw [← (h.tracks.known path htouched).1, hview]
    · rw [(h.tracks.unknown path htouched).1] at hview
      exact absurd hview.symm (Option.some_ne_none _)
  · rw [← (h.tracks.known path htouched).1, view_eq_none_iff]
    exact hpath

end TurnDiffTracker

end

/-- A rendering that shows nothing. -/
def plainLibrary : DiffLibrary Text :=
  ⟨fun path _ => some path, fun path => path, fun content => content, fun _ _ _ _ => []⟩

/-- The file `b` is deleted, and then `a` is changed and moved to `b`. -/
def deleteThenMove : List (Text × AppliedPatchDelta Text) :=
  [([], ⟨[⟨"b".toList, .delete "z\n".toList⟩], true⟩),
    ([], ⟨[⟨"a".toList, .update (some "b".toList) "x\n".toList none "y\n".toList⟩], true⟩)]

/-- The files `a` and `b`. -/
def filesAB : TrackedPath Text → Option Text :=
  Function.update (Function.update (fun _ => none) ⟨[], "a".toList⟩ (some "x\n".toList))
    ⟨[], "b".toList⟩ (some "z\n".toList)

/-- The deleted content of `b` is its baseline, and what was moved there is its present content. -/
theorem trackDeltas_deleteThenMove :
    ((TurnDiffTracker.trackDeltas plainLibrary .new deleteThenMove).currentByPath.lookup
      ⟨[], "b".toList⟩).map (·.content) = some "y\n".toList ∧ ⟨[], "b".toList⟩ ∈
      (TurnDiffTracker.trackDeltas plainLibrary .new deleteThenMove).baselineByPath := by
  have htruthful : Truthful filesAB (TurnDiffTracker.logOf deleteThenMove) := by decide +kernel
  obtain ⟨-, habsent, hcurrent⟩ := TurnDiffTracker.trackDeltas_tracks plainLibrary [] filesAB
    deleteThenMove (by decide) htruthful _ rfl
  have htouched : TurnDiffTracker.TouchedBy (TurnDiffTracker.logOf deleteThenMove)
      ⟨[], "b".toList⟩ :=
    ⟨_, List.mem_cons_self, by decide⟩
  refine ⟨(hcurrent _ htouched).trans (by decide +kernel), ?_⟩
  by_contra hbaseline
  exact absurd (habsent _ htouched hbaseline) (by decide +kernel)

end TokenCode.TurnDiff
