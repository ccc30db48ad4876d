/-
What the application of a hunk can do.

`HunkStep` lists the ways in which a hunk is applied or fails: what happened to the files, which
URIs were touched, what the delta records, and why a failure happened. `applyHunk_step` says that
there is no other way, whatever operations of the file system fail; every result about
applications is proved by cases on it.
-/
import TokenCode.ApplyPatch.Apply
import TokenCode.ApplyPatch.Replay

namespace TokenCode.ApplyPatch

open Text Program

variable {ε : Type} {φ : Prop} {hunks : List Hunk}

section

variable {Uri Path : Type} {host : Host Uri Path}

/-! ### The helpers -/

/-- A condition that neither looks at the clock nor asks for an exact delta. -/
structure Frame (P : PatchRun Uri Path → Prop) : Prop where
  clock : ClockFree P
  inexact : ∀ s, P s → P { s with exact := false }

variable {P : PatchRun Uri Path → Prop} {s : PatchRun Uri Path}

lemma Frame.keepExact (hP : Frame P) (b : Bool) (hs : P s) : P { s with exact := s.exact && b } := by
  cases b with
  | true => simpa using hs
  | false => simpa using hP.inexact s hs

/-- The file is not there, or an operation of the file system failed. -/
def Blocked (host : Host Uri Path) (path : Uri) (s : PatchRun Uri Path) : Prop :=
  s.files (host.toPathBuf path) = none ∨ ∃ n, host.fault n ≠ .none

lemma Frame.blocked (hP : Frame P) (path : Uri) : Frame fun s => P s ∧ Blocked host path s :=
  ⟨fun s n hs => ⟨hP.clock s n hs.1, hs.2⟩, fun s hs => ⟨hP.inexact s hs.1, hs.2⟩⟩

variable {P : PatchRun Uri Path → Prop} (hP : Frame P)
include hP

variable (path : Uri)

lemma readFileText_frame : Triple P (readFileText host path)
      (fun content s => P s ∧ s.files (host.toPathBuf path) = some content)
      (fun _ s => P s ∧ Blocked host path s) :=
  (findFile_triple path hP.clock).onError fun _ _ h => ⟨h.1, h.2.imp_right And.right⟩

lemma getMetadata_frame :
    Triple P (getMetadata host path) (fun metadata s => P s ∧ metadata.isDirectory = false)
      (fun _ s => P s ∧ Blocked host path s) :=
  (readFileText_frame hP path).bind fun _ => .pure fun _ h => ⟨h.1, rfl⟩

variable {E : ε → PatchRun Uri Path → Prop}

lemma setInexact_frame :
    Triple P (setInexact : Fs Uri Path ε Unit) (fun _ s => P s ∧ s.exact = false) E :=
  .update fun s hs => ⟨hP.inexact s hs, rfl⟩

lemma noteExistingPathDeltaSupport_frame :
    Triple P (noteExistingPathDeltaSupport host path : Fs Uri Path ε Unit) (fun _ => P) E := by
  have hinexact := (setInexact_frame (E := E) hP).post fun _ _ h => h.1
  refine (getMetadata_frame hP path).attempt.bind fun r => ?_
  rcases r with (_ | _) | metadata
  · exact .pure fun _ h => h.1
  · exact hinexact.pre fun _ h => h.1
  · show Triple _ (if metadata.isFile && !metadata.isSymlink then pure () else setInexact) _ _
    split_ifs
    · exact .pure fun _ h => h.1
    · exact hinexact.pre fun _ h => h.1

/-- What is read for an exact delta is what the file holds. -/
lemma readOptionalFileTextForDelta_frame :
    Triple P (readOptionalFileTextForDelta host path : Fs Uri Path ε (Option Text))
      (fun content s => P s ∧ (s.exact = true → s.files (host.toPathBuf path) = content)) E := by
  refine (noteExistingPathDeltaSupport_frame hP path).bind fun _ => ?_
  refine (findFile_triple path hP.clock).attempt.bind fun r => ?_
  rcases r with (_ | _) | content
  · refine .pure fun s hs => ⟨hs.1, fun _ => ?_⟩
    simpa using hs.2
  · refine ((setInexact_frame hP).pre fun _ h => h.1).bind fun _ => ?_
    exact .pure fun s hs => ⟨hs.1, fun hexact => by simp [hs.2] at hexact⟩
  · exact .pure fun s hs => ⟨hs.1, fun _ => hs.2⟩

omit hP in
/-- The context of an error says nothing about the state. -/
lemma withContext_triple {α : Type} {R : PatchRun Uri Path → Prop}
    {Q : α → PatchRun Uri Path → Prop} {x : Fs Uri Path ErrorKind α}
    (h : Triple P x Q fun _ => R) (context : Text → Text) (path : Uri) :
    Triple P (withContext host context path x) Q fun _ => R :=
  .mapError h

omit hP in
lemma resolve_frame (cwd : Uri) (path : Text) :
    Triple P (resolve host cwd path) (fun uri s => host.join cwd path = .ok uri ∧ P s)
      (fun _ s => (∃ e, host.join cwd path = .error e) ∧ P s) := by
  cases hjoin : host.join cwd path with
  | error e =>
    refine .ofExcept (fun uri huri => ?_) fun _ _ s hs => ⟨⟨e, rfl⟩, hs⟩
    simp [hjoin, Except.mapError] at huri
  | ok uri' =>
    refine .ofExcept (fun uri huri s hs => ⟨?_, hs⟩) fun e he => ?_
    · simpa [hjoin, Except.mapError] using huri
    · simp [hjoin, Except.mapError] at he

/-- The contents are derived from what the file holds. -/
lemma deriveNewContentsFromChunks_frame (path : Uri)
    (chunks : List UpdateFileChunk) : Triple P (deriveNewContentsFromChunks host path chunks)
      (fun applied s => (P s ∧ s.files (host.toPathBuf path) = some applied.originalContents) ∧
        deriveNewContents (host.nativePathString path) applied.originalContents chunks =
          .ok applied) (fun _ s => P s ∧ (Blocked host path s ∨ ∃ content e,
        s.files (host.toPathBuf path) = some content ∧
          deriveNewContents (host.nativePathString path) content chunks = .error e)) := by
  have hread : Triple P (readFileText host path)
      (fun content s => P s ∧ s.files (host.toPathBuf path) = some content)
      (fun _ s => P s ∧ (Blocked host path s ∨ ∃ content e,
        s.files (host.toPathBuf path) = some content ∧
          deriveNewContents (host.nativePathString path) content chunks = .error e)) :=
    (readFileText_frame hP path).onError fun _ _ h => ⟨h.1, Or.inl h.2⟩
  refine (withContext_triple hread readToUpdateContext path).bind fun original => ?_
  refine .ofExcept (fun applied happlied s hs => ?_)
    fun e he s hs => ⟨hs.1, Or.inr ⟨original, e, hs.2, he⟩⟩
  rw [deriveNewContents_original happlied]
  exact ⟨hs, happlied⟩

variable {Q : PatchRun Uri Path → Prop} {path : Uri}

lemma tryWrite_frame {x : Fs Uri Path ε Unit}
    (h : Triple P x (fun _ => Q) fun _ s => P s ∧ ∃ n, host.fault n ≠ .none) :
    Triple P (tryWrite x) (fun _ => Q) (fun _ s => P s ∧ ∃ n, host.fault n ≠ .none) := by
  refine h.attempt.bind fun r => ?_
  rcases r with e | ⟨⟩
  · refine .bind (Q := fun _ s => P s ∧ ∃ n, host.fault n ≠ .none) ?_ fun _ =>
      .throw fun _ hs => hs
    exact .update fun s hs => ⟨hP.inexact s hs.1, hs.2⟩
  · exact .pure fun _ hs => hs

lemma removeFailureWasSideEffectFree_frame (path : Uri) (expected : Option Text) :
    Triple P (removeFailureWasSideEffectFree host path expected : Fs Uri Path ε Bool)
      (fun _ => P) E := by
  cases expected with
  | none => exact .pure fun _ h => h
  | some expected =>
    refine (readFileText_frame hP path).attempt.bind fun r => ?_
    rcases r with e | content
    all_goals exact .pure fun _ h => h.1

variable [DecidableEq Path]

/-- A write happens, or an operation failed and nothing was written. -/
lemma writeFileWithMissingParentRetry_frame {contents : Text}
    (hQ : ∀ s, P s → Q (wrote host path contents s)) :
    Triple P (writeFileWithMissingParentRetry host path contents) (fun _ => Q)
      (fun _ s => P s ∧ ∃ n, host.fault n ≠ .none) := by
  have hwrite := writeFile_triple hP.clock hQ
  refine hwrite.attempt.bind fun r => ?_
  rcases r with (_ | _) | ⟨⟩
  · -- the parent is missing: it is created, and the write is made again
    have hP' : ClockFree fun s => P s ∧ ∃ n, host.fault n ≠ .none :=
      fun s n hs => ⟨hP.clock s n hs.1, hs.2⟩
    have hparent : Triple (fun s => P s ∧ ∃ n, host.fault n ≠ .none)
        (createMissingParent host path) (fun _ s => P s ∧ ∃ n, host.fault n ≠ .none)
        (fun _ s => P s ∧ ∃ n, host.fault n ≠ .none) := by
      unfold createMissingParent
      cases host.parent path with
      | none => exact .pure fun _ h => h
      | some parent => exact withContext_triple (createDirectory_triple parent hP') _ _
    refine hparent.bind fun _ => withContext_triple ?_ _ _
    exact hwrite.pre fun _ h => h.1
  · exact .throw fun _ h => h
  · exact .pure fun _ h => h

/-- A removal takes the file away, or changes nothing. -/
lemma removeChecked_frame (expected : Option Text) (context : Text → Text)
    (hQ : ∀ s, P s → s.files (host.toPathBuf path) ≠ none → Q (removed host path s)) :
    Triple P (removeChecked host path expected context) (fun _ => Q)
      (fun _ s => P s ∧ Blocked host path s) := by
  have hcheck : Triple P (ensureNotDirectory host path) (fun _ => P)
      (fun _ s => P s ∧ Blocked host path s) := by
    refine (getMetadata_frame hP path).bind fun metadata => ?_
    intro s hs
    rw [if_neg (by simp [hs.2])]
    exact hs.1
  have hremove : Triple P (remove host path) (fun _ => Q)
      (fun _ s => P s ∧ Blocked host path s) :=
    (remove_triple hP.clock hQ).onError fun _ _ h => ⟨h.1, h.2.imp_right And.right⟩
  refine (withContext_triple hcheck context path).bind fun _ => ?_
  refine (withContext_triple hremove context path).attempt.bind fun r => ?_
  rcases r with e | ⟨⟩
  · refine (removeFailureWasSideEffectFree_frame (hP.blocked path) path expected).bind
      fun free => ?_
    refine .bind (Q := fun _ s => P s ∧ Blocked host path s) ?_ fun _ =>
      .throw fun _ h => h
    exact .update fun s hs => (hP.blocked path).keepExact free hs
  · exact .pure fun _ h => h

omit hP

/-! ### The step -/

/-- Nothing happened, except that the delta may have become inexact. -/
structure Unchanged (s t : PatchRun Uri Path) : Prop where
  files : t.files = s.files
  touched : t.touched = s.touched
  changes : t.changes = s.changes
  exact : t.exact = true → s.exact = true

/-- The files and the URIs touched after an effect. -/
structure Did (s : PatchRun Uri Path) (files : Path → Option Text) (uris : List Uri)
    (t : PatchRun Uri Path) : Prop where
  files : t.files = files
  touched : t.touched = s.touched ++ uris

/-- The delta, if it is still exact, got a change that says what happened. -/
def Logged (s t : PatchRun Uri Path) : Prop :=
  t.exact = true → s.exact = true ∧ ∃ c : AppliedPatchChange Path,
    t.changes = s.changes ++ [c] ∧ c.Records s.files ∧ c.replay s.files = t.files

/-- The delta, if it is still exact, got the change of a move. -/
def LoggedMove (path target : Path) (applied : AppliedPatch) (s t : PatchRun Uri Path) : Prop :=
  t.exact = true → s.exact = true ∧ ∃ overwritten, s.files target = overwritten ∧
    t.changes = s.changes ++
      [⟨path, .update (some target) applied.originalContents overwritten applied.newContents⟩]

/-- What prevents a hunk from being applied. -/
inductive Obstacle (host : Host Uri Path) (cwd : Uri) (files : Path → Option Text) :
    Hunk → Prop where
  | fault {hunk : Hunk} {n : ℕ} (hfault : host.fault n ≠ .none) : Obstacle host cwd files hunk
  | source {hunk : Hunk} {e : PathUriParseError}
      (hsource : host.join cwd hunk.sourcePath = .error e) : Obstacle host cwd files hunk
  | target {hunk : Hunk} {dest : Text} {e : PathUriParseError} (hdest : hunk.movePath = some dest)
      (htarget : host.join cwd dest = .error e) : Obstacle host cwd files hunk
  | missing {hunk : Hunk} {path : Uri} (hsource : host.join cwd hunk.sourcePath = .ok path)
      (hadd : ∀ p contents, hunk ≠ .addFile p contents)
      (hmissing : files (host.toPathBuf path) = none) : Obstacle host cwd files hunk
  | mismatch {p : Text} {movePath : Option Text} {chunks : List UpdateFileChunk} {path : Uri}
      {content : Text} {e : ApplyPatchError} (hsource : host.join cwd p = .ok path)
      (hcontent : files (host.toPathBuf path) = some content)
      (hmismatch : deriveNewContents (host.nativePathString path) content chunks = .error e) :
      Obstacle host cwd files (.updateFile p movePath chunks)

/-- The ways in which a hunk is applied (`true`) or fails (`false`). -/
inductive HunkStep (host : Host Uri Path) (cwd : Uri) :
    Hunk → PatchRun Uri Path → Bool → PatchRun Uri Path → Prop where
  | failed {hunk : Hunk} {s t : PatchRun Uri Path} (hunchanged : Unchanged s t)
      (hcause : Obstacle host cwd s.files hunk) : HunkStep host cwd hunk s false t
  | added {p contents : Text} {path : Uri} {s t : PatchRun Uri Path}
      (hpath : host.join cwd p = .ok path)
      (hdid : Did s (Function.update s.files (host.toPathBuf path) (some contents)) [path] t)
      (hlog : Logged s t) : HunkStep host cwd (.addFile p contents) s true t
  | deleted {p : Text} {path : Uri} {s t : PatchRun Uri Path} (hpath : host.join cwd p = .ok path)
      (hfound : s.files (host.toPathBuf path) ≠ none)
      (hdid : Did s (Function.update s.files (host.toPathBuf path) none) [path] t)
      (hlog : Logged s t) : HunkStep host cwd (.deleteFile p) s true t
  | updated {p : Text} {chunks : List UpdateFileChunk} {path : Uri} {applied : AppliedPatch}
      {s t : PatchRun Uri Path} (hpath : host.join cwd p = .ok path)
      (hfound : s.files (host.toPathBuf path) = some applied.originalContents)
      (happlied : deriveNewContents (host.nativePathString path) applied.originalContents chunks =
        .ok applied)
      (hdid : Did s (Function.update s.files (host.toPathBuf path) (some applied.newContents))
        [path] t)
      (hlog : Logged s t) : HunkStep host cwd (.updateFile p none chunks) s true t
  | moved {p dest : Text} {chunks : List UpdateFileChunk} {path target : Uri}
      {applied : AppliedPatch} {s t : PatchRun Uri Path} (hpath : host.join cwd p = .ok path)
      (htarget : host.join cwd dest = .ok target)
      (hfound : s.files (host.toPathBuf path) = some applied.originalContents)
      (happlied : deriveNewContents (host.nativePathString path) applied.originalContents chunks =
        .ok applied)
      (hdid : Did s (Function.update (Function.update s.files (host.toPathBuf target)
        (some applied.newContents)) (host.toPathBuf path) none) [target, path] t)
      (hlog : LoggedMove (host.toPathBuf path) (host.toPathBuf target) applied s t) :
      HunkStep host cwd (.updateFile p (some dest) chunks) s true t
  /-- The destination was written, and the source could not be removed. -/
  | halfMoved {p dest : Text} {chunks : List UpdateFileChunk} {target : Uri} {contents : Text}
      {s t : PatchRun Uri Path} {n : ℕ} (hfault : host.fault n ≠ .none)
      (htarget : host.join cwd dest = .ok target)
      (hdid : Did s (Function.update s.files (host.toPathBuf target) (some contents)) [target] t)
      (hlog : Logged s t) : HunkStep host cwd (.updateFile p (some dest) chunks) s false t

variable {files : Path → Option Text} {uris : List Uri} {t : PatchRun Uri Path}

section

variable {s : PatchRun Uri Path}

omit [DecidableEq Path] in
lemma frame_unchanged (s : PatchRun Uri Path) : Frame (Unchanged s) :=
  ⟨fun _ _ h => ⟨h.files, h.touched, h.changes, h.exact⟩,
    fun _ h => ⟨h.files, h.touched, h.changes, by simp⟩⟩

/-- A write or a removal was made of a state in which `φ` is known if the delta is exact. -/
structure Pending (s : PatchRun Uri Path) (files : Path → Option Text) (uris : List Uri)
    (changes : List (AppliedPatchChange Path)) (φ : Prop) (t : PatchRun Uri Path) : Prop where
  did : Did s files uris t
  changes : t.changes = s.changes ++ changes
  exact : t.exact = true → s.exact = true ∧ φ

omit [DecidableEq Path] in
lemma frame_pending (s : PatchRun Uri Path) (files : Path → Option Text) (uris : List Uri)
    (changes : List (AppliedPatchChange Path)) (φ : Prop) :
    Frame (Pending s files uris changes φ) :=
  ⟨fun _ _ h => ⟨⟨h.did.files, h.did.touched⟩, h.changes, h.exact⟩,
    fun _ h => ⟨⟨h.did.files, h.did.touched⟩, h.changes, by simp⟩⟩

/-- A change that was recorded and is true. -/
lemma Pending.logged {c : AppliedPatchChange Path} (h : Pending s files uris [c] φ t)
    (hrecords : φ → c.Records s.files) (hreplay : c.replay s.files = files) : Logged s t := by
  intro hexact
  obtain ⟨hs, hφ⟩ := h.exact hexact
  exact ⟨hs, c, h.changes, hrecords hφ, hreplay.trans h.did.files.symm⟩

omit [DecidableEq Path] in
lemma pushChange_pending (c : AppliedPatchChange Path) :
    Triple (Pending s files uris [] φ) (pushChange c : Fs Uri Path ε Unit)
      (fun _ => Pending s files uris [c] φ) E :=
  .update fun t ht => ⟨⟨ht.did.files, ht.did.touched⟩, by simp [ht.changes], ht.exact⟩

/-- What was known of an unchanged state is known of the state that a write starts from. -/
lemma Unchanged.wrote (h : Unchanged s t) (path : Uri) (contents : Text) (hφ : t.exact = true → φ) :
    Pending s (Function.update s.files (host.toPathBuf path) (some contents)) [path] [] φ
      (wrote host path contents t) :=
  ⟨⟨by simp [ApplyPatch.wrote, h.files], by simp [ApplyPatch.wrote, h.touched]⟩,
    by simp [ApplyPatch.wrote, h.changes], fun hexact => ⟨h.exact hexact, hφ hexact⟩⟩

/-- A removal after other effects. -/
lemma Pending.removed
    {changes : List (AppliedPatchChange Path)} (h : Pending s files uris changes φ t) (path : Uri) :
    Pending s (Function.update files (host.toPathBuf path) none) (uris ++ [path]) changes φ
      (removed host path t) :=
  ⟨⟨by simp [ApplyPatch.removed, h.did.files], by simp [ApplyPatch.removed, h.did.touched]⟩,
    h.changes, h.exact⟩

omit [DecidableEq Path] in
lemma Unchanged.pending (h : Unchanged s t)
    (hφ : t.exact = true → φ) : Pending s s.files [] [] φ t :=
  ⟨⟨h.files, by simp [h.touched]⟩, by simp [h.changes], fun hexact => ⟨h.exact hexact, hφ hexact⟩⟩

/-- The file that is written is read for the delta first. -/
lemma readAndWrite_step (path : Uri) (contents : Text) {β : Type}
    {f : Option Text → Fs Uri Path ApplyPatchError β} {R : β → PatchRun Uri Path → Prop}
    {E : ApplyPatchError → PatchRun Uri Path → Prop}
    (hE : ∀ e t, (Unchanged s t ∧ ∃ n, host.fault n ≠ .none) → E e t)
    (h : ∀ overwritten, Triple
      (Pending s (Function.update s.files (host.toPathBuf path) (some contents)) [path] []
        (s.files (host.toPathBuf path) = overwritten)) (f overwritten) R E) :
    Triple (Unchanged s)
      (do
        let overwritten ← readOptionalFileTextForDelta host path
        tryWrite (writeFileWithMissingParentRetry host path contents)
        f overwritten) R E := by
  refine (readOptionalFileTextForDelta_frame (frame_unchanged s) path).bind fun overwritten => ?_
  have hframe : Frame fun t => Unchanged s t ∧
      (t.exact = true → t.files (host.toPathBuf path) = overwritten) :=
    ⟨fun t n ht => ⟨(frame_unchanged s).clock t n ht.1, ht.2⟩,
      fun t ht => ⟨(frame_unchanged s).inexact t ht.1, by simp⟩⟩
  refine .bind (tryWrite_frame hframe (writeFileWithMissingParentRetry_frame hframe
    fun t ht => ht.1.wrote path contents fun hexact => ?_) |>.onError
      fun e t ht => hE e t ⟨ht.1.1, ht.2⟩) fun _ => h overwritten
  rw [← ht.1.files]
  exact ht.2 hexact

lemma applyAdd_step (path : Uri) (contents : Text) :
    Triple (Unchanged s) (applyAdd host path contents)
      (fun _ t => Did s (Function.update s.files (host.toPathBuf path) (some contents)) [path] t ∧
        Logged s t) (fun _ t => Unchanged s t ∧ ∃ n, host.fault n ≠ .none) := by
  refine readAndWrite_step path contents (fun _ _ h => h) fun overwritten => ?_
  refine (pushChange_pending _).post fun _ t ht => ⟨ht.did, ?_⟩
  exact ht.logged (fun h => h) rfl

lemma applyDelete_step (path : Uri) : Triple (Unchanged s) (applyDelete host path)
      (fun _ t => s.files (host.toPathBuf path) ≠ none ∧
        Did s (Function.update s.files (host.toPathBuf path) none) [path] t ∧ Logged s t)
      (fun _ t => Unchanged s t ∧ Blocked host path t) := by
  refine (noteExistingPathDeltaSupport_frame (frame_unchanged s) path).bind fun _ => ?_
  refine (readFileText_frame (frame_unchanged s) path).attempt.bind fun r => ?_
  rcases r with e | content
  · -- the content is not known: nothing is recorded, and the delta is inexact
    have hinexact : Triple (fun t => Unchanged s t ∧ Blocked host path t)
        (setInexactIf ((none : Option Text) = none) : Fs Uri Path ApplyPatchError Unit)
        (fun _ t => Unchanged s t ∧ t.exact = false)
        (fun _ t => Unchanged s t ∧ Blocked host path t) := by
      exact (setInexact_frame (frame_unchanged s)).pre fun _ h => h.1
    have hframe : Frame fun t : PatchRun Uri Path => Unchanged s t ∧ t.exact = false :=
      ⟨fun t n ht => ⟨(frame_unchanged s).clock t n ht.1, ht.2⟩,
        fun t ht => ⟨(frame_unchanged s).inexact t ht.1, rfl⟩⟩
    refine hinexact.bind fun _ => ?_
    refine ((removeChecked_frame hframe none deleteContext fun t ht hfound => ?_).onError
      fun _ _ h => ⟨h.1.1, h.2⟩).bind fun _ =>
        .pure fun _ h => h
    have hpending : Pending s (Function.update s.files (host.toPathBuf path) none) [path] [] False
        (removed host path t) :=
      (ht.1.pending fun hexact => by simp [ht.2] at hexact).removed path
    exact ⟨by rwa [← ht.1.files], hpending.did, fun hexact => (hpending.exact hexact).2.elim⟩
  · have hkeep : Triple (fun t => Unchanged s t ∧ t.files (host.toPathBuf path) = some content)
        (setInexactIf (some content = none) : Fs Uri Path ApplyPatchError Unit)
        (fun _ t => s.files (host.toPathBuf path) = some content ∧ Unchanged s t)
        (fun _ t => Unchanged s t ∧ Blocked host path t) := by
      exact .pure fun t ht => ⟨by rw [← ht.1.files, ht.2], ht.1⟩
    refine hkeep.bind fun _ => .assume fun hcontent => ?_
    refine (removeChecked_frame (frame_unchanged s) (some content) deleteContext
      fun t ht _ => (ht.pending fun _ => trivial).removed path).bind fun _ => ?_
    refine (pushChange_pending _).post fun _ t ht => ⟨by simp [hcontent], ht.did, ?_⟩
    exact ht.logged (fun _ => hcontent) rfl

lemma applyInPlace_step {applied : AppliedPatch}
    (hfound : s.files (host.toPathBuf path) = some applied.originalContents) :
    Triple (Unchanged s) (applyInPlace host path applied)
      (fun _ t => Did s (Function.update s.files (host.toPathBuf path)
        (some applied.newContents)) [path] t ∧ Logged s t)
      (fun _ t => Unchanged s t ∧ ∃ n, host.fault n ≠ .none) := by
  have hwrite : Triple (Unchanged s) (writeFile host path applied.newContents)
      (fun _ => Pending s (Function.update s.files (host.toPathBuf path)
        (some applied.newContents)) [path] [] True)
      (fun _ t => Unchanged s t ∧ ∃ n, host.fault n ≠ .none) :=
    writeFile_triple (frame_unchanged s).clock fun t ht => ht.wrote path _ fun _ => trivial
  refine (tryWrite_frame (frame_unchanged s)
    (withContext_triple hwrite writeContext path)).bind fun _ => ?_
  refine (pushChange_pending _).post fun _ t ht => ⟨ht.did, ?_⟩
  exact ht.logged (fun _ => hfound) rfl

/-- The destination is written, and the source is removed unless that fails. -/
lemma applyMove_step {target : Uri} {applied : AppliedPatch}
    (hfound : s.files (host.toPathBuf path) = some applied.originalContents) :
    Triple (Unchanged s) (applyMove host path target applied)
      (fun _ t => Did s (Function.update (Function.update s.files (host.toPathBuf target)
          (some applied.newContents)) (host.toPathBuf path) none) [target, path] t ∧
        LoggedMove (host.toPathBuf path) (host.toPathBuf target) applied s t)
      (fun _ t => (Unchanged s t ∨ Did s (Function.update s.files (host.toPathBuf target)
          (some applied.newContents)) [target] t ∧ Logged s t) ∧ ∃ n, host.fault n ≠ .none) := by
  refine readAndWrite_step target applied.newContents (fun _ _ h => ⟨.inl h.1, h.2⟩)
    fun overwritten => ?_
  refine (Triple.inspect (Q := fun index t => index = s.changes.length ∧ Pending s _ _ _ _ t)
    fun t ht => ⟨by simp [ht.changes], ht⟩).bind fun index => .assume fun hindex => ?_
  refine (pushChange_pending _).bind fun _ => ?_
  refine ((removeChecked_frame (frame_pending s _ _ _ _) _ removeOriginalContext
    fun t ht _ => ht.removed path).onError fun _ t ht => ?_).bind fun _ => ?_
  · -- the source was there, so it is a failure that left it
    refine ⟨.inr ⟨ht.1.did, ht.1.logged (fun h => h) rfl⟩, ht.2.resolve_left fun hnone => ?_⟩
    rw [ht.1.did.files] at hnone
    by_cases hsame : host.toPathBuf path = host.toPathBuf target
    · simp [hsame] at hnone
    · rw [Function.update_of_ne hsame, hfound] at hnone
      exact Option.some_ne_none _ hnone
  · -- the source is gone: the addition becomes an update with a destination
    refine .update fun t ht => ⟨⟨ht.did.files, ht.did.touched⟩, fun hexact => ?_⟩
    obtain ⟨hs, hdest⟩ := ht.exact hexact
    exact ⟨hs, overwritten, hdest, by simp [ht.changes, hindex]⟩

lemma applyUpdate_step {cwd : Uri} {p : Text} (hpath : host.join cwd p = .ok path)
    (movePath : Option Text) (chunks : List UpdateFileChunk) :
    Triple (Unchanged s) (applyUpdate host cwd path movePath chunks)
      (fun _ => HunkStep host cwd (.updateFile p movePath chunks) s true)
      (fun _ => HunkStep host cwd (.updateFile p movePath chunks) s false) := by
  refine (noteExistingPathDeltaSupport_frame (frame_unchanged s) path).bind fun _ => ?_
  refine .bind ((deriveNewContentsFromChunks_frame (frame_unchanged s) path chunks).onError
    fun _ t ht => ?_) fun applied => ?_
  · obtain ⟨hunchanged, (hnone | ⟨n, hfault⟩) | ⟨content, e, hcontent, hmismatch⟩⟩ := ht
    · exact .failed hunchanged (.missing hpath (by simp) (by rw [← hunchanged.files, hnone]))
    · exact .failed hunchanged (.fault hfault)
    · exact .failed hunchanged (.mismatch hpath (by rw [← hunchanged.files, hcontent]) hmismatch)
  have hknown : ∀ t : PatchRun Uri Path, (Unchanged s t ∧
      t.files (host.toPathBuf path) = some applied.originalContents) ∧
        deriveNewContents (host.nativePathString path) applied.originalContents chunks =
          .ok applied →
      (s.files (host.toPathBuf path) = some applied.originalContents ∧
        deriveNewContents (host.nativePathString path) applied.originalContents chunks =
          .ok applied) ∧ Unchanged s t :=
    fun t ht => ⟨⟨by rw [← ht.1.1.files, ht.1.2], ht.2⟩, ht.1.1⟩
  refine Triple.mono (Triple.assume fun hderived => ?_) hknown (fun _ _ h => h) fun _ _ h => h
  obtain ⟨hfound, happlied⟩ := hderived
  cases movePath with
  | none =>
    refine (applyInPlace_step hfound).mono (fun _ h => h)
      (fun _ t ht => .updated hpath hfound happlied ht.1 ht.2) fun _ t ht => ?_
    obtain ⟨hunchanged, n, hfault⟩ := ht
    exact .failed hunchanged (.fault hfault)
  | some dest =>
    refine .bind ((resolve_frame cwd dest).onError fun _ t ht => ?_)
      fun target => .assume fun htarget => ?_
    · obtain ⟨⟨e, he⟩, hunchanged⟩ := ht
      exact .failed hunchanged (.target rfl he)
    · refine (applyMove_step hfound).mono (fun _ h => h)
        (fun _ t ht => .moved hpath htarget hfound happlied ht.1 ht.2) fun _ t ht => ?_
      obtain ⟨hunchanged | ⟨hdid, hlog⟩, n, hfault⟩ := ht
      · exact .failed hunchanged (.fault hfault)
      · exact .halfMoved hfault htarget hdid hlog

/-- **The application of a hunk is one of the steps**, whatever operations fail. -/
theorem applyHunk_step (host : Host Uri Path) (cwd : Uri) (affected : AffectedPaths) (hunk : Hunk)
    (s : PatchRun Uri Path) : Triple (Unchanged s) (applyHunk host cwd affected hunk)
      (fun _ => HunkStep host cwd hunk s true) (fun _ => HunkStep host cwd hunk s false) := by
  refine .bind ((resolve_frame cwd hunk.sourcePath).onError fun _ t ht => ?_)
    fun path => .assume fun hpath => ?_
  · obtain ⟨⟨e, he⟩, hunchanged⟩ := ht
    exact .failed hunchanged (.source he)
  cases hunk with
  | addFile p contents =>
    refine .bind ((applyAdd_step path contents).mono (fun _ h => h)
      (fun _ t ht => HunkStep.added hpath ht.1 ht.2) fun _ t ht => ?_) fun _ =>
        .pure fun _ h => h
    obtain ⟨hunchanged, n, hfault⟩ := ht
    exact .failed hunchanged (.fault hfault)
  | deleteFile p =>
    refine .bind ((applyDelete_step path).mono (fun _ h => h)
      (fun _ t ht => HunkStep.deleted hpath ht.1 ht.2.1 ht.2.2) fun _ t ht => ?_) fun _ =>
        .pure fun _ h => h
    obtain ⟨hunchanged, hnone | ⟨n, hfault⟩⟩ := ht
    · exact .failed hunchanged (.missing hpath (by simp) (by rw [← hunchanged.files, hnone]))
    · exact .failed hunchanged (.fault hfault)
  | updateFile p movePath chunks =>
    exact (applyUpdate_step hpath movePath chunks).bind fun _ => .pure fun _ h => h

end

/-! ### Runs -/

/-- The hunks are applied one after the other, up to the first that fails. -/
inductive HunkRun (host : Host Uri Path) (cwd : Uri) :
    List Hunk → PatchRun Uri Path → Bool → PatchRun Uri Path → Prop where
  | done {s : PatchRun Uri Path} : HunkRun host cwd [] s true s
  | next {hunk : Hunk} {hunks : List Hunk} {s t u : PatchRun Uri Path} {ok : Bool}
      (hstep : HunkStep host cwd hunk s true t) (hrest : HunkRun host cwd hunks t ok u) :
      HunkRun host cwd (hunk :: hunks) s ok u
  | stop {hunk : Hunk} {hunks : List Hunk} {s t : PatchRun Uri Path}
      (hstep : HunkStep host cwd hunk s false t) : HunkRun host cwd (hunk :: hunks) s false t

omit [DecidableEq Path] in
lemma Unchanged.refl (s : PatchRun Uri Path) : Unchanged s s := ⟨rfl, rfl, rfl, fun h => h⟩

variable (host) (cwd : Uri)

lemma foldlM_applyHunk_run (hunks : List Hunk) (affected : AffectedPaths) (s : PatchRun Uri Path) :
    HunkRun host cwd hunks s ((hunks.foldlM (applyHunk host cwd) affected).exec s).1.isOk
      ((hunks.foldlM (applyHunk host cwd) affected).exec s).2 := by
  induction hunks generalizing affected s with
  | nil => exact .done
  | cons hunk hunks ih =>
    have hstep := applyHunk_step host cwd affected hunk s
    rw [List.foldlM_cons]
    rcases hexec : (applyHunk host cwd affected hunk).exec s with ⟨e | affected', t⟩
    · rw [exec_bind_error hexec]
      exact .stop (hstep.error (.refl s) hexec)
    · rw [exec_bind_ok hexec]
      exact .next (hstep.ok (.refl s) hexec) (ih affected' t)

/-- **Every application is a run of steps.**  Without hunks it fails, and nothing happens. -/
theorem applyHunksToFiles_run (hhunks : hunks ≠ []) (s : PatchRun Uri Path) :
    HunkRun host cwd hunks s ((applyHunksToFiles host cwd hunks).exec s).1.isOk
      ((applyHunksToFiles host cwd hunks).exec s).2 := by
  unfold applyHunksToFiles
  rw [if_neg hhunks]
  exact foldlM_applyHunk_run host cwd hunks _ s

variable {host}

variable {u : PatchRun Uri Path}

/-- A run that succeeds passes through every hunk. -/
lemma HunkRun.split {cwd : Uri} {before after : List Hunk} {hunk : Hunk}
    (h : HunkRun host cwd (before ++ hunk :: after) s true u) :
    ∃ t t', HunkRun host cwd before s true t ∧ HunkStep host cwd hunk t true t' ∧
      HunkRun host cwd after t' true u := by
  induction before generalizing s with
  | nil =>
    cases h with
    | next hstep hrest => exact ⟨_, _, .done, hstep, hrest⟩
  | cons first before ih =>
    cases h with
    | next hstep hrest =>
      obtain ⟨t, t', hbefore, hhunk, hafter⟩ := ih hrest
      exact ⟨t, t', .next hstep hbefore, hhunk, hafter⟩

/-- A run that fails ends at a hunk that fails. -/
lemma HunkRun.stopped {cwd : Uri} (h : HunkRun host cwd hunks s false u) :
    ∃ before hunk after t, hunks = before ++ hunk :: after ∧ HunkRun host cwd before s true t ∧
      HunkStep host cwd hunk t false u := by
  generalize hok : false = ok at h
  induction h with
  | done => cases hok
  | next hstep hrest ih =>
    obtain ⟨before, hunk, after, t, rfl, hbefore, hhunk⟩ := ih hok
    exact ⟨_ :: before, hunk, after, t, rfl, .next hstep hbefore, hhunk⟩
  | stop hstep => exact ⟨[], _, _, _, rfl, .done, hstep⟩

end

end TokenCode.ApplyPatch
