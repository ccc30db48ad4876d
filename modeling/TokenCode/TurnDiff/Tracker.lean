/-
The tracker of the net diff of a turn (`core/src/turn_diff_tracker.rs`).

The tracker never reads a file: it takes the deltas of the applied patches, keeps for every path
the content from before the turn and the present one, and renders the difference after every
delta. The diff of two texts, the object id of a blob and the display of a path come from other
crates and are parameters.
-/
import TokenCode.ApplyPatch.Replay
import TokenCode.Lib.Maps

namespace TokenCode.TurnDiff

open ApplyPatch Text

structure TrackedContent where
  content : Text
  revision : ℕ
deriving DecidableEq, Repr

structure TrackedPath (Path : Type) where
  environmentId : Text
  path : Path
deriving DecidableEq, Repr

structure DiffCacheKey (Path : Type) where
  leftPath : TrackedPath Path
  leftRevision : Option ℕ
  rightPath : TrackedPath Path
  rightRevision : Option ℕ
deriving DecidableEq, Repr

/-- The contents of paths. -/
abbrev Contents (Path : Type) := AList fun _ : TrackedPath Path => TrackedContent

structure TurnDiffTracker (Path : Type) where
  valid : Bool
  displayRootsByEnvironment : AList fun _ : Text => Path
  baselineByPath : Contents Path
  currentByPath : Contents Path
  originByCurrentPath : AList fun _ : TrackedPath Path => TrackedPath Path
  nextRevision : ℕ
  renderedDiffs : AList fun _ : DiffCacheKey Path => Option Text
  unifiedDiff : Option Text

/-- What is taken from other crates. -/
structure DiffLibrary (Path : Type) where
  /-- `Path::strip_prefix`, of a path and a root. -/
  relativeTo : Path → Path → Option Path
  /-- `Path::display`. -/
  display : Path → Text
  /-- `git_blob_oid`. -/
  gitBlobOid : Text → Text
  /-- The unified diff under two headers. -/
  unifiedDiff : Text → Text → Text → Text → Text

namespace TurnDiffTracker

/-- `new`. -/
def new {Path : Type} : TurnDiffTracker Path :=
  ⟨true, ∅, ∅, ∅, ∅, 0, ∅, none⟩

variable {Path : Type} [DecidableEq Path]

/-- `with_environment_display_roots`. -/
def withEnvironmentDisplayRoots (displayRoots : List (Text × Path)) : TurnDiffTracker Path :=
  { new with displayRootsByEnvironment := insertAll displayRoots ∅ }

/-! ### Changes -/

/-- Insert a content, under the next revision, as the baseline of a path. -/
def insertBaseline (path : TrackedPath Path) (content : Text) (t : TurnDiffTracker Path) :
    TurnDiffTracker Path :=
  { t with
    baselineByPath := t.baselineByPath.insert path ⟨content, t.nextRevision⟩
    nextRevision := t.nextRevision + 1 }

/-- Insert a content, under the next revision, as the current one of a path. -/
def insertCurrent (path : TrackedPath Path) (content : Text) (t : TurnDiffTracker Path) :
    TurnDiffTracker Path :=
  { t with
    currentByPath := t.currentByPath.insert path ⟨content, t.nextRevision⟩
    nextRevision := t.nextRevision + 1 }

/-- The baseline of a path that is seen for the first time, if there was a file. -/
def captureBaseline (path : TrackedPath Path) (content : Option Text) (t : TurnDiffTracker Path) :
    TurnDiffTracker Path :=
  match content with
  | some content =>
    if path ∉ t.currentByPath ∧ path ∉ t.baselineByPath then t.insertBaseline path content else t
  | none => t

def removeOrigin (path : TrackedPath Path) (t : TurnDiffTracker Path) : TurnDiffTracker Path :=
  { t with originByCurrentPath := t.originByCurrentPath.erase path }

def removeCurrent (path : TrackedPath Path) (t : TurnDiffTracker Path) : TurnDiffTracker Path :=
  { t with currentByPath := t.currentByPath.erase path }

/-- `apply_add`. -/
def applyAdd (path : TrackedPath Path) (content : Text) (overwrittenContent : Option Text)
    (t : TurnDiffTracker Path) : TurnDiffTracker Path :=
  ((t.removeOrigin path).captureBaseline path overwrittenContent).insertCurrent path content

/-- `apply_delete`: the removal from the current contents tells whether there was one. -/
def applyDelete (path : TrackedPath Path) (content : Text) (t : TurnDiffTracker Path) :
    TurnDiffTracker Path :=
  let removed := t.removeCurrent path
  let captured :=
    if t.currentByPath.lookup path = none ∧ path ∉ removed.baselineByPath then
      removed.insertBaseline path content
    else removed
  captured.removeOrigin path

/-- The origin of a moved file: where the file itself came from, or its path. -/
def originOf (path : TrackedPath Path) (t : TurnDiffTracker Path) : TrackedPath Path :=
  (t.originByCurrentPath.lookup path).getD path

/-- The move of `apply_update`. -/
def applyMove (source dest : TrackedPath Path) (overwrittenMoveContent : Option Text)
    (newContent : Text) (t : TurnDiffTracker Path) : TurnDiffTracker Path :=
  let t := t.captureBaseline dest overwrittenMoveContent
  let origin := t.originOf source
  let t := (((t.removeOrigin source).removeCurrent source).insertCurrent dest
    newContent).removeOrigin dest
  if dest ≠ origin then
    { t with originByCurrentPath := t.originByCurrentPath.insert dest origin }
  else t

/-- `apply_update`. -/
def applyUpdate (source : TrackedPath Path) (movePath : Option (TrackedPath Path))
    (oldContent : Text) (overwrittenMoveContent : Option Text) (newContent : Text)
    (t : TurnDiffTracker Path) : TurnDiffTracker Path :=
  let t := t.captureBaseline source (some oldContent)
  match movePath with
  | some dest => t.applyMove source dest overwrittenMoveContent newContent
  | none => t.insertCurrent source newContent

/-- `apply_change`. -/
def applyChange (environmentId : Text) (t : TurnDiffTracker Path) (c : AppliedPatchChange Path) :
    TurnDiffTracker Path :=
  let source := ⟨environmentId, c.path⟩
  match c.change with
  | .add content overwrittenContent => t.applyAdd source content overwrittenContent
  | .delete content => t.applyDelete source content
  | .update movePath oldContent overwrittenMoveContent newContent =>
    t.applyUpdate source (movePath.map fun path => ⟨environmentId, path⟩) oldContent
      overwrittenMoveContent newContent

/-! ### Rendering -/

def zeroOid : Text := "0000000000000000000000000000000000000000".toList
def devNull : Text := "/dev/null".toList
def regularFileMode : Text := "100644".toList

variable (lib : DiffLibrary Path)

/-- `display_path`. -/
def displayPath (t : TurnDiffTracker Path) (path : TrackedPath Path) : Text :=
  let shown := ((t.displayRootsByEnvironment.lookup path.environmentId).bind
    (lib.relativeTo path.path)).getD path.path
  let display := (lib.display shown).map fun c => if c = '\\' then '/' else c
  if t.displayRootsByEnvironment.keys.length > 1 ∧ path.environmentId ≠ [] then
    path.environmentId ++ "/".toList ++ display
  else display

/-- The line that says whether a file was created or deleted. -/
def modeLine (left right : Option Text) : Text :=
  match left, right with
  | none, some _ => "new file mode ".toList ++ regularFileMode ++ "\n".toList
  | some _, none => "deleted file mode ".toList ++ regularFileMode ++ "\n".toList
  | _, _ => []

/-- `render_diff`. -/
def renderDiff (t : TurnDiffTracker Path) (leftPath : TrackedPath Path) (left : Option Text)
    (rightPath : TrackedPath Path) (right : Option Text) : Option Text :=
  if left = right then none
  else
    let leftDisplay := t.displayPath lib leftPath
    let rightDisplay := t.displayPath lib rightPath
    let oid (content : Option Text) := (content.map lib.gitBlobOid).getD zeroOid
    let oldHeader := if left.isSome then "a/".toList ++ leftDisplay else devNull
    let newHeader := if right.isSome then "b/".toList ++ rightDisplay else devNull
    some ("diff --git a/".toList ++ leftDisplay ++ " b/".toList ++ rightDisplay ++ "\n".toList ++
      modeLine left right ++ "index ".toList ++ oid left ++ "..".toList ++ oid right ++
      "\n".toList ++ lib.unifiedDiff oldHeader newHeader (left.getD []) (right.getD []))

/-- `rename_pairs`, from origins to destinations. -/
def renamePairs (t : TurnDiffTracker Path) :
    AList fun _ : TrackedPath Path => TrackedPath Path :=
  insertAll (t.originByCurrentPath.entries.filterMap fun entry =>
    if entry.1 = entry.2 ∨ entry.2 ∈ t.currentByPath ∨ entry.1 ∉ t.currentByPath ∨
        entry.2 ∉ t.baselineByPath ∨ entry.1 ∈ t.baselineByPath then none
    else some (entry.2, entry.1)) ∅

/-- The variables of the loop of `refresh_unified_diff`. -/
structure Refresh (Path : Type) [DecidableEq Path] where
  handled : List (TrackedPath Path)
  previousDiffs : AList fun _ : DiffCacheKey Path => Option Text
  renderedDiffs : AList fun _ : DiffCacheKey Path => Option Text
  aggregated : Text

/-- A rendered diff is put at the end, and ends in a newline. -/
def aggregate (aggregated : Text) : Option Text → Text
  | none => aggregated
  | some diff =>
    if (aggregated ++ diff).getLast? = some '\n' then aggregated ++ diff
    else aggregated ++ diff ++ ['\n']

/-- The body of the loop for a pair of paths: the rendering is taken from the cache or made. -/
def refreshPair (t : TurnDiffTracker Path) (leftPath rightPath : TrackedPath Path)
    (r : Refresh Path) : Refresh Path :=
  let left := t.baselineByPath.lookup leftPath
  let right := t.currentByPath.lookup rightPath
  let key : DiffCacheKey Path :=
    ⟨leftPath, left.map (·.revision), rightPath, right.map (·.revision)⟩
  let rendered := (r.previousDiffs.lookup key).getD
    (t.renderDiff lib leftPath (left.map (·.content)) rightPath (right.map (·.content)))
  { r with
    previousDiffs := r.previousDiffs.erase key
    renderedDiffs := r.renderedDiffs.insert key rendered
    aggregated := aggregate r.aggregated rendered }

/-- The body of the loop: a path is handled once, and not at all as the destination of a rename. -/
def refreshPath (t : TurnDiffTracker Path) (r : Refresh Path) (path : TrackedPath Path) :
    Refresh Path :=
  if path ∈ r.handled then r
  else
    let r := { r with handled := path :: r.handled }
    if path ∈ t.renamePairs.entries.map (·.2) then r
    else
      match t.renamePairs.lookup path with
      | some dest => t.refreshPair lib path dest { r with handled := dest :: r.handled }
      | none => t.refreshPair lib path path r

/-- The paths in the order of their display. -/
def sortedPaths (t : TurnDiffTracker Path) : List (TrackedPath Path) :=
  ((t.baselineByPath.keys ++ t.currentByPath.keys).mergeSort fun p q =>
    t.displayPath lib p ≤ t.displayPath lib q).destutter (· ≠ ·)

/-- `refresh_unified_diff`. -/
def refreshUnifiedDiff (t : TurnDiffTracker Path) : TurnDiffTracker Path :=
  let r := (t.sortedPaths lib).foldl (t.refreshPath lib) ⟨[], t.renderedDiffs, ∅, []⟩
  { t with
    renderedDiffs := r.renderedDiffs
    unifiedDiff := if r.aggregated = [] then none else some r.aggregated }

/-! ### Deltas -/

omit [DecidableEq Path] in
/-- `invalidate`. -/
def invalidate (t : TurnDiffTracker Path) : TurnDiffTracker Path :=
  { t with valid := false, renderedDiffs := ∅, unifiedDiff := none }

/-- `track_delta`. -/
def trackDelta (environmentId : Text) (delta : AppliedPatchDelta Path)
    (t : TurnDiffTracker Path) : TurnDiffTracker Path :=
  if !t.valid then t
  else if !delta.exact then t.invalidate
  else (delta.changes.foldl (applyChange environmentId) t).refreshUnifiedDiff lib

end TurnDiffTracker

end TokenCode.TurnDiff
