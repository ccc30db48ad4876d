/-
The delta of an application as a log.

`replay` plays a list of changes on a file map, and `Truthful` says that every change records what
the files held just before it. A log is `Faithful` when it is truthful and leads from the initial
files to the present ones.
-/
import TokenCode.ApplyPatch.FileSystem

namespace TokenCode.ApplyPatch

open Text

/-- `AppliedPatchDelta`. -/
structure AppliedPatchDelta (Path : Type) where
  changes : List (AppliedPatchChange Path)
  exact : Bool
deriving DecidableEq, Repr

/-! ### Replaying changes -/

section

variable {Path : Type} [DecidableEq Path]

/-- The files after a recorded change. -/
def AppliedPatchChange.replay (c : AppliedPatchChange Path) (files : Path → Option Text) :
    Path → Option Text :=
  match c.change with
  | .add content _ => Function.update files c.path (some content)
  | .delete _ => Function.update files c.path none
  | .update none _ _ newContent => Function.update files c.path (some newContent)
  | .update (some dest) _ _ newContent =>
    Function.update (Function.update files c.path none) dest (some newContent)

/-- The change records what the files held. -/
def AppliedPatchChange.Records (c : AppliedPatchChange Path) (files : Path → Option Text) : Prop :=
  match c.change with
  | .add _ overwritten => files c.path = overwritten
  | .delete content => files c.path = some content
  | .update none oldContent _ _ => files c.path = some oldContent
  | .update (some dest) oldContent overwritten _ =>
    files c.path = some oldContent ∧ files dest = overwritten

/-- The files after a list of changes. -/
def replay (files : Path → Option Text) (changes : List (AppliedPatchChange Path)) :
    Path → Option Text :=
  changes.foldl (fun files c => c.replay files) files

/-- Every change records what the files held just before it. -/
def Truthful : (Path → Option Text) → List (AppliedPatchChange Path) → Prop
  | _, [] => True
  | files, c :: changes => c.Records files ∧ Truthful (c.replay files) changes

lemma replay_concat (files : Path → Option Text) (changes : List (AppliedPatchChange Path))
    (c : AppliedPatchChange Path) :
    replay files (changes ++ [c]) = c.replay (replay files changes) := by
  simp [replay]

variable {files : Path → Option Text}

lemma truthful_append {before after : List (AppliedPatchChange Path)} :
    Truthful files (before ++ after) ↔
      Truthful files before ∧ Truthful (replay files before) after := by
  induction before generalizing files with
  | nil => simp [Truthful, replay]
  | cons d before ih =>
    simp only [List.cons_append, Truthful, ih, and_assoc]
    rfl

variable {changes : List (AppliedPatchChange Path)} {c : AppliedPatchChange Path}

lemma truthful_concat :
    Truthful files (changes ++ [c]) ↔ Truthful files changes ∧ c.Records (replay files changes) := by
  rw [truthful_append]
  simp [Truthful]

/-- The log of changes is faithful: it is truthful and leads to the files. -/
def Faithful (initial files : Path → Option Text) (changes : List (AppliedPatchChange Path)) :
    Prop :=
  Truthful initial changes ∧ replay initial changes = files

/-- A change that records what is there and is applied keeps the log faithful. -/
lemma Faithful.concat {initial : Path → Option Text}
    (h : Faithful initial files changes) (hc : c.Records files) :
    Faithful initial (c.replay files) (changes ++ [c]) := by
  obtain ⟨htruthful, rfl⟩ := h
  exact ⟨truthful_concat.2 ⟨htruthful, hc⟩, replay_concat initial changes c⟩

end

end TokenCode.ApplyPatch
