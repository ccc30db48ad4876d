/-
Parsing a whole patch (`apply-patch/src/parser.rs`).

`parse_patch` trims the text, cuts it into lines, checks the first and the last line, joins the
lines again and hands the result to the streaming parser. The second half of the file describes
what the streaming parser does with a text in terms of its lines, which is how every proof about
the patch format reads it.
-/
import TokenCode.ApplyPatch.StreamingParser

namespace TokenCode.ApplyPatch

open Text

inductive ParseMode where
  | strict
  | lenient
deriving DecidableEq, Repr

/-- `check_start_and_end_lines_strict`. -/
def checkStartAndEndLinesStrict (firstLine lastLine : Option Text) : Except ParseError Unit :=
  match firstLine.map trim, lastLine.map trim with
  | some first, some last =>
    if first = beginPatchMarker ∧ last = endPatchMarker then .ok ()
    else if first ≠ beginPatchMarker then .error (.invalidPatchError firstLineMessage)
    else .error (.invalidPatchError lastLineMessage)
  | some first, none =>
    if first ≠ beginPatchMarker then .error (.invalidPatchError firstLineMessage)
    else .error (.invalidPatchError lastLineMessage)
  | none, _ => .error (.invalidPatchError lastLineMessage)

/-- `check_patch_boundaries_strict`. -/
def checkPatchBoundariesStrict (lines : List Text) : Except ParseError (List Text) := do
  checkStartAndEndLinesStrict lines.head? lines.getLast?
  return lines

/-- The lines that open a heredoc. -/
def heredocStart : List Text := ["<<EOF".toList, "<<'EOF'".toList, "<<\"EOF\"".toList]

/-- `check_patch_boundaries_lenient`: the patch may be wrapped in a heredoc, whose two lines are
dropped. -/
def checkPatchBoundariesLenient (originalLines : List Text) : Except ParseError (List Text) :=
  match checkPatchBoundariesStrict originalLines with
  | .ok lines => .ok lines
  | .error originalParseError =>
    match originalLines with
    | first :: second :: rest =>
      if first ∈ heredocStart ∧
          "EOF".toList <:+ ((second :: rest).getLast (List.cons_ne_nil second rest)) ∧
          4 ≤ originalLines.length then
        checkPatchBoundariesStrict (second :: rest).dropLast
      else .error originalParseError
    | _ => .error originalParseError

/-- `parse_patch_text`. -/
def parsePatchText (patch : Text) (mode : ParseMode) : Except ParseError ApplyPatchArgs := do
  let lines := lines (trim patch)
  let patchLines ← match mode with
    | .strict => checkPatchBoundariesStrict lines
    | .lenient => checkPatchBoundariesLenient lines
  let patch := joinNewline patchLines
  let pushed := StreamingPatchParser.pushDelta .default patch
  let _ ← pushed.2
  let finished := StreamingPatchParser.finish pushed.1
  let hunks ← finished.2
  return ⟨patch, hunks, none, finished.1.environmentId⟩

/-- `parse_patch`: `PARSE_IN_STRICT_MODE` is `false`. -/
def parsePatch (patch : Text) : Except ParseError ApplyPatchArgs := parsePatchText patch .lenient

/-! ### The streaming parser, line by line -/

variable {p : StreamingPatchParser}

namespace StreamingPatchParser

/-- The lines of a run, one after the other, up to the first error. -/
def runLines : StreamingPatchParser → List Text → StreamingPatchParser × Option ParseError :=
  steps runLine

variable (p)

@[simp] lemma nextLine_state : (nextLine p).state = p.state := rfl

/-- The line buffer is taken before a line is processed. -/
lemma runLine_withBuffer (b line : Text) :
    runLine { p with lineBuffer := b } line = runLine p line := rfl

variable {p}

lemma runLine_ok {line : Text} {st : StreamingParserState}
    (h : processLine (nextLine p) line = .ok st) :
    runLine p line = ({ nextLine p with state := st }, none) := by
  rw [runLine, h]

/-- A line that goes through is a line that `processLine` accepts. -/
lemma runLine_eq_ok {p' : StreamingPatchParser} {line : Text} (h : runLine p line = (p', none)) :
    ∃ st, processLine (nextLine p) line = .ok st ∧ p' = { nextLine p with state := st } := by
  unfold runLine at h
  rcases hl : processLine (nextLine p) line with e | st
  · rw [hl] at h
    simp at h
  · rw [hl] at h
    exact ⟨st, rfl, by simpa using h.symm⟩

variable (p)

lemma runLine_lineBuffer (line : Text) : (runLine p line).1.lineBuffer = [] := by
  unfold runLine
  split <;> rfl

/-- Characters other than a newline go to the line buffer. -/
lemma pushChars_of_not_mem {s : Text} (h : '\n' ∉ s) :
    pushChars p s = ({ p with lineBuffer := p.lineBuffer ++ s }, none) := by
  induction s generalizing p with
  | nil => simp [pushChars]
  | cons c s ih =>
    have hc : c ≠ '\n' := fun hc => h (by simp [hc])
    have hstep : pushChar p c = ({ p with lineBuffer := p.lineBuffer ++ [c] }, none) := by
      rw [pushChar, if_neg hc]
    have ih' := ih { p with lineBuffer := p.lineBuffer ++ [c] } fun hs => h (by simp [hs])
    rw [pushChars, steps_cons_ok hstep, ← pushChars, ih']
    simp

variable {p}

/-- **The loop of `push_delta`, line by line.**  Whole lines are processed without their carriage
return; what follows the last newline waits in the buffer. -/
lemma pushChars_unlines (hp : p.lineBuffer = []) {ls : List Text}
    (hls : ∀ l ∈ ls, '\n' ∉ l) {tail : Text} (htail : '\n' ∉ tail) :
    pushChars p (unlines ls ++ tail) =
      match runLines p (ls.map stripCr) with
      | (p', none) => ({ p' with lineBuffer := tail }, none)
      | (p', some e) => (p', some e) := by
  induction ls generalizing p with
  | nil =>
    simpa [unlines, runLines, hp] using pushChars_of_not_mem p htail
  | cons l ls ih =>
    have hl : '\n' ∉ l := hls l (by simp)
    have hls' : ∀ l' ∈ ls, '\n' ∉ l' := fun l' hl' => hls l' (by simp [hl'])
    have htext : unlines (l :: ls) ++ tail = l ++ '\n' :: (unlines ls ++ tail) := by
      simp [unlines]
    have hnl : pushChar { p with lineBuffer := p.lineBuffer ++ l } '\n' =
        runLine p (stripCr l) := by
      rw [pushChar, if_pos rfl, hp]
      exact runLine_withBuffer p _ _
    rw [htext, pushChars, steps_append_ok (pushChars_of_not_mem p hl)]
    rcases hrun : runLine p (stripCr l) with ⟨p', _ | e⟩
    · have hbuf : p'.lineBuffer = [] := by
        have h := runLine_lineBuffer p (stripCr l)
        rwa [hrun] at h
      rw [steps_cons_ok (hnl.trans hrun), ← pushChars, ih hbuf hls']
      simp [runLines, steps_cons_ok hrun]
    · rw [steps_cons_error (hnl.trans hrun)]
      simp [runLines, steps_cons_error hrun]

/-- `push_delta` of a whole text to a fresh parser. -/
lemma pushChars_default (t : Text) :
    pushChars default t =
      match runLines default ((cut t).1.map stripCr) with
      | (p', none) => ({ p' with lineBuffer := (cut t).2 }, none)
      | (p', some e) => (p', some e) := by
  obtain ⟨h1, h2⟩ := cut_no_newline t
  conv_lhs => rw [← unlines_cut t]
  exact pushChars_unlines rfl h1 h2

/-- A text goes through `push_delta` when its lines do. -/
lemma pushChars_default_eq_ok {t : Text} (h : pushChars default t = (p, none)) :
    ∃ q, runLines default ((cut t).1.map stripCr) = (q, none) ∧
      p = { q with lineBuffer := (cut t).2 } := by
  rw [pushChars_default] at h
  rcases hrun : runLines default ((cut t).1.map stripCr) with ⟨q, _ | e⟩
  · rw [hrun] at h
    exact ⟨q, rfl, by simpa using h.symm⟩
  · rw [hrun] at h
    simp at h

/-- The last line of a patch is the end marker: `finish` succeeds when the last update hunk is
not empty. -/
lemma finish_endPatch {tail : Text} (htail : trim tail = endPatchMarker)
    (hp : ensureUpdateHunkIsNotEmpty (nextLine p) endPatchMarker = .ok ()) :
    finish { p with lineBuffer := tail } =
      ({ nextLine p with state := { p.state with mode := .endedPatch } }, .ok p.state.hunks) := by
  have hne : tail ≠ [] := by
    rintro rfl
    exact absurd htail (by decide)
  have hens : ensureUpdateHunkIsNotEmpty (nextLine { p with lineBuffer := tail }) (trim tail) =
      .ok () := by
    rw [htail]
    exact hp
  have hline : finishLine { p with lineBuffer := tail } =
      ({ nextLine p with state := { p.state with mode := .endedPatch } }, none) := by
    simp only [finishLine, if_neg hne, if_pos htail, hens]
    rfl
  simp [finish, hline]

end StreamingPatchParser

/-! ### A patch between its two markers -/

variable {first : Text}

lemma checkPatchBoundariesStrict_eq {last : Text} {mids : List Text}
    (hfirst : trim first = beginPatchMarker) (hlast : trim last = endPatchMarker) :
    checkPatchBoundariesStrict (first :: mids ++ [last]) = .ok (first :: mids ++ [last]) := by
  have hhead : (first :: mids ++ [last]).head? = some first := rfl
  have hend : (first :: mids ++ [last]).getLast? = some last := List.getLast?_concat ..
  have hcheck : checkStartAndEndLinesStrict (some first) (some last) = .ok () := by
    simp [checkStartAndEndLinesStrict, hfirst, hlast]
  rw [checkPatchBoundariesStrict, hhead, hend, hcheck]
  rfl

namespace StreamingPatchParser

/-- The parser after the begin marker. -/
def started : StreamingPatchParser := ⟨[], ⟨.startedPatch, [], none⟩, 1⟩

lemma runLine_beginPatch (hfirst : trim first = beginPatchMarker) :
    runLine default first = (started, none) := by
  have h : processLine (nextLine default) first = .ok ⟨.startedPatch, [], none⟩ := by
    simp [processLine, nextLine, default, hfirst]
  rw [runLine_ok h]
  rfl

end StreamingPatchParser

open StreamingPatchParser in
/-- **How a patch is parsed.**  Its first line is the begin marker and its last the end marker; the
lines between are run, each without its carriage return, and the end marker closes the patch. -/
theorem parsePatch_of_lines {patch last : Text} {mids : List Text} {q : StreamingPatchParser}
    (hlines : checkPatchBoundariesLenient (lines (trim patch)) = .ok (first :: mids ++ [last]))
    (hnl : ∀ l ∈ first :: mids ++ [last], '\n' ∉ l)
    (hfirst : trim first = beginPatchMarker) (hlast : trim last = endPatchMarker)
    (hrun : runLines started (mids.map stripCr) = (q, none))
    (hend : ensureUpdateHunkIsNotEmpty (nextLine q) endPatchMarker = .ok ()) : parsePatch patch =
      .ok ⟨joinNewline (first :: mids ++ [last]), q.state.hunks, none, q.state.environmentId⟩ := by
  have hruns : runLines default ((first :: mids).map stripCr) = (q, none) := by
    rw [runLines, List.map_cons, steps_cons_ok (runLine_beginPatch (by rw [trim_stripCr, hfirst]))]
    exact hrun
  have hpush : pushDelta default (joinNewline (first :: mids ++ [last])) =
      ({ q with lineBuffer := last }, .ok q.state.hunks) := by
    have hls : ∀ l ∈ first :: mids, '\n' ∉ l := fun l hl => hnl l (List.mem_append_left _ hl)
    have hbuffer : default.lineBuffer = [] := rfl
    have hchars := pushChars_unlines hbuffer hls (hnl last (by simp))
    rw [hruns] at hchars
    rw [pushDelta, joinNewline_concat, hchars]
  have hfinish := finish_endPatch hlast hend
  simp only [parsePatch, parsePatchText, hlines, hpush, hfinish, bind, Except.bind, pure,
    Except.pure]
  rfl

end TokenCode.ApplyPatch
