/-
Printing hunks and reading them back.

The trees of this file are the hunks that the patch format can express. Their types say what a
printed patch needs: names and context headers are not empty and do not start or end with
whitespace, a line has no newline and no carriage return at its end, and a chunk has a line. With
that `parse_patch` is the inverse of printing (`parsePatch_printPatch`), also for lines that look
like markers.
-/
import TokenCode.ApplyPatch.PatchFormat

namespace TokenCode.ApplyPatch

open List Text StreamingPatchParser UpdateFileChunk

/-! ### Trees -/

/-- A path or the text of a context header. -/
structure Label where
  text : Text
  notEmpty : text ≠ []
  trimmed : Trimmed text
  noNewline : '\n' ∉ text

/-- A line of a file. -/
structure FileLine where
  text : Text
  noNewline : '\n' ∉ text
  noCr : text.getLast? ≠ some '\r'

/-- The lines of a chunk. -/
structure ChunkTree where
  lines : List (Sign × FileLine)
  notEmpty : lines ≠ []
  endOfFile : Bool

/-- The trees of the patch format. Only the first chunk of an update can do without a header; a
header is `@@`, alone or with a text. -/
inductive HunkTree where
  | add (path : Label) (lines : List FileLine)
  | delete (path : Label)
  | update (path : Label) (movePath : Option Label) (header : Option (Option Label))
      (chunk : ChunkTree) (more : List (Option Label × ChunkTree))

/-! ### The hunks of the trees -/

namespace ChunkTree

/-- The context and removed lines. -/
def oldLines (c : ChunkTree) : List Text :=
  (c.lines.filter (·.1 ≠ .added)).map (·.2.text)

/-- The context and added lines. -/
def newLines (c : ChunkTree) : List Text :=
  (c.lines.filter (·.1 ≠ .removed)).map (·.2.text)

def toChunk (c : ChunkTree) (header : Option Label) : UpdateFileChunk :=
  ⟨header.map (·.text), c.oldLines, c.newLines, c.endOfFile⟩

end ChunkTree

def HunkTree.toHunk : HunkTree → Hunk
  | .add path lines => .addFile path.text (unlines (lines.map (·.text)))
  | .delete path => .deleteFile path.text
  | .update path movePath header chunk more =>
    .updateFile path.text (movePath.map (·.text))
      (chunk.toChunk header.join :: more.map fun c => c.2.toChunk c.1)

/-! ### Printing -/

namespace ChunkTree

/-- The lines of the chunk and its end-of-file marker. -/
def printLines (c : ChunkTree) : List BodyLine :=
  c.lines.map (fun l => .line l.1 l.2.text) ++ if c.endOfFile then [.endOfFile] else []

/-- A chunk behind its header. -/
def print (c : ChunkTree) (header : Option Label) : List BodyLine :=
  .header (header.map (·.text)) :: c.printLines

end ChunkTree

def HunkTree.print : HunkTree → PatchSection
  | .add path lines => .add path.text (lines.map (·.text))
  | .delete path => .delete path.text
  | .update path movePath header chunk more =>
    .update path.text (movePath.map (·.text))
      ((header.elim chunk.printLines chunk.print) ++ more.flatMap fun c => c.2.print c.1)

/-- A patch in the documented format, alone or in a heredoc. -/
def printPatch (trees : List HunkTree) (heredoc : Option Heredoc) (newline : Bool) : Text :=
  patchText none (trees.map HunkTree.print) heredoc newline

/-! ### Reading a chunk -/

lemma FileLine.stored_eq (l : FileLine) : stored l.text = l.text := by
  rw [stored, stripCr_of_getLast? l.noCr, stripCr_of_getLast? l.noCr]

lemma Label.trimEnd_eq (l : Label) : trimEnd l.text = l.text := l.trimmed.trimEnd_eq

lemma Label.notBlank (l : Label) : ¬ Blank l.text := l.trimmed.not_blank l.notEmpty

/-- A chunk with more lines. -/
def UpdateFileChunk.addLines (c : UpdateFileChunk) (lines : List (Sign × FileLine)) :
    UpdateFileChunk :=
  { c with
    oldLines := c.oldLines ++ (lines.filter (·.1 ≠ .added)).map (·.2.text)
    newLines := c.newLines ++ (lines.filter (·.1 ≠ .removed)).map (·.2.text) }

variable (c : UpdateFileChunk)

@[simp] lemma UpdateFileChunk.addLines_isEndOfFile
    (lines : List (Sign × FileLine)) : (c.addLines lines).isEndOfFile = c.isEndOfFile := rfl

lemma UpdateFileChunk.addLines_cons (l : Sign × FileLine)
    (lines : List (Sign × FileLine)) : (c.addLines [l]).addLines lines = c.addLines (l :: lines) := by
  simp [addLines, ← map_append, ← filter_append]

lemma UpdateFileChunk.addLines_isEmpty {lines : List (Sign × FileLine)}
    (hne : lines ≠ []) : (c.addLines lines).isEmpty = false := by
  cases lines with
  | nil => exact absurd rfl hne
  | cons l lines =>
    obtain ⟨sign, line⟩ := l
    cases sign <;> simp [addLines, isEmpty]

variable (cs : List UpdateFileChunk)

/-- A line goes to the last chunk. -/
lemma effect_line (c : UpdateFileChunk) (l : Sign × FileLine) :
    (BodyLine.line l.1 l.2.text).effect.chunks (cs ++ [c]) = cs ++ [c.addLines [l]] := by
  obtain ⟨sign, line⟩ := l
  cases sign <;>
    simp [BodyLine.effect, LineEffect.chunks, changeLastChunk, addLines, line.stored_eq]

lemma leads_lines {c : UpdateFileChunk} (hc : c.isEndOfFile = false)
    (lines : List (Sign × FileLine)) :
    Leads (cs ++ [c]) (lines.map fun l => .line l.1 l.2.text) (cs ++ [c.addLines lines]) := by
  induction lines generalizing c with
  | nil =>
    have hnil : c.addLines [] = c := by simp [addLines]
    rw [hnil]
    exact .nil _
  | cons l lines ih =>
    refine .cons ?_ ?_
    · show atEof (cs ++ [c]) = false
      simpa [atEof] using hc
    · rw [effect_line, ← addLines_cons c l lines]
      exact ih hc

variable (tree : ChunkTree)

open ChunkTree

variable (header : Option Label)

open UpdateFileChunk (opened)

/-- The lines of a chunk and its end-of-file marker, behind its header. -/
lemma ChunkTree.leads_printLines : Leads (cs ++ [.opened (header.map (·.text))]) tree.printLines
      (cs ++ [tree.toChunk header]) := by
  have hlines := leads_lines cs (c := .opened (header.map (·.text))) rfl tree.lines
  refine hlines.append ?_
  have hempty := (opened (header.map (·.text))).addLines_isEmpty tree.notEmpty
  cases heof : tree.endOfFile with
  | false =>
    have hchunk : tree.toChunk header =
        (opened (header.map (·.text))).addLines tree.lines := by
      simp [toChunk, addLines, opened, oldLines, newLines, heof]
    rw [hchunk]
    exact .nil _
  | true =>
    refine .cons ⟨by simp [atEof, opened], by simp [lastIsEmpty, hempty]⟩ ?_
    have hchunks : BodyLine.endOfFile.effect.chunks
        (cs ++ [(opened (header.map (·.text))).addLines tree.lines]) =
        cs ++ [tree.toChunk header] := by
      simp [BodyLine.effect, LineEffect.chunks, changeLastChunk, toChunk, addLines,
        opened, oldLines, newLines, heof]
    rw [hchunks]
    exact .nil _

lemma ChunkTree.toChunk_isEmpty : (tree.toChunk header).isEmpty = false :=
  (opened (header.map (·.text))).addLines_isEmpty tree.notEmpty

/-- A chunk with its header. -/
lemma ChunkTree.leads_print {cs : List UpdateFileChunk}
    (hcs : lastIsEmpty cs = false) (header : Option Label) :
    Leads cs (tree.print header) (cs ++ [tree.toChunk header]) := by
  refine .cons hcs ?_
  have heffect : (BodyLine.header (header.map (·.text))).effect =
      .openChunk (header.map (·.text)) := by
    cases header with
    | none => rfl
    | some l =>
      simp [BodyLine.effect, l.notBlank, l.trimEnd_eq]
  rw [heffect]
  exact tree.leads_printLines cs header

/-- The first line of a headerless chunk opens it. -/
lemma ChunkTree.leads_first : Leads [] tree.printLines [tree.toChunk none] := by
  have hopened := tree.leads_printLines [] none
  cases hlines : tree.lines with
  | nil => exact absurd hlines tree.notEmpty
  | cons l lines =>
    simp only [printLines, hlines, map_cons, cons_append, nil_append] at hopened ⊢
    cases hopened with
    | cons _ h =>
      have hsame : (BodyLine.line l.1 l.2.text).effect.chunks [] =
          (BodyLine.line l.1 l.2.text).effect.chunks [.opened none] := by
        obtain ⟨sign, line⟩ := l
        cases sign <;> rfl
      exact .cons rfl (by rw [hsame]; exact h)

lemma leads_more {cs : List UpdateFileChunk} (hcs : lastIsEmpty cs = false)
    (more : List (Option Label × ChunkTree)) :
    Leads cs (more.flatMap fun c => c.2.print c.1) (cs ++ more.map fun c => c.2.toChunk c.1) ∧
      lastIsEmpty (cs ++ more.map fun c => c.2.toChunk c.1) = false := by
  induction more generalizing cs with
  | nil => simpa using ⟨.nil cs, hcs⟩
  | cons c more ih =>
    have hnext : lastIsEmpty (cs ++ [c.2.toChunk c.1]) = false := by
      simp [lastIsEmpty, c.2.toChunk_isEmpty]
    obtain ⟨h1, h2⟩ := ih hnext
    rw [List.append_assoc, singleton_append] at h1 h2
    exact ⟨(c.2.leads_print hcs c.1).append h1, h2⟩

/-! ### Reading a tree back -/

/-- The lines of an update lead to its chunks. -/
lemma leads_update (header : Option (Option Label)) (chunk : ChunkTree)
    (more : List (Option Label × ChunkTree)) :
    Leads [] ((header.elim chunk.printLines chunk.print) ++ more.flatMap fun c => c.2.print c.1)
        (chunk.toChunk header.join :: more.map fun c => c.2.toChunk c.1) ∧
      lastIsEmpty (chunk.toChunk header.join :: more.map fun c => c.2.toChunk c.1) = false := by
  have hfirst : Leads [] (header.elim chunk.printLines chunk.print) [chunk.toChunk header.join] := by
    cases header with
    | none => exact chunk.leads_first
    | some header => exact chunk.leads_print rfl header
  have hlast : lastIsEmpty [chunk.toChunk header.join] = false := by
    simp [lastIsEmpty, chunk.toChunk_isEmpty]
  obtain ⟨h1, h2⟩ := leads_more hlast more
  exact ⟨hfirst.append h1, h2⟩

lemma HunkTree.placed_print (tree : HunkTree) : tree.print.Placed := by
  cases tree with
  | add path lines => exact path.notBlank
  | delete path => exact path.notBlank
  | update path movePath header chunk more =>
    obtain ⟨hleads, hlast⟩ := leads_update header chunk more
    refine ⟨path.notBlank, ?_, hleads.bodyPlaced (cons_ne_nil _ _) hlast⟩
    intro dest hdest
    obtain ⟨l, -, rfl⟩ := Option.mem_map.1 hdest
    exact l.notBlank

open HunkTree

lemma HunkTree.toHunk_print (tree : HunkTree) : tree.print.toHunk = tree.toHunk := by
  cases tree with
  | add path lines =>
    simp [HunkTree.print, PatchSection.toHunk, toHunk, path.trimEnd_eq,
      Function.comp_def, FileLine.stored_eq]
  | delete path =>
    simp [HunkTree.print, PatchSection.toHunk, toHunk, path.trimEnd_eq]
  | update path movePath header chunk more =>
    simp [HunkTree.print, PatchSection.toHunk, toHunk, Label.trimEnd_eq,
      Function.comp_def, (leads_update header chunk more).1.bodyChunks_eq]

lemma ChunkTree.printLines_oneLine (c : ChunkTree) : ∀ b ∈ c.printLines, b.OneLine := by
  intro b hb
  rcases mem_append.1 hb with hb | hb
  · obtain ⟨l, -, rfl⟩ := mem_map.1 hb
    exact l.2.noNewline
  · split_ifs at hb
    · rw [mem_singleton.1 hb]
      trivial
    · simp at hb

lemma ChunkTree.print_oneLine (c : ChunkTree) (header : Option Label) :
    ∀ b ∈ c.print header, b.OneLine := by
  intro b hb
  rcases mem_cons.1 hb with rfl | hb
  · intro text htext
    obtain ⟨l, -, rfl⟩ := Option.mem_map.1 htext
    exact l.noNewline
  · exact c.printLines_oneLine b hb

lemma HunkTree.oneLine_print (tree : HunkTree) : tree.print.OneLine := by
  cases tree with
  | add path lines =>
    refine ⟨path.noNewline, ?_⟩
    intro l hl
    obtain ⟨line, -, rfl⟩ := mem_map.1 hl
    exact line.noNewline
  | delete path => exact path.noNewline
  | update path movePath header chunk more =>
    refine ⟨path.noNewline, ?_, ?_⟩
    · intro dest hdest
      obtain ⟨l, -, rfl⟩ := Option.mem_map.1 hdest
      exact l.noNewline
    · intro b hb
      rcases mem_append.1 hb with hb | hb
      · cases header with
        | none => exact chunk.printLines_oneLine b hb
        | some header => exact chunk.print_oneLine header b hb
      · obtain ⟨c, -, hb⟩ := mem_flatMap.1 hb
        exact c.2.print_oneLine c.1 b hb

/-- **`parse_patch` inverts printing.** -/
theorem parsePatch_printPatch (trees : List HunkTree) (heredoc : Option Heredoc) (newline : Bool) :
    ∃ args, parsePatch (printPatch trees heredoc newline) = .ok args ∧
      args.hunks = trees.map HunkTree.toHunk ∧ args.environmentId = none := by
  have hsections : ∀ s ∈ trees.map HunkTree.print, s.Placed ∧ s.OneLine := by
    intro s hs
    obtain ⟨tree, -, rfl⟩ := mem_map.1 hs
    exact ⟨tree.placed_print, tree.oneLine_print⟩
  refine ⟨_, parsePatch_sections (by simp) hsections heredoc newline, ?_, rfl⟩
  simp [Function.comp_def, toHunk_print]

/-- An update of `a b` whose lines look like markers. -/
def markerTree : HunkTree :=
  .update ⟨"a b".toList, by decide, by simp [Trimmed, isWhitespace], by decide⟩ none none
    ⟨[(.context, ⟨"@@ x".toList, by decide, by decide⟩),
      (.removed, ⟨"*** End Patch".toList, by decide, by decide⟩),
      (.added, ⟨"*** Add File: c".toList, by decide, by decide⟩)], by decide, true⟩ []

example : (parsePatch (printPatch [markerTree] none true)).toOption.map (·.hunks) =
    some [markerTree.toHunk] := by
  decide +kernel

end TokenCode.ApplyPatch
