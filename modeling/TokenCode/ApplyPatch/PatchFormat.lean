/-
The patch format, line by line.

A `PatchSection` is what a hunk looks like in a patch: a header and its lines, with the blanks and
carriage returns that the parser takes off. The main result is `runLines_section`: a section whose
lines stand where the format allows them is read as the hunk `PatchSection.toHunk`, whatever was read
before it. `parsePatch_sections` puts the sections between the markers, with or without a heredoc
around them.
-/
import TokenCode.ApplyPatch.Parser
import TokenCode.ApplyPatch.StreamingSteps

namespace TokenCode.ApplyPatch

open List Text

/-! ### Lines -/

/-- What the first character of a line of a chunk says. -/
inductive Sign where
  | context
  | added
  | removed
deriving DecidableEq, Repr

def Sign.char : Sign → Char
  | .context => ' '
  | .added => '+'
  | .removed => '-'

/-- A line behind the header of an update. -/
inductive BodyLine where
  | header (changeContext : Option Text)
  | line (sign : Sign) (text : Text)
  | endOfFile
deriving DecidableEq, Repr

/-- A line as `parse_patch` stores it: `str::lines` and `push_delta` each take a carriage return
off. -/
def stored (line : Text) : Text := stripCr (stripCr line)

variable (line : Text)

lemma trim_stored : trim (stored line) = trim line := by
  rw [stored, trim_stripCr, trim_stripCr]

lemma trimEnd_stored : trimEnd (stored line) = trimEnd line := by
  rw [stored, trimEnd_stripCr, trimEnd_stripCr]

lemma stored_cons {c : Char} (hc : c ≠ '\r') (line : Text) :
    stored (c :: line) = c :: stored line := by
  rw [stored, stripCr_cons hc, stripCr_cons hc, stored]

namespace BodyLine

def print : BodyLine → Text
  | .header none => emptyChangeContextMarker
  | .header (some changeContext) => changeContextMarker ++ changeContext
  | .line sign text => sign.char :: text
  | .endOfFile => eofMarker

/-- What the line does to the chunks. A header whose context is blank is the empty one. -/
def effect : BodyLine → StreamingPatchParser.LineEffect
  | .header none => .openChunk none
  | .header (some changeContext) =>
    if Blank changeContext then .openChunk none else .openChunk (some (trimEnd changeContext))
  | .line .context text => .context (stored text)
  | .line .added text => .added (stored text)
  | .line .removed text => .removed (stored text)
  | .endOfFile => .endOfFile

/-- Where a line may stand: a header not directly behind another one, a line of a chunk not behind
an end-of-file marker, and that marker not directly behind a header. -/
def Placed (chunks : List UpdateFileChunk) : BodyLine → Prop
  | .header _ => StreamingPatchParser.lastIsEmpty chunks = false
  | .line _ _ => StreamingPatchParser.atEof chunks = false
  | .endOfFile => StreamingPatchParser.atEof chunks = false ∧
      StreamingPatchParser.lastIsEmpty chunks = false

end BodyLine

/-- The chunks after the lines of a body. -/
def bodyChunks : List UpdateFileChunk → List BodyLine → List UpdateFileChunk
  | chunks, [] => chunks
  | chunks, b :: body => bodyChunks (b.effect.chunks chunks) body

/-- Every line of the body may stand where it does, and the last chunk is not empty. -/
def BodyPlaced : List UpdateFileChunk → List BodyLine → Prop
  | chunks, [] => chunks ≠ [] ∧ StreamingPatchParser.lastIsEmpty chunks = false
  | chunks, b :: body => b.Placed chunks ∧ BodyPlaced (b.effect.chunks chunks) body

/-- The texts of the line have no newline. -/
def BodyLine.OneLine : BodyLine → Prop
  | .header changeContext => ∀ text ∈ changeContext, '\n' ∉ text
  | .line _ text => '\n' ∉ text
  | .endOfFile => True

variable {b : BodyLine}

open BodyLine (print header effect line)

lemma BodyLine.print_oneLine (h : b.OneLine) : '\n' ∉ b.print := by
  cases b with
  | header changeContext =>
    cases changeContext with
    | none => decide
    | some text => simpa [print, changeContextMarker] using h text rfl
  | line sign text =>
    have htext : '\n' ∉ text := h
    cases sign <;> simpa [print, Sign.char] using htext
  | endOfFile => decide

/-- The lines lead from the chunks `cs` to the chunks `cs'`, and each may stand where it does. -/
inductive Leads : List UpdateFileChunk → List BodyLine → List UpdateFileChunk → Prop
  | nil (cs : List UpdateFileChunk) : Leads cs [] cs
  | cons {cs cs' : List UpdateFileChunk} {b : BodyLine} {body : List BodyLine}
      (hb : b.Placed cs) (h : Leads (b.effect.chunks cs) body cs') : Leads cs (b :: body) cs'

variable {cs cs' : List UpdateFileChunk} {body : List BodyLine} (h : Leads cs body cs')
include h

lemma Leads.append {cs'' : List UpdateFileChunk} {body' : List BodyLine}
    (h' : Leads cs' body' cs'') : Leads cs (body ++ body') cs'' := by
  induction h with
  | nil => exact h'
  | cons hb _ ih => exact .cons hb (ih h')

lemma Leads.bodyChunks_eq : bodyChunks cs body = cs' := by
  induction h with
  | nil => rfl
  | cons _ _ ih => exact ih

lemma Leads.bodyPlaced (hne : cs' ≠ [])
    (hlast : StreamingPatchParser.lastIsEmpty cs' = false) : BodyPlaced cs body := by
  induction h with
  | nil => exact ⟨hne, hlast⟩
  | cons hb _ ih => exact ⟨hb, ih hne hlast⟩

omit h

/-! ### Sections -/

/-- A hunk as it is written. -/
inductive PatchSection where
  | add (path : Text) (lines : List Text)
  | delete (path : Text)
  | update (path : Text) (movePath : Option Text) (body : List BodyLine)

variable {s : PatchSection}

namespace PatchSection

def print : PatchSection → List Text
  | .add path lines => (addFileMarker ++ path) :: lines.map ('+' :: ·)
  | .delete path => [deleteFileMarker ++ path]
  | .update path movePath body =>
    (updateFileMarker ++ path) :: ((movePath.map (moveToMarker ++ ·)).toList ++
      body.map BodyLine.print)

/-- The hunk that a section is read as. -/
def toHunk : PatchSection → Hunk
  | .add path lines => .addFile (trimEnd path) (unlines (lines.map stored))
  | .delete path => .deleteFile (trimEnd path)
  | .update path movePath body =>
    .updateFile (trimEnd path) (movePath.map trimEnd) (bodyChunks [] body)

/-- The names are not blank, and the lines of an update may stand where they do. -/
def Placed : PatchSection → Prop
  | .add path _ => ¬ Blank path
  | .delete path => ¬ Blank path
  | .update path movePath body =>
    ¬ Blank path ∧ (∀ dest ∈ movePath, ¬ Blank dest) ∧ BodyPlaced [] body

/-- The texts of the section have no newline. -/
def OneLine : PatchSection → Prop
  | .add path lines => '\n' ∉ path ∧ ∀ l ∈ lines, '\n' ∉ l
  | .delete path => '\n' ∉ path
  | .update path movePath body =>
    '\n' ∉ path ∧ (∀ dest ∈ movePath, '\n' ∉ dest) ∧ ∀ b ∈ body, b.OneLine

lemma print_oneLine (h : s.OneLine) : ∀ l ∈ s.print, '\n' ∉ l := by
  have hmarker : ∀ {marker name : Text}, '\n' ∉ marker → '\n' ∉ name → '\n' ∉ marker ++ name := by
    intro marker name h1 h2
    rw [mem_append]
    exact not_or.2 ⟨h1, h2⟩
  intro l hl
  cases s with
  | add path lines =>
    rcases mem_cons.1 hl with rfl | hl
    · exact hmarker (by decide) h.1
    · obtain ⟨line, hline, rfl⟩ := mem_map.1 hl
      simpa using h.2 line hline
  | delete path =>
    rw [mem_singleton.1 hl]
    exact hmarker (by decide) h
  | update path movePath body =>
    obtain ⟨hpath, hmove, hbody⟩ := h
    rcases mem_cons.1 hl with rfl | hl
    · exact hmarker (by decide) hpath
    rcases mem_append.1 hl with hl | hl
    · cases movePath with
      | none => simp at hl
      | some dest =>
        rw [mem_singleton.1 hl]
        exact hmarker (by decide) (hmove dest rfl)
    · obtain ⟨b, hb, rfl⟩ := mem_map.1 hl
      exact b.print_oneLine (hbody b hb)

end PatchSection

/-! ### Reading one line -/

variable {chunks : List UpdateFileChunk} {p : StreamingPatchParser} {init : List Hunk}
  {marker name path : Text} {movePath : Option Text} (n : ℕ)

namespace StreamingPatchParser

/-- Every marker starts with a star. -/
lemma not_marker_of_head? {s : Text} (h : s.head? ≠ some '*') (n : ℕ) :
    s ≠ endPatchMarker ∧ hunkHeader n s = none ∧ s.dropPrefix? moveToMarker = none ∧
      s ≠ eofMarker := by
  have hne : ∀ marker : Text, marker.head? = some '*' → ∀ rest, s ≠ marker ++ rest := by
    rintro marker hmarker rest rfl
    cases marker with
    | nil => simp at hmarker
    | cons c marker => exact h (by simpa using hmarker)
  have hdrop : ∀ marker : Text, marker.head? = some '*' → s.dropPrefix? marker = none := by
    intro marker hmarker
    rw [Option.eq_none_iff_forall_ne_some]
    intro rest hrest
    exact hne marker hmarker rest (dropPrefix?_eq_some.1 hrest)
  refine ⟨?_, ?_, hdrop _ (by decide), ?_⟩
  · simpa using hne endPatchMarker (by decide) []
  · simp [hunkHeader, hdrop addFileMarker (by decide), hdrop deleteFileMarker (by decide),
      hdrop updateFileMarker (by decide)]
  · simpa using hne eofMarker (by decide) []

/-- Trimming the end keeps the first character, or nothing. -/
lemma head?_trimEnd_cons (c : Char) (s : Text) :
    (trimEnd (c :: s)).head? = some c ∨ trimEnd (c :: s) = [] := by
  obtain ⟨w, -, hw⟩ := trimEnd_split (c :: s)
  cases h : trimEnd (c :: s) with
  | nil => exact Or.inr rfl
  | cons d t =>
    rw [h, cons_append, cons.injEq] at hw
    exact Or.inl (by simp [hw.1])

/-- A marker in front of a name survives trimming. -/
lemma headerText_marker (hmarker : marker.head? = some '*')
    (hname : ¬ Blank name) (mode : StreamingParserMode) :
    headerText mode (stored (marker ++ name)) = marker ++ trimEnd name := by
  have hend : trimEnd (marker ++ name) = marker ++ trimEnd name :=
    trimEnd_append_of_not_blank marker hname
  have hhead : ∀ c ∈ (marker ++ name).head?, isWhitespace c = false := by
    intro c hc
    rw [head?_append, hmarker] at hc
    obtain rfl : '*' = c := by simpa using hc
    decide
  have htrim : trim (stored (marker ++ name)) = marker ++ trimEnd name := by
    rw [trim_stored, trim_of_head? hhead, hend]
  cases mode
  case updateFile n =>
    show trimEnd (stored (marker ++ name)) = marker ++ trimEnd name
    rw [trimEnd_stored, hend]
  all_goals exact htrim

/-- A line of a body is no header of a hunk. -/
lemma bodyLine_not_header (b : BodyLine) (n : ℕ) :
    trimEnd b.print ≠ endPatchMarker ∧ hunkHeader n (trimEnd b.print) = none := by
  have hcons : ∀ (c : Char) (s : Text), c ≠ '*' →
      trimEnd (c :: s) ≠ endPatchMarker ∧ hunkHeader n (trimEnd (c :: s)) = none := by
    intro c s hc
    have hhead : (trimEnd (c :: s)).head? ≠ some '*' := by
      rcases head?_trimEnd_cons c s with h | h
      · simpa [h] using hc
      · simp [h]
    exact ⟨(not_marker_of_head? hhead n).1, (not_marker_of_head? hhead n).2.1⟩
  cases b with
  | header changeContext =>
    cases changeContext with
    | none => exact hcons '@' ['@'] (by decide)
    | some changeContext => exact hcons '@' ('@' :: ' ' :: changeContext) (by decide)
  | line sign text => exact hcons sign.char text (by cases sign <;> decide)
  | endOfFile =>
    have htrim : trimEnd eofMarker = eofMarker := by decide
    show trimEnd eofMarker ≠ _ ∧ hunkHeader n (trimEnd eofMarker) = none
    exact ⟨by decide, rfl⟩

/-- **A line of a body, where it may stand, has its effect.** -/
lemma bodyLine_effectStep (h : b.Placed chunks) (n : ℕ) (movePath : Option Text) :
    EffectStep n (stored b.print) movePath chunks b.effect := by
  cases b with
  | header changeContext =>
    cases changeContext with
    | none => exact .openEmpty h (by decide)
    | some changeContext =>
      by_cases hblank : Blank changeContext
      · have heff : (header (some changeContext)).effect = .openChunk none := by
          simp [effect, hblank]
        have hline : trimEnd (stored (changeContextMarker ++ changeContext)) =
            emptyChangeContextMarker := by
          rw [trimEnd_stored, trimEnd_append_of_blank _ hblank]
          decide
        rw [heff]
        exact .openEmpty h hline
      · have heff : (header (some changeContext)).effect =
            .openChunk (some (trimEnd changeContext)) := by
          simp [effect, hblank]
        have hline : trimEnd (stored (changeContextMarker ++ changeContext)) =
            changeContextMarker ++ trimEnd changeContext := by
          rw [trimEnd_stored, trimEnd_append_of_not_blank _ hblank]
        rw [heff]
        exact .openContext _ h hline
  | line sign text =>
    have hprint : stored (line sign text).print = sign.char :: stored text :=
      stored_cons (by cases sign <;> decide) text
    have hhead : (trimEnd (sign.char :: stored text)).head? ≠ some '*' ∧
        (trimEnd (sign.char :: stored text)).head? ≠ some '@' := by
      rcases head?_trimEnd_cons sign.char (stored text) with h | h
      · rw [h]
        cases sign <;> decide
      · simp [h]
    obtain ⟨-, -, hmove, heof⟩ := not_marker_of_head? hhead.1 n
    have hheader : isContextHeader (trimEnd (sign.char :: stored text)) = false := by
      rw [Bool.eq_false_iff, Ne, isContextHeader_iff]
      rintro (hempty | ⟨ctx, hctx⟩)
      · exact hhead.2 (by rw [hempty]; rfl)
      · exact hhead.2 (by rw [hctx]; rfl)
    rw [hprint]
    exact .content h (fun _ _ => hmove) hheader heof (by cases sign <;> rfl)
  | endOfFile => exact .endOfFile h.1 h.2 (by decide)

/-! ### Reading a section -/

/-- The parser is between two sections. -/
structure Ready (p : StreamingPatchParser) : Prop where
  started : p.state.mode ≠ .notStarted
  notEnded : p.state.mode ≠ .endedPatch
  notEmpty : ∀ line, ensureUpdateHunkIsNotEmpty (nextLine p) line = .ok ()

lemma runLine_of_step {line : Text} {st : StreamingParserState}
    (h : LineStep (nextLine p) line st) :
    runLine p line = ({ nextLine p with state := st }, none) :=
  runLine_ok (processLine_eq_ok_iff.2 h)

/-- A header opens its hunk. -/
lemma runLine_hunkHeader (hp : Ready p) (hmarker : marker.head? = some '*') (hname : ¬ Blank name)
    {header : Hunk × StreamingParserMode}
    (hheader : hunkHeader (p.lineNumber + 1) (marker ++ trimEnd name) = some header) :
    runLine p (stored (marker ++ name)) =
      ({ nextLine p with state := pushHunk p header }, none) := by
  refine runLine_of_step (.header hp.started hp.notEnded ?_)
  rw [nextLine_state, headerText_marker hmarker hname]
  exact handleHunkHeadersAndEndPatch_eq_some_iff.2 (.hunk header hheader (hp.notEmpty _))

/-- The lines of an added file. -/
lemma runLines_add {contents : Text} (hmode : p.state.mode = .addFile)
    (hhunks : p.state.hunks = init ++ [.addFile path contents]) (lines : List Text) :
    ∃ q, runLines p ((lines.map ('+' :: ·)).map stored) = (q, none) ∧ q.state = { p.state with
        hunks := init ++ [.addFile path (contents ++ unlines (lines.map stored))] } := by
  induction lines generalizing p contents with
  | nil => exact ⟨p, rfl, by simp [unlines, ← hhunks]⟩
  | cons line lines ih =>
    have hnone : handleHunkHeadersAndEndPatch (nextLine p) (trim (stored ('+' :: line))) =
        .ok none := by
      have htrim : trim (stored ('+' :: line)) = trimEnd ('+' :: line) := by
        rw [trim_stored]
        exact trim_of_head? (by simp [isWhitespace])
      have hhead : (trimEnd ('+' :: line)).head? ≠ some '*' := by
        rcases head?_trimEnd_cons '+' line with h | h <;> simp [h]
      obtain ⟨hend, hheader, -, -⟩ := not_marker_of_head? hhead (nextLine p).lineNumber
      rw [htrim, handleHunkHeadersAndEndPatch_eq_none_iff]
      exact ⟨fun h => by simp [hmode] at h, hend, hheader⟩
    have hstep := LineStep.content (p := nextLine p) init path contents (stored line) hmode hhunks
      (stored_cons (by decide) line) hnone
    obtain ⟨q, hq, hstate⟩ := ih (p := { nextLine p with
      state := { p.state with
        hunks := init ++ [.addFile path (contents ++ stored line ++ ['\n'])] } }) hmode rfl
    refine ⟨q, ?_, ?_⟩
    · rw [map_cons, map_cons, runLines, steps_cons_ok (runLine_of_step hstep)]
      exact hq
    · rw [hstate]
      simp [unlines]

/-- No line of a body is a destination. -/
lemma effect_movePath (b : BodyLine) (movePath : Option Text) :
    b.effect.movePath movePath = movePath := by
  cases b with
  | header changeContext =>
    cases changeContext with
    | none => rfl
    | some changeContext =>
      simp only [effect]
      split_ifs <;> rfl
  | line sign text => cases sign <;> rfl
  | endOfFile => rfl

/-- The lines of an update. -/
lemma runLines_body {n : ℕ} (hmode : p.state.mode = .updateFile n)
    (hhunks : p.state.hunks = init ++ [.updateFile path movePath chunks])
    (hplaced : BodyPlaced chunks body) :
    ∃ q, runLines p ((body.map print).map stored) = (q, none) ∧ q.state = { p.state with
        hunks := init ++ [.updateFile path movePath (bodyChunks chunks body)] } ∧
      bodyChunks chunks body ≠ [] ∧ lastIsEmpty (bodyChunks chunks body) = false := by
  induction body generalizing p chunks with
  | nil => exact ⟨p, rfl, by simp [bodyChunks, ← hhunks], hplaced⟩
  | cons b body ih =>
    have hnone : handleHunkHeadersAndEndPatch (nextLine p) (trimEnd (stored b.print)) =
        .ok none := by
      rw [trimEnd_stored, handleHunkHeadersAndEndPatch_eq_none_iff]
      exact ⟨fun h => by simp [hmode] at h, bodyLine_not_header b _⟩
    have heffect := updateEffect_eq_ok_iff.2
      (bodyLine_effectStep hplaced.1 (nextLine p).lineNumber movePath)
    have hstep := LineStep.change (p := nextLine p) n init path movePath chunks b.effect hmode
      hhunks heffect hnone
    rw [effect_movePath] at hstep
    obtain ⟨q, hq, hstate, hfinal⟩ := ih (p := { nextLine p with
      state := { p.state with
        hunks := init ++ [.updateFile path movePath (b.effect.chunks chunks)] } })
      hmode rfl hplaced.2
    refine ⟨q, ?_, hstate, hfinal⟩
    rw [map_cons, map_cons, runLines, steps_cons_ok (runLine_of_step hstep)]
    exact hq

/-- A destination behind the header of an update. -/
lemma runLines_moveTo {n : ℕ} (hmode : p.state.mode = .updateFile n)
    (hhunks : p.state.hunks = init ++ [.updateFile path none []])
    (hmove : ∀ dest ∈ movePath, ¬ Blank dest) :
    ∃ q, runLines p ((movePath.map (moveToMarker ++ ·)).toList.map stored) = (q, none) ∧
      q.state = { p.state with hunks := init ++ [.updateFile path (movePath.map trimEnd) []] } := by
  cases movePath with
  | none => exact ⟨p, rfl, by simp [← hhunks]⟩
  | some dest =>
    have htrim : trimEnd (stored (moveToMarker ++ dest)) =
        moveToMarker ++ trimEnd dest := by
      rw [trimEnd_stored, trimEnd_append_of_not_blank _ (hmove dest rfl)]
    have hheader : hunkHeader (nextLine p).lineNumber (moveToMarker ++ trimEnd dest) =
        none := by
      have h1 : Text.Apart moveToMarker addFileMarker := by decide
      have h2 : Text.Apart moveToMarker deleteFileMarker := by decide
      have h3 : Text.Apart moveToMarker updateFileMarker := by decide
      simp [hunkHeader, h1.dropPrefix?_eq_none, h2.dropPrefix?_eq_none, h3.dropPrefix?_eq_none]
    have hnone : handleHunkHeadersAndEndPatch (nextLine p)
        (trimEnd (stored (moveToMarker ++ dest))) = .ok none := by
      rw [htrim, handleHunkHeadersAndEndPatch_eq_none_iff]
      exact ⟨fun h => by simp [hmode] at h, Text.Apart.append_ne (by decide) _, hheader⟩
    have heffect := updateEffect_eq_ok_iff.2
      (EffectStep.moveTo (n := (nextLine p).lineNumber) (trimEnd dest) rfl rfl htrim)
    have hstep := LineStep.change (p := nextLine p) n init path none [] _ hmode hhunks heffect hnone
    exact ⟨_, steps_cons_ok (runLine_of_step hstep) [], rfl⟩

lemma hunkHeader_add (path : Text) :
    hunkHeader n (addFileMarker ++ path) = some (.addFile path [], .addFile) := by
  simp only [hunkHeader, dropPrefix?_append]

lemma hunkHeader_delete (path : Text) :
    hunkHeader n (deleteFileMarker ++ path) = some (.deleteFile path, .deleteFile) := by
  have h1 : Text.Apart deleteFileMarker addFileMarker := by decide
  simp only [hunkHeader, h1.dropPrefix?_eq_none, dropPrefix?_append]

lemma hunkHeader_update (path : Text) :
    hunkHeader n (updateFileMarker ++ path) = some (.updateFile path none [], .updateFile n) := by
  have h1 : Text.Apart updateFileMarker addFileMarker := by decide
  have h2 : Text.Apart updateFileMarker deleteFileMarker := by decide
  simp only [hunkHeader, h1.dropPrefix?_eq_none, h2.dropPrefix?_eq_none, dropPrefix?_append]

/-- Behind a hunk that is no update, or whose last chunk is not empty, a section may start. -/
lemma ready_of_last (h1 : p.state.mode ≠ .notStarted) (h2 : p.state.mode ≠ .endedPatch)
    (hlast : ∀ path movePath chunks, p.state.hunks.getLast? = some (.updateFile path movePath chunks) →
      chunks ≠ [] ∧ lastIsEmpty chunks = false) : Ready p := by
  refine ⟨h1, h2, fun line => ?_⟩
  unfold ensureUpdateHunkIsNotEmpty
  split
  · rename_i path movePath chunks hchunks
    obtain ⟨hne, hempty⟩ := hlast path movePath chunks hchunks
    rcases chunks.eq_nil_or_concat with rfl | ⟨init, chunk, rfl⟩
    · exact absurd rfl hne
    · have hchunk : chunk.isEmpty = false := by simpa [lastIsEmpty] using hempty
      simp [hchunk]
  · rfl

/-- **A section is read as its hunk.** -/
theorem runLines_section (hp : Ready p) (hs : s.Placed) :
    ∃ q, runLines p (s.print.map stored) = (q, none) ∧ Ready q ∧
      q.state.hunks = p.state.hunks ++ [s.toHunk] ∧
      q.state.environmentId = p.state.environmentId := by
  cases s with
  | add path lines =>
    have hopen := runLine_hunkHeader hp (by decide) hs (hunkHeader_add _ _)
    obtain ⟨q, hq, hstate⟩ := runLines_add (p := { nextLine p with
      state := pushHunk p (.addFile (trimEnd path) [], .addFile) }) rfl rfl lines
    refine ⟨q, ?_, ?_, ?_, ?_⟩
    · rw [runLines, PatchSection.print, map_cons, steps_cons_ok hopen]
      exact hq
    · apply ready_of_last <;> simp [hstate, pushHunk]
    all_goals
      rw [hstate]
      rfl
  | delete path =>
    have hopen := runLine_hunkHeader hp (by decide) hs (hunkHeader_delete _ _)
    refine ⟨_, steps_cons_ok hopen [], ?_, rfl, rfl⟩
    apply ready_of_last <;> simp [pushHunk]
  | update path movePath body =>
    have hopen := runLine_hunkHeader hp (by decide) hs.1 (hunkHeader_update _ _)
    obtain ⟨q₁, hq₁, hstate₁⟩ := runLines_moveTo (p := { nextLine p with
      state := pushHunk p (.updateFile (trimEnd path) none [], .updateFile (p.lineNumber + 1)) })
      rfl rfl hs.2.1
    obtain ⟨q, hq, hstate, hfinal⟩ := runLines_body (p := q₁) (congrArg (·.mode) hstate₁)
      (congrArg (·.hunks) hstate₁) hs.2.2
    rw [hstate₁] at hstate
    refine ⟨q, ?_, ?_, ?_, ?_⟩
    · rw [runLines, PatchSection.print, map_cons, steps_cons_ok hopen, map_append,
        steps_append_ok hq₁]
      exact hq
    · apply ready_of_last
      · simp [hstate, pushHunk]
      · simp [hstate, pushHunk]
      · intro path' movePath' chunks hlast
        simp only [hstate, getLast?_concat, Option.some.injEq, Hunk.updateFile.injEq] at hlast
        rw [← hlast.2.2]
        exact hfinal
    all_goals
      rw [hstate]
      rfl

/-- Sections are read one after the other. -/
lemma runLines_sections (hp : Ready p) {ss : List PatchSection} (hss : ∀ s ∈ ss, s.Placed) :
    ∃ q, runLines p ((ss.flatMap PatchSection.print).map stored) = (q, none) ∧ Ready q ∧
      q.state.hunks = p.state.hunks ++ ss.map PatchSection.toHunk ∧
      q.state.environmentId = p.state.environmentId := by
  induction ss generalizing p with
  | nil => exact ⟨p, rfl, hp, by simp, rfl⟩
  | cons s ss ih =>
    obtain ⟨q₁, hq₁, hready, hhunks, henv⟩ := runLines_section hp (hss s (by simp))
    obtain ⟨q, hq, hready', hhunks', henv'⟩ := ih hready fun s' hs' => hss s' (by simp [hs'])
    refine ⟨q, ?_, hready', ?_, henv'.trans henv⟩
    · rw [runLines, flatMap_cons, map_append, steps_append_ok hq₁]
      exact hq
    · rw [hhunks', hhunks]
      simp

end StreamingPatchParser

/-! ### A whole patch -/

/-- The line that names the environment. -/
def environmentLine (name : Text) : Text := (environmentIdMarker ++ [' ']) ++ name

/-- The lines between the markers of a patch. -/
def patchLines (environment : Option Text) (sections : List PatchSection) : List Text :=
  (environment.map environmentLine).toList ++ sections.flatMap PatchSection.print

/-- The three ways of opening a heredoc. -/
inductive Heredoc where
  | bare
  | singleQuoted
  | doubleQuoted
deriving DecidableEq, Repr

def Heredoc.start : Heredoc → Text
  | .bare => "<<EOF".toList
  | .singleQuoted => "<<'EOF'".toList
  | .doubleQuoted => "<<\"EOF\"".toList

def heredocEnd : Text := "EOF".toList

/-- The text of a patch, which may stand in a heredoc and may end in a newline. -/
def patchText (environment : Option Text) (sections : List PatchSection)
    (heredoc : Option Heredoc) (newline : Bool) : Text :=
  let blanks := if newline then ['\n'] else []
  match heredoc with
  | none => unlines (beginPatchMarker :: patchLines environment sections) ++
      (endPatchMarker ++ blanks)
  | some h =>
    unlines (h.start :: (beginPatchMarker :: patchLines environment sections ++ [endPatchMarker])) ++
      (heredocEnd ++ blanks)

variable {environment : Option Text}

namespace StreamingPatchParser

lemma ready_started : Ready started :=
  ready_of_last (by decide) (by decide) (by simp [started])

lemma runLines_environment (henv : ∀ name ∈ environment, ¬ Blank name) :
    ∃ q, runLines started ((environment.map environmentLine).toList.map stored) = (q, none) ∧
      Ready q ∧ q.state.hunks = [] ∧ q.state.environmentId = environment.map trim := by
  cases environment with
  | none => exact ⟨started, rfl, ready_started, rfl, rfl⟩
  | some name =>
    have hid : ((environmentIdMarker ++ [' ']) ++ trimEnd name).dropPrefix?
        environmentIdMarker = some (' ' :: trimEnd name) := by
      rw [List.append_assoc]
      exact dropPrefix?_append _ _
    have htrim : trim (' ' :: trimEnd name) = trim name := by
      rw [← trim_trimEnd name]
      exact trim_blank_append (a := [' ']) (by decide) _
    have hne : trim (' ' :: trimEnd name) ≠ [] := by
      rw [htrim, Ne, trim_eq_nil_iff]
      exact henv name rfl
    have hstep : LineStep (nextLine started) (stored (environmentLine name)) _ :=
      .header (by decide) (by decide) (by
        rw [environmentLine, headerText_marker (by decide) (henv name rfl)]
        exact handleHunkHeadersAndEndPatch_eq_some_iff.2
          (.environment (' ' :: trimEnd name) rfl hid rfl hne))
    refine ⟨_, steps_cons_ok (runLine_of_step hstep) [], ?_, rfl, congrArg some htrim⟩
    exact ready_of_last (by simp [nextLine, started]) (by simp [nextLine, started])
      (by simp [nextLine, started])

end StreamingPatchParser

/-- The boundary check drops the two lines of a heredoc. -/
lemma checkPatchBoundariesLenient_heredoc {first last : Text} {mids : List Text}
    (hfirst : trim first = beginPatchMarker) (hlast : trim last = endPatchMarker) (h : Heredoc) :
    checkPatchBoundariesLenient (h.start :: (first :: mids ++ [last]) ++ [heredocEnd]) =
      .ok (first :: mids ++ [last]) := by
  have hhead : trim h.start ≠ beginPatchMarker := by cases h <;> decide
  have herror : checkPatchBoundariesStrict (h.start :: (first :: mids ++ [last]) ++ [heredocEnd]) =
      .error (.invalidPatchError firstLineMessage) := by
    have hend : (h.start :: (first :: mids ++ [last]) ++ [heredocEnd]).getLast? =
        some heredocEnd := getLast?_concat ..
    rw [checkPatchBoundariesStrict, hend]
    simp [checkStartAndEndLinesStrict, hhead, bind, Except.bind]
  have hmem : h.start ∈ heredocStart := by cases h <;> decide
  have hstrict := @checkPatchBoundariesStrict_eq first last mids hfirst hlast
  have hdrop : (first :: (mids ++ [last] ++ [heredocEnd])).dropLast = first :: mids ++ [last] := by
    rw [← cons_append, ← cons_append, dropLast_concat]
  rw [checkPatchBoundariesLenient, herror]
  simp only [cons_append]
  rw [if_pos, hdrop, hstrict]
  · rfl
  · refine ⟨hmem, ?_, by simp⟩
    simp [heredocEnd]

variable {sections : List PatchSection}

/-- The lines that the boundary check of `parse_patch` lets through. -/
lemma checkPatchBoundariesLenient_patchText
    (hnl : ∀ l ∈ patchLines environment sections, '\n' ∉ l) (heredoc : Option Heredoc)
    (newline : Bool) :
    checkPatchBoundariesLenient (lines (trim (patchText environment sections heredoc newline))) =
      .ok (beginPatchMarker :: (patchLines environment sections).map stripCr ++
        [endPatchMarker]) := by
  have hblanks : Blank (if newline then ['\n'] else []) := by cases newline <;> decide
  have hbegin : '\n' ∉ beginPatchMarker := by decide
  have hend : '\n' ∉ endPatchMarker := by decide
  cases heredoc with
  | none =>
    have hlines : lines (trim (patchText environment sections none newline)) =
        beginPatchMarker :: (patchLines environment sections).map stripCr ++ [endPatchMarker] :=
      lines_trim_unlines (by decide) (by decide) hblanks
        (by simpa [hbegin, hend, or_imp, forall_and] using hnl)
    rw [hlines, checkPatchBoundariesLenient, checkPatchBoundariesStrict_eq (by decide) (by decide)]
  | some h =>
    have hstart : '\n' ∉ h.start ∧ ¬ Blank h.start ∧ stripCr (trimStart h.start) = h.start := by
      cases h <;> decide
    have hEnd : '\n' ∉ heredocEnd := by decide
    have hlines : lines (trim (patchText environment sections (some h) newline)) =
        h.start :: (beginPatchMarker :: (patchLines environment sections).map stripCr ++
          [endPatchMarker]) ++ [heredocEnd] := by
      have hall : ∀ l ∈ h.start :: (beginPatchMarker :: patchLines environment sections ++
          [endPatchMarker]) ++ [heredocEnd], '\n' ∉ l := by
        simpa [hbegin, hend, hEnd, hstart.1, or_imp, forall_and] using hnl
      have hraw := lines_trim_unlines hstart.2.1 (by decide) hblanks hall
      have hmarkers : stripCr beginPatchMarker = beginPatchMarker ∧
          stripCr endPatchMarker = endPatchMarker ∧ trimEnd heredocEnd = heredocEnd := by decide
      simpa [patchText, hstart.2.2, hmarkers] using hraw
    rw [hlines, checkPatchBoundariesLenient_heredoc (by decide) (by decide)]

lemma patchLines_oneLine
    (hname : ∀ name ∈ environment, '\n' ∉ name) (hsections : ∀ s ∈ sections, s.OneLine) :
    ∀ l ∈ patchLines environment sections, '\n' ∉ l := by
  intro l hl
  simp only [patchLines, mem_append, mem_flatMap] at hl
  rcases hl with hl | ⟨s, hs, hl⟩
  · cases environment with
    | none => simp at hl
    | some name =>
      have hmarker : '\n' ∉ environmentIdMarker ++ [' '] := by decide
      rw [Option.map_some, Option.toList_some, mem_singleton] at hl
      rw [hl, environmentLine, mem_append]
      exact not_or.2 ⟨hmarker, hname name rfl⟩
  · exact PatchSection.print_oneLine (hsections s hs) l hl

open StreamingPatchParser in
/-- **Sections between the markers are read as their hunks.** -/
theorem parsePatch_sections (hname : ∀ name ∈ environment, ¬ Blank name ∧ '\n' ∉ name)
    (hsections : ∀ s ∈ sections, s.Placed ∧ s.OneLine) (heredoc : Option Heredoc) (newline : Bool) :
    parsePatch (patchText environment sections heredoc newline) =
      .ok ⟨joinNewline (beginPatchMarker :: (patchLines environment sections).map stripCr ++
          [endPatchMarker]), sections.map PatchSection.toHunk, none, environment.map trim⟩ := by
  have hnl := patchLines_oneLine (fun name h => (hname name h).2) fun s hs => (hsections s hs).2
  have hbound := checkPatchBoundariesLenient_patchText hnl heredoc newline
  have hnl' : ∀ l ∈ beginPatchMarker :: (patchLines environment sections).map stripCr ++
      [endPatchMarker], '\n' ∉ l := by
    intro l hl
    rcases mem_append.1 hl with hl | hl
    · rcases mem_cons.1 hl with rfl | hl
      · decide
      · obtain ⟨l', hl', rfl⟩ := mem_map.1 hl
        exact fun h => hnl l' hl' (mem_of_mem_stripCr h)
    · rw [mem_singleton.1 hl]
      decide
  obtain ⟨q₁, hq₁, hready₁, hhunks₁, henv₁⟩ := runLines_environment fun name h => (hname name h).1
  obtain ⟨q, hq, hready, hhunks, henv⟩ := runLines_sections hready₁ fun s hs =>
    (hsections s hs).1
  have hrun : runLines started (((patchLines environment sections).map stripCr).map stripCr) =
      (q, none) := by
    have hstored : ((patchLines environment sections).map stripCr).map stripCr =
        (environment.map environmentLine).toList.map stored ++
          (sections.flatMap PatchSection.print).map stored := by
      rw [map_map, patchLines, map_append]
      rfl
    rw [hstored, runLines, steps_append_ok hq₁]
    exact hq
  rw [parsePatch_of_lines hbound hnl' (by decide) (by decide) hrun (hready.notEmpty _), hhunks,
    hhunks₁, henv, henv₁, nil_append]

end TokenCode.ApplyPatch
