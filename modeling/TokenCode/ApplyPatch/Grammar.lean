/-
The documented grammar of patches (the comment at the head of `apply-patch/src/parser.rs`).

The types of this file are the derivation trees of the grammar, production by production. Not
every derivable text is accepted: the parser asks every update for a change (the grammar has
`change?`), every context header for a line behind it (the grammar lets them follow each other),
and every `filename` for more than whitespace. `parsePatch_derivation` says that nothing else is
asked for.
-/
import TokenCode.ApplyPatch.PatchFormat

namespace TokenCode.ApplyPatch

open List Option Text StreamingPatchParser

/-! ### Derivations -/

/-- A match of `/(.+)/`. -/
structure DotPlus where
  text : Text
  notEmpty : text ≠ []
  noNewline : '\n' ∉ text

/-- `change_context: ("@@" | "@@ " /(.+)/) LF` and `change_line: ("+" | "-" | " ") /(.+)/ LF`. -/
inductive ChangeItem where
  | changeContext (text : Option DotPlus)
  | changeLine (sign : Sign) (text : DotPlus)

/-- `change: (change_context | change_line)+ eof_line?`. -/
structure Change where
  items : List ChangeItem
  notEmpty : items ≠ []
  eofLine : Bool

/-- `hunk: add_hunk | delete_hunk | update_hunk`, where
`add_hunk: "*** Add File: " filename LF add_line+`,
`delete_hunk: "*** Delete File: " filename LF` and
`update_hunk: "*** Update File: " filename LF change_move? change?`. -/
inductive HunkDerivation where
  | addHunk (filename : DotPlus) (lines : List DotPlus) (notEmpty : lines ≠ [])
  | deleteHunk (filename : DotPlus)
  | updateHunk (filename : DotPlus) (changeMove : Option DotPlus) (change : Option Change)

/-- `start: begin_patch environment_id? hunk+ end_patch`, where
`end_patch: "*** End Patch" LF?`. -/
structure PatchDerivation where
  environmentId : Option DotPlus
  hunks : List HunkDerivation
  notEmpty : hunks ≠ []
  endsInLf : Bool

/-! ### The derived text -/

def ChangeItem.toBodyLine : ChangeItem → BodyLine
  | .changeContext text => .header (text.map (·.text))
  | .changeLine sign text => .line sign text.text

def Change.body (c : Change) : List BodyLine :=
  c.items.map ChangeItem.toBodyLine ++ if c.eofLine then [.endOfFile] else []

def HunkDerivation.toSection : HunkDerivation → PatchSection
  | .addHunk filename lines _ => .add filename.text (lines.map (·.text))
  | .deleteHunk filename => .delete filename.text
  | .updateHunk filename changeMove change =>
    .update filename.text (changeMove.map (·.text)) (change.elim [] Change.body)

def PatchDerivation.text (d : PatchDerivation) : Text :=
  patchText (d.environmentId.map (·.text)) (d.hunks.map HunkDerivation.toSection) none d.endsInLf

/-- The hunk that a derived hunk is read as. -/
def HunkDerivation.toHunk (d : HunkDerivation) : Hunk := d.toSection.toHunk

/-! ### What the parser asks for -/

/-- Every context header is directly followed by a line. -/
def headersFollowed : List ChangeItem → Bool
  | [] => true
  | .changeContext _ :: .changeLine _ _ :: items => headersFollowed items
  | .changeContext _ :: _ => false
  | .changeLine _ _ :: items => headersFollowed items

/-- The names of the hunk are not blank, and an update has a change whose headers are followed. -/
def HunkDerivation.Readable : HunkDerivation → Prop
  | .addHunk filename _ _ => ¬ Blank filename.text
  | .deleteHunk filename => ¬ Blank filename.text
  | .updateHunk filename changeMove change =>
    ¬ Blank filename.text ∧ (∀ dest ∈ changeMove, ¬ Blank dest.text) ∧
      ∃ c, change = some c ∧ headersFollowed c.items = true

structure PatchDerivation.Readable (d : PatchDerivation) : Prop where
  environmentId : ∀ name ∈ d.environmentId, ¬ Blank name.text
  hunks : ∀ h ∈ d.hunks, h.Readable

/-! ### Reading a change -/

/-- The chunks can take any line: the last one is neither empty nor at the end of the file. -/
def Free (cs : List UpdateFileChunk) : Prop := atEof cs = false ∧ lastIsEmpty cs = false

open BodyLine (line effect header)

/-- A line fills the last chunk. -/
lemma free_line (sign : Sign) (text : Text) {cs : List UpdateFileChunk} (hcs : atEof cs = false) :
    (line sign text).effect.chunks cs ≠ [] ∧
      Free ((line sign text).effect.chunks cs) := by
  rcases cs.eq_nil_or_concat with rfl | ⟨init, c, rfl⟩
  · cases sign <;> exact ⟨by simp [effect, LineEffect.chunks, changeLastChunk], rfl, rfl⟩
  · have hc : c.isEndOfFile = false := by simpa [atEof] using hcs
    cases sign <;>
      simp [effect, LineEffect.chunks, changeLastChunk, Free, atEof, lastIsEmpty, hc,
        UpdateFileChunk.isEmpty]

/-- A header opens a chunk. -/
lemma effect_header (ctx : Option Text) (cs : List UpdateFileChunk) :
    ∃ ctx', (header ctx).effect.chunks cs = cs ++ [.opened ctx'] := by
  cases ctx with
  | none => exact ⟨none, rfl⟩
  | some ctx =>
    by_cases hblank : Blank ctx
    · exact ⟨none, by simp [effect, hblank, LineEffect.chunks]⟩
    · exact ⟨some (trimEnd ctx), by simp [effect, hblank, LineEffect.chunks]⟩

/-- The items of a change lead to chunks that can take any line. -/
lemma leads_items {items : List ChangeItem} (hitems : headersFollowed items = true)
    {cs : List UpdateFileChunk} (hcs : Free cs) :
    ∃ cs', Leads cs (items.map ChangeItem.toBodyLine) cs' ∧ Free cs' ∧
      (cs ≠ [] ∨ items ≠ [] → cs' ≠ []) := by
  fun_induction headersFollowed items generalizing cs with
  | case1 => exact ⟨cs, .nil cs, hcs, by simp⟩
  | case2 ctx sign text items ih =>
    obtain ⟨ctx', hopened⟩ := effect_header (ctx.map (·.text)) cs
    have heof : atEof (cs ++ [.opened ctx']) = false := by simp [atEof, UpdateFileChunk.opened]
    obtain ⟨hne, hfree⟩ := free_line sign text.text heof
    obtain ⟨cs', hleads, hfree', hne'⟩ := ih hitems hfree
    refine ⟨cs', .cons hcs.2 ?_, hfree', fun _ => hne' (Or.inl hne)⟩
    show Leads ((header (ctx.map (·.text))).effect.chunks cs) _ _
    rw [hopened]
    exact .cons heof hleads
  | case3 => simp at hitems
  | case4 sign text items ih =>
    obtain ⟨hne, hfree⟩ := free_line sign text.text hcs.1
    obtain ⟨cs', hleads, hfree', hne'⟩ := ih hitems hfree
    exact ⟨cs', .cons hcs.1 hleads, hfree', fun _ => hne' (Or.inl hne)⟩

lemma Change.bodyPlaced {c : Change} (hc : headersFollowed c.items = true) :
    BodyPlaced [] c.body := by
  have hnil : Free [] := ⟨rfl, rfl⟩
  obtain ⟨cs, hleads, hfree, hne⟩ := leads_items hc hnil
  have hcs : cs ≠ [] := hne (Or.inr c.notEmpty)
  rcases cs.eq_nil_or_concat' with rfl | ⟨init, chunk, rfl⟩
  · exact absurd rfl hcs
  unfold Change.body
  split_ifs
  · -- the end-of-file marker keeps the lines of the last chunk
    refine (hleads.append (.cons (b := .endOfFile) hfree (.nil _))).bodyPlaced ?_ ?_
    · simp [effect, LineEffect.chunks, changeLastChunk]
    · simpa [effect, LineEffect.chunks, changeLastChunk, lastIsEmpty,
        UpdateFileChunk.isEmpty] using hfree.2
  · rw [append_nil]
    exact hleads.bodyPlaced hcs hfree.2

lemma ChangeItem.oneLine (item : ChangeItem) : item.toBodyLine.OneLine := by
  cases item with
  | changeContext text =>
    intro t ht
    obtain ⟨l, -, rfl⟩ := Option.mem_map.1 ht
    exact l.noNewline
  | changeLine sign text => exact text.noNewline

lemma Change.body_oneLine (c : Change) : ∀ b ∈ c.body, b.OneLine := by
  intro b hb
  rcases mem_append.1 hb with hb | hb
  · obtain ⟨item, -, rfl⟩ := List.mem_map.1 hb
    exact item.oneLine
  · split_ifs at hb
    · rw [mem_singleton.1 hb]
      trivial
    · simp at hb

/-! ### Reading a derivation -/

lemma HunkDerivation.placed {d : HunkDerivation} (h : d.Readable) : d.toSection.Placed := by
  cases d with
  | addHunk | deleteHunk => exact h
  | updateHunk filename changeMove change =>
    obtain ⟨hname, hmove, c, rfl, hc⟩ := h
    refine ⟨hname, ?_, c.bodyPlaced hc⟩
    intro dest hdest
    obtain ⟨l, hl, rfl⟩ := Option.mem_map.1 hdest
    exact hmove l hl

lemma HunkDerivation.oneLine (d : HunkDerivation) : d.toSection.OneLine := by
  cases d with
  | addHunk filename lines notEmpty =>
    refine ⟨filename.noNewline, ?_⟩
    intro l hl
    obtain ⟨line, -, rfl⟩ := List.mem_map.1 hl
    exact line.noNewline
  | deleteHunk filename => exact filename.noNewline
  | updateHunk filename changeMove change =>
    refine ⟨filename.noNewline, ?_, ?_⟩
    · intro dest hdest
      obtain ⟨l, -, rfl⟩ := Option.mem_map.1 hdest
      exact l.noNewline
    · cases change with
      | none => simp
      | some c => exact c.body_oneLine

/-- **The grammar is read.**  A text derived from the grammar is accepted, with one hunk for each
derived hunk, in order, when its names are not blank, its updates have a change, and its context
headers are followed by a line. -/
theorem parsePatch_derivation (d : PatchDerivation) (h : d.Readable) :
    ∃ args, parsePatch d.text = .ok args ∧ args.hunks = d.hunks.map HunkDerivation.toHunk ∧
      args.environmentId = d.environmentId.map (trim ·.text) := by
  have hname : ∀ name ∈ d.environmentId.map (·.text), ¬ Blank name ∧ '\n' ∉ name := by
    intro name hname
    obtain ⟨l, hl, rfl⟩ := Option.mem_map.1 hname
    exact ⟨h.environmentId l hl, l.noNewline⟩
  have hsections : ∀ s ∈ d.hunks.map HunkDerivation.toSection, s.Placed ∧ s.OneLine := by
    intro s hs
    obtain ⟨hunk, hhunk, rfl⟩ := List.mem_map.1 hs
    exact ⟨HunkDerivation.placed (h.hunks hunk hhunk), hunk.oneLine⟩
  refine ⟨_, parsePatch_sections hname hsections none d.endsInLf, ?_, ?_⟩
  · simp [Function.comp_def, HunkDerivation.toHunk]
  · simp [Function.comp_def]

/-- A derivation with every production in it. -/
def sampleDerivation : PatchDerivation where
  environmentId := some ⟨"remote".toList, by decide, by decide⟩
  hunks :=
    [.addHunk ⟨"a".toList, by decide, by decide⟩ [⟨"x".toList, by decide, by decide⟩] (by simp),
      .deleteHunk ⟨"b".toList, by decide, by decide⟩,
      .updateHunk ⟨"c".toList, by decide, by decide⟩ (some ⟨"d".toList, by decide, by decide⟩)
        (some ⟨[.changeLine .removed ⟨"y".toList, by decide, by decide⟩,
          .changeContext (some ⟨"f".toList, by decide, by decide⟩),
          .changeLine .added ⟨"z".toList, by decide, by decide⟩], by simp, true⟩)]
  notEmpty := by simp
  endsInLf := true

theorem parsePatch_sampleDerivation : ∃ args, parsePatch sampleDerivation.text = .ok args ∧
      args.hunks = [.addFile "a".toList "x\n".toList, .deleteFile "b".toList,
        .updateFile "c".toList (some "d".toList)
          [⟨none, ["y".toList], [], false⟩, ⟨some "f".toList, [], ["z".toList], true⟩]] ∧
      args.environmentId = some "remote".toList := by
  have hreadable : sampleDerivation.Readable := by
    constructor
    · intro name hname
      obtain rfl := mem_some_iff.1 hname
      decide
    · intro hunk hhunk
      simp only [sampleDerivation, mem_cons, not_mem_nil, or_false] at hhunk
      rcases hhunk with rfl | rfl | rfl
      · show ¬ Blank "a".toList
        decide
      · show ¬ Blank "b".toList
        decide
      · refine ⟨by decide, ?_, _, rfl, rfl⟩
        intro dest hdest
        obtain rfl := mem_some_iff.1 hdest
        decide
  obtain ⟨args, hargs, hhunks, henv⟩ := parsePatch_derivation sampleDerivation hreadable
  refine ⟨args, hargs, hhunks.trans ?_, henv.trans ?_⟩
  all_goals decide +kernel

/-- A rename without a change: `update_hunk` with `change_move` and without `change`. -/
def renameOnly : PatchDerivation where
  environmentId := none
  hunks := [.updateHunk ⟨"a".toList, by decide, by decide⟩
    (some ⟨"b".toList, by decide, by decide⟩) none]
  notEmpty := by simp
  endsInLf := true

/-- The grammar derives a rename without a change, and the parser refuses it. -/
theorem parsePatch_renameOnly : renameOnly.text =
        ("*** Begin Patch\n*** Update File: a\n*** Move to: b\n*** End Patch\n").toList ∧
      parsePatch renameOnly.text = .error (.invalidHunkError (emptyHunkMessage "a".toList) 2) := by
  decide +kernel

end TokenCode.ApplyPatch
