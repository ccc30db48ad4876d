/-
The replacements of an update as edits of the list of lines (`compute_replacements` and
`apply_replacements` in `apply-patch/src/lib.rs`).

A replacement is an edit of the lines, and `apply_replacements` carries the edits out one after the
other, the last one first. Whether that is the same as carrying them out at once depends on where
the chunks were found. The running line index keeps the regions of ordinary chunks apart. Two
kinds of chunks ignore it: an end-of-file chunk is searched at the end of the file only, and a
pure addition is pinned to the end or to the final blank line.
-/
import TokenCode.ApplyPatch.Seek
import TokenCode.Lib.Pairing
import TokenCode.Lib.Splice

namespace TokenCode.ApplyPatch

open List hiding Disjoint

open Text
open scoped List

/-- A replacement, as an edit of the lines. -/
def Replacement.edit (r : Replacement) : Edit Text := ⟨r.startIndex, r.oldLen, r.newLines⟩

open Replacement (edit)

/-! ### Applying replacements -/

section

variable {lines first rest : List Text} {r : Replacement} {replacements : List Replacement}

lemma iterate_eraseIdx (start len : ℕ) (lines : List Text) :
    (fun ls : List Text => if start < ls.length then ls.eraseIdx start else ls)^[len] lines =
      lines.take start ++ lines.drop (start + len) := by
  induction len with
  | zero => simp
  | succ len ih =>
    rw [Function.iterate_succ_apply', ih]
    by_cases hlt : start + len < lines.length
    · rw [if_pos (by simp; omega), eraseIdx_append_of_length_le (by simp)]
      simp only [length_take, min_eq_left (show start ≤ lines.length by omega), Nat.sub_self]
      rw [eraseIdx_zero, tail_drop]
      rfl
    · rw [drop_of_length_le (by omega), drop_of_length_le (by omega)]
      simp

lemma foldl_insertIdx (newLines : List Text) (offset start : ℕ) (h : first.length = start + offset) :
    (newLines.zipIdx offset).foldl (fun ls new => ls.insertIdx (start + new.2) new.1)
      (first ++ rest) = first ++ (newLines ++ rest) := by
  induction newLines generalizing first offset with
  | nil => rfl
  | cons line newLines ih =>
    rw [zipIdx_cons, foldl_cons, ← h, Pairing.insertIdx_length_append]
    have hnext := @ih (first ++ [line]) (offset + 1) (by simp [h]; omega)
    simpa using hnext

/-- The loop body carries out the edit. -/
lemma applyReplacement_eq (h : r.startIndex ≤ lines.length) :
    applyReplacement lines r = r.edit.apply lines := by
  rw [applyReplacement, iterate_eraseIdx]
  exact foldl_insertIdx r.newLines 0 r.startIndex (by simp [h])

/-- In the order of their positions, the replacements are carried out as edits, the last first. -/
lemma applyReplacements_eq (hsorted : replacements.Pairwise fun a b => a.startIndex ≤ b.startIndex)
    (hbound : ∀ r ∈ replacements, r.startIndex ≤ lines.length) :
    applyReplacements lines replacements =
      (replacements.map edit).foldr Edit.apply lines := by
  rw [applyReplacements, foldl_reverse]
  induction replacements with
  | nil => rfl
  | cons r replacements ih =>
    obtain ⟨hfirst, hrest⟩ := pairwise_cons.1 hsorted
    rw [map_cons, foldr_cons, foldr_cons, ih hrest (forall_mem_cons.1 hbound).2]
    refine applyReplacement_eq (Edit.le_length_foldr ?_ (hbound r mem_cons_self))
    simpa [edit] using hfirst

end

/-! ### Locating chunks -/

/-- The loop of `compute_replacements`: the replacements in the order of the chunks. -/
def locateChunks (originalLines : List Text) (path : Text) (chunks : List UpdateFileChunk) :
    Except ApplyPatchError (List Replacement) :=
  (chunks.foldlM (computeReplacement originalLines path) ([], 0)).map Prod.fst

/-- `sort_by_key` on the start index. -/
def sortByStart (located : List Replacement) : List Replacement :=
  located.mergeSort fun a b => a.startIndex ≤ b.startIndex

lemma computeReplacements_eq (lines : List Text) (path : Text) (chunks : List UpdateFileChunk) :
    computeReplacements lines path chunks = (locateChunks lines path chunks).map sortByStart := by
  unfold computeReplacements locateChunks
  cases chunks.foldlM (computeReplacement lines path) ([], 0) <;> rfl

/-- Where a pure addition goes. -/
def insertionIndex (lines : List Text) : ℕ :=
  if lines.getLast? = some [] then lines.length - 1 else lines.length

/-- The replacement stands for the chunk: all of its lines, or all but the final empty ones. -/
def Replaces (chunk : UpdateFileChunk) (r : Replacement) : Prop :=
  (r.oldLen = chunk.oldLines.length ∧ r.newLines = chunk.newLines) ∨
    (chunk.oldLines.getLast? = some [] ∧ r.oldLen + 1 = chunk.oldLines.length ∧
      r.newLines = dropEmptyLast chunk.newLines)

section

variable {lines pattern : List Text} {start index : ℕ} {eof : Bool}

/-- **What a search finds** lies inside the file and does not end before the line that was searched
from. It does not begin before it either, unless the search is anchored at the end of the file, where
it then ends. -/
lemma seekSequence_bounds (h : seekSequence lines pattern start eof = some index)
    (hstart : start ≤ lines.length) :
    index + pattern.length ≤ lines.length ∧ start ≤ index + pattern.length ∧
      (eof = false ∨ pattern.length = 0 → start ≤ index) ∧
      (eof = true → 0 < pattern.length → index + pattern.length = lines.length) := by
  unfold seekSequence at h
  by_cases hempty : pattern = []
  · rw [if_pos hempty] at h
    cases h
    simp [hempty, hstart]
  by_cases hlong : lines.length < pattern.length
  · rw [if_neg hempty, if_pos hlong] at h
    cases h
  rw [if_neg hempty, if_neg hlong] at h
  simp only [Option.orElse_eq_some] at h
  have hbounds : (if eof ∧ pattern.length ≤ lines.length then lines.length - pattern.length
      else start) ≤ index ∧ index ≤ lines.length - pattern.length := by
    rcases h with h | ⟨-, h | ⟨-, h | ⟨-, h⟩⟩⟩
    all_goals exact seekPass_bounds h
  split_ifs at hbounds with heof
  · have hpos := length_pos_iff.2 hempty
    refine ⟨by omega, by omega, fun hcase => ?_, fun _ _ => by omega⟩
    rcases hcase with hfalse | hzero
    · cases heof.1.symm.trans hfalse
    · omega
  · refine ⟨by omega, by omega, fun _ => hbounds.1, fun htrue _ => ?_⟩
    exact absurd ⟨htrue, by omega⟩ heof

end

section

variable {lines : List Text} {path : Text} {chunk : UpdateFileChunk} {lineIndex : ℕ}
  {st next : List Replacement × ℕ} {r : Replacement}

lemma insertionIndex_le (lines : List Text) : insertionIndex lines ≤ lines.length := by
  unfold insertionIndex
  split_ifs <;> omega

lemma length_dropEmptyLast {pattern : List Text} (h : pattern.getLast? = some []) :
    (dropEmptyLast pattern).length + 1 = pattern.length := by
  have hne : pattern ≠ [] := by
    rintro rfl
    cases h
  have hpos := length_pos_iff.2 hne
  rw [dropEmptyLast, if_pos h, length_dropLast]
  omega

/-- Where a chunk with old lines is found. -/
lemma locateChunk_ok (h : locateChunk lines path chunk lineIndex = .ok r)
    (hindex : lineIndex ≤ lines.length) :
    Replaces chunk r ∧ r.startIndex + r.oldLen ≤ lines.length ∧
      lineIndex ≤ r.startIndex + r.oldLen ∧
      (chunk.isEndOfFile = false ∨ r.oldLen = 0 → lineIndex ≤ r.startIndex) ∧
      (chunk.isEndOfFile = true → 0 < r.oldLen → r.startIndex + r.oldLen = lines.length) := by
  unfold locateChunk at h
  cases hfound : seekSequence lines chunk.oldLines lineIndex chunk.isEndOfFile with
  | some startIndex =>
    simp only [hfound, Except.ok.injEq] at h
    subst h
    exact ⟨.inl ⟨rfl, rfl⟩, seekSequence_bounds hfound hindex⟩
  | none =>
    simp only [hfound] at h
    by_cases hlast : chunk.oldLines.getLast? = some []
    · rw [if_pos hlast] at h
      cases hretry : seekSequence lines (dropEmptyLast chunk.oldLines) lineIndex
          chunk.isEndOfFile with
      | some startIndex =>
        simp only [hretry, Except.ok.injEq] at h
        subst h
        exact ⟨.inr ⟨hlast, length_dropEmptyLast hlast, rfl⟩, seekSequence_bounds hretry hindex⟩
      | none => simp [hretry] at h
    · simp [hlast] at h

/-- The line to search from, behind the context of the chunk. -/
def contextIndex (lines : List Text) (path : Text) (chunk : UpdateFileChunk) (lineIndex : ℕ) :
    Except ApplyPatchError ℕ :=
  match chunk.changeContext with
  | none => .ok lineIndex
  | some ctxLine =>
    match seekSequence lines [ctxLine] lineIndex false with
    | some index => .ok (index + 1)
    | none => .error (.computeReplacements (contextNotFoundMessage ctxLine path))

/-- The replacement of a chunk whose context has been found. -/
def placeChunk (lines : List Text) (path : Text) (located : List Replacement)
    (chunk : UpdateFileChunk) (lineIndex : ℕ) :
    Except ApplyPatchError (List Replacement × ℕ) :=
  if chunk.oldLines = [] then
    .ok (located ++ [⟨insertionIndex lines, 0, chunk.newLines⟩], lineIndex)
  else (locateChunk lines path chunk lineIndex).map fun r =>
    (located ++ [r], r.startIndex + r.oldLen)

lemma computeReplacement_eq (lines : List Text) (path : Text) (st : List Replacement × ℕ)
    (chunk : UpdateFileChunk) : computeReplacement lines path st chunk =
      contextIndex lines path chunk st.2 >>= placeChunk lines path st.1 chunk := by
  unfold computeReplacement contextIndex
  cases chunk.changeContext with
  | none => rfl
  | some ctxLine =>
    simp only
    cases seekSequence lines [ctxLine] st.2 false <;> rfl

lemma contextIndex_ok {index : ℕ} (h : contextIndex lines path chunk lineIndex = .ok index)
    (hindex : lineIndex ≤ lines.length) : lineIndex ≤ index ∧ index ≤ lines.length := by
  unfold contextIndex at h
  cases hchange : chunk.changeContext with
  | none =>
    simp only [hchange, Except.ok.injEq] at h
    omega
  | some ctxLine =>
    cases hfound : seekSequence lines [ctxLine] lineIndex false with
    | none => simp [hchange, hfound] at h
    | some found =>
      simp only [hchange, hfound, Except.ok.injEq] at h
      obtain ⟨hbound, -, hbehind, -⟩ := seekSequence_bounds hfound hindex
      have hle := hbehind (.inl rfl)
      simp only [length_singleton] at hbound
      omega

/-- How a chunk is placed when the search goes on from the line index. -/
structure PlacedFrom (lines : List Text) (lineIndex : ℕ) (chunk : UpdateFileChunk) (r : Replacement) :
    Prop where
  inBounds : r.startIndex + r.oldLen ≤ lines.length
  addition : chunk.oldLines = [] → r.oldLen = 0 ∧ r.startIndex = insertionIndex lines
  behind : chunk.oldLines ≠ [] → chunk.isEndOfFile = false ∨ r.oldLen = 0 → lineIndex ≤ r.startIndex
  atEnd : chunk.isEndOfFile = true → 0 < r.oldLen → r.startIndex + r.oldLen = lines.length

/-- **One chunk.**  Its replacement is added behind the others. The line index does not go back, and
goes to the end of a chunk with old lines. -/
lemma computeReplacement_ok (h : computeReplacement lines path st chunk = .ok next)
    (hindex : st.2 ≤ lines.length) :
    ∃ r, next.1 = st.1 ++ [r] ∧ Replaces chunk r ∧ st.2 ≤ next.2 ∧ next.2 ≤ lines.length ∧
      PlacedFrom lines st.2 chunk r ∧
      (chunk.oldLines ≠ [] → r.startIndex + r.oldLen ≤ next.2) := by
  rw [computeReplacement_eq] at h
  obtain ⟨lineIndex, hcontext, h⟩ := except_bind_eq_ok.1 h
  obtain ⟨hmono, hle⟩ := contextIndex_ok hcontext hindex
  unfold placeChunk at h
  by_cases hempty : chunk.oldLines = []
  · rw [if_pos hempty] at h
    obtain rfl := Except.ok.inj h
    refine ⟨_, rfl, .inl ⟨by simp [hempty], rfl⟩, hmono, hle, ⟨?_, fun _ => ⟨rfl, rfl⟩, ?_, nofun⟩, ?_⟩
    · exact insertionIndex_le lines
    · exact fun hne => absurd hempty hne
    · exact fun hne => absurd hempty hne
  · rw [if_neg hempty] at h
    cases hlocate : locateChunk lines path chunk lineIndex with
    | error err => simp [hlocate, Except.map] at h
    | ok r =>
      obtain rfl : _ = next := by simpa [hlocate, Except.map] using h
      obtain ⟨hreplaces, hbound, hend, hbehind, hatEnd⟩ := locateChunk_ok hlocate hle
      exact ⟨r, rfl, hreplaces, hmono.trans hend, hbound,
        ⟨hbound, fun hnil => absurd hnil hempty, fun _ hcase => hmono.trans (hbehind hcase), hatEnd⟩,
        fun _ => le_rfl⟩

/-- The chunks in the order of the patch, with the places where they were found. -/
structure Placed (lines : List Text) (placed : List (UpdateFileChunk × Replacement)) (lineIndex : ℕ) :
    Prop where
  index_le : lineIndex ≤ lines.length
  each : ∀ p ∈ placed, PlacedFrom lines 0 p.1 p.2
  /-- The line index is behind every chunk with old lines. -/
  passed : ∀ p ∈ placed, p.1.oldLines ≠ [] → p.2.startIndex + p.2.oldLen ≤ lineIndex
  /-- So is every later chunk that is not searched at the end of the file. -/
  ordered : placed.Pairwise fun a b => a.1.oldLines ≠ [] → b.1.oldLines ≠ [] →
    b.1.isEndOfFile = false ∨ b.2.oldLen = 0 → a.2.startIndex + a.2.oldLen ≤ b.2.startIndex

lemma Placed.nil (lines : List Text) : Placed lines [] 0 :=
  ⟨Nat.zero_le _, by simp, by simp, .nil⟩

variable {placed : List (UpdateFileChunk × Replacement)}

lemma Placed.step (hst : Placed lines placed st.2)
    (h : computeReplacement lines path st chunk = .ok next) :
    ∃ r, next.1 = st.1 ++ [r] ∧ Replaces chunk r ∧ Placed lines (placed ++ [(chunk, r)]) next.2 := by
  obtain ⟨r, hnext, hreplaces, hmono, hle, hplace, hpassed⟩ := computeReplacement_ok h hst.index_le
  refine ⟨r, hnext, hreplaces, hle, ?_, ?_, ?_⟩
  · refine forall_mem_append.2 ⟨hst.each, forall_mem_singleton.2 ?_⟩
    exact ⟨hplace.inBounds, hplace.addition, fun _ _ => Nat.zero_le _, hplace.atEnd⟩
  · refine forall_mem_append.2 ⟨fun p hp hne => (hst.passed p hp hne).trans hmono, ?_⟩
    exact forall_mem_singleton.2 hpassed
  · refine pairwise_append.2 ⟨hst.ordered, pairwise_singleton _ _, fun a ha b hb hane hbne hcase => ?_⟩
    obtain rfl := mem_singleton.1 hb
    exact (hst.passed a ha hane).trans (hplace.behind hbne hcase)

/-- All the chunks. -/
lemma Placed.foldlM {chunks : List UpdateFileChunk} (hst : Placed lines placed st.2)
    (h : chunks.foldlM (computeReplacement lines path) st = .ok next) :
    ∃ located, next.1 = st.1 ++ located ∧ List.Forall₂ Replaces chunks located ∧
      Placed lines (placed ++ chunks.zip located) next.2 := by
  induction chunks generalizing st placed with
  | nil =>
    obtain rfl := Except.ok.inj h
    exact ⟨[], by simp, .nil, by simpa using hst⟩
  | cons chunk chunks ih =>
    obtain ⟨mid, hmid, h⟩ := except_bind_eq_ok.1 h
    obtain ⟨r, hr, hreplaces, hplaced⟩ := hst.step hmid
    obtain ⟨located, hrest, hall, hend⟩ := ih hplaced h
    refine ⟨r :: located, by simp [hrest, hr], .cons hreplaces hall, ?_⟩
    simpa using hend

lemma locateChunks_ok {chunks : List UpdateFileChunk} {located : List Replacement}
    (h : locateChunks lines path chunks = .ok located) :
    List.Forall₂ Replaces chunks located ∧
      ∃ lineIndex, Placed lines (chunks.zip located) lineIndex := by
  unfold locateChunks at h
  cases hfold : chunks.foldlM (computeReplacement lines path) ([], 0) with
  | error err => simp [hfold, Except.map] at h
  | ok next =>
    obtain rfl : next.1 = located := by simpa [hfold, Except.map] using h
    obtain ⟨located, hnext, hall, hplaced⟩ := @Placed.foldlM lines path ([], 0) next [] chunks
      (.nil lines) hfold
    rw [nil_append] at hnext
    subst hnext
    exact ⟨hall, _, hplaced⟩

/-- What the splice needs to know about the replacements. -/
structure Located (lines : List Text) (located : List Replacement) : Prop where
  inBounds : ∀ r ∈ located, r.startIndex + r.oldLen ≤ lines.length
  /-- An insertion of a later chunk is behind the region, or pinned. -/
  insertions : located.Pairwise fun a b => 0 < a.oldLen → b.oldLen = 0 →
    a.startIndex + a.oldLen ≤ b.startIndex ∨ b.startIndex = insertionIndex lines

/-- Only a chunk with old lines has a region. -/
lemma PlacedFrom.oldLines_ne_nil (h : PlacedFrom lines lineIndex chunk r) (hpos : 0 < r.oldLen) :
    chunk.oldLines ≠ [] := fun hnil => by
  have := (h.addition hnil).1
  omega

lemma Placed.located (h : Placed lines placed lineIndex) : Located lines (placed.map Prod.snd) := by
  refine ⟨?_, pairwise_map.2 (h.ordered.imp_of_mem fun {a b} ha hb hab hpos hzero => ?_)⟩
  · intro r hr
    obtain ⟨p, hp, rfl⟩ := mem_map.1 hr
    exact (h.each p hp).inBounds
  · by_cases hnil : b.1.oldLines = []
    · exact .inr ((h.each b hb).addition hnil).2
    · exact .inl (hab ((h.each a ha).oldLines_ne_nil hpos) hnil (.inr hzero))

end

/-! ### Sorting -/

section

variable {lines : List Text} {located : List Replacement} {a b : Replacement} (located)

lemma sortByStart_perm : (sortByStart located).Perm located :=
  mergeSort_perm ..

lemma sortByStart_sorted :
    (sortByStart located).Pairwise fun a b => a.startIndex ≤ b.startIndex := by
  have hsorted := @pairwise_mergeSort _ (fun a b : Replacement => a.startIndex ≤ b.startIndex)
    (by simpa using fun _ _ _ => le_trans) (by simpa using fun _ _ => le_total _ _) located
  simpa [sortByStart] using hsorted

/-- The sort is stable: replacements that begin at one line stay in the order of their chunks. -/
lemma filter_sortByStart (i : ℕ) :
    (sortByStart located).filter (·.startIndex = i) = located.filter (·.startIndex = i) := by
  have hequal : (located.filter (·.startIndex = i)).Pairwise fun a b =>
      decide (a.startIndex ≤ b.startIndex) = true := by
    refine pairwise_of_forall_mem_list fun a ha b hb => ?_
    simp only [mem_filter, decide_eq_true_eq] at ha hb
    simp [ha.2, hb.2]
  have hsublist : located.filter (·.startIndex = i) <+ sortByStart located :=
    sublist_mergeSort (by simpa using fun _ _ _ => le_trans)
      (by simpa using fun _ _ => le_total _ _) hequal filter_sublist
  have hfiltered := hsublist.filter (·.startIndex = i)
  simp only [filter_filter, Bool.and_self] at hfiltered
  exact (hfiltered.eq_of_length ((sortByStart_perm located).filter _).length_eq.symm).symm

variable {located}

lemma sublist_of_sortByStart (h : [a, b] <+ sortByStart located)
    (hstart : a.startIndex = b.startIndex) : [a, b] <+ located := by
  have hfiltered := h.filter (·.startIndex = b.startIndex)
  rw [filter_sortByStart] at hfiltered
  simp only [filter_cons, hstart, decide_true, if_true, filter_nil] at hfiltered
  exact hfiltered.trans filter_sublist

/-- Only the order at equal positions matters for carrying all out at once. -/
lemma splice_sortByStart (lines : List Text) (located : List Replacement) :
    Edit.splice lines ((sortByStart located).map edit) =
      Edit.splice lines (located.map edit) := by
  refine flatMap_congr fun i _ => ?_
  have hnew : Edit.newAt ((sortByStart located).map edit) i =
      Edit.newAt (located.map edit) i := by
    have hfilter := congrArg (List.map edit) (filter_sortByStart located i)
    simp only [Edit.newAt, filter_map]
    exact congrArg (List.flatMap Edit.new) hfilter
  have hcovers : (∃ e ∈ (sortByStart located).map edit, e.Covers i) ↔
      ∃ e ∈ located.map edit, e.Covers i := by
    simp [(sortByStart_perm located).mem_iff]
  simp only [Edit.piece, hnew, hcovers]

/-! ### Regions that meet -/

/-- **A clean set of replacements.**  The regions are disjoint and inside the file, no insertion
falls inside a region, and applying the replacements in sorted order carries them all out at
once. -/
structure CleanSplice (lines : List Text) (located : List Replacement) : Prop where
  disjoint : located.Pairwise fun a b =>
    Disjoint (Set.Ico a.startIndex (a.startIndex + a.oldLen))
      (Set.Ico b.startIndex (b.startIndex + b.oldLen))
  inBounds : ∀ r ∈ located, r.startIndex + r.oldLen ≤ lines.length
  noneInside : ∀ a ∈ located, ∀ b ∈ located, b.oldLen = 0 →
    ¬ (a.startIndex < b.startIndex ∧ b.startIndex < a.startIndex + a.oldLen)
  spliced : applyReplacements lines (sortByStart located) =
    Edit.splice lines (located.map Replacement.edit)

/-- The first region ends before the second replacement begins, or the second one adds blank lines
only, at the line where the first region begins. -/
def Apart (a b : Replacement) : Prop :=
  a.startIndex + a.oldLen ≤ b.startIndex ∨
    (a.startIndex = b.startIndex ∧ b.oldLen = 0 ∧ ∀ line ∈ b.newLines, line = [])

/-- The first region ends before the second replacement begins, or the second one is an insertion
at the line where the first region begins. -/
def Meets (a b : Replacement) : Prop :=
  a.startIndex + a.oldLen ≤ b.startIndex ∨ (a.startIndex = b.startIndex ∧ b.oldLen = 0)

lemma pairwise_meets (hdisjoint : located.Pairwise fun a b =>
      Disjoint (Set.Ico a.startIndex (a.startIndex + a.oldLen))
        (Set.Ico b.startIndex (b.startIndex + b.oldLen)))
    (hinside : ∀ a ∈ located, ∀ b ∈ located, b.oldLen = 0 →
      ¬ (a.startIndex < b.startIndex ∧ b.startIndex < a.startIndex + a.oldLen)) :
    (sortByStart located).Pairwise Meets := by
  have hsorted := ((sortByStart_perm located).pairwise_iff fun {_ _} h => h.symm).2 hdisjoint
  rw [pairwise_iff_forall_sublist]
  intro a b hab
  have hle := pairwise_iff_forall_sublist.1 (sortByStart_sorted located) hab
  have hapart := pairwise_iff_forall_sublist.1 hsorted hab
  have hmem : ∀ r ∈ [a, b], r ∈ located := fun r hr =>
    (sortByStart_perm located).mem_iff.1 (hab.subset hr)
  have hnot := hinside a (hmem a (by simp)) b (hmem b (by simp))
  rw [Set.Ico_disjoint_Ico] at hapart
  unfold Meets
  omega

variable (h : (sortByStart located).Pairwise Meets)
include h

lemma disjoint_of_pairwise_meets :
    located.Pairwise fun a b => Disjoint (Set.Ico a.startIndex (a.startIndex + a.oldLen))
      (Set.Ico b.startIndex (b.startIndex + b.oldLen)) := by
  refine ((sortByStart_perm located).pairwise_iff fun {_ _} h => h.symm).1 (h.imp fun {a b} hab => ?_)
  rw [Set.Ico_disjoint_Ico]
  unfold Meets at hab
  omega

/-- Neither of the two replacements begins strictly inside the other's region. -/
def Outside (a b : Replacement) : Prop :=
  ¬ (a.startIndex < b.startIndex ∧ b.startIndex < a.startIndex + a.oldLen) ∧
    ¬ (b.startIndex < a.startIndex ∧ a.startIndex < b.startIndex + b.oldLen)

instance : Std.Symm Outside := ⟨fun _ _ h => ⟨h.2, h.1⟩⟩

lemma outside_of_pairwise_meets (ha : a ∈ located) (hb : b ∈ located) : Outside a b := by
  have hsorted : (sortByStart located).Pairwise Outside := by
    refine h.imp₂ ?_ (sortByStart_sorted located)
    intro a b hab hle
    unfold Meets at hab
    unfold Outside
    omega
  refine hsorted.forall_of_forall (fun r _ => ?_) ((sortByStart_perm located).mem_iff.2 ha)
    ((sortByStart_perm located).mem_iff.2 hb)
  simp [Outside]

omit h

/-! ### An addition where a region begins -/

/-- An insertion that meets a region in front of it is pinned to the final blank line. -/
lemma Located.pinned (hlocated : Located lines located)
    (hab : [a, b] <+ sortByStart located) (hmeets : Meets a b)
    (hclash : b.startIndex < a.startIndex + a.oldLen) :
    a.startIndex = b.startIndex ∧ b.oldLen = 0 ∧ b.startIndex = insertionIndex lines := by
  obtain ⟨hstart, hzero⟩ := hmeets.resolve_left (by omega)
  have hpair := pairwise_iff_forall_sublist.1 hlocated.insertions
    (sublist_of_sortByStart hab hstart)
  exact ⟨hstart, hzero, (hpair (by omega) hzero).resolve_left (by omega)⟩

/-- The place of the additions is inside the file only in front of a final blank line. -/
lemma exists_eq_append_of_insertionIndex_lt (h : insertionIndex lines < lines.length) :
    ∃ first : List Text, lines = first ++ [[]] ∧ insertionIndex lines = first.length := by
  unfold insertionIndex at h ⊢
  split_ifs at h ⊢ with hlast
  · obtain ⟨first, hfirst⟩ := getLast?_eq_some_iff.1 hlast
    exact ⟨first, hfirst, by simp [hfirst]⟩
  · omega

/-- Insertions at two neighbouring lines, in order. -/
lemma exists_inserted_behind {position : ℕ} {insertions : List Replacement}
    (hsorted : insertions.Pairwise fun a b => a.startIndex ≤ b.startIndex)
    (h : ∀ r ∈ insertions, (r.startIndex = position ∨ r.startIndex = position + 1) ∧ r.oldLen = 0) :
    ∃ inserted behind, insertions = inserted ++ behind ∧
      (∀ r ∈ inserted, r.startIndex = position ∧ r.oldLen = 0) ∧
      ∀ r ∈ behind, r.startIndex = position + 1 ∧ r.oldLen = 0 := by
  induction insertions with
  | nil => exact ⟨[], [], rfl, by simp, by simp⟩
  | cons r insertions ih =>
    obtain ⟨hfirst, hrest⟩ := pairwise_cons.1 hsorted
    obtain ⟨hr, hzero⟩ := h r mem_cons_self
    have hothers := (forall_mem_cons.1 h).2
    rcases hr with hr | hr
    · obtain ⟨inserted, behind, rfl, hinserted, hbehind⟩ := ih hrest hothers
      exact ⟨r :: inserted, behind, rfl, forall_mem_cons.2 ⟨⟨hr, hzero⟩, hinserted⟩, hbehind⟩
    · refine ⟨[], r :: insertions, rfl, by simp, forall_mem_cons.2 ⟨⟨hr, hzero⟩, ?_⟩⟩
      intro r' hr'
      have hle := hfirst r' hr'
      obtain ⟨hplace, hzero'⟩ := hothers r' hr'
      exact ⟨by omega, hzero'⟩

variable (hlocated : Located lines located)
include hlocated

lemma Located.bounds : ∀ r ∈ sortByStart located, r.startIndex + r.oldLen ≤ lines.length :=
  fun r hr => hlocated.inBounds r ((sortByStart_perm located).mem_iff.1 hr)

/-- **A region at the final blank line with an addition behind it.**  Everything in front stands
apart, and everything behind is an insertion. -/
lemma exists_clash
    (hmeets : (sortByStart located).Pairwise Meets) (hab : [a, b] <+ sortByStart located)
    (hclash : b.startIndex < a.startIndex + a.oldLen) :
    ∃ (first : List Text) (front inserted behind : List Replacement),
      lines = first ++ [[]] ∧ sortByStart located = front ++ a :: (inserted ++ behind) ∧
      front.Pairwise (fun a b => a.startIndex + a.oldLen ≤ b.startIndex) ∧
      (∀ r ∈ front, r.startIndex + r.oldLen ≤ first.length) ∧
      a.startIndex = first.length ∧ a.oldLen = 1 ∧
      (∀ r ∈ inserted, r.startIndex = first.length ∧ r.oldLen = 0) ∧
      ∀ r ∈ behind, r.startIndex = first.length + 1 ∧ r.oldLen = 0 := by
  have hpair := fun {x y : Replacement} (hxy : [x, y] <+ sortByStart located) =>
    pairwise_iff_forall_sublist.1 hmeets hxy
  have hbounds := hlocated.bounds
  obtain ⟨hstart, -, hpinned⟩ := hlocated.pinned hab (hpair hab) hclash
  have hbound := hbounds a (hab.subset (by simp))
  obtain ⟨first, hlines, hindex⟩ := exists_eq_append_of_insertionIndex_lt
    (by omega : insertionIndex lines < lines.length)
  have hlength : lines.length = first.length + 1 := by simp [hlines]
  obtain ⟨front, rest, hsplit⟩ := append_of_mem (hab.subset (by simp : a ∈ [a, b]))
  have hfront : ∀ r ∈ front, r.startIndex + r.oldLen ≤ first.length := by
    intro r hr
    have hra : [r, a] <+ sortByStart located := by
      rw [hsplit]
      exact (singleton_sublist.2 hr).append (singleton_sublist.2 mem_cons_self)
    rcases hpair hra with hle | ⟨-, hzero⟩
    · omega
    · omega
  have hrest : ∀ r ∈ rest, (r.startIndex = first.length ∨ r.startIndex = first.length + 1) ∧
      r.oldLen = 0 := by
    intro r hr
    have har : [a, r] <+ sortByStart located := by
      rw [hsplit]
      exact (cons_sublist_cons.2 (singleton_sublist.2 hr)).trans (sublist_append_right ..)
    have hr' := hbounds r (har.subset (by simp))
    have := hpair har
    unfold Meets at this
    omega
  have hsorted := sortByStart_sorted located
  rw [hsplit, pairwise_append, pairwise_cons] at hsorted
  obtain ⟨inserted, behind, rfl, hinserted, hbehind⟩ :=
    exists_inserted_behind hsorted.2.1.2 hrest
  refine ⟨first, front, inserted, behind, hlines, hsplit, ?_, hfront, by omega, by omega,
    hinserted, hbehind⟩
  rw [pairwise_iff_forall_sublist]
  intro x y hxy
  have hxy' : [x, y] <+ sortByStart located := by
    rw [hsplit]
    exact hxy.trans (sublist_append_left ..)
  by_contra hlt
  obtain ⟨hxstart, -, hypinned⟩ := hlocated.pinned hxy' (hpair hxy') (by omega)
  have hx := hfront x (hxy.subset (by simp))
  omega

omit hlocated in
lemma drop_one_concat_eq_iff (inserted : List Text) :
    (inserted ++ [[]]).drop 1 = inserted ↔ ∀ line ∈ inserted, line = [] := by
  induction inserted with
  | nil => simp
  | cons line inserted ih =>
    cases inserted with
    | nil => simp
    | cons next inserted =>
      simp only [cons_append, drop_succ_cons, drop_zero, cons.injEq, forall_mem_cons] at ih ⊢
      constructor
      · rintro ⟨rfl, htail⟩
        exact ⟨(ih.1 htail).1, ih.1 htail⟩
      · rintro ⟨rfl, hall⟩
        exact ⟨hall.1, ih.2 hall⟩

/-- When every region ends before the next replacement begins, the splice is clean. -/
lemma apply_eq_splice
    (h : (sortByStart located).Pairwise fun a b => a.startIndex + a.oldLen ≤ b.startIndex) :
    applyReplacements lines (sortByStart located) = Edit.splice lines (located.map edit) := by
  have hbounds := hlocated.bounds
  rw [applyReplacements_eq (sortByStart_sorted located) fun r hr =>
    (Nat.le_add_right _ _).trans (hbounds r hr), ← splice_sortByStart]
  refine Edit.foldr_apply_eq_splice (pairwise_map.2 h) ?_
  simpa [edit] using hbounds

/-- With a region that meets an addition, the splice is clean if blank lines only are added. -/
lemma apply_eq_splice_iff_of_clash
    (hmeets : (sortByStart located).Pairwise Meets) (hab : [a, b] <+ sortByStart located)
    (hclash : b.startIndex < a.startIndex + a.oldLen) :
    applyReplacements lines (sortByStart located) =
      Edit.splice lines (located.map edit) ↔ (sortByStart located).Pairwise Apart := by
  obtain ⟨first, front, inserted, behind, hlines, hsplit, happart, hfront, hstart, hlen, hinserted,
    hbehind⟩ := exists_clash hlocated hmeets hab hclash
  have hedits : (sortByStart located).map edit = front.map edit ++
      a.edit :: (inserted.map edit ++ behind.map edit) := by
    simp [hsplit]
  have hnew : (inserted.map edit).flatMap Edit.new = inserted.flatMap (·.newLines) := by
    rw [flatMap_map]
    rfl
  have hfront' : ∀ e ∈ front.map edit, e.start + e.len ≤ first.length := by
    simpa [edit] using hfront
  have hinserted' : ∀ e ∈ inserted.map edit, e.start = first.length ∧ e.len = 0 := by
    simpa [edit] using hinserted
  have hbehind' : ∀ e ∈ behind.map edit,
      e.start = first.length + 1 ∧ e.len = 0 := by
    simpa [edit] using hbehind
  rw [applyReplacements_eq (sortByStart_sorted located) fun r hr =>
      (Nat.le_add_right _ _).trans (hlocated.inBounds r ((sortByStart_perm located).mem_iff.1 hr)),
    ← splice_sortByStart, hedits, hlines,
    Edit.foldr_apply_clash (pairwise_map.2 happart) hfront' hstart hlen hinserted' hbehind',
    Edit.splice_clash hfront' hstart hlen hinserted' hbehind', append_cancel_left_eq,
    append_cancel_left_eq, append_cancel_right_eq, hnew, drop_one_concat_eq_iff]
  constructor
  · intro hblank
    rw [pairwise_iff_forall_sublist]
    intro x y hxy
    by_cases hle : x.startIndex + x.oldLen ≤ y.startIndex
    · exact .inl hle
    have hxymeets := pairwise_iff_forall_sublist.1 hmeets hxy
    obtain ⟨hxstart, hzero, hpinned⟩ := hlocated.pinned hxy hxymeets (by omega)
    refine .inr ⟨hxstart, hzero, fun line hline => hblank line (mem_flatMap.2 ⟨y, ?_, hline⟩)⟩
    -- Only a region begins where the additions are, and the addition comes behind it.
    have hindex : insertionIndex lines = first.length := by simp [insertionIndex, hlines]
    rw [hsplit] at hxy
    obtain ⟨ahead, follows, heq, hahead, hfollows⟩ := sublist_append_iff.1 hxy
    have hnone : x ∉ front := fun hx => by
      have := hfront x hx
      omega
    cases ahead with
    | cons r ahead =>
      obtain rfl := (cons.inj heq).1
      exact absurd (hahead.subset mem_cons_self) hnone
    | nil =>
      obtain rfl : [x, y] = follows := heq
      have hy : y ∈ inserted ++ behind := singleton_sublist.1 hfollows.tail
      refine (mem_append.1 hy).resolve_right fun hmem => ?_
      have := (hbehind y hmem).1
      omega
  · intro hpairs line hline
    obtain ⟨r, hr, hline⟩ := mem_flatMap.1 hline
    have har : [a, r] <+ sortByStart located := by
      rw [hsplit]
      exact (cons_sublist_cons.2 (singleton_sublist.2 (mem_append_left _ hr))).trans
        (sublist_append_right ..)
    obtain ⟨-, -, hblank⟩ := (pairwise_iff_forall_sublist.1 hpairs har).resolve_left (by
      have := (hinserted r hr).1
      omega)
    exact hblank line hline

/-- The splice is clean exactly if the replacements stand apart. -/
lemma cleanSplice_iff : CleanSplice lines located ↔ (sortByStart located).Pairwise Apart := by
  constructor
  · intro h
    have hmeets := pairwise_meets h.disjoint h.noneInside
    by_cases hbefore : (sortByStart located).Pairwise fun a b =>
        a.startIndex + a.oldLen ≤ b.startIndex
    · exact hbefore.imp .inl
    · simp only [pairwise_iff_forall_sublist, not_forall, not_le] at hbefore
      obtain ⟨a, b, hab, hclash⟩ := hbefore
      exact (apply_eq_splice_iff_of_clash hlocated hmeets hab hclash).1 h.spliced
  · intro h
    have hmeets : (sortByStart located).Pairwise Meets :=
      h.imp fun hab => hab.imp_right fun hblank => ⟨hblank.1, hblank.2.1⟩
    refine ⟨disjoint_of_pairwise_meets hmeets, hlocated.inBounds,
      fun a ha b hb _ => (outside_of_pairwise_meets hmeets ha hb).1, ?_⟩
    by_cases hbefore : (sortByStart located).Pairwise fun a b =>
        a.startIndex + a.oldLen ≤ b.startIndex
    · exact apply_eq_splice hlocated hbefore
    · simp only [pairwise_iff_forall_sublist, not_forall, not_le] at hbefore
      obtain ⟨a, b, hab, hclash⟩ := hbefore
      exact (apply_eq_splice_iff_of_clash hlocated hmeets hab hclash).2 h

omit hlocated

/-! ### Chunks that clash -/

/-- Two replacements in the order of their chunks stand apart when they are sorted. -/
def SortedApart (a b : Replacement) : Prop :=
  if a.startIndex ≤ b.startIndex then Apart a b else Apart b a

lemma pairwise_apart_iff :
    (sortByStart located).Pairwise Apart ↔ located.Pairwise SortedApart := by
  have hmem : ∀ r, r ∈ sortByStart located ↔ r ∈ located := fun r =>
    (sortByStart_perm located).mem_iff
  have hpair : ∀ {l : List Replacement} {x y : Replacement}, x ∈ l → y ∈ l →
      x.startIndex ≠ y.startIndex → [x, y] <+ l ∨ [y, x] <+ l := by
    intro l x y hx hy hne
    obtain ⟨front, rest, rfl⟩ := append_of_mem hx
    rcases mem_append.1 hy with hfront | hrest
    · exact .inr ((singleton_sublist.2 hfront).append (singleton_sublist.2 mem_cons_self))
    · rcases mem_cons.1 hrest with rfl | hrest
      · exact absurd rfl hne
      · exact .inl ((cons_sublist_cons.2 (singleton_sublist.2 hrest)).trans (sublist_append_right ..))
  simp only [pairwise_iff_forall_sublist]
  constructor
  · intro h a b hab
    have ha := (hmem a).2 (hab.subset (by simp))
    have hb := (hmem b).2 (hab.subset (by simp))
    unfold SortedApart
    split_ifs with hle
    · exact h (pair_sublist_mergeSort (by simpa using fun _ _ _ => le_trans)
        (by simpa using fun _ _ => le_total _ _) (by simpa using hle) hab)
    · refine h ((hpair hb ha (by omega)).resolve_right fun hsorted => hle ?_)
      exact pairwise_iff_forall_sublist.1 (sortByStart_sorted located) hsorted
  · intro h x y hxy
    have hle := pairwise_iff_forall_sublist.1 (sortByStart_sorted located) hxy
    rcases hle.eq_or_lt with heq | hlt
    · have hgood := h (sublist_of_sortByStart hxy heq)
      rwa [SortedApart, if_pos hle] at hgood
    · rcases hpair ((hmem x).1 (hxy.subset (by simp))) ((hmem y).1 (hxy.subset (by simp)))
        hlt.ne with hsub | hsub
      · have hgood := h hsub
        rwa [SortedApart, if_pos hle] at hgood
      · have hgood := h hsub
        rwa [SortedApart, if_neg (by omega)] at hgood

/-- A chunk and a later one do not clash. Only two kinds of chunks can. What a chunk that is searched
at the end of the file replaces begins behind the earlier region, and an earlier insertion is not
inside it. A pure addition, which goes to the end or in front of the final blank line, is not inside a
region; and if an earlier region is just that line, it adds blank lines. -/
structure NoClash (lines : List Text) (a b : UpdateFileChunk × Replacement) : Prop where
  endOfFile : b.1.isEndOfFile = true → 0 < b.2.oldLen →
    if a.2.oldLen = 0 then a.2.startIndex ≤ b.2.startIndex ∨ a.2.startIndex = lines.length
    else a.2.startIndex + a.2.oldLen ≤ b.2.startIndex
  laterAddition : b.1.oldLines = [] → 0 < a.2.oldLen →
    ¬ (a.2.startIndex < insertionIndex lines ∧ insertionIndex lines < a.2.startIndex + a.2.oldLen) ∧
      (a.2.startIndex = insertionIndex lines → ∀ line ∈ b.2.newLines, line = [])
  earlierAddition : a.1.oldLines = [] → 0 < b.2.oldLen →
    ¬ (b.2.startIndex < insertionIndex lines ∧ insertionIndex lines < b.2.startIndex + b.2.oldLen)

/-- The other chunks follow each other. -/
lemma sortedApart_iff_noClash {a b : UpdateFileChunk × Replacement} (ha : PlacedFrom lines 0 a.1 a.2)
    (hb : PlacedFrom lines 0 b.1 b.2) (hab : a.1.oldLines ≠ [] → b.1.oldLines ≠ [] →
      b.1.isEndOfFile = false ∨ b.2.oldLen = 0 → a.2.startIndex + a.2.oldLen ≤ b.2.startIndex) :
    SortedApart a.2 b.2 ↔ NoClash lines a b := by
  have haBound := ha.inBounds
  have hbBound := hb.inBounds
  have hinsertion := insertionIndex_le lines
  unfold SortedApart Apart
  constructor
  · intro h
    refine ⟨fun heof hpos => ?_, fun hempty hpos => ?_, fun hempty hpos => ?_⟩
    · have hend := hb.atEnd heof hpos
      split_ifs at h ⊢ <;> omega
    · obtain ⟨hzero, hplace⟩ := hb.addition hempty
      refine ⟨?_, fun heq => ?_⟩
      · split_ifs at h <;> omega
      · rw [if_pos (by omega)] at h
        exact (h.resolve_left (by omega)).2.2
    · obtain ⟨hzero, hplace⟩ := ha.addition hempty
      split_ifs at h <;> omega
  · intro h
    by_cases hbnil : b.1.oldLines = []
    · -- a pure addition, behind a region or not
      obtain ⟨hzero, hplace⟩ := hb.addition hbnil
      rcases Nat.eq_zero_or_pos a.2.oldLen with hazero | hapos
      · split_ifs <;> omega
      · obtain ⟨houtside, hblank⟩ := h.laterAddition hbnil hapos
        split_ifs
        · by_cases hmeet : a.2.startIndex = insertionIndex lines
          · exact .inr ⟨by omega, hzero, hblank hmeet⟩
          · exact .inl (by omega)
        · exact .inl (by omega)
    by_cases heof : b.1.isEndOfFile = true ∧ 0 < b.2.oldLen
    · have hend := hb.atEnd heof.1 heof.2
      have hclear := h.endOfFile heof.1 heof.2
      split_ifs at hclear ⊢ <;> omega
    · have hsearched : b.1.isEndOfFile = false ∨ b.2.oldLen = 0 := by
        rw [not_and_or, Bool.not_eq_true, not_lt, Nat.le_zero] at heof
        exact heof
      by_cases hanil : a.1.oldLines = []
      · obtain ⟨hzero, hplace⟩ := ha.addition hanil
        rcases Nat.eq_zero_or_pos b.2.oldLen with hbzero | hbpos
        · split_ifs <;> omega
        · have houtside := h.earlierAddition hanil hbpos
          split_ifs <;> omega
      · have hle := hab hanil hbnil hsearched
        rw [if_pos (by omega)]
        exact .inl hle

end

/-! ### The replacements of an update -/

/-- **The chunks of an update are spliced in** exactly if no chunk that is searched at the end of the
file and no pure addition clashes with another chunk.  There is one replacement for each chunk. -/
theorem computeReplacements_clean_iff {lines : List Text} {path : Text}
    {chunks : List UpdateFileChunk} {replacements : List Replacement}
    (h : computeReplacements lines path chunks = .ok replacements) :
    ∃ located, locateChunks lines path chunks = .ok located ∧
      replacements = sortByStart located ∧ List.Forall₂ Replaces chunks located ∧
      (CleanSplice lines located ↔ (chunks.zip located).Pairwise (NoClash lines)) := by
  rw [computeReplacements_eq] at h
  cases hlocate : locateChunks lines path chunks with
  | error err => simp [hlocate, Except.map] at h
  | ok located =>
    obtain rfl : sortByStart located = replacements := by simpa [hlocate, Except.map] using h
    obtain ⟨hreplaces, lineIndex, hplaced⟩ := locateChunks_ok hlocate
    have hmap : (chunks.zip located).map Prod.snd = located :=
      map_snd_zip hreplaces.length_eq.ge
    refine ⟨located, rfl, rfl, hreplaces, ?_⟩
    rw [cleanSplice_iff (hmap ▸ hplaced.located), pairwise_apart_iff, ← hmap, pairwise_map, hmap]
    have hiff : ∀ {a b}, a ∈ chunks.zip located → b ∈ chunks.zip located →
        ((a.1.oldLines ≠ [] → b.1.oldLines ≠ [] → b.1.isEndOfFile = false ∨ b.2.oldLen = 0 →
          a.2.startIndex + a.2.oldLen ≤ b.2.startIndex) ∧ SortedApart a.2 b.2 ↔
        (a.1.oldLines ≠ [] → b.1.oldLines ≠ [] → b.1.isEndOfFile = false ∨ b.2.oldLen = 0 →
          a.2.startIndex + a.2.oldLen ≤ b.2.startIndex) ∧ NoClash lines a b) := fun ha hb =>
      and_congr_right (sortedApart_iff_noClash (hplaced.each _ ha) (hplaced.each _ hb))
    have hboth := Pairwise.iff_of_mem hiff
    rwa [pairwise_and_iff, pairwise_and_iff, and_congr_right_iff, forall_prop_of_true hplaced.ordered]
      at hboth

/-- A chunk that replaces the first line. -/
theorem computeReplacements_clean_iff_first_line :
    computeReplacements ["a".toList, "b".toList] [] [⟨none, ["a".toList], ["c".toList], false⟩] =
      .ok [⟨0, 1, ["c".toList]⟩] ∧ ∃ located, locateChunks ["a".toList, "b".toList] []
        [⟨none, ["a".toList], ["c".toList], false⟩] = .ok located ∧
      [⟨0, 1, ["c".toList]⟩] = sortByStart located ∧
      List.Forall₂ Replaces [⟨none, ["a".toList], ["c".toList], false⟩] located ∧
      (CleanSplice ["a".toList, "b".toList] located ↔
        (List.zip [⟨none, ["a".toList], ["c".toList], false⟩] located).Pairwise
          (NoClash ["a".toList, "b".toList])) := by
  have h : computeReplacements ["a".toList, "b".toList] []
      [⟨none, ["a".toList], ["c".toList], false⟩] = .ok [⟨0, 1, ["c".toList]⟩] := by
    exact congrArg Except.ok (mergeSort_singleton _)
  exact ⟨h, computeReplacements_clean_iff h⟩

/-- **Text is lost.**  The first chunk replaces the final blank line of the file and the second one
adds a line.  The addition is inserted in front of the blank line, and then the region of the first
chunk, which begins there, takes the added line away instead of the blank one. -/
theorem addition_lost_at_blank_line :
    let lines := ["a".toList, []]
    let chunks : List UpdateFileChunk :=
      [⟨none, [[]], ["x".toList], false⟩, ⟨none, [], ["y".toList], false⟩]
    ∃ located, locateChunks lines [] chunks = .ok located ∧
      computeReplacements lines [] chunks = .ok (sortByStart located) ∧
      applyReplacements lines (sortByStart located) = ["a".toList, "x".toList, []] ∧
      ¬ CleanSplice lines located := by
  have hsorted : sortByStart [⟨1, 1, ["x".toList]⟩, ⟨1, 0, ["y".toList]⟩] =
      [⟨1, 1, ["x".toList]⟩, ⟨1, 0, ["y".toList]⟩] :=
    mergeSort_of_pairwise (by decide)
  refine ⟨[⟨1, 1, ["x".toList]⟩, ⟨1, 0, ["y".toList]⟩], rfl, ?_, ?_, fun h => ?_⟩
  · rw [computeReplacements_eq]
    rfl
  · rw [hsorted]
    rfl
  · have hspliced := h.spliced
    rw [hsorted] at hspliced
    exact absurd hspliced (by decide)

/-! ### The end of the file -/

section

variable {path content : Text} {chunks : List UpdateFileChunk} {applied : AppliedPatch}
  (h : content.getLast? = some '\n')
include h

/-- Contents that end in a newline are cut into their lines. -/
lemma dropEmptyLast_splitNewline : dropEmptyLast (splitNewline content) = (cut content).1 := by
  have hrest : (cut content).2 = [] := by
    -- A rest behind the last newline would end in a character that is no newline.
    by_contra hne
    rw [← unlines_cut content, getLast?_append_of_ne_nil _ hne] at h
    exact (cut_no_newline content).2 (mem_of_getLast? h)
  simp [splitNewline, dropEmptyLast, hrest]

lemma unlines_cut_of_newline : unlines (cut content).1 = content := by
  have hsplit := dropEmptyLast_splitNewline h
  have hjoin := unlines_cut content
  unfold splitNewline dropEmptyLast at hsplit
  split_ifs at hsplit with hlast
  · rw [getLast?_concat, Option.some.injEq] at hlast
    rwa [hlast, append_nil] at hjoin
  · simp at hsplit

omit h

lemma unlines_concat (lines : List Text) (line : Text) :
    unlines (lines ++ [line]) = unlines lines ++ (line ++ ['\n']) := by
  simp [unlines]

/-- Joining the lines and ending the last one unless it is empty. -/
lemma join_terminated_eq_iff {newLines : List Text} (hne : newLines ≠ []) :
    joinNewline (if newLines.getLast? = some [] then newLines else newLines ++ [[]]) =
      unlines newLines ↔ newLines.getLast? ≠ some [] := by
  by_cases hlast : newLines.getLast? = some []
  · obtain ⟨front, rfl⟩ := getLast?_eq_some_iff.1 hlast
    rw [if_pos hlast, joinNewline_concat, unlines_concat]
    simp
  · rw [if_neg hlast, joinNewline_concat]
    simp [hlast]

/-- **Lines stay terminated** exactly if the last of the new lines is not blank.  A final blank
line is taken for the end of the line in front of it, and loses its newline. -/
theorem newContents_terminated_iff (hnewline : content.getLast? = some '\n')
    (h : deriveNewContents path content chunks = .ok applied) :
    ∃ originalLines replacements, unlines originalLines = content ∧
      (∀ line ∈ originalLines, '\n' ∉ line) ∧
      computeReplacements originalLines path chunks = .ok replacements ∧
      (applyReplacements originalLines replacements ≠ [] →
        (applied.newContents = unlines (applyReplacements originalLines replacements) ↔
          (applyReplacements originalLines replacements).getLast? ≠ some [])) := by
  unfold deriveNewContents at h
  rw [dropEmptyLast_splitNewline hnewline] at h
  obtain ⟨replacements, hcompute, h⟩ := except_bind_eq_ok.1 h
  obtain rfl := Except.ok.inj h
  exact ⟨(cut content).1, replacements, unlines_cut_of_newline hnewline,
    (cut_no_newline content).1, hcompute, join_terminated_eq_iff⟩

/-- Replacing one line of a file of two lines. -/
theorem newContents_terminated_iff_one_line :
    deriveNewContents [] "a\nc\n".toList [⟨none, ["a".toList], ["b".toList], false⟩] =
      .ok ⟨"a\nc\n".toList, "b\nc\n".toList⟩ ∧
    ∃ originalLines replacements, unlines originalLines = "a\nc\n".toList ∧
      (∀ line ∈ originalLines, '\n' ∉ line) ∧
      computeReplacements originalLines [] [⟨none, ["a".toList], ["b".toList], false⟩] =
        .ok replacements ∧ (applyReplacements originalLines replacements ≠ [] →
        ("b\nc\n".toList = unlines (applyReplacements originalLines replacements) ↔
          (applyReplacements originalLines replacements).getLast? ≠ some [])) := by
  have h : deriveNewContents [] "a\nc\n".toList [⟨none, ["a".toList], ["b".toList], false⟩] =
      .ok ⟨"a\nc\n".toList, "b\nc\n".toList⟩ := by
    have hcompute : computeReplacements ["a".toList, "c".toList] []
        [⟨none, ["a".toList], ["b".toList], false⟩] = .ok [⟨0, 1, ["b".toList]⟩] := by
      exact congrArg Except.ok (mergeSort_singleton _)
    unfold deriveNewContents
    change (computeReplacements ["a".toList, "c".toList] [] _ >>= _) = _
    rw [hcompute]
    rfl
  exact ⟨h, newContents_terminated_iff (by decide) h⟩

/-- **A final blank line disappears** when the line in front of it is changed. -/
theorem final_blank_line_lost :
    let content := "a\n\n".toList
    let chunks : List UpdateFileChunk := [⟨none, ["a".toList], ["b".toList], false⟩]
    ∃ originalLines replacements, unlines originalLines = content ∧
      computeReplacements originalLines [] chunks = .ok replacements ∧
      unlines (applyReplacements originalLines replacements) = "b\n\n".toList ∧
      deriveNewContents [] content chunks = .ok ⟨content, "b\n".toList⟩ := by
  have hcompute : computeReplacements ["a".toList, []] []
      [⟨none, ["a".toList], ["b".toList], false⟩] = .ok [⟨0, 1, ["b".toList]⟩] := by
    rw [computeReplacements_eq]
    exact congrArg Except.ok (mergeSort_singleton _)
  refine ⟨["a".toList, []], [⟨0, 1, ["b".toList]⟩], rfl, hcompute, rfl, ?_⟩
  unfold deriveNewContents
  rw [dropEmptyLast_splitNewline (by decide)]
  change (computeReplacements ["a".toList, []] [] _ >>= _) = _
  rw [hcompute]
  rfl

end

end TokenCode.ApplyPatch
