/-
Output that is streamed in pieces (`core/src/unified_exec/async_watcher.rs`).

Every chunk of output is cut at once into pieces of valid UTF-8, and where none is found a
single byte is a piece. Nothing waits for the next chunk. So the pieces make up the stream and
are short enough, but they are valid UTF-8 exactly if every chunk is (`processChunks_valid_iff`):
a character that two chunks share is emitted byte by byte (`character_cut_by_chunks`).
-/
import TokenCode.Lib.Text

namespace TokenCode.UnifiedExec

open List

/-- `UNIFIED_EXEC_OUTPUT_DELTA_MAX_BYTES`. -/
def unifiedExecOutputDeltaMaxBytes : ℕ := 8192

/-- `MAX_EXEC_OUTPUT_DELTAS_PER_CALL`. -/
def maxExecOutputDeltasPerCall : ℕ := 10000

/-- `std::str::from_utf8(bytes).is_ok()`. -/
def isUtf8 (bytes : List UInt8) : Bool := bytes.toByteArray.validateUTF8

/-- The loop of `split_valid_utf8_prefix_with_max`: where the buffer may be cut. -/
def findSplit (buffer : List UInt8) (maxLen : ℕ) : ℕ → Option ℕ
  | 0 => none
  | split + 1 =>
    if isUtf8 (buffer.take (split + 1)) then some (split + 1)
    -- the bytes behind would hold a whole character if they were the beginning of one
    else if maxLen - (split + 1) > 4 then none
    else findSplit buffer maxLen split

/-- `split_valid_utf8_prefix_with_max`: the piece, and what stays in the buffer. -/
def splitValidUtf8PrefixWithMax (buffer : List UInt8) (maxBytes : ℕ) :
    Option (List UInt8 × List UInt8) :=
  if buffer.isEmpty then none
  else
    let maxLen := min buffer.length maxBytes
    let split := (findSplit buffer maxLen maxLen).getD 1
    some (buffer.take split, buffer.drop split)

/-- `split_valid_utf8_prefix`. -/
def splitValidUtf8Prefix (buffer : List UInt8) : Option (List UInt8 × List UInt8) :=
  splitValidUtf8PrefixWithMax buffer unifiedExecOutputDeltaMaxBytes

/-- What `process_chunk` changes: the pending bytes, the pieces that were pushed to the transcript
and those that were sent as `ExecCommandOutputDelta`. -/
structure Streaming where
  pending : List UInt8
  transcript : List (List UInt8)
  emitted : List (List UInt8)

/-! ### Valid UTF-8 -/

lemma isUtf8_iff {bytes : List UInt8} :
    isUtf8 bytes = true ↔ ∃ text : Text, bytes = text.flatMap String.utf8EncodeChar := by
  rw [isUtf8, ByteArray.validateUTF8_eq_true_iff]
  constructor
  · rintro ⟨text, htext⟩
    exact ⟨text, toByteArray_inj.1 htext⟩
  · rintro ⟨text, rfl⟩
    exact ⟨text, rfl⟩

variable {a b : List UInt8}

lemma isUtf8_append (ha : isUtf8 a = true) (hb : isUtf8 b = true) : isUtf8 (a ++ b) = true := by
  obtain ⟨text, rfl⟩ := isUtf8_iff.1 ha
  obtain ⟨more, rfl⟩ := isUtf8_iff.1 hb
  exact isUtf8_iff.2 ⟨text ++ more, flatMap_append.symm⟩

/-- The first character of a string is determined. -/
lemma utf8EncodeChar_append_inj {c d : Char}
    (h : String.utf8EncodeChar c ++ a = String.utf8EncodeChar d ++ b) : c = d ∧ a = b := by
  have hc := @ByteArray.utf8DecodeChar?_utf8EncodeChar_append a.toByteArray c
  have hd := @ByteArray.utf8DecodeChar?_utf8EncodeChar_append b.toByteArray d
  rw [← toByteArray_append, h, toByteArray_append, hd] at hc
  obtain rfl := Option.some.inj hc
  exact ⟨rfl, append_cancel_left h⟩

/-- What stands behind valid UTF-8 in valid UTF-8 is valid. -/
lemma isUtf8_of_append (ha : isUtf8 a = true) (h : isUtf8 (a ++ b) = true) : isUtf8 b = true := by
  obtain ⟨text, rfl⟩ := isUtf8_iff.1 ha
  obtain ⟨whole, hwhole⟩ := isUtf8_iff.1 h
  clear ha h
  induction text generalizing whole with
  | nil => exact isUtf8_iff.2 ⟨whole, hwhole⟩
  | cons c text ih =>
    rw [flatMap_cons, List.append_assoc] at hwhole
    cases whole with
    | nil =>
      have hlength := congrArg List.length hwhole
      rw [length_append, String.length_utf8EncodeChar] at hlength
      have hpos := c.utf8Size_pos
      simp only [flatMap_nil, length_nil] at hlength
      omega
    | cons d whole =>
      obtain ⟨-, hrest⟩ := utf8EncodeChar_append_inj hwhole
      exact ih whole hrest

/-- Valid UTF-8 can be cut at most three bytes before any place. -/
lemma exists_split {bytes : List UInt8} (h : isUtf8 bytes = true) (n : ℕ) :
    ∃ split ≤ n, n ≤ split + 3 ∧ isUtf8 (bytes.take split) = true := by
  obtain ⟨text, rfl⟩ := isUtf8_iff.1 h
  clear h
  induction text generalizing n with
  | nil => exact ⟨n, le_rfl, Nat.le_add_right n 3, by rw [flatMap_nil, take_nil]; rfl⟩
  | cons c text ih =>
    rw [flatMap_cons]
    have hlength := String.length_utf8EncodeChar c
    have hfour := c.utf8Size_le_four
    -- a place within the first character is moved before it
    rcases Nat.lt_or_ge n c.utf8Size with hlt | hge
    · exact ⟨0, Nat.zero_le n, by omega, rfl⟩
    · obtain ⟨split, hle, hnear, hvalid⟩ := ih (n - c.utf8Size)
      refine ⟨c.utf8Size + split, by omega, by omega, ?_⟩
      rw [← hlength, take_length_add_append]
      exact isUtf8_append (isUtf8_iff.2 ⟨[c], by simp⟩) hvalid

/-! ### Pieces -/

variable {buffer piece rest : List UInt8}

lemma findSplit_le {maxLen n split : ℕ} (h : findSplit buffer maxLen n = some split) :
    0 < split ∧ split ≤ n ∧ isUtf8 (buffer.take split) = true := by
  induction n with
  | zero => cases h
  | succ n ih =>
    rw [findSplit] at h
    split_ifs at h with hvalid
    · obtain rfl := Option.some.inj h
      exact ⟨Nat.succ_pos n, le_rfl, hvalid⟩
    · obtain ⟨hpos, hle, htake⟩ := ih h
      exact ⟨hpos, hle.trans (Nat.le_succ n), htake⟩

/-- A place for a cut is found if there is one that is near enough. -/
lemma findSplit_isSome {maxLen n split : ℕ} (hn : n ≤ maxLen) (hpos : 0 < split) (hle : split ≤ n)
    (hnear : maxLen ≤ split + 4) (hvalid : isUtf8 (buffer.take split) = true) :
    (findSplit buffer maxLen n).isSome = true := by
  induction n with
  | zero => omega
  | succ n ih =>
    rw [findSplit]
    split_ifs with htake hfar
    · rfl
    · omega
    · have hne : split ≠ n + 1 := by
        rintro rfl
        exact htake hvalid
      exact ih (by omega) (by omega)

/-- A piece is taken from the front of the buffer, and from valid UTF-8 valid UTF-8 is taken. -/
lemma splitValidUtf8Prefix_eq_some (h : splitValidUtf8Prefix buffer = some (piece, rest)) :
    piece ++ rest = buffer ∧ piece ≠ [] ∧ piece.length ≤ unifiedExecOutputDeltaMaxBytes ∧
      (isUtf8 buffer = true → isUtf8 piece = true) := by
  unfold splitValidUtf8Prefix splitValidUtf8PrefixWithMax at h
  split_ifs at h with hempty
  obtain ⟨rfl, rfl⟩ := Prod.mk.inj (Option.some.inj h)
  have hlength : 0 < buffer.length := length_pos_iff.2 (by simpa using hempty)
  have hbytes : unifiedExecOutputDeltaMaxBytes = 8192 := rfl
  generalize hmax : min buffer.length unifiedExecOutputDeltaMaxBytes = maxLen
  have hsplit : 0 < (findSplit buffer maxLen maxLen).getD 1 ∧
      (findSplit buffer maxLen maxLen).getD 1 ≤ unifiedExecOutputDeltaMaxBytes := by
    cases hfind : findSplit buffer maxLen maxLen with
    | none => exact ⟨Nat.one_pos, by decide⟩
    | some split =>
      obtain ⟨hpos, hle, -⟩ := findSplit_le hfind
      exact ⟨hpos, by rw [Option.getD_some]; omega⟩
  refine ⟨take_append_drop _ _, ?_, ?_, fun hvalid => ?_⟩
  · exact ne_nil_of_length_pos (by rw [length_take]; omega)
  · rw [length_take]
    omega
  -- a buffer that is short enough is taken whole, a longer one is cut close to the limit
  obtain ⟨split, hpos, hle, hnear, htake⟩ : ∃ split, 0 < split ∧ split ≤ maxLen ∧
      maxLen ≤ split + 4 ∧ isUtf8 (buffer.take split) = true := by
    rcases le_total buffer.length unifiedExecOutputDeltaMaxBytes with hshort | hlong
    · exact ⟨buffer.length, hlength, by omega, by omega, by rwa [take_length]⟩
    · obtain ⟨split, hle, hnear, htake⟩ := exists_split hvalid unifiedExecOutputDeltaMaxBytes
      exact ⟨split, by omega, by omega, by omega, htake⟩
  obtain ⟨found, hfound⟩ := Option.isSome_iff_exists.1
    (findSplit_isSome le_rfl hpos hle hnear htake)
  rw [hfound]
  exact (findSplit_le hfound).2.2

/-- One round of `process_chunk`: the piece is kept, and sent while the call may send more. -/
def pushPiece (state : Streaming) (piece rest : List UInt8) : Streaming :=
  ⟨rest, state.transcript ++ [piece],
    if state.emitted.length ≥ maxExecOutputDeltasPerCall then state.emitted
    else state.emitted ++ [piece]⟩

/-- The loop of `process_chunk`. -/
def drain (state : Streaming) : Streaming :=
  match _h : splitValidUtf8Prefix state.pending with
  | none => state
  | some (piece, rest) => drain (pushPiece state piece rest)
termination_by state.pending.length
decreasing_by
  obtain ⟨happend, hne, -⟩ := splitValidUtf8Prefix_eq_some _h
  rw [← happend, List.length_append, pushPiece]
  exact Nat.lt_add_of_pos_left (List.length_pos_iff.2 hne)

/-- `process_chunk`. -/
def processChunk (state : Streaming) (chunk : List UInt8) : Streaming :=
  drain { state with pending := state.pending ++ chunk }

/-- The chunks of a stream, from the start. -/
def processChunks (chunks : List (List UInt8)) : Streaming :=
  chunks.foldl processChunk ⟨[], [], []⟩

/-! ### What a stream becomes -/

/-- The first pieces are the ones that were sent. -/
lemma pushPiece_emitted {state : Streaming}
    (hemitted : state.emitted = state.transcript.take maxExecOutputDeltasPerCall) :
    (pushPiece state piece rest).emitted =
      (pushPiece state piece rest).transcript.take maxExecOutputDeltasPerCall := by
  have hlength := congrArg List.length hemitted
  rw [length_take] at hlength
  unfold pushPiece
  split_ifs with hfull
  · rw [take_append_of_le_length (by omega), hemitted]
  · rw [take_of_length_le (by simp; omega), hemitted, take_of_length_le (by omega)]

/-- What the loop takes out of the buffer. -/
lemma drain_spec (state : Streaming)
    (hemitted : state.emitted = state.transcript.take maxExecOutputDeltasPerCall) :
    ∃ pieces : List (List UInt8), (drain state).pending = [] ∧
      (drain state).transcript = state.transcript ++ pieces ∧
      (drain state).emitted = (drain state).transcript.take maxExecOutputDeltasPerCall ∧
      pieces.flatten = state.pending ∧
      (∀ piece ∈ pieces, piece ≠ [] ∧ piece.length ≤ unifiedExecOutputDeltaMaxBytes) ∧
      ((∀ piece ∈ pieces, isUtf8 piece = true) ↔ isUtf8 state.pending = true) := by
  fun_induction drain state with
  | case1 state hnone =>
    have hpending : state.pending = [] := by
      unfold splitValidUtf8Prefix splitValidUtf8PrefixWithMax at hnone
      split_ifs at hnone with hempty
      exact List.isEmpty_iff.1 hempty
    refine ⟨[], hpending, by simp, hemitted, by simp [hpending], by simp, ?_⟩
    rw [hpending]
    exact iff_of_true (by simp) rfl
  | case2 state piece rest hsome ih =>
    obtain ⟨happend, hne, hshort, hutf8⟩ := splitValidUtf8Prefix_eq_some hsome
    obtain ⟨pieces, hpending, htranscript, hlater, hflatten, hlengths, hvalid⟩ :=
      ih (pushPiece_emitted hemitted)
    refine ⟨piece :: pieces, hpending, ?_, hlater, ?_, ?_, ?_⟩
    · rw [htranscript]
      simp [pushPiece]
    · rw [flatten_cons, hflatten]
      exact happend
    · exact forall_mem_cons.2 ⟨⟨hne, hshort⟩, hlengths⟩
    -- what is left of valid UTF-8 behind a valid piece is valid
    · rw [forall_mem_cons, hvalid, ← happend, pushPiece]
      constructor
      · rintro ⟨hpiece, hrest⟩
        exact isUtf8_append hpiece hrest
      · intro hwhole
        have hpiece := hutf8 (happend ▸ hwhole)
        exact ⟨hpiece, isUtf8_of_append hpiece hwhole⟩

/-- What is left of a stream after its chunks. -/
lemma processChunks_spec (chunks : List (List UInt8)) : (processChunks chunks).pending = [] ∧
      (processChunks chunks).transcript.flatten = chunks.flatten ∧
      (∀ piece ∈ (processChunks chunks).transcript,
        piece ≠ [] ∧ piece.length ≤ unifiedExecOutputDeltaMaxBytes) ∧
      (processChunks chunks).emitted =
        (processChunks chunks).transcript.take maxExecOutputDeltasPerCall ∧
      ((∀ piece ∈ (processChunks chunks).transcript, isUtf8 piece = true) ↔
        ∀ chunk ∈ chunks, isUtf8 chunk = true) := by
  induction chunks using reverseRecOn with
  | nil => exact ⟨rfl, rfl, nofun, rfl, by simp [processChunks]⟩
  | append_singleton chunks chunk ih =>
    obtain ⟨hnone, hbefore, hshort, hemitted, hvalid⟩ := ih
    -- nothing is pending between two chunks, so the next one is cut by itself
    have hstep : processChunks (chunks ++ [chunk]) =
        drain { processChunks chunks with pending := chunk } := by
      rw [processChunks, foldl_append]
      change processChunk (processChunks chunks) chunk = _
      rw [processChunk, hnone, nil_append]
    obtain ⟨pieces, hpending, htranscript, hlater, hflatten, hlengths, hpieces⟩ :=
      drain_spec { processChunks chunks with pending := chunk } hemitted
    rw [hstep]
    refine ⟨hpending, ?_, ?_, hlater, ?_⟩
    · rw [htranscript, flatten_append, hbefore, hflatten, flatten_append]
      simp
    · rw [htranscript]
      exact forall_mem_append.2 ⟨hshort, hlengths⟩
    · rw [htranscript, forall_mem_append, forall_mem_append, hvalid, hpieces]
      simp

/-- **Pieces of output.**  Whatever the chunks are, the pieces that are taken make up the stream
and none is longer than allowed; all of them are valid UTF-8 exactly if all chunks are.  The
pieces that are emitted are valid and make up the stream exactly if moreover there are no more
of them than a call may emit. -/
theorem processChunks_valid_iff (chunks : List (List UInt8)) :
    (processChunks chunks).transcript.flatten = chunks.flatten ∧
      (∀ piece ∈ (processChunks chunks).transcript, piece.length ≤ unifiedExecOutputDeltaMaxBytes) ∧
      ((∀ piece ∈ (processChunks chunks).transcript, isUtf8 piece = true) ↔
        ∀ chunk ∈ chunks, isUtf8 chunk = true) ∧
      (((∀ piece ∈ (processChunks chunks).emitted, isUtf8 piece = true) ∧
          (processChunks chunks).emitted.flatten = chunks.flatten) ↔
        (∀ chunk ∈ chunks, isUtf8 chunk = true) ∧
          (processChunks chunks).transcript.length ≤ maxExecOutputDeltasPerCall) := by
  obtain ⟨-, hflatten, hpieces, hemitted, hvalid⟩ := processChunks_spec chunks
  refine ⟨hflatten, fun piece hmem => (hpieces piece hmem).2, hvalid, ?_⟩
  rw [← hvalid, hemitted, ← hflatten]
  constructor
  · rintro ⟨hall, hwhole⟩
    -- no piece is empty, so a beginning that makes up the stream is everything
    have hdrop :
        ((processChunks chunks).transcript.drop maxExecOutputDeltasPerCall).flatten = [] := by
      nth_rewrite 2 [← take_append_drop maxExecOutputDeltasPerCall
        (processChunks chunks).transcript] at hwhole
      rw [flatten_append] at hwhole
      exact self_eq_append_right.1 hwhole
    have hle : (processChunks chunks).transcript.length ≤ maxExecOutputDeltasPerCall := by
      refine drop_eq_nil_iff.1 (eq_nil_iff_forall_not_mem.2 fun piece hmem => ?_)
      exact (hpieces piece (mem_of_mem_drop hmem)).1 (flatten_eq_nil_iff.1 hdrop piece hmem)
    rw [take_of_length_le hle] at hall
    exact ⟨hall, hle⟩
  · rintro ⟨hall, hle⟩
    rw [take_of_length_le hle]
    exact ⟨hall, rfl⟩

/-- The two bytes of é, in a chunk each: the stream is valid, and neither piece is. -/
theorem character_cut_by_chunks : isUtf8 [[0xC3], [0xA9]].flatten = true ∧
    (processChunks [[0xC3], [0xA9]]).emitted = [[0xC3], [0xA9]] ∧
    isUtf8 [0xC3] = false ∧ isUtf8 [0xA9] = false := by
  decide +kernel

end TokenCode.UnifiedExec
