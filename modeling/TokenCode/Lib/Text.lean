/-
Text as the standard library of the modelled programs sees it.

A `str` is the list of its Unicode scalar values. This file has the operations of `str` that
line-oriented parsers are written with (`trim`, `strip_suffix('\r')`, `lines`, `join`), and the
facts about them that a proof about such a parser needs: what trimming leaves alone, and that
cutting a text at its newlines is the inverse of putting the lines together again.
-/
import Mathlib

namespace TokenCode

open List hiding instLawfulBEq

/-- A `str`, as the list of its characters. -/
abbrev Text := List Char

variable {c : Char} {a b s : Text}

namespace Text

instance instLawfulBEq : LawfulBEq Text := inferInstance

/-- `char::is_whitespace`: the Unicode property `White_Space`. -/
def isWhitespace (c : Char) : Bool :=
  (9 ≤ c.toNat && c.toNat ≤ 13) || c.toNat == 0x20 || c.toNat == 0x85 || c.toNat == 0xA0 ||
    c.toNat == 0x1680 || (0x2000 ≤ c.toNat && c.toNat ≤ 0x200A) || c.toNat == 0x2028 ||
    c.toNat == 0x2029 || c.toNat == 0x202F || c.toNat == 0x205F || c.toNat == 0x3000

/-- `str::trim_start`. -/
def trimStart (s : Text) : Text := s.dropWhile isWhitespace

/-- `str::trim_end`. -/
def trimEnd (s : Text) : Text := s.rdropWhile isWhitespace

/-- `str::trim`. -/
def trim (s : Text) : Text := trimEnd (trimStart s)

/-- Only whitespace. -/
def Blank (s : Text) : Prop := ∀ c ∈ s, isWhitespace c = true

instance (s : Text) : Decidable (Blank s) :=
  decidable_of_iff (s.all isWhitespace = true) List.all_eq_true

/-- `strip_suffix('\r')`, leaving the text alone when it does not end so. -/
def stripCr (s : Text) : Text := if s.getLast? = some '\r' then s.dropLast else s

/-! ### Trimming -/

@[simp] lemma trimStart_nil : trimStart [] = [] := rfl

@[simp] lemma trimEnd_nil : trimEnd [] = [] := by simp [trimEnd]

lemma trimStart_cons_of_not (h : isWhitespace c = false) (s : Text) :
    trimStart (c :: s) = c :: s := by
  simp [trimStart, h]

lemma trimStart_append_of_blank (ha : Blank a) (b : Text) : trimStart (a ++ b) = trimStart b := by
  induction a with
  | nil => rfl
  | cons c a ih =>
    have hc : isWhitespace c = true := ha c (by simp)
    have ih' := ih fun d hd => ha d (by simp [hd])
    simpa [trimStart, hc] using ih'

lemma trimEnd_append_of_blank (a : Text) (hb : Blank b) : trimEnd (a ++ b) = trimEnd a := by
  induction b using reverseRecOn with
  | nil => simp
  | append_singleton b c ih =>
    have hc : isWhitespace c = true := hb c (by simp)
    have ih' := ih fun d hd => hb d (by simp [hd])
    rw [trimEnd, ← List.append_assoc, rdropWhile_concat, if_pos hc]
    exact ih'

lemma trimEnd_concat_of_not (h : isWhitespace c = false) (s : Text) :
    trimEnd (s ++ [c]) = s ++ [c] := by
  rw [trimEnd, rdropWhile_concat, if_neg (by simp [h])]

lemma trimEnd_eq_nil_iff : trimEnd s = [] ↔ Blank s := by
  rw [trimEnd, rdropWhile_eq_nil_iff]
  rfl

lemma trimStart_eq_nil_iff : trimStart s = [] ↔ Blank s := by
  rw [trimStart, dropWhile_eq_nil_iff]
  rfl

/-- What trimming the end removes is blank. -/
lemma trimEnd_split (s : Text) : ∃ w, Blank w ∧ s = trimEnd s ++ w := by
  induction s using reverseRecOn with
  | nil => exact ⟨[], by simp [Blank], by simp⟩
  | append_singleton s c ih =>
    by_cases hc : isWhitespace c = true
    · obtain ⟨w, hw, hs⟩ := ih
      refine ⟨w ++ [c], ?_, ?_⟩
      · intro d hd
        rcases mem_append.1 hd with hd | hd
        · exact hw d hd
        · simpa [mem_singleton.1 hd] using hc
      · have he : trimEnd (s ++ [c]) = trimEnd s :=
          trimEnd_append_of_blank s (by simpa [Blank] using hc)
        rw [he, ← List.append_assoc, ← hs]
    · exact ⟨[], by simp [Blank], by simp [trimEnd_concat_of_not (by simpa using hc)]⟩

/-- What trimming the start removes is blank. -/
lemma trimStart_split (s : Text) : ∃ w, Blank w ∧ s = w ++ trimStart s := by
  refine ⟨s.takeWhile isWhitespace, fun c hc => mem_takeWhile_imp hc, ?_⟩
  exact (takeWhile_append_dropWhile).symm

/-- Trimming the end of `a ++ b` leaves `a` alone as soon as `b` is not blank. -/
lemma trimEnd_append_of_not_blank (a : Text) (hb : ¬ Blank b) :
    trimEnd (a ++ b) = a ++ trimEnd b := by
  obtain ⟨w, hw, hs⟩ := trimEnd_split b
  have hne : trimEnd b ≠ [] := fun h => hb (trimEnd_eq_nil_iff.1 h)
  have hlast : isWhitespace ((trimEnd b).getLast hne) = false :=
    Bool.eq_false_of_not_eq_true (rdropWhile_last_not isWhitespace b hne)
  have hb' : trimEnd b = (trimEnd b).dropLast ++ [(trimEnd b).getLast hne] :=
    (dropLast_append_getLast hne).symm
  calc trimEnd (a ++ b) = trimEnd ((a ++ trimEnd b) ++ w) := by
        rw [List.append_assoc, ← hs]
    _ = trimEnd (a ++ trimEnd b) := trimEnd_append_of_blank _ hw
    _ = trimEnd ((a ++ (trimEnd b).dropLast) ++ [(trimEnd b).getLast hne]) := by
        rw [List.append_assoc, ← hb']
    _ = a ++ trimEnd b := by
        rw [trimEnd_concat_of_not hlast, List.append_assoc, ← hb']

/-- A text that neither starts nor ends with whitespace. -/
def Trimmed (s : Text) : Prop :=
  (∀ c ∈ s.head?, isWhitespace c = false) ∧ (∀ c ∈ s.getLast?, isWhitespace c = false)

lemma trimEnd_of_getLast? (h : ∀ c ∈ s.getLast?, isWhitespace c = false) : trimEnd s = s := by
  induction s using reverseRecOn with
  | nil => simp
  | append_singleton s c _ => exact trimEnd_concat_of_not (h c (by simp)) s

lemma trimStart_of_head? (h : ∀ c ∈ s.head?, isWhitespace c = false) : trimStart s = s := by
  cases s with
  | nil => simp
  | cons c s => exact trimStart_cons_of_not (h c (by simp)) s

lemma Trimmed.trim_eq (h : Trimmed s) : trim s = s := by
  rw [trim, trimStart_of_head? h.1, trimEnd_of_getLast? h.2]

lemma Trimmed.trimEnd_eq (h : Trimmed s) : trimEnd s = s :=
  trimEnd_of_getLast? h.2

lemma Trimmed.not_blank (h : Trimmed s) (hne : s ≠ []) : ¬ Blank s := by
  cases s with
  | nil => exact absurd rfl hne
  | cons c s =>
    intro hb
    have h1 : isWhitespace c = false := h.1 c (by simp)
    have h2 : isWhitespace c = true := hb c (by simp)
    rw [h1] at h2
    exact absurd h2 (by simp)

/-- Trimming the end keeps a first character that is not whitespace. -/
lemma trim_of_head? (h : ∀ c ∈ s.head?, isWhitespace c = false) : trim s = trimEnd s := by
  rw [trim, trimStart_of_head? h]

lemma trim_eq_nil_iff : trim s = [] ↔ Blank s := by
  rw [trim, trimEnd_eq_nil_iff]
  constructor
  · intro h
    obtain ⟨w, hw, hs⟩ := trimStart_split s
    rw [hs]
    intro c hc
    rcases mem_append.1 hc with hc | hc
    · exact hw c hc
    · exact h c hc
  · intro h
    rw [trimStart_eq_nil_iff.2 h]
    simp [Blank]

lemma trim_append_of_blank (a : Text) (hb : Blank b) : trim (a ++ b) = trim a := by
  by_cases ha : Blank a
  · have hab : Blank (a ++ b) := by
      intro c hc
      rcases mem_append.1 hc with hc | hc
      · exact ha c hc
      · exact hb c hc
    rw [trim_eq_nil_iff.2 hab, trim_eq_nil_iff.2 ha]
  · obtain ⟨w, hw, hs⟩ := trimStart_split a
    have hne : trimStart a ≠ [] := fun h => ha (trimStart_eq_nil_iff.1 h)
    have hhead : ∀ c ∈ (trimStart a ++ b).head?, isWhitespace c = false := by
      intro c hc
      rw [head?_append_of_ne_nil _ hne] at hc
      have h := head?_dropWhile_not isWhitespace a
      rw [trimStart] at hc
      rw [hc] at h
      simpa using h
    have hab : trimStart (a ++ b) = trimStart a ++ b := by
      conv_lhs => rw [hs, List.append_assoc, trimStart_append_of_blank hw]
      exact trimStart_of_head? hhead
    rw [trim, hab, trimEnd_append_of_blank _ hb, trim]

lemma trim_blank_append (ha : Blank a) (b : Text) : trim (a ++ b) = trim b := by
  rw [trim, trimStart_append_of_blank ha, trim]

lemma trim_trimStart (s : Text) : trim (trimStart s) = trim s := by
  obtain ⟨w, hw, hs⟩ := trimStart_split s
  conv_rhs => rw [hs]
  exact (trim_blank_append hw _).symm

lemma trim_trimEnd (s : Text) : trim (trimEnd s) = trim s := by
  obtain ⟨w, hw, hs⟩ := trimEnd_split s
  conv_rhs => rw [hs]
  exact (trim_append_of_blank _ hw).symm

/-! ### A trailing carriage return -/

lemma stripCr_concat_cr (s : Text) : stripCr (s ++ ['\r']) = s := by
  simp [stripCr]

lemma stripCr_of_getLast? (h : s.getLast? ≠ some '\r') : stripCr s = s := by
  rw [stripCr, if_neg h]

/-- Stripping the carriage return takes a blank piece off the end. -/
lemma stripCr_split (s : Text) : ∃ w, Blank w ∧ s = stripCr s ++ w := by
  by_cases h : s.getLast? = some '\r'
  · obtain ⟨t, rfl⟩ := getLast?_eq_some_iff.1 h
    exact ⟨['\r'], by simp [Blank, isWhitespace], by rw [stripCr_concat_cr]⟩
  · exact ⟨[], by simp [Blank], by simp [stripCr_of_getLast? h]⟩

lemma trim_stripCr (s : Text) : trim (stripCr s) = trim s := by
  obtain ⟨w, hw, hs⟩ := stripCr_split s
  conv_rhs => rw [hs]
  exact (trim_append_of_blank _ hw).symm

lemma trimEnd_stripCr (s : Text) : trimEnd (stripCr s) = trimEnd s := by
  obtain ⟨w, hw, hs⟩ := stripCr_split s
  conv_rhs => rw [hs]
  exact (trimEnd_append_of_blank _ hw).symm

/-- Behind a first character other than a carriage return, stripping works on the rest. -/
lemma stripCr_cons (hc : c ≠ '\r') (s : Text) : stripCr (c :: s) = c :: stripCr s := by
  cases s with
  | nil => simp [stripCr, hc]
  | cons d s =>
    by_cases h : (d :: s).getLast? = some '\r'
    all_goals simp [stripCr, h]

lemma mem_of_mem_stripCr (h : c ∈ stripCr s) : c ∈ s := by
  obtain ⟨w, -, hs⟩ := stripCr_split s
  rw [hs]
  exact mem_append_left w h

lemma length_stripCr_le (s : Text) : (stripCr s).length ≤ s.length := by
  obtain ⟨w, -, hs⟩ := stripCr_split s
  conv_rhs => rw [hs]
  simp

lemma stripCr_eq_self_iff : stripCr s = s ↔ s.getLast? ≠ some '\r' := by
  constructor
  · intro h hlast
    obtain ⟨t, rfl⟩ := getLast?_eq_some_iff.1 hlast
    rw [stripCr_concat_cr] at h
    exact absurd (congrArg List.length h) (by simp)
  · exact stripCr_of_getLast?

/-! ### Markers -/

lemma dropPrefix?_eq_some {marker rest : Text} :
    s.dropPrefix? marker = some rest ↔ s = marker ++ rest := by
  rw [dropPrefix?_eq_some_iff]
  simp

lemma dropPrefix?_append (marker rest : Text) : (marker ++ rest).dropPrefix? marker = some rest :=
  dropPrefix?_eq_some.2 rfl

/-- Two markers such that no text starts with both. -/
def Apart (a b : Text) : Prop := ¬ a <+: b ∧ ¬ b <+: a

instance (a b : Text) : Decidable (Apart a b) := inferInstanceAs (Decidable (_ ∧ _))

lemma Apart.dropPrefix?_eq_none (h : Apart a b) (s : Text) : (a ++ s).dropPrefix? b = none := by
  rw [Option.eq_none_iff_forall_ne_some]
  intro rest hrest
  have hb : b <+: a ++ s := ⟨rest, (dropPrefix?_eq_some.1 hrest).symm⟩
  rcases prefix_or_prefix_of_prefix (prefix_append a s) hb with hab | hba
  · exact h.1 hab
  · exact h.2 hba

lemma Apart.append_ne (h : Apart a b) (s : Text) : a ++ s ≠ b :=
  fun heq => h.1 ⟨s, heq⟩

/-! ### Lines -/

/-- The pieces of a text that end in a newline, without it, and what is left after the last
newline. -/
def cut : Text → List Text × Text
  | [] => ([], [])
  | c :: s =>
    if c = '\n' then ([] :: (cut s).1, (cut s).2)
    else match (cut s).1 with
      | [] => ([], c :: (cut s).2)
      | l :: ls => ((c :: l) :: ls, (cut s).2)

/-- `str::lines`: a line ends in `\n` or `\r\n`, the last one also at the end of the text. -/
def lines (s : Text) : List Text :=
  (cut s).1.map stripCr ++ (if (cut s).2 = [] then [] else [(cut s).2])

/-- `str::split_inclusive('\n')`: the lines with their newlines. -/
def splitInclusive (s : Text) : List Text :=
  (cut s).1.map (· ++ ['\n']) ++ (if (cut s).2 = [] then [] else [(cut s).2])

/-- `str::split('\n')`. -/
def splitNewline (s : Text) : List Text := (cut s).1 ++ [(cut s).2]

/-- `join("\n")`. -/
def joinNewline (ls : List Text) : Text := ['\n'].intercalate ls

/-- The text whose lines, each ended by a newline, are `ls`. -/
def unlines (ls : List Text) : Text := ls.flatMap (· ++ ['\n'])

@[simp] lemma cut_nil : cut [] = ([], []) := rfl

lemma cut_newline (s : Text) : cut ('\n' :: s) = ([] :: (cut s).1, (cut s).2) := by
  simp [cut]

/-- A piece without newline is left uncut. -/
lemma cut_of_not_mem (h : '\n' ∉ s) : cut s = ([], s) := by
  induction s with
  | nil => rfl
  | cons c s ih =>
    have hc : c ≠ '\n' := fun hc => h (by simp [hc])
    have ih' := ih fun hs => h (by simp [hs])
    simp [cut, hc, ih']

/-- The first newline ends the first line. -/
lemma cut_line {l : Text} (hl : '\n' ∉ l) (s : Text) :
    cut (l ++ '\n' :: s) = (l :: (cut s).1, (cut s).2) := by
  induction l with
  | nil => simpa using cut_newline s
  | cons c l ih =>
    have hc : c ≠ '\n' := fun hc => hl (by simp [hc])
    have ih' := ih fun h => hl (by simp [h])
    simp [cut, hc, ih']

/-- Cutting undoes putting lines together. -/
lemma cut_unlines {ls : List Text} (hls : ∀ l ∈ ls, '\n' ∉ l) (s : Text) :
    cut (unlines ls ++ s) = (ls ++ (cut s).1, (cut s).2) := by
  induction ls with
  | nil => rfl
  | cons l ls ih =>
    have ih' := ih fun l' hl' => hls l' (by simp [hl'])
    have hl : '\n' ∉ l := hls l (by simp)
    have hu : unlines (l :: ls) ++ s = l ++ '\n' :: (unlines ls ++ s) := by
      simp [unlines]
    rw [hu, cut_line hl, ih']
    rfl

/-- No piece of a cut has a newline. -/
lemma cut_no_newline (s : Text) : (∀ l ∈ (cut s).1, '\n' ∉ l) ∧ '\n' ∉ (cut s).2 := by
  induction s with
  | nil => simp
  | cons c s ih =>
    obtain ⟨ih1, ih2⟩ := ih
    by_cases hc : c = '\n'
    · subst hc
      rw [cut_newline]
      exact ⟨by simpa using ih1, ih2⟩
    · cases hs : (cut s).1 with
      | nil =>
        have he : cut (c :: s) = ([], c :: (cut s).2) := by simp [cut, hc, hs]
        rw [he]
        exact ⟨by simp, by simpa [Ne.symm hc] using ih2⟩
      | cons l ls =>
        have he : cut (c :: s) = ((c :: l) :: ls, (cut s).2) := by simp [cut, hc, hs]
        rw [hs] at ih1
        rw [he]
        refine ⟨fun l' hl' => ?_, ih2⟩
        rcases mem_cons.1 hl' with rfl | hl'
        · simpa [Ne.symm hc] using ih1 l (by simp)
        · exact ih1 l' (by simp [hl'])

lemma lines_no_newline (s : Text) : ∀ l ∈ lines s, '\n' ∉ l := by
  obtain ⟨h1, h2⟩ := cut_no_newline s
  intro l hl
  rcases mem_append.1 hl with hl | hl
  · obtain ⟨l', hl', rfl⟩ := mem_map.1 hl
    exact fun h => h1 l' hl' (mem_of_mem_stripCr h)
  · split_ifs at hl
    · simp at hl
    · rw [mem_singleton.1 hl]
      exact h2

/-- A text is its lines and its tail, put together. -/
lemma unlines_cut (s : Text) : unlines (cut s).1 ++ (cut s).2 = s := by
  induction s with
  | nil => rfl
  | cons c s ih =>
    by_cases hc : c = '\n'
    · subst hc
      rw [cut_newline]
      simpa [unlines] using ih
    · cases hs : (cut s).1 with
      | nil =>
        have he : cut (c :: s) = ([], c :: (cut s).2) := by simp [cut, hc, hs]
        rw [hs] at ih
        rw [he]
        simpa [unlines] using ih
      | cons l ls =>
        have he : cut (c :: s) = ((c :: l) :: ls, (cut s).2) := by simp [cut, hc, hs]
        rw [hs] at ih
        rw [he]
        simpa [unlines] using ih

/-- Joining lines ends all of them but the last. -/
lemma joinNewline_concat (ls : List Text) (l : Text) :
    joinNewline (ls ++ [l]) = unlines ls ++ l := by
  induction ls with
  | nil => simp [joinNewline, unlines]
  | cons l' ls ih =>
    have h : joinNewline (l' :: (ls ++ [l])) = l' ++ '\n' :: joinNewline (ls ++ [l]) := by
      cases hls : ls ++ [l] with
      | nil => simp at hls
      | cons a as => simp [joinNewline, List.intercalate]
    rw [cons_append, h, ih]
    simp [unlines]

/-- The lines of a trimmed text: trimming reaches into the first and the last line that are not
blank. -/
lemma lines_trim_unlines {first last : Text} {mids : List Text} {blanks : Text}
    (hfirst : ¬ Blank first) (hlast : ¬ Blank last) (hblanks : Blank blanks)
    (hnl : ∀ l ∈ first :: mids ++ [last], '\n' ∉ l) :
    lines (trim (unlines (first :: mids) ++ (last ++ blanks))) =
      stripCr (trimStart first) :: mids.map stripCr ++ [trimEnd last] := by
  obtain ⟨w, hw, hsplit⟩ := trimStart_split first
  obtain ⟨w', -, hsplit'⟩ := trimEnd_split last
  have hne : trimStart first ≠ [] := fun h => hfirst (trimStart_eq_nil_iff.1 h)
  have hne' : trimEnd last ≠ [] := fun h => hlast (trimEnd_eq_nil_iff.1 h)
  have hhead : ∀ c ∈ (unlines (trimStart first :: mids) ++ last).head?, isWhitespace c = false := by
    intro c hc
    have h := head?_dropWhile_not isWhitespace first
    cases hs : trimStart first with
    | nil => exact absurd hs hne
    | cons d s =>
      rw [← trimStart, hs] at h
      simp only [hs, unlines, flatMap_cons, cons_append, head?_cons, Option.mem_some_iff] at hc
      simpa [hc] using h
  have htrim : trim (unlines (first :: mids) ++ (last ++ blanks)) =
      unlines (trimStart first :: mids) ++ trimEnd last := by
    have htext : unlines (first :: mids) ++ (last ++ blanks) =
        w ++ ((unlines (trimStart first :: mids) ++ last) ++ blanks) := by
      conv_lhs => rw [hsplit]
      simp [unlines]
    rw [htext, trim_blank_append hw, trim_append_of_blank _ hblanks, trim_of_head? hhead,
      trimEnd_append_of_not_blank _ hlast]
  have hnl1 : ∀ l ∈ trimStart first :: mids, '\n' ∉ l := by
    intro l hl
    rcases mem_cons.1 hl with rfl | hl
    · intro h
      refine hnl first (by simp) ?_
      rw [hsplit]
      exact mem_append_right w h
    · exact hnl l (by simp [hl])
  have hnl2 : '\n' ∉ trimEnd last := by
    intro h
    refine hnl last (by simp) ?_
    rw [hsplit']
    exact mem_append_left w' h
  rw [lines, htrim, cut_unlines hnl1, cut_of_not_mem hnl2]
  simp [hne']

/-! ### Lines with their newlines -/

@[simp] lemma splitInclusive_nil : splitInclusive [] = [] := rfl

lemma splitInclusive_line {l : Text} (hl : '\n' ∉ l) (s : Text) :
    splitInclusive (l ++ '\n' :: s) = (l ++ ['\n']) :: splitInclusive s := by
  simp [splitInclusive, cut_line hl]

lemma splitInclusive_cons_of_ne (hc : c ≠ '\n') (s : Text) :
    splitInclusive (c :: s) = match splitInclusive s with
      | [] => [[c]]
      | l :: ls => (c :: l) :: ls := by
  rw [splitInclusive, splitInclusive, cut, if_neg hc]
  rcases hfirst : (cut s).1 with _ | ⟨l, ls⟩
  · by_cases hsecond : (cut s).2 = [] <;> simp [hsecond]
  · simp

/-- The beginning of the first line. -/
lemma splitInclusive_append (ha : '\n' ∉ a) (hne : a ≠ []) (s : Text) :
    splitInclusive (a ++ s) = match splitInclusive s with
      | [] => [a]
      | l :: ls => (a ++ l) :: ls := by
  induction a with
  | nil => exact absurd rfl hne
  | cons c a ih =>
    have hc : c ≠ '\n' := fun h => ha (by simp [h])
    rw [cons_append, splitInclusive_cons_of_ne hc]
    rcases a with _ | ⟨d, a⟩
    · rw [nil_append]
      rcases splitInclusive s with _ | ⟨l, ls⟩ <;> rfl
    · rw [ih (fun h => ha (mem_cons_of_mem _ h)) (by simp)]
      rcases splitInclusive s with _ | ⟨l, ls⟩ <;> rfl

lemma blank_newline : Blank ['\n'] := by
  intro c hc
  obtain rfl := mem_singleton.1 hc
  decide

/-- What is left of the beginning of a text, when it is trimmed, is the beginning of what is left of
the text. -/
lemma trim_prefix_trim_append (ha : ¬ Blank a) (b : Text) : trim a <+: trim (a ++ b) := by
  have hstart : trimStart (a ++ b) = trimStart a ++ b := by
    rw [trimStart, dropWhile_append, if_neg]
    · rfl
    · rw [← trimStart, List.isEmpty_iff, trimStart_eq_nil_iff]
      exact ha
  rw [trim, trim, hstart]
  by_cases hb : Blank b
  · rw [trimEnd_append_of_blank _ hb]
  · rw [trimEnd_append_of_not_blank _ hb]
    exact (List.rdropWhile_prefix _ _).trans (prefix_append _ _)

end Text

end TokenCode
