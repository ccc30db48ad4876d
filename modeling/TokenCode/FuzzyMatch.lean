/-
Fuzzy matching (`utils/fuzzy-match/src/lib.rs`).

The haystack is lowered character by character, the needle as a whole string, and the characters of
the needle are then looked for from left to right. What is found is right, and leftmost; but where a
capital sigma ends a word of the needle, it is lowered to another letter than in the haystack, and
then the needle is missed, even in itself (`fuzzyMatch_correct_iff`, `fuzzyMatch_final_sigma`).
-/
import TokenCode.Lib.Text

namespace TokenCode.FuzzyMatch

open List

/-! ### Finding a sequence -/

section Greedy

variable {α β : Type*} [DecidableEq β] (key : α → β)

/-- The first entry with the first key, then behind it the first one with the second key, and so
on. -/
def greedy : List β → List α → Option (List α)
  | [], _ => some []
  | _ :: _, [] => none
  | b :: keys, a :: entries =>
    if key a = b then (greedy keys entries).map (a :: ·) else greedy (b :: keys) entries

variable {key} {keys : List β} {entries found other : List α}

lemma greedy_eq_some (h : greedy key keys entries = some found) :
    found <+ entries ∧ found.map key = keys := by
  fun_induction greedy key keys entries generalizing found with
  | case1 => simp_all
  | case2 => cases h
  | case3 keys a entries ih =>
    obtain ⟨rest, hrest, rfl⟩ := Option.map_eq_some_iff.1 h
    obtain ⟨hsub, hkeys⟩ := ih hrest
    exact ⟨hsub.cons_cons a, by rw [map_cons, hkeys]⟩
  | case4 b keys a entries ha ih =>
    obtain ⟨hsub, hkeys⟩ := ih h
    exact ⟨hsub.cons a, hkeys⟩

lemma isSome_greedy : (greedy key keys entries).isSome ↔ keys <+ entries.map key := by
  fun_induction greedy key keys entries with
  | case1 => simp
  | case2 => simp
  | case3 keys a entries ih =>
    rw [Option.isSome_map, ih, map_cons, cons_sublist_cons]
  | case4 b keys a entries ha ih =>
    rw [ih, map_cons]
    exact ⟨fun h => h.cons _, fun h => Sublist.of_cons_of_ne (Ne.symm ha) h⟩

/-- Whatever begins like the keys comes later. -/
lemma greedy_first {R : α → α → Prop} (hentries : entries.Pairwise R)
    (h : greedy key keys entries = some found) (hother : other <+ entries)
    (hkeys : other.map key <+: keys) :
    Forall₂ (Relation.ReflGen R) (found.take other.length) other := by
  fun_induction greedy key keys entries generalizing found other with
  | case1 entries =>
    obtain rfl : other = [] := by simpa using hkeys
    exact .nil
  | case2 => cases h
  | case3 keys a entries ih =>
    obtain ⟨rest, hrest, rfl⟩ := Option.map_eq_some_iff.1 h
    rw [pairwise_cons] at hentries
    cases other with
    | nil => exact .nil
    | cons o other =>
      obtain ⟨-, htail⟩ := cons_prefix_cons.1 hkeys
      rcases cons_sublist_cons'.1 hother with hlater | ⟨rfl, hsub⟩
      · -- the first entry of the other sequence is one of the later entries
        exact .cons (.single (hentries.1 o (hlater.subset mem_cons_self)))
          (ih hentries.2 hrest (sublist_of_cons_sublist hlater) htail)
      · exact .cons .refl (ih hentries.2 hrest hsub htail)
  | case4 b keys a entries ha ih =>
    refine ih (pairwise_cons.1 hentries).2 h ?_ hkeys
    cases other with
    | nil => exact nil_sublist _
    | cons o other =>
      obtain ⟨hkey, -⟩ := cons_prefix_cons.1 hkeys
      exact Sublist.of_cons_of_ne (fun hoa : o = a => ha (hoa ▸ hkey)) hother

end Greedy

/-! ### Lower case -/

/-- The tables of the standard library. -/
structure Unicode where
  /-- `char::to_lowercase` -/
  toLowercase : Char → List Char
  cased : Char → Bool
  caseIgnorable : Char → Bool

variable (unicode : Unicode)

/-- `case_ignorable_then_cased`. -/
def caseIgnorableThenCased (chars : Text) : Bool :=
  (chars.dropWhile unicode.caseIgnorable).head?.any unicode.cased

/-- The rest of `str::to_lowercase`, behind the characters `before` in reverse: a capital sigma at
the end of a word is lowered to a final sigma. -/
def lowerFrom : Text → Text → Text
  | _, [] => []
  | before, c :: rest =>
    (if c = 'Σ' then
      [if caseIgnorableThenCased unicode before && !caseIgnorableThenCased unicode rest then 'ς'
        else 'σ']
    else unicode.toLowercase c) ++ lowerFrom (c :: before) rest

/-- `str::to_lowercase`. -/
def strToLowercase (text : Text) : Text := lowerFrom unicode [] text

/-- `lowered_chars` with `lowered_to_orig_char_idx`. -/
def lowered (haystack : Text) : List (Char × ℕ) :=
  haystack.zipIdx.flatMap fun (ch, origIdx) => (unicode.toLowercase ch).map (·, origIdx)

/-- `lowered_chars`, with the loop for the needle. -/
def search (haystack needle : Text) : Option (List ((Char × ℕ) × ℕ)) :=
  greedy (·.1.1) (strToLowercase unicode needle) (lowered unicode haystack).zipIdx

/-- The score of what was found. Its numbers are integers; the casts to `i32` are left out. -/
def score (haystack needle : Text) (found : List ((Char × ℕ) × ℕ)) : ℤ :=
  let firstLowerPos := match found with
    | [] => 0
    | entry :: _ => ((lowered unicode haystack).findIdx? (·.2 = entry.1.2)).getD 0
  let lastLowerPos := (found.getLast?.map Prod.snd).getD firstLowerPos
  let window : ℤ := (lastLowerPos - firstLowerPos + 1) - (strToLowercase unicode needle).length
  max window 0 - if firstLowerPos = 0 then 100 else 0

/-- `result_orig_indices`, sorted and without repetitions. -/
def indicesOf (found : List ((Char × ℕ) × ℕ)) : List ℕ :=
  ((found.map (·.1.2)).mergeSort (· ≤ ·)).dedup

/-- `fuzzy_match`. -/
def fuzzyMatch (haystack needle : Text) : Option (List ℕ × ℤ) :=
  if needle = [] then some ([], 2 ^ 31 - 1)
  else (search unicode haystack needle).map fun found =>
    (indicesOf found, score unicode haystack needle found)

/-! ### What is found -/

/-- What is promised of the indices of a match. -/
structure Highlights (haystack needle : Text) (indices : List ℕ) : Prop where
  increasing : indices.Pairwise (· < ·)
  lt_length : ∀ i ∈ indices, i < haystack.length
  covers : strToLowercase unicode needle <+
    ((haystack.zipIdx.filter (·.2 ∈ indices)).map Prod.fst).flatMap unicode.toLowercase
  leftmost : ∃ found, found <+ (lowered unicode haystack).zipIdx ∧
    found.map (·.1.1) = strToLowercase unicode needle ∧ (∀ i, i ∈ indices ↔ i ∈ found.map (·.1.2)) ∧
    ∀ other, other <+ (lowered unicode haystack).zipIdx →
      other.map (·.1.1) <+: strToLowercase unicode needle →
        Forall₂ (fun a b => a.2 ≤ b.2) (found.take other.length) other

variable {unicode} {haystack needle : Text}

/-- The lowered characters that come from some of the positions. -/
lemma filter_lowered (unicode : Unicode) (haystack : Text) (p : ℕ → Bool) :
    ((lowered unicode haystack).filter (p ·.2)).map Prod.fst =
      ((haystack.zipIdx.filter (p ·.2)).map Prod.fst).flatMap unicode.toLowercase := by
  rw [lowered]
  induction haystack.zipIdx with
  | nil => rfl
  | cons pair pairs ih =>
    rw [flatMap_cons, filter_append, map_append, ih, filter_cons]
    cases hp : p pair.2 <;> simp [hp, filter_map, Function.comp_def]

lemma isSome_fuzzyMatch : (fuzzyMatch unicode haystack needle).isSome ↔
    strToLowercase unicode needle <+ haystack.flatMap unicode.toLowercase := by
  have hlowered := filter_lowered unicode haystack fun _ => true
  simp only [filter_true, zipIdx_map_fst] at hlowered
  have hkeys : (lowered unicode haystack).zipIdx.map (·.1.1) =
      haystack.flatMap unicode.toLowercase := by
    rw [← hlowered, ← zipIdx_map_fst 0 (lowered unicode haystack), map_map]
    simp [Function.comp_def]
  unfold fuzzyMatch
  split_ifs with hneedle
  · simp [hneedle, strToLowercase, lowerFrom]
  · rw [Option.isSome_map, search, isSome_greedy, hkeys]

lemma exists_search {indices : List ℕ} {score : ℤ}
    (h : fuzzyMatch unicode haystack needle = some (indices, score)) :
    ∃ found, search unicode haystack needle = some found ∧ indicesOf found = indices := by
  unfold fuzzyMatch at h
  split_ifs at h with hneedle
  · subst hneedle
    refine ⟨[], by simp [search, strToLowercase, lowerFrom, greedy], ?_⟩
    simp_all [indicesOf]
  · obtain ⟨found, hfound, h⟩ := Option.map_eq_some_iff.1 h
    exact ⟨found, hfound, (Prod.mk.inj h).1⟩

lemma highlights_of_fuzzyMatch {indices : List ℕ} {score : ℤ}
    (h : fuzzyMatch unicode haystack needle = some (indices, score)) :
    Highlights unicode haystack needle indices := by
  obtain ⟨found, hfound, rfl⟩ := exists_search h
  obtain ⟨hsub, hkeys⟩ := greedy_eq_some hfound
  have hmem : ∀ i, i ∈ indicesOf found ↔ i ∈ found.map (·.1.2) := by simp [indicesOf]
  have hsub' : found.map Prod.fst <+ lowered unicode haystack := by
    simpa using hsub.map Prod.fst
  have hpositions : (lowered unicode haystack).zipIdx.Pairwise fun a b => a.2 < b.2 := by
    rw [← pairwise_map (f := Prod.snd), zipIdx_map_snd]
    exact pairwise_lt_range'
  refine ⟨?_, fun i hi => ?_, ?_, found, hsub, hkeys, hmem, fun other hother hprefix => ?_⟩
  · have hsorted := (pairwise_mergeSort' (· ≤ ·) (found.map (·.1.2))).sublist
      (dedup_sublist _)
    exact (hsorted.and (nodup_dedup _)).imp fun h => lt_of_le_of_ne h.1 h.2
  · obtain ⟨entry, hentry, rfl⟩ := mem_map.1 ((hmem i).1 hi)
    have hlowered := hsub'.subset (List.mem_map_of_mem hentry)
    obtain ⟨⟨ch, origIdx⟩, hch, hmap⟩ := mem_flatMap.1 hlowered
    obtain ⟨c, -, hidx⟩ := mem_map.1 hmap
    rw [← hidx]
    exact (mem_zipIdx' hch).1
  · have hfilter := (hsub'.filter (·.2 ∈ indicesOf found)).map Prod.fst
    rw [filter_eq_self.2, map_map, filter_lowered unicode haystack (· ∈ indicesOf found)] at hfilter
    · rwa [← hkeys]
    · intro entry hentry
      obtain ⟨e, he, rfl⟩ := mem_map.1 hentry
      exact decide_eq_true ((hmem _).2 (List.mem_map_of_mem he))
  · refine (greedy_first hpositions hfound hother hprefix).imp fun a b hab => ?_
    cases hab with
    | refl => exact le_rfl
    | single hlt => exact hlt.le

/-! ### The final sigma -/

/-- A capital sigma of the text ends a word. -/
def HasFinalSigma (unicode : Unicode) (text : Text) : Prop :=
  ∃ before after, text = before ++ 'Σ' :: after ∧
    caseIgnorableThenCased unicode before.reverse = true ∧ caseIgnorableThenCased unicode after = false

variable (hsigma : unicode.toLowercase 'Σ' = ['σ'])
include hsigma

lemma length_lowerFrom (before rest : Text) :
    (lowerFrom unicode before rest).length = (rest.flatMap unicode.toLowercase).length := by
  induction rest generalizing before with
  | nil => rfl
  | cons c rest ih =>
    rw [lowerFrom, flatMap_cons, length_append, length_append, ih]
    by_cases hc : c = 'Σ'
    · rw [if_pos hc, hc, hsigma, length_singleton, length_singleton]
    · rw [if_neg hc]

/-- The whole string is lowered like its characters, unless a sigma ends a word. -/
lemma lowerFrom_eq_iff (before rest : Text) :
    lowerFrom unicode before rest = rest.flatMap unicode.toLowercase ↔
      ∀ front after, rest = front ++ 'Σ' :: after →
        ¬ (caseIgnorableThenCased unicode (front.reverse ++ before) = true ∧
          caseIgnorableThenCased unicode after = false) := by
  induction rest generalizing before with
  | nil => simp [lowerFrom]
  | cons c rest ih =>
    have hlater : (∀ front after, c :: rest = front ++ 'Σ' :: after →
        ¬ (caseIgnorableThenCased unicode (front.reverse ++ before) = true ∧
          caseIgnorableThenCased unicode after = false)) ↔
        (c = 'Σ' → ¬ (caseIgnorableThenCased unicode before = true ∧
          caseIgnorableThenCased unicode rest = false)) ∧
        ∀ front after, rest = front ++ 'Σ' :: after →
          ¬ (caseIgnorableThenCased unicode (front.reverse ++ c :: before) = true ∧
            caseIgnorableThenCased unicode after = false) := by
      refine ⟨fun h => ⟨fun hc => ?_, fun front after hrest => ?_⟩, fun h front after hsplit => ?_⟩
      · exact h [] rest (by rw [hc, nil_append])
      · have := h (c :: front) after (by rw [hrest, cons_append])
        rwa [reverse_cons, append_assoc, singleton_append] at this
      · cases front with
        | nil =>
          obtain ⟨rfl, rfl⟩ := cons.inj hsplit
          exact h.1 rfl
        | cons head front =>
          obtain ⟨rfl, hrest⟩ := cons.inj hsplit
          rw [reverse_cons, append_assoc, singleton_append]
          exact h.2 front after hrest
    rw [hlater, ← ih, lowerFrom, flatMap_cons]
    by_cases hc : c = 'Σ'
    · rw [if_pos hc, hc, hsigma, singleton_append, singleton_append, cons.injEq]
      refine and_congr_left fun _ => ?_
      cases caseIgnorableThenCased unicode before <;> cases caseIgnorableThenCased unicode rest <;> simp
    · rw [if_neg hc, append_cancel_left_eq]
      simp [hc]

lemma strToLowercase_eq_iff (text : Text) :
    strToLowercase unicode text = text.flatMap unicode.toLowercase ↔ ¬ HasFinalSigma unicode text := by
  rw [strToLowercase, lowerFrom_eq_iff hsigma]
  simp [HasFinalSigma]

/-- **When matching is right.**  What is found is always right; a needle is found in every haystack in
which its characters occur in order up to case if and only if no capital sigma ends a word of it. -/
theorem fuzzyMatch_correct_iff (needle : Text) :
    (∀ haystack, (needle.map unicode.toLowercase <+ haystack.map unicode.toLowercase →
          (fuzzyMatch unicode haystack needle).isSome) ∧
        ∀ indices score, fuzzyMatch unicode haystack needle = some (indices, score) →
          Highlights unicode haystack needle indices) ↔
      ¬ HasFinalSigma unicode needle := by
  rw [← strToLowercase_eq_iff hsigma]
  refine ⟨fun h => ?_, fun heq haystack => ⟨fun hsub => ?_, fun _ _ => highlights_of_fuzzyMatch⟩⟩
  · -- the needle occurs in itself
    have hself := isSome_fuzzyMatch.1 ((h needle).1 (Sublist.refl _))
    exact hself.eq_of_length (length_lowerFrom hsigma [] needle)
  · rw [isSome_fuzzyMatch, heq, flatMap_def, flatMap_def]
    exact hsub.flatten

omit hsigma

/-- The two letters of the following needle. -/
def greek : Unicode where
  toLowercase c := if c = 'Α' then ['α'] else if c = 'Σ' then ['σ'] else [c]
  cased c := c ∈ "ΑΣασς".toList
  caseIgnorable _ := false

/-- A needle whose sigma does not end a word. -/
theorem fuzzyMatch_correct_iff_inner : ¬ HasFinalSigma greek "ΣΑ".toList ∧
    (fuzzyMatch greek "Ασ αΣ".toList "ΣΑ".toList).isSome := by
  have hinner : ¬ HasFinalSigma greek "ΣΑ".toList :=
    (strToLowercase_eq_iff rfl _).1 (by decide +kernel)
  exact ⟨hinner, ((fuzzyMatch_correct_iff rfl _).2 hinner _).1 (by decide +kernel)⟩

/-- A needle that ends in a capital sigma is not found in itself. -/
theorem fuzzyMatch_final_sigma : fuzzyMatch greek "ΑΣ".toList "ΑΣ".toList = none ∧
    strToLowercase greek "ΑΣ".toList = "ας".toList := by
  decide +kernel

end TokenCode.FuzzyMatch
