/-
Edits of a list: a stretch of its elements gives way to new ones.

Several edits can be understood in two ways. All at once (`splice`): every position of the list
keeps its element unless an edit covers it, and the new elements of an edit stand where the edit
begins. One after the other, the last one first (`foldr Edit.apply`), so that the positions of
the edits in front stay what they were. The two agree when each edit ends before the next one
begins (`foldr_apply_eq_splice`).
-/
import Mathlib

namespace TokenCode

open List

/-- `len` elements from `start` on give way to `new`. -/
structure Edit (α : Type*) where
  start : ℕ
  len : ℕ
  new : List α

namespace Edit

variable {α : Type*}

/-- Carrying out one edit. -/
def apply (e : Edit α) (l : List α) : List α :=
  l.take e.start ++ (e.new ++ l.drop (e.start + e.len))

/-- The edit removes the element at position `i`. -/
def Covers (e : Edit α) (i : ℕ) : Prop := e.start ≤ i ∧ i < e.start + e.len

instance (e : Edit α) (i : ℕ) : Decidable (e.Covers i) := inferInstanceAs (Decidable (_ ∧ _))

/-- The first edit ends before the second begins. -/
def Before (a b : Edit α) : Prop := a.start + a.len ≤ b.start

/-- The new elements of the edits that begin at position `i`. -/
def newAt (edits : List (Edit α)) (i : ℕ) : List α :=
  (edits.filter (·.start = i)).flatMap new

/-- What stands at position `i` when all the edits are carried out at once: the new elements of
the edits that begin there, and the old element if no edit covers it. -/
def piece (l : List α) (edits : List (Edit α)) (i : ℕ) : List α :=
  newAt edits i ++ if ∃ e ∈ edits, e.Covers i then [] else l[i]?.toList

/-- All the edits at once. -/
def splice (l : List α) (edits : List (Edit α)) : List α :=
  (List.range (l.length + 1)).flatMap (piece l edits)

variable {l rest : List α} {e : Edit α} {edits others : List (Edit α)} {i position : ℕ}

/-! ### One after the other -/

/-- An edit that begins at the end of a first part leaves that part alone. -/
lemma apply_append (h : e.start = l.length) :
    e.apply (l ++ rest) = l ++ (e.new ++ rest.drop e.len) := by
  rw [apply, take_append_of_le_length h.le, drop_append, h, take_length]
  simp

/-- An edit inside a first part leaves what follows alone. -/
lemma apply_append_of_le (h : e.start + e.len ≤ l.length) :
    e.apply (l ++ rest) = e.apply l ++ rest := by
  rw [apply, apply, take_append_of_le_length (by omega), drop_append_of_le_length h]
  simp

/-- Edits from some position on leave at least as many elements. -/
lemma le_length_foldr (h : ∀ e ∈ edits, position ≤ e.start) (hl : position ≤ l.length) :
    position ≤ (edits.foldr apply l).length := by
  induction edits with
  | nil => exact hl
  | cons e edits ih =>
    have hrest := ih (forall_mem_cons.1 h).2
    have hstart := h e mem_cons_self
    simp only [foldr_cons, apply, length_append, length_take]
    omega

/-- Edits inside a first part that stand apart leave what follows alone. -/
lemma foldr_apply_append (h : edits.Pairwise Before)
    (hbound : ∀ e ∈ edits, e.start + e.len ≤ l.length) :
    edits.foldr apply (l ++ rest) = edits.foldr apply l ++ rest := by
  induction edits with
  | nil => rfl
  | cons e edits ih =>
    obtain ⟨hfirst, hrest⟩ := pairwise_cons.1 h
    rw [foldr_cons, foldr_cons, ih hrest (forall_mem_cons.1 hbound).2,
      apply_append_of_le (le_length_foldr hfirst (hbound e mem_cons_self))]

/-- Insertions at the end of a first part stand there in their order. -/
lemma foldr_apply_insertions (h : ∀ e ∈ edits, e.start = l.length ∧ e.len = 0) :
    edits.foldr apply (l ++ rest) = l ++ (edits.flatMap new ++ rest) := by
  induction edits with
  | nil => simp
  | cons e edits ih =>
    obtain ⟨hstart, hlen⟩ := h e mem_cons_self
    rw [foldr_cons, ih (forall_mem_cons.1 h).2, apply_append hstart, hlen]
    simp

/-! ### All at once -/

lemma newAt_eq_nil (h : ∀ e ∈ edits, e.start ≠ i) : newAt edits i = [] := by
  rw [newAt, filter_eq_nil_iff.2 (by simpa using h), flatMap_nil]

lemma newAt_append : newAt (edits ++ others) i = newAt edits i ++ newAt others i := by
  simp [newAt]

lemma newAt_of_forall (h : ∀ e ∈ edits, e.start = i) : newAt edits i = edits.flatMap new := by
  rw [newAt, filter_eq_self.2 (by simpa using h)]

/-- The pieces in front of all the edits are the old elements. -/
lemma piece_of_lt (h : ∀ e ∈ edits, i < e.start) : piece l edits i = l[i]?.toList := by
  rw [piece, newAt_eq_nil fun e he => (h e he).ne', if_neg, nil_append]
  rintro ⟨e, he, hcovers⟩
  exact absurd hcovers.1 (h e he).not_ge

/-- The pieces behind an edit. -/
lemma piece_cons_of_le (hi : e.start + e.len ≤ i) :
    piece l (e :: edits) i = (if e.start = i then e.new else []) ++ piece l edits i := by
  have hcovers : (∃ e' ∈ e :: edits, e'.Covers i) ↔ ∃ e' ∈ edits, e'.Covers i := by
    simp only [mem_cons, exists_eq_or_imp, or_iff_right_iff_imp]
    exact fun hc => absurd hc.2 hi.not_gt
  simp only [piece, hcovers, newAt, filter_cons]
  split_ifs <;> simp_all

/-- The pieces that an edit covers and in front of which no other one begins. -/
lemma piece_cons_of_covers (h : ∀ e' ∈ edits, e.Before e') (hi : e.Covers i) :
    piece l (e :: edits) i = if e.start = i then e.new else [] := by
  have hnone : newAt edits i = [] :=
    newAt_eq_nil fun e' he' heq => absurd (hi.2.trans_le (h e' he')) (by omega)
  rw [piece, if_pos ⟨e, mem_cons_self, hi⟩, append_nil]
  unfold newAt at hnone ⊢
  split_ifs <;> simp_all

lemma flatMap_getElem? (l : List α) (n : ℕ) :
    (List.range n).flatMap (fun i => l[i]?.toList) = l.take n := by
  induction n with
  | zero => rfl
  | succ n ih => rw [range_succ, flatMap_append, ih, take_add_one]; simp

/-- The positions from `position` on, the last one being the end of the list. -/
def tailPieces (l : List α) (edits : List (Edit α)) (position : ℕ) : List α :=
  (List.range' position (l.length + 1 - position)).flatMap (piece l edits)

lemma tailPieces_eq_append {len : ℕ} (h : position + len ≤ l.length + 1) :
    tailPieces l edits position = (List.range' position len).flatMap (piece l edits) ++
      tailPieces l edits (position + len) := by
  have hrange : List.range' position (l.length + 1 - position) =
      List.range' position len ++ List.range' (position + len) (l.length + 1 - (position + len)) := by
    rw [range'_append_1]
    congr 1
    omega
  rw [tailPieces, tailPieces, hrange, flatMap_append]

lemma tailPieces_eq_cons (h : position ≤ l.length) :
    tailPieces l edits position = piece l edits position ++ tailPieces l edits (position + 1) := by
  rw [tailPieces_eq_append (by omega : position + 1 ≤ l.length + 1)]
  simp

/-- In front of the edits the splice is the old list. -/
lemma splice_of_le (h : ∀ e ∈ edits, position ≤ e.start) (hposition : position ≤ l.length) :
    splice l edits = l.take position ++ tailPieces l edits position := by
  have hsplit : tailPieces l edits 0 = _ :=
    tailPieces_eq_append (by omega : 0 + position ≤ l.length + 1)
  rw [Nat.zero_add, tailPieces, Nat.sub_zero, ← range_eq_range', ← range_eq_range'] at hsplit
  rw [splice, hsplit, flatMap_congr (g := fun i => l[i]?.toList), flatMap_getElem?]
  exact fun i hi => piece_of_lt fun e he => (mem_range.1 hi).trans_le (h e he)

/-- Behind an edit in front of the others there are only the pieces of the others. -/
lemma tailPieces_cons_of_lt (h : e.start < position) (hend : e.start + e.len ≤ position) :
    tailPieces l (e :: edits) position = tailPieces l edits position := by
  refine flatMap_congr fun i hi => ?_
  have hle : position ≤ i := (mem_range'_1.1 hi).1
  rw [piece_cons_of_le (hend.trans hle), if_neg (by omega), nil_append]

/-- From the start of an edit in front of the others on. -/
lemma tailPieces_cons (h : ∀ e' ∈ edits, e.Before e') (hbound : e.start + e.len ≤ l.length) :
    tailPieces l (e :: edits) e.start = e.new ++ tailPieces l edits (e.start + e.len) := by
  rcases hlen : e.len with _ | len
  · rw [tailPieces_eq_cons (by omega), piece_cons_of_le (by omega), if_pos rfl,
      tailPieces_cons_of_lt (by omega) (by omega), List.append_assoc,
      ← tailPieces_eq_cons (by omega)]
    rfl
  · -- the first position holds the new elements, the others that the edit covers hold nothing
    have hfirst : piece l (e :: edits) e.start = e.new := by
      rw [piece_cons_of_covers h ⟨le_rfl, by omega⟩, if_pos rfl]
    have hcovered : (List.range' (e.start + 1) len).flatMap (piece l (e :: edits)) = [] := by
      rw [flatMap_eq_nil_iff]
      intro i hi
      obtain ⟨hlow, hhigh⟩ := mem_range'_1.1 hi
      rw [piece_cons_of_covers h ⟨by omega, by omega⟩, if_neg (by omega)]
    rw [tailPieces_eq_cons (by omega), hfirst,
      tailPieces_eq_append (by omega : e.start + 1 + len ≤ l.length + 1), hcovered,
      nil_append, tailPieces_cons_of_lt (by omega) (by omega)]
    congr 2
    omega

/-- One more edit, in front of the others. -/
lemma splice_cons (h : ∀ e' ∈ edits, e.Before e') (hbound : e.start + e.len ≤ l.length) :
    splice l (e :: edits) = e.apply (splice l edits) := by
  have hstart : ∀ e' ∈ e :: edits, e.start ≤ e'.start := by
    intro e' he'
    rcases mem_cons.1 he' with rfl | he'
    · exact le_rfl
    · exact (Nat.le_add_right _ _).trans (h e' he')
  rw [splice_of_le hstart (by omega), tailPieces_cons h hbound, splice_of_le h hbound, apply,
    take_append_of_le_length (by simp; omega), take_take, min_eq_left (by omega),
    drop_append, drop_of_length_le (by simp)]
  simp [hbound]

/-- **Edits that stand apart** may be carried out one after the other, the last one first. -/
theorem foldr_apply_eq_splice (h : edits.Pairwise Before)
    (hbound : ∀ e ∈ edits, e.start + e.len ≤ l.length) : edits.foldr apply l = splice l edits := by
  induction edits with
  | nil =>
    have hnone : piece l [] = fun i => l[i]?.toList := by
      funext i
      exact piece_of_lt (by simp)
    rw [foldr_nil, splice, hnone, flatMap_getElem?, take_of_length_le (by omega)]
  | cons e edits ih =>
    obtain ⟨hfirst, hrest⟩ := pairwise_cons.1 h
    rw [foldr_cons, ih hrest (forall_mem_cons.1 hbound).2,
      splice_cons hfirst (hbound e mem_cons_self)]

/-! ### An insertion behind an edit that begins at the same position -/

section

variable {first : List α} {last : α} {front inserted behind : List (Edit α)}

/-- All at once, the insertions stand behind the new elements of the edit. -/
lemma splice_clash (hfront : ∀ e ∈ front, e.start + e.len ≤ first.length)
    (hstart : e.start = first.length) (hlen : e.len = 1)
    (hinserted : ∀ e ∈ inserted, e.start = first.length ∧ e.len = 0)
    (hbehind : ∀ e ∈ behind, e.start = first.length + 1 ∧ e.len = 0) :
    splice (first ++ [last]) (front ++ e :: (inserted ++ behind)) =
      splice first front ++ (e.new ++ (inserted.flatMap new ++ behind.flatMap new)) := by
  have hbefore : ∀ i < first.length, piece (first ++ [last]) (front ++ e :: (inserted ++ behind)) i =
      piece first front i := by
    intro i hi
    have hcovers : (∃ e' ∈ front ++ e :: (inserted ++ behind), e'.Covers i) ↔
        ∃ e' ∈ front, e'.Covers i := by
      constructor
      · rintro ⟨e', he', hcovers⟩
        have hle := hcovers.1
        simp only [mem_append, mem_cons] at he'
        rcases he' with he' | rfl | he' | he'
        · exact ⟨e', he', hcovers⟩
        · omega
        · have := (hinserted e' he').1; omega
        · have := (hbehind e' he').1; omega
      · rintro ⟨e', he', hcovers⟩
        exact ⟨e', mem_append_left _ he', hcovers⟩
    have hnone : newAt (e :: (inserted ++ behind)) i = [] := by
      refine newAt_eq_nil fun e' he' heq => ?_
      simp only [mem_append, mem_cons] at he'
      rcases he' with rfl | he' | he'
      · omega
      · have := (hinserted e' he').1; omega
      · have := (hbehind e' he').1; omega
    simp only [piece, hcovers, newAt_append, hnone, append_nil, getElem?_append_left hi]
  have hat : piece (first ++ [last]) (front ++ e :: (inserted ++ behind)) first.length =
      piece first front first.length ++ (e.new ++ inserted.flatMap new) := by
    have hnone : ¬ ∃ e' ∈ front, e'.Covers first.length := by
      rintro ⟨e', he', hcovers⟩
      exact absurd hcovers.2 (hfront e' he').not_gt
    have hnew : newAt (e :: (inserted ++ behind)) first.length = e.new ++ inserted.flatMap new := by
      rw [← singleton_append, newAt_append, newAt_append, newAt_of_forall (by simpa using hstart),
        newAt_of_forall fun e' he' => (hinserted e' he').1,
        newAt_eq_nil fun e' he' heq => by have := (hbehind e' he').1; omega]
      simp
    rw [piece, piece, newAt_append, hnew, if_neg hnone, if_pos ⟨e, by simp, by omega, by omega⟩]
    simp
  have hend : piece (first ++ [last]) (front ++ e :: (inserted ++ behind)) (first.length + 1) =
      behind.flatMap new := by
    rw [piece, newAt_append, newAt_eq_nil fun e' he' heq => by have := hfront e' he'; omega,
      ← singleton_append, newAt_append, newAt_append,
      newAt_eq_nil fun e' he' heq => by simp at he'; subst he'; omega,
      newAt_eq_nil fun e' he' heq => by have := (hinserted e' he').1; omega,
      newAt_of_forall fun e' he' => (hbehind e' he').1]
    simp
  rw [splice, splice, length_append, length_singleton, range_succ, range_succ, flatMap_append,
    flatMap_append, flatMap_append, flatMap_singleton, flatMap_singleton, flatMap_singleton, hat,
    hend, flatMap_congr fun i hi => hbefore i (mem_range.1 hi)]
  simp

/-- One after the other, the edit takes away the first inserted element instead. -/
lemma foldr_apply_clash (happart : front.Pairwise Before)
    (hfront : ∀ e ∈ front, e.start + e.len ≤ first.length)
    (hstart : e.start = first.length) (hlen : e.len = 1)
    (hinserted : ∀ e ∈ inserted, e.start = first.length ∧ e.len = 0)
    (hbehind : ∀ e ∈ behind, e.start = first.length + 1 ∧ e.len = 0) :
    (front ++ e :: (inserted ++ behind)).foldr apply (first ++ [last]) =
      splice first front ++ (e.new ++ ((inserted.flatMap new ++ [last]).drop 1 ++
        behind.flatMap new)) := by
  have hlast : behind.foldr apply (first ++ [last]) = first ++ (last :: behind.flatMap new) := by
    have hinsert := @foldr_apply_insertions _ (first ++ [last]) [] behind (by simpa using hbehind)
    simpa using hinsert
  have hdrop : (inserted.flatMap new ++ last :: behind.flatMap new).drop 1 =
      (inserted.flatMap new ++ [last]).drop 1 ++ behind.flatMap new := by
    rw [← drop_append_of_le_length (by simp)]
    simp
  rw [foldr_append, foldr_cons, foldr_append, hlast,
    foldr_apply_insertions hinserted, apply_append hstart, hlen, hdrop,
    foldr_apply_append happart hfront, foldr_apply_eq_splice happart hfront]

end

end Edit

end TokenCode
