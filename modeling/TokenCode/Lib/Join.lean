/-
Joining neighbours of a list.

A partial associative operation says which two neighbours are joined into one element. Joining a
list from the right gives a list without joinable neighbours, and it does not matter in which order
parts of the list were joined before. Joining piecewise and joining at once differ exactly where an
element at the end of a piece could be joined with the one that begins the next.
-/
import Mathlib.Data.List.Chain
import Mathlib.Data.List.Flatten

namespace TokenCode

open List Option

section

variable {α β ι : Type} (merge : α → α → Option α)

/-- The element is joined with the head of the list if possible. -/
def push (a : α) : List α → List α
  | [] => [a]
  | b :: l =>
    match merge a b with
    | some c => c :: l
    | none => a :: b :: l

/-- Neighbours are joined, from the right. -/
def join (l : List α) : List α := l.foldr (push merge) []

/-- Joining three neighbours gives the same from either side, and a joined element is joinable where
the element at that end was. -/
structure Merging : Prop where
  assoc : ∀ a b d, (merge a b).bind (merge · d) = (merge b d).bind (merge a)
  last : ∀ {a b c} d, merge a b = some c → (merge c d).isSome = (merge b d).isSome
  first : ∀ {a b c} d, merge a b = some c → (merge d c).isSome = (merge d a).isSome

/-- The lists meet in two elements that can be joined. -/
def Meet (l₁ l₂ : List α) : Prop :=
  ∃ a ∈ l₁.getLast?, ∃ b ∈ l₂.head?, (merge a b).isSome

variable {merge} {a b c : α} {l l₁ l₂ : List α}

@[simp] lemma join_nil : join merge [] = [] := rfl

@[simp] lemma join_cons : join merge (a :: l) = push merge a (join merge l) := rfl

lemma push_cons_of_some (h : merge a b = some c) : push merge a (b :: l) = c :: l := by
  simp [push, h]

lemma push_cons_of_none (h : merge a b = none) : push merge a (b :: l) = a :: b :: l := by
  simp [push, h]

lemma push_ne_nil : push merge a l ≠ [] := by
  cases l with
  | nil => simp [push]
  | cons b l => cases h : merge a b <;> simp [push, h]

lemma join_append : join merge (l₁ ++ l₂) = l₁.foldr (push merge) (join merge l₂) :=
  foldr_append

lemma join_eq_nil_iff : join merge l = [] ↔ l = [] := by
  cases l with
  | nil => simp
  | cons a l => simp [push_ne_nil]

/-- A measure that is additive under joining is kept. -/
lemma flatMap_join {f : α → List β} (hf : ∀ a b c, merge a b = some c → f c = f a ++ f b)
    (l : List α) : (join merge l).flatMap f = l.flatMap f := by
  induction l with
  | nil => rfl
  | cons a l ih =>
    rw [join_cons, flatMap_cons, ← ih]
    cases join merge l with
    | nil => rfl
    | cons b l =>
      cases h : merge a b with
      | none => rw [push_cons_of_none h, flatMap_cons]
      | some c =>
        rw [push_cons_of_some h, flatMap_cons, flatMap_cons, hf a b c h, List.append_assoc]

/-- What joining keeps holds of the joined elements. -/
lemma forall_mem_join {P : α → Prop} (hP : ∀ a b c, merge a b = some c → P a → P b → P c)
    (h : ∀ a ∈ l, P a) : ∀ a ∈ join merge l, P a := by
  induction l with
  | nil => simp
  | cons a l ih =>
    have ih := ih (forall_mem_cons.1 h).2
    have ha := h a mem_cons_self
    rw [join_cons]
    cases hl : join merge l with
    | nil => simpa [push] using ha
    | cons b l' =>
      rw [hl, forall_mem_cons] at ih
      cases hab : merge a b with
      | none =>
        rw [push_cons_of_none hab, forall_mem_cons, forall_mem_cons]
        exact ⟨ha, ih⟩
      | some c =>
        rw [push_cons_of_some hab, forall_mem_cons]
        exact ⟨hP a b c hab ha ih.1, ih.2⟩

lemma length_push_le : (push merge a l).length ≤ l.length + 1 := by
  cases l with
  | nil => simp [push]
  | cons b l => cases h : merge a b <;> simp [push, h]

lemma length_foldr_push_le (l₁ l₂ : List α) :
    (l₁.foldr (push merge) l₂).length ≤ l₁.length + l₂.length := by
  induction l₁ with
  | nil => simp
  | cons a l₁ ih =>
    have hpush := @length_push_le _ merge a (l₁.foldr (push merge) l₂)
    simp only [foldr_cons, length_cons]
    omega

section

variable (hm : Merging merge)
include hm

/-- Elements that can be joined are pushed as their join. -/
lemma push_push (h : merge a b = some c) : push merge a (push merge b l) = push merge c l := by
  cases l with
  | nil => exact push_cons_of_some h
  | cons d l =>
    have hd : merge c d = (merge b d).bind (merge a) := by
      rw [← hm.assoc a b d, h, bind_some]
    cases hbd : merge b d with
    | none =>
      rw [hbd, bind_none] at hd
      rw [push_cons_of_none hbd, push_cons_of_some h, push_cons_of_none hd]
    | some e =>
      rw [hbd, bind_some] at hd
      rw [push_cons_of_some hbd]
      obtain ⟨x, hx⟩ := isSome_iff_exists.1 ((hm.last d h).trans (by rw [hbd]; rfl))
      rw [push_cons_of_some hx, push_cons_of_some (hd.symm.trans hx)]

/-- The part in front may be joined before. -/
lemma foldr_push_join (l₁ l₂ : List α) :
    (join merge l₁).foldr (push merge) l₂ = l₁.foldr (push merge) l₂ := by
  induction l₁ with
  | nil => rfl
  | cons a l₁ ih =>
    rw [foldr_cons, ← ih, join_cons]
    cases join merge l₁ with
    | nil => rfl
    | cons b l =>
      cases h : merge a b with
      | none => rw [push_cons_of_none h, foldr_cons]
      | some c => rw [push_cons_of_some h, foldr_cons, foldr_cons, push_push hm h]

lemma join_join (l : List α) : join merge (join merge l) = join merge l :=
  foldr_push_join hm l []

lemma join_append_join (l₁ l₂ : List α) :
    join merge (l₁ ++ join merge l₂) = join merge (l₁ ++ l₂) := by
  rw [join_append, join_join hm, join_append]

lemma join_join_append (l₁ l₂ : List α) :
    join merge (join merge l₁ ++ l₂) = join merge (l₁ ++ l₂) := by
  rw [join_append, foldr_push_join hm, join_append]

/-- The pieces may be joined before. -/
lemma join_flatMap_join (f : ι → List α) (is : List ι) :
    join merge (is.flatMap fun i => join merge (f i)) = join merge (is.flatMap f) := by
  induction is with
  | nil => rfl
  | cons i is ih =>
    rw [flatMap_cons, flatMap_cons, join_join_append hm, join_append, ih, ← join_append]

/-! ### Joining piecewise -/

lemma head?_push (l : List α) :
    ∃ b, (push merge a l).head? = some b ∧ ∀ d, (merge d b).isSome = (merge d a).isSome := by
  cases l with
  | nil => exact ⟨a, rfl, fun _ => rfl⟩
  | cons b l =>
    cases h : merge a b with
    | none => exact ⟨a, by rw [push_cons_of_none h]; rfl, fun _ => rfl⟩
    | some c => exact ⟨c, by rw [push_cons_of_some h]; rfl, fun d => hm.first d h⟩

/-- What a list meets behind it does not change by joining that. -/
lemma meet_join_right : Meet merge l₁ (join merge l₂) ↔ Meet merge l₁ l₂ := by
  cases l₂ with
  | nil => rfl
  | cons b l₂ =>
    obtain ⟨b', hb', hsame⟩ := @head?_push _ merge b hm (join merge l₂)
    simp [Meet, hb', hsame]

end

/-- No two neighbours can be joined. -/
def Joined (merge : α → α → Option α) (l : List α) : Prop := l.IsChain fun a b => merge a b = none

lemma Joined.push (hm : Merging merge) (h : Joined merge l) : Joined merge (push merge a l) := by
  cases l with
  | nil => exact .singleton _
  | cons b l =>
    cases hab : merge a b with
    | none =>
      rw [push_cons_of_none hab]
      exact isChain_cons_cons.2 ⟨hab, h⟩
    | some c =>
      rw [push_cons_of_some hab]
      obtain ⟨hhead, htail⟩ := isChain_cons.1 h
      refine isChain_cons.2 ⟨fun d hd => ?_, htail⟩
      have hnone : (merge c d).isSome = false := by rw [hm.last d hab, hhead d hd, isSome_none]
      simpa using hnone

lemma joined_join (hm : Merging merge) (l : List α) : Joined merge (join merge l) := by
  induction l with
  | nil => exact .nil
  | cons a l ih => exact ih.push hm

lemma foldr_push_eq_append (hl : Joined merge l₁) (h : ¬ Meet merge l₁ l₂) :
    l₁.foldr (push merge) l₂ = l₁ ++ l₂ := by
  induction l₁ with
  | nil => rfl
  | cons a l₁ ih =>
    cases l₁ with
    | nil =>
      cases l₂ with
      | nil => rfl
      | cons b l₂ =>
        refine push_cons_of_none (not_isSome_iff_eq_none.1 fun hsome => h ?_)
        exact ⟨a, rfl, b, rfl, hsome⟩
    | cons a' l₁ =>
      obtain ⟨hhead, htail⟩ := isChain_cons_cons.1 hl
      rw [foldr_cons, ih htail fun hmeet => h (by simpa [Meet] using hmeet)]
      exact push_cons_of_none hhead

/-- Where two lists meet, an element is lost. -/
lemma length_foldr_push_lt (h : Meet merge l₁ l₂) :
    (l₁.foldr (push merge) l₂).length < l₁.length + l₂.length := by
  obtain ⟨a, ha, b, hb, hab⟩ := h
  obtain ⟨front, rfl⟩ := getLast?_eq_some_iff.1 ha
  obtain ⟨l₂, rfl⟩ := head?_eq_some_iff.1 hb
  obtain ⟨c, hc⟩ := isSome_iff_exists.1 hab
  have hle := @length_foldr_push_le _ merge front (c :: l₂)
  rw [foldr_append, foldr_cons, foldr_nil, push_cons_of_some hc]
  simp only [length_append, length_cons, length_nil] at hle ⊢
  omega

lemma join_append_of_not_meet (hm : Merging merge) (h : ¬ Meet merge (join merge l₁) l₂) :
    join merge (l₁ ++ l₂) = join merge l₁ ++ join merge l₂ := by
  rw [join_append, ← foldr_push_join hm]
  exact foldr_push_eq_append (joined_join hm l₁) (by rwa [meet_join_right hm])

lemma length_join_le (l : List α) : (join merge l).length ≤ l.length :=
  length_foldr_push_le l []

/-- **Joining piecewise is joining at once exactly if no two neighbouring pieces meet.** -/
theorem flatMap_join_eq_iff (hm : Merging merge) {f : ι → List α} {is : List ι}
    (hne : ∀ i ∈ is, f i ≠ []) :
    is.flatMap (fun i => join merge (f i)) = join merge (is.flatMap f) ↔
      is.IsChain fun i j => ¬ Meet merge (join merge (f i)) (join merge (f j)) := by
  induction is with
  | nil => simp
  | cons i is ih =>
    have ih := ih (forall_mem_cons.1 hne).2
    have hmeet : Meet merge (join merge (f i)) (is.flatMap f) ↔
        ∃ j ∈ is.head?, Meet merge (join merge (f i)) (join merge (f j)) := by
      cases is with
      | nil => simp [Meet]
      | cons j is =>
        have hj : f j ≠ [] := hne j (by simp)
        simp only [head?_cons, mem_some_iff, exists_eq_left', meet_join_right hm]
        simp [Meet, head?_append_of_ne_nil _ hj]
    rw [flatMap_cons, flatMap_cons, isChain_cons, ← ih]
    constructor
    · intro heq
      -- both sides have one length, so nothing was joined at the seam
      have hnot : ¬ Meet merge (join merge (f i)) (is.flatMap f) := by
        intro hseam
        have hlt := length_foldr_push_lt ((meet_join_right hm).2 hseam)
        have hle := @length_join_le _ merge (is.flatMap fun i => join merge (f i))
        rw [join_flatMap_join hm] at hle
        have hlength := congrArg List.length heq
        rw [join_append, ← foldr_push_join hm, length_append] at hlength
        omega
      rw [join_append_of_not_meet hm hnot] at heq
      exact ⟨fun j hj hmeets => hnot (hmeet.2 ⟨j, hj, hmeets⟩), append_cancel_left heq⟩
    · rintro ⟨hnot, heq⟩
      rw [heq, join_append_of_not_meet hm]
      intro hseam
      obtain ⟨j, hj, hmeets⟩ := hmeet.1 hseam
      exact hnot j hj hmeets

end

end TokenCode
