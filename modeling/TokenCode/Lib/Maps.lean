/-
Maps that are built by insertions, one after the other.

The entry of a key is the last one that was inserted for it (`lookup_insertAll`). The entries
often come one by one from the elements of another list; `Forall₂` lemmas carry a position in one
list over to the other.
-/
import Mathlib

namespace TokenCode

open List

variable {α β γ : Type} {xs : List α} {ys : List β}

section

variable {R : α → β → Prop}

/-- A position in the second list is one in the first. -/
lemma forall₂_split_right {before after : List β} {y : β}
    (h : List.Forall₂ R xs (before ++ y :: after)) :
    ∃ before' x after', xs = before' ++ x :: after' ∧ List.Forall₂ R before' before ∧ R x y ∧
      List.Forall₂ R after' after := by
  induction before generalizing xs with
  | nil =>
    obtain ⟨x, after', hxy, hafter, rfl⟩ := forall₂_cons_right_iff.1 h
    exact ⟨[], x, after', rfl, .nil, hxy, hafter⟩
  | cons z before ih =>
    obtain ⟨w, xs', hwz, hrest, rfl⟩ := forall₂_cons_right_iff.1 h
    obtain ⟨before', x, after', rfl, hbefore, hxy, hafter⟩ := ih hrest
    exact ⟨w :: before', x, after', rfl, .cons hwz hbefore, hxy, hafter⟩

/-- A position in the first list is one in the second. -/
lemma forall₂_split_left {before after : List α} {x : α}
    (h : List.Forall₂ R (before ++ x :: after) ys) :
    ∃ before' y after', ys = before' ++ y :: after' ∧ List.Forall₂ R before before' ∧ R x y ∧
      List.Forall₂ R after after' := by
  obtain ⟨before', y, after', rfl, hbefore, hxy, hafter⟩ :=
    forall₂_split_right (Forall₂.flip h : List.Forall₂ (flip R) ys (before ++ x :: after))
  exact ⟨before', y, after', rfl, hbefore.flip, hxy, hafter.flip⟩

lemma forall₂_mem_left (h : List.Forall₂ R xs ys) {x : α} (hx : x ∈ xs) : ∃ y ∈ ys, R x y := by
  obtain ⟨before, after, rfl⟩ := append_of_mem hx
  obtain ⟨before', y, after', rfl, -, hxy, -⟩ := forall₂_split_left h
  exact ⟨y, by simp, hxy⟩

lemma forall₂_mem_right (h : List.Forall₂ R xs ys) {y : β} (hy : y ∈ ys) : ∃ x ∈ xs, R x y := by
  obtain ⟨before, after, rfl⟩ := append_of_mem hy
  obtain ⟨before', x, after', rfl, -, hxy, -⟩ := forall₂_split_right h
  exact ⟨x, by simp, hxy⟩

end

variable {key : α}

section

variable [DecidableEq α]

/-- A sum over the entries, with one of them taken out. -/
lemma sum_map_kerase (weight : β → ℕ) {entries : List ((_ : α) × β)} {value : β}
    (h : entries.dlookup key = some value) : (entries.map fun entry => weight entry.2).sum =
      weight value + ((entries.kerase key).map fun entry => weight entry.2).sum := by
  obtain ⟨found, before, after, hbefore, hentries, herase⟩ :=
    exists_of_kerase (dlookup_isSome.1 (h ▸ rfl : (entries.dlookup key).isSome))
  obtain rfl : value = found := by
    rw [hentries, dlookup_append, dlookup_eq_none.2 hbefore, Option.none_or, dlookup_cons_eq] at h
    exact (Option.some.inj h).symm
  rw [herase, hentries]
  simp only [map_append, sum_append, map_cons, sum_cons]
  omega

end

variable {entries : List (α × β)}

section

variable [DecidableEq α]

/-- Insert the entries, the first one first. -/
def insertAll (entries : List (α × β)) (map : AList fun _ : α => β) : AList fun _ : α => β :=
  entries.foldl (fun map entry => map.insert entry.1 entry.2) map

@[simp] lemma insertAll_nil (map : AList fun _ : α => β) : insertAll [] map = map := rfl

@[simp] lemma insertAll_cons (entry : α × β) (entries : List (α × β)) (map : AList fun _ : α => β) :
    insertAll (entry :: entries) map = insertAll entries (map.insert entry.1 entry.2) := rfl

lemma insertAll_concat (entries : List (α × β)) (entry : α × β) (map : AList fun _ : α => β) :
    insertAll (entries ++ [entry]) map = (insertAll entries map).insert entry.1 entry.2 := by
  simp [insertAll]

/-- **The last entry of a key wins.** -/
theorem lookup_insertAll {value : β} : (insertAll entries ∅).lookup key = some value ↔
      ∃ before after, entries = before ++ (key, value) :: after ∧
        ∀ entry ∈ after, entry.1 ≠ key := by
  induction entries using reverseRecOn with
  | nil => simp
  | append_singleton entries entry ih =>
    rw [insertAll_concat]
    by_cases hkey : entry.1 = key
    · subst hkey
      rw [AList.lookup_insert]
      constructor
      · intro hvalue
        obtain rfl : entry.2 = value := by simpa using hvalue
        exact ⟨entries, [], rfl, by simp⟩
      · rintro ⟨before, after, hentries, hafter⟩
        -- an entry after the one of the key would be the last one, which has the key
        rcases eq_nil_or_concat' after with rfl | ⟨after', last, rfl⟩
        · obtain ⟨-, hentry⟩ := append_singleton_inj.1 hentries
          rw [hentry]
        · rw [← cons_append, ← List.append_assoc] at hentries
          obtain ⟨-, rfl⟩ := append_singleton_inj.1 hentries
          exact absurd rfl (hafter entry (by simp))
    · rw [AList.lookup_insert_ne (Ne.symm hkey), ih]
      constructor
      · rintro ⟨before, after, rfl, hafter⟩
        refine ⟨before, after ++ [entry], by simp, fun e he => ?_⟩
        rcases mem_append.1 he with he | he
        · exact hafter e he
        · rw [mem_singleton.1 he]
          exact hkey
      · rintro ⟨before, after, hentries, hafter⟩
        rcases eq_nil_or_concat' after with rfl | ⟨after', last, rfl⟩
        · obtain ⟨-, rfl⟩ := append_singleton_inj.1 hentries
          exact absurd rfl hkey
        · rw [← cons_append, ← List.append_assoc] at hentries
          obtain ⟨rfl, rfl⟩ := append_singleton_inj.1 hentries
          exact ⟨before, after', rfl, fun e he => hafter e (by simp [he])⟩

lemma mem_insertAll : key ∈ insertAll entries ∅ ↔ ∃ entry ∈ entries, entry.1 = key := by
  induction entries using reverseRecOn with
  | nil => simp
  | append_singleton entries entry ih =>
    rw [insertAll_concat, AList.mem_insert, ih]
    simp only [mem_append, mem_singleton]
    grind

end

end TokenCode
