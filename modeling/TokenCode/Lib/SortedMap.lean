/-
Finite maps as lists of entries in the order of their keys.

Such a list is determined by what its keys are mapped to (`eq_of_dlookup_eq`): the order makes two
lists with the same entries equal. The entries are those of Mathlib's `dlookup` and `kerase`; only
the insertion, which has to keep the order, is defined here.
-/
import Mathlib

namespace TokenCode.SortedMap

open List

variable {α β : Type} [LinearOrder α]

/-- The keys increase strictly. -/
def Sorted (entries : List ((_ : α) × β)) : Prop :=
  entries.Pairwise fun a b => a.1 < b.1

instance (entries : List ((_ : α) × β)) : Decidable (Sorted entries) :=
  inferInstanceAs (Decidable (entries.Pairwise fun a b => a.1 < b.1))

/-- Insert an entry at its place, over an entry with the same key. -/
def insertEntry (key : α) (value : β) : List ((_ : α) × β) → List ((_ : α) × β)
  | [] => [⟨key, value⟩]
  | entry :: entries =>
    if key < entry.1 then ⟨key, value⟩ :: entry :: entries
    else if key = entry.1 then ⟨key, value⟩ :: entries
    else entry :: insertEntry key value entries

variable {entries : List ((_ : α) × β)} {key : α} {value : β}

lemma sorted_nil : Sorted ([] : List ((_ : α) × β)) := Pairwise.nil

lemma Sorted.nodupKeys (h : Sorted entries) : entries.NodupKeys :=
  nodupKeys_iff_pairwise.2 (h.imp ne_of_lt)

lemma mem_insertEntry {entry : (_ : α) × β} (h : entry ∈ insertEntry key value entries) :
    entry = ⟨key, value⟩ ∨ entry ∈ entries := by
  induction entries with
  | nil => exact .inl (by simpa [insertEntry] using h)
  | cons other entries ih =>
    rw [insertEntry] at h
    split_ifs at h with hlt heq
    · simpa using h
    · rcases mem_cons.1 h with rfl | h
      · exact .inl rfl
      · exact .inr (mem_cons_of_mem _ h)
    · rcases mem_cons.1 h with rfl | h
      · exact .inr mem_cons_self
      · exact (ih h).imp_right (mem_cons_of_mem _)

variable (h : Sorted entries)
include h

lemma Sorted.insertEntry (key : α) (value : β) : Sorted (insertEntry key value entries) := by
  induction entries with
  | nil => exact pairwise_singleton _ _
  | cons entry entries ih =>
    rw [SortedMap.insertEntry]
    split_ifs with hlt heq
    · refine h.cons fun other hother => ?_
      rcases mem_cons.1 hother with rfl | hother
      · exact hlt
      · exact hlt.trans (rel_of_pairwise_cons h hother)
    · exact h.of_cons.cons fun other hother => heq ▸ rel_of_pairwise_cons h hother
    · refine (ih h.of_cons).cons fun other hother => ?_
      rcases mem_insertEntry hother with rfl | hother
      · exact lt_of_le_of_ne (not_lt.1 hlt) (Ne.symm heq)
      · exact rel_of_pairwise_cons h hother

/-- Other values under the same keys. -/
lemma Sorted.mapValues (f : (_ : α) × β → β) :
    Sorted (entries.map fun entry => (⟨entry.1, f entry⟩ : (_ : α) × β)) :=
  pairwise_map.2 h

/-! ### Looking keys up -/

variable [DecidableEq α]

lemma Sorted.kerase (key : α) : Sorted (kerase key entries) :=
  h.sublist (kerase_sublist key entries)

omit h in
/-- An insertion changes one key. -/
lemma dlookup_insertEntry (key other : α) (value : β) (entries : List ((_ : α) × β)) :
    dlookup other (insertEntry key value entries) =
      if other = key then some value else dlookup other entries := by
  induction entries with
  | nil =>
    by_cases hother : other = key
    · subst hother
      simp [insertEntry]
    · simp [insertEntry, dlookup_cons_ne _ (⟨key, value⟩ : (_ : α) × β) hother, hother]
  | cons entry entries ih =>
    obtain ⟨head, previous⟩ := entry
    by_cases hother : other = key
    · subst hother
      rw [insertEntry, if_pos rfl]
      split_ifs with hlt heq
      · rw [dlookup_cons_eq]
      · rw [dlookup_cons_eq]
      · rw [dlookup_cons_ne _ _ heq, ih, if_pos rfl]
    · rw [insertEntry, if_neg hother]
      split_ifs with hlt heq
      · rw [dlookup_cons_ne _ (⟨key, value⟩ : (_ : α) × β) hother]
      · subst heq
        rw [dlookup_cons_ne _ (⟨key, value⟩ : (_ : α) × β) hother,
          dlookup_cons_ne _ (⟨key, previous⟩ : (_ : α) × β) hother]
      · by_cases hhead : other = head
        · subst hhead
          rw [dlookup_cons_eq, dlookup_cons_eq]
        · rw [dlookup_cons_ne _ (⟨head, previous⟩ : (_ : α) × β) hhead,
            dlookup_cons_ne _ (⟨head, previous⟩ : (_ : α) × β) hhead, ih, if_neg hother]

omit h in
/-- A new entry counts once. -/
lemma sum_insertEntry (weight : β → ℕ) (hnew : dlookup key entries = none) :
    ((insertEntry key value entries).map fun entry => weight entry.2).sum =
      weight value + (entries.map fun entry => weight entry.2).sum := by
  induction entries with
  | nil => rfl
  | cons entry entries ih =>
    have hne : key ≠ entry.1 := by
      rintro rfl
      exact dlookup_eq_none.1 hnew (by simp)
    rw [dlookup_cons_ne _ _ hne] at hnew
    rw [insertEntry, if_neg hne]
    split_ifs
    · rfl
    · rw [map_cons, sum_cons, ih hnew, map_cons, sum_cons]
      omega

/-- An erasure changes one key. -/
lemma Sorted.dlookup_kerase (key other : α) : dlookup other (List.kerase key entries) =
      if other = key then none else dlookup other entries := by
  split_ifs with hother
  · rw [hother, List.dlookup_kerase _ h.nodupKeys]
  · exact dlookup_kerase_ne hother

/-- A sum over the values, by the keys. -/
lemma Sorted.sum_map {γ : Type} [AddCommMonoid γ] (weight : β → γ) :
    (entries.map fun entry => weight entry.2).sum =
      ∑ key ∈ entries.keys.toFinset, (dlookup key entries).elim 0 weight := by
  have hnodup : entries.keys.Nodup := h.nodupKeys
  rw [sum_toFinset _ hnodup, keys, map_map]
  refine congrArg List.sum (map_congr_left fun entry hentry => ?_)
  have hfound : dlookup entry.1 entries = some entry.2 := mem_dlookup h.nodupKeys hentry
  rw [Function.comp_apply, hfound, Option.elim_some]

/-- **A sorted list of entries is what its keys are mapped to.** -/
theorem eq_of_dlookup_eq {other : List ((_ : α) × β)} (hother : Sorted other)
    (heq : ∀ key, dlookup key entries = dlookup key other) : entries = other := by
  have hperm : entries.Perm other :=
    lookup_ext h.nodupKeys hother.nodupKeys fun key value => by rw [heq key]
  exact hperm.eq_of_pairwise (fun a b _ _ hab hba => absurd hab hba.not_gt) h hother

omit h

omit [LinearOrder α] in
lemma dlookup_mapValues (key : α) (f : (_ : α) × β → β) (entries : List ((_ : α) × β)) :
    dlookup key (entries.map fun entry => (⟨entry.1, f entry⟩ : (_ : α) × β)) =
      (dlookup key entries).map fun value => f ⟨key, value⟩ := by
  induction entries with
  | nil => rfl
  | cons entry entries ih =>
    obtain ⟨head, value⟩ := entry
    by_cases hkey : key = head
    · subst hkey
      rw [map_cons, dlookup_cons_eq, dlookup_cons_eq]
      rfl
    · rw [map_cons, dlookup_cons_ne _ (⟨head, f ⟨head, value⟩⟩ : (_ : α) × β) hkey, ih,
        dlookup_cons_ne _ (⟨head, value⟩ : (_ : α) × β) hkey]

/-! ### Updates of one key -/

/-- Set the value of a key to what an update makes of it, if it makes anything. -/
def updateAt (key : α) (f : Option β → Option β) (entries : List ((_ : α) × β)) :
    List ((_ : α) × β) :=
  match f (dlookup key entries) with
  | some value => insertEntry key value entries
  | none => entries

lemma Sorted.updateAt (h : Sorted entries) (key : α) (f : Option β → Option β) :
    Sorted (updateAt key f entries) := by
  unfold SortedMap.updateAt
  split
  · exact h.insertEntry key _
  · exact h

lemma dlookup_updateAt (key other : α) (f : Option β → Option β) (entries : List ((_ : α) × β)) :
    dlookup other (updateAt key f entries) =
      if other = key then (f (dlookup key entries)).or (dlookup key entries)
      else dlookup other entries := by
  unfold updateAt
  split <;> rename_i hf <;> rw [hf]
  · rw [dlookup_insertEntry, Option.some_or]
  · split_ifs with hother
    · rw [hother, Option.none_or]
    · rfl

/-- A run of updates, each of its own key. -/
def updateAll {γ : Type} (keyOf : γ → α) (f : γ → Option β → Option β)
    (entries : List ((_ : α) × β)) (updates : List γ) : List ((_ : α) × β) :=
  updates.foldl (fun entries a => updateAt (keyOf a) (f a) entries) entries

section

variable {γ : Type} {keyOf : γ → α} {f : γ → Option β → Option β}

lemma Sorted.updateAll (h : Sorted entries) (updates : List γ) :
    Sorted (updateAll keyOf f entries updates) := by
  induction updates generalizing entries with
  | nil => exact h
  | cons a updates ih => exact ih (h.updateAt (keyOf a) (f a))

lemma updateAll_append (entries : List ((_ : α) × β)) (updates others : List γ) :
    updateAll keyOf f entries (updates ++ others) =
      updateAll keyOf f (updateAll keyOf f entries updates) others :=
  List.foldl_append ..

/-- **Updates of other keys do not matter.** -/
lemma dlookup_updateAll (key : α) (updates : List γ) :
    dlookup key (updateAll keyOf f entries updates) =
      (updates.filter (keyOf · = key)).foldl (fun value a => (f a value).or value)
        (dlookup key entries) := by
  induction updates generalizing entries with
  | nil => rfl
  | cons a updates ih =>
    change dlookup key (SortedMap.updateAll keyOf f (SortedMap.updateAt (keyOf a) (f a) entries)
      updates) = _
    rw [ih, dlookup_updateAt, filter_cons]
    by_cases hkey : keyOf a = key
    · subst hkey
      simp
    · simp [hkey, Ne.symm hkey]

end

end TokenCode.SortedMap
