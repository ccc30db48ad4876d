/-
Lists of records with a key.

A record is put into such a list in the place of the first one with its key, or at the end (`upsert`),
and it is changed where it stands (`updateFirst`). A log of changes that each concern one key may be
coalesced: of two changes with one key it is enough to keep the later one in the place of the earlier
one (`Overwrites.foldl_upsert`).
-/
import Mathlib

namespace TokenCode.Keyed

open List

variable {α K : Type}

/-! ### Changing the first record -/

/-- Change the first record with the property. -/
def updateFirst (p : α → Bool) (f : α → α) : List α → List α
  | [] => []
  | a :: items => if p a then f a :: items else a :: updateFirst p f items

section

variable {p q : α → Bool} {f g : α → α} {items more : List α} {a : α}

lemma updateFirst_append_of_exists (h : ∃ a ∈ items, p a = true) :
    updateFirst p f (items ++ more) = updateFirst p f items ++ more := by
  induction items with
  | nil => simp at h
  | cons a items ih =>
    by_cases ha : p a = true
    · simp [updateFirst, ha]
    · have hitems : ∃ a ∈ items, p a = true := by simpa [ha] using h
      simp [updateFirst, ha, ih hitems]

lemma updateFirst_append_of_forall (h : ∀ a ∈ items, p a = false) :
    updateFirst p f (items ++ more) = items ++ updateFirst p f more := by
  induction items with
  | nil => rfl
  | cons a items ih =>
    obtain ⟨ha, hitems⟩ := forall_mem_cons.1 h
    simp [updateFirst, ha, ih hitems]

/-- What is read of every record and not changed stays as it is. -/
lemma map_updateFirst {β : Type} {r : α → β} (h : ∀ a, p a = true → r (f a) = r a)
    (items : List α) : (updateFirst p f items).map r = items.map r := by
  fun_induction updateFirst p f items with
  | case1 => rfl
  | case2 a items ha => simp [h a ha]
  | case3 a items ha ih => simp [ih]

/-- Two changes of one record. -/
lemma updateFirst_updateFirst (h : ∀ a, p a = true → p (f a) = true) (items : List α) :
    updateFirst p g (updateFirst p f items) = updateFirst p (g ∘ f) items := by
  fun_induction updateFirst p f items with
  | case1 => rfl
  | case2 a items ha => simp [updateFirst, ha, h a ha]
  | case3 a items ha ih => simp [updateFirst, ha, ih]

/-- Changes of different records commute. -/
lemma updateFirst_comm (hp : ∀ a, p a = true → q a = false) (hf : ∀ a, q (f a) = q a)
    (hg : ∀ a, p (g a) = p a) (items : List α) :
    updateFirst p f (updateFirst q g items) = updateFirst q g (updateFirst p f items) := by
  induction items with
  | nil => rfl
  | cons a items ih =>
    by_cases ha : p a = true
    · simp [updateFirst, ha, hp a ha, hf]
    · by_cases ha' : q a = true
      · simp [updateFirst, ha, ha', hg]
      · simp [updateFirst, ha, ha', ih]

/-- Only what is done to the first record matters. -/
lemma updateFirst_congr (h : ∀ a, items.find? p = some a → f a = g a) :
    updateFirst p f items = updateFirst p g items := by
  induction items with
  | nil => rfl
  | cons a items ih =>
    by_cases ha : p a = true
    · simp [updateFirst, ha, h a (by simp [ha])]
    · have hitems := ih fun b hb => h b (by simpa [find?_cons, ha] using hb)
      simp [updateFirst, ha, hitems]

lemma mem_updateFirst {a : α} (h : a ∈ updateFirst p f items) :
    a ∈ items ∨ ∃ b ∈ items, a = f b := by
  induction items with
  | nil => exact .inl h
  | cons c items ih =>
    rw [updateFirst] at h
    split at h
    · rcases mem_cons.1 h with rfl | h
      · exact .inr ⟨c, mem_cons_self, rfl⟩
      · exact .inl (mem_cons_of_mem _ h)
    · rcases mem_cons.1 h with rfl | h
      · exact .inl mem_cons_self
      · rcases ih h with hmem | ⟨b, hb, rfl⟩
        · exact .inl (mem_cons_of_mem _ hmem)
        · exact .inr ⟨b, mem_cons_of_mem _ hb, rfl⟩

lemma find?_updateFirst (h : ∀ a, p a = true → p (f a) = true) (items : List α) :
    (updateFirst p f items).find? p = (items.find? p).map f := by
  fun_induction updateFirst p f items with
  | case1 => rfl
  | case2 a items ha => simp [ha, h a ha]
  | case3 a items ha ih => simp [ha, ih]

lemma find?_updateFirst_of_ne (hp : ∀ a, p a = true → q a = false) (hf : ∀ a, q (f a) = q a)
    (items : List α) : (updateFirst p f items).find? q = items.find? q := by
  fun_induction updateFirst p f items with
  | case1 => rfl
  | case2 a items ha => simp [hf, hp a ha]
  | case3 a items ha ih => rw [find?_cons, find?_cons, ih]

lemma filter_updateFirst {r : α → Bool} (hf : ∀ a, r (f a) = r a) (hp : ∀ a, p a = true → r a = true)
    (items : List α) : (updateFirst p f items).filter r = updateFirst p f (items.filter r) := by
  fun_induction updateFirst p f items with
  | case1 => rfl
  | case2 a items ha => simp [updateFirst, ha, hf, hp a ha]
  | case3 a items ha ih => by_cases hr : r a = true <;> simp [updateFirst, ha, hr, ih]

lemma filter_updateFirst_of_false {r : α → Bool} (hf : ∀ a, r (f a) = r a)
    (hp : ∀ a, p a = true → r a = false) (items : List α) :
    (updateFirst p f items).filter r = items.filter r := by
  fun_induction updateFirst p f items with
  | case1 => rfl
  | case2 a items ha => simp [hf, hp a ha]
  | case3 a items ha ih => rw [filter_cons, filter_cons, ih]

end

/-! ### Putting a record -/

section

variable [DecidableEq K] (key : α → K)

/-- Put a record in the place of the first one with its key, or at the end. -/
def upsert (items : List α) (new : α) : List α :=
  match items with
  | [] => [new]
  | a :: items => if key a = key new then new :: items else a :: upsert items new

variable {key} {items more : List α} {a b : α}

lemma upsert_of_not_mem (h : key a ∉ items.map key) : upsert key items a = items ++ [a] := by
  induction items with
  | nil => rfl
  | cons b items ih =>
    simp only [map_cons, mem_cons, not_or] at h
    simp [upsert, Ne.symm h.1, ih h.2]

lemma upsert_of_mem (h : key a ∈ items.map key) :
    upsert key items a = updateFirst (fun b => decide (key b = key a)) (fun _ => a) items := by
  induction items with
  | nil => simp at h
  | cons b items ih =>
    by_cases hb : key b = key a
    · simp [upsert, updateFirst, hb]
    · have hitems : key a ∈ items.map key := by
        simpa [Ne.symm hb] using h
      simp [upsert, updateFirst, hb, ih hitems]

/-- The keys stay in their order. -/
lemma map_upsert (items : List α) (a : α) : (upsert key items a).map key =
    if key a ∈ items.map key then items.map key else items.map key ++ [key a] := by
  by_cases h : key a ∈ items.map key
  · rw [upsert_of_mem h, if_pos h]
    exact map_updateFirst (fun b hb => (decide_eq_true_iff.1 hb).symm) items
  · rw [upsert_of_not_mem h, if_neg h]
    simp

lemma upsert_ne_nil (key : α → K) (items : List α) (a : α) : upsert key items a ≠ [] := by
  cases items with
  | nil => simp [upsert]
  | cons b items =>
    rw [upsert]
    split <;> simp

lemma length_upsert_of_mem (h : key a ∈ items.map key) :
    (upsert key items a).length = items.length := by
  rw [← length_map key, map_upsert, if_pos h, length_map]

lemma mem_map_upsert {k : K} : k ∈ (upsert key items a).map key ↔ k ∈ items.map key ∨ k = key a := by
  rw [map_upsert]
  split
  · next h =>
    refine ⟨.inl, ?_⟩
    rintro (hk | rfl)
    · exact hk
    · exact h
  · simp

lemma nodup_map_upsert (h : (items.map key).Nodup) : ((upsert key items a).map key).Nodup := by
  rw [map_upsert]
  split
  · exact h
  · next ha => exact nodup_append.2 ⟨h, by simp, by simpa using ha⟩

/-- The later record of a key replaces the earlier one. -/
lemma upsert_upsert (h : key a = key b) (items : List α) :
    upsert key (upsert key items a) b = upsert key items b := by
  induction items with
  | nil => simp [upsert, h]
  | cons c items ih =>
    by_cases hc : key c = key a
    · simp [upsert, hc, h]
    · have hc' : key c ≠ key b := h ▸ hc
      simp [upsert, hc, hc', ih]

/-- A record whose key is there does not notice that another one is put. -/
lemma upsert_comm (ha : key a ∈ items.map key) (hne : key b ≠ key a) :
    upsert key (upsert key items b) a = upsert key (upsert key items a) b := by
  induction items with
  | nil => simp at ha
  | cons c items ih =>
    by_cases hc : key c = key a
    · have hcb : key c ≠ key b := hc ▸ hne.symm
      simp [upsert, hc, hne.symm]
    · have hmem : key a ∈ items.map key := by simpa [Ne.symm hc] using ha
      by_cases hcb : key c = key b
      · simp [upsert, hcb, hne]
      · simp [upsert, hc, hcb, ih hmem]

/-- The last record is replaced at the end. -/
lemma upsert_concat (ha : key a ∉ items.map key) (h : key b = key a) :
    upsert key (items ++ [a]) b = items ++ [b] := by
  induction items with
  | nil => simp [upsert, h]
  | cons c items ih =>
    simp only [map_cons, mem_cons, not_or] at ha
    simp [upsert, h, Ne.symm ha.1, ih ha.2]

end

/-! ### Coalescing a log -/

/-- Changes of a state that each concern one key: a later change of a key makes an earlier one
needless, and once there is something with the key the order of the changes does not matter. -/
structure Overwrites {S C : Type} (step : S → C → S) (key : C → K) (present : S → K → Prop) :
    Prop where
  present_self : ∀ s c, present (step s c) (key c)
  present_step : ∀ s c k, present s k → present (step s c) k
  step_step : ∀ s c d, key c = key d → step (step s c) d = step s d
  step_comm : ∀ s c d, present s (key d) → key c ≠ key d →
    step (step s c) d = step (step s d) c

variable {S C : Type} [DecidableEq K] {step : S → C → S} {key : C → K} {present : S → K → Prop}
  {log : List C}

omit [DecidableEq K] in
/-- Once there is something with its key, a change may be made at once. -/
lemma Overwrites.foldl_step (h : Overwrites step key present) {d : C}
    (hlog : key d ∉ log.map key) {s : S} (hs : present s (key d)) :
    step (log.foldl step s) d = log.foldl step (step s d) := by
  induction log generalizing s with
  | nil => rfl
  | cons c log ih =>
    simp only [map_cons, mem_cons, not_or] at hlog
    rw [foldl_cons, ih hlog.2 (h.present_step s c _ hs), h.step_comm s c d hs (Ne.symm hlog.1)]
    rfl

variable (h : Overwrites step key present)
include h

/-- **A coalesced log does what the log does.** -/
theorem Overwrites.foldl_upsert (hlog : (log.map key).Nodup) (d : C) (s : S) :
    (upsert key log d).foldl step s = step (log.foldl step s) d := by
  induction log generalizing s with
  | nil => rfl
  | cons c log ih =>
    obtain ⟨hc, hlog⟩ := nodup_cons.1 hlog
    by_cases hcd : key c = key d
    · have hd : key d ∉ log.map key := hcd ▸ hc
      simp only [upsert, hcd, if_true, foldl_cons]
      rw [h.foldl_step hd (hcd ▸ h.present_self s c), h.step_step s c d hcd]
    · simp only [upsert, hcd, if_false, foldl_cons]
      exact ih hlog _

/-- A log that is coalesced with another one. -/
lemma Overwrites.foldl_foldl_upsert (hlog : (log.map key).Nodup) (more : List C) (s : S) :
    (more.foldl (upsert key) log).foldl step s = more.foldl step (log.foldl step s) ∧
      ((more.foldl (upsert key) log).map key).Nodup := by
  induction more generalizing log with
  | nil => exact ⟨rfl, hlog⟩
  | cons d more ih =>
    obtain ⟨hfold, hnodup⟩ := ih (nodup_map_upsert (a := d) hlog)
    exact ⟨by rw [foldl_cons, hfold, h.foldl_upsert hlog d s, foldl_cons], hnodup⟩

omit h

lemma mem_map_foldl_upsert {more : List C} {k : K} :
    k ∈ (more.foldl (upsert key) log).map key ↔ k ∈ log.map key ∨ k ∈ more.map key := by
  induction more generalizing log with
  | nil => simp
  | cons c more ih => rw [foldl_cons, ih, mem_map_upsert, map_cons, mem_cons, or_assoc]

lemma mem_foldl_upsert {more : List C} {c : C} (h : c ∈ more.foldl (upsert key) log) :
    c ∈ log ∨ c ∈ more := by
  induction more generalizing log with
  | nil => exact .inl h
  | cons d more ih =>
    rcases ih h with hc | hc
    · have hmem : c ∈ log ∨ c = d := by
        clear ih h
        induction log with
        | nil => exact .inr (by simpa [upsert] using hc)
        | cons e log ih =>
          rw [upsert] at hc
          split at hc
          · rcases mem_cons.1 hc with rfl | hc
            · exact .inr rfl
            · exact .inl (mem_cons_of_mem _ hc)
          · rcases mem_cons.1 hc with rfl | hc
            · exact .inl mem_cons_self
            · exact (ih hc).imp_left (mem_cons_of_mem _)
      rcases hmem with hmem | rfl
      · exact .inl hmem
      · exact .inr mem_cons_self
    · exact .inr (mem_cons_of_mem _ hc)

/-- Changes of what is left out may be left out. -/
lemma foldl_filter {β : Type} {step : List β → C → List β} {p : β → Bool} {q : C → Bool}
    (hstep : ∀ items c, (step items c).filter p =
      if q c then step (items.filter p) c else items.filter p) (log : List C) (items : List β) :
    (log.filter q).foldl step (items.filter p) = (log.foldl step items).filter p := by
  induction log generalizing items with
  | nil => rfl
  | cons c log ih =>
    by_cases hc : q c = true
    · rw [filter_cons_of_pos hc, foldl_cons, foldl_cons, ← ih, hstep, if_pos hc]
    · rw [filter_cons_of_neg hc, foldl_cons, ← ih, hstep, if_neg hc]

end TokenCode.Keyed
