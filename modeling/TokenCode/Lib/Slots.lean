/-
Records in slots, with an index of their keys.

The slots keep the order in which the keys came; a record is replaced in its slot, and a record that is
removed leaves its slot empty. Read without the empty slots this is a keyed list: putting a record is
`upsert`, and removing a key is a filter.
-/
import TokenCode.Lib.Keyed

namespace TokenCode.Keyed

open List

variable {K V : Type} [DecidableEq K]

structure Slots (K V : Type) where
  slots : List (Option V)
  indexes : AList (fun _ : K => ℕ)

namespace Slots

def empty : Slots K V := ⟨[], ∅⟩

/-- Replace the record in its slot, or open a new one. -/
def put (key : V → K) (s : Slots K V) (v : V) : Slots K V :=
  match s.indexes.lookup (key v) with
  | some index => { s with slots := s.slots.set index (some v) }
  | none => ⟨s.slots ++ [some v], s.indexes.insert (key v) s.slots.length⟩

/-- Empty the slot of the key. -/
def remove (s : Slots K V) (k : K) : Slots K V :=
  match s.indexes.lookup k with
  | some index => ⟨s.slots.set index none, s.indexes.erase k⟩
  | none => s

/-- Empty the slots of the keys with the property. -/
def removeAll (p : K → Bool) (s : Slots K V) : Slots K V :=
  (s.indexes.keys.filter p).foldl remove s

/-- The records in their order. -/
def values (s : Slots K V) : List V := s.slots.reduceOption

/-- The index leads to the record with the key, and every record is in the index. -/
structure Valid (key : V → K) (s : Slots K V) : Prop where
  slot : ∀ k i, s.indexes.lookup k = some i → ∃ v, s.slots[i]? = some (some v) ∧ key v = k
  index : ∀ i v, s.slots[i]? = some (some v) → s.indexes.lookup (key v) = some i

variable {key : V → K} {s : Slots K V}

lemma valid_empty : Valid key (empty : Slots K V) :=
  ⟨fun k i h => by simp [empty] at h, fun i v h => by simp [empty] at h⟩

omit [DecidableEq K] in
lemma mem_values {v : V} : v ∈ s.values ↔ ∃ i : ℕ, s.slots[i]? = some (some v) := by
  rw [values, reduceOption_mem_iff, mem_iff_getElem?]

lemma Valid.mem_indexes (h : Valid key s) {k : K} : k ∈ s.indexes ↔ k ∈ s.values.map key := by
  rw [← AList.lookup_isSome, mem_map]
  constructor
  · intro hk
    obtain ⟨i, hi⟩ := Option.isSome_iff_exists.1 hk
    obtain ⟨v, hv, hkey⟩ := h.slot k i hi
    exact ⟨v, mem_values.2 ⟨i, hv⟩, hkey⟩
  · rintro ⟨v, hv, rfl⟩
    obtain ⟨i, hi⟩ := mem_values.1 hv
    simp [h.index i v hi]

/-! ### A slot that is changed -/

omit [DecidableEq K] in
/-- The records in front of a slot, its own and the ones behind it. -/
lemma values_set {i : ℕ} {old : V} (hi : s.slots[i]? = some (some old)) (new : Option V) :
    ∃ before after, s.values = before ++ old :: after ∧
      (s.slots.set i new).reduceOption = before ++ new.toList ++ after ∧
      (∀ v ∈ before, ∃ j, j ≠ i ∧ s.slots[j]? = some (some v)) ∧
      ∀ v ∈ after, ∃ j, j ≠ i ∧ s.slots[j]? = some (some v) := by
  obtain ⟨hlt, hget⟩ := List.getElem?_eq_some_iff.1 hi
  have hsplit : s.slots = s.slots.take i ++ some old :: s.slots.drop (i + 1) := by
    rw [← hget, getElem_cons_drop, take_append_drop]
  refine ⟨(s.slots.take i).reduceOption, (s.slots.drop (i + 1)).reduceOption, ?_, ?_, ?_, ?_⟩
  · rw [values]
    conv_lhs => rw [hsplit]
    rw [reduceOption_append, reduceOption_cons_of_some]
  · rw [set_eq_take_append_cons_drop, if_pos hlt, reduceOption_append]
    cases new with
    | none => simp
    | some new => simp
  · intro v hv
    obtain ⟨j, hj⟩ := mem_iff_getElem?.1 (reduceOption_mem_iff.1 hv)
    rw [getElem?_take] at hj
    split at hj
    · next hlt => exact ⟨j, hlt.ne, hj⟩
    · cases hj
  · intro v hv
    obtain ⟨j, hj⟩ := mem_iff_getElem?.1 (reduceOption_mem_iff.1 hv)
    rw [getElem?_drop] at hj
    exact ⟨i + 1 + j, by omega, hj⟩

/-- Records in different slots have different keys. -/
lemma Valid.key_ne (h : Valid key s) {i j : ℕ} {v w : V} (hi : s.slots[i]? = some (some v))
    (hj : s.slots[j]? = some (some w)) (hij : j ≠ i) : key w ≠ key v := by
  intro heq
  have hv := h.index i v hi
  have hw := h.index j w hj
  rw [heq, hv] at hw
  exact hij (Option.some.inj hw).symm

lemma updateFirst_middle {before after : List V} {old : V} {p : V → Bool} {f : V → V}
    (hbefore : ∀ v ∈ before, p v = false) (hold : p old = true) :
    updateFirst p f (before ++ old :: after) = before ++ f old :: after := by
  rw [updateFirst_append_of_forall hbefore]
  simp [updateFirst, hold]

section

variable (h : Valid key s)
include h

/-- Putting a record is an `upsert`. -/
lemma Valid.values_put (v : V) : (s.put key v).values = upsert key s.values v := by
  rw [put]
  cases hlookup : s.indexes.lookup (key v) with
  | none =>
    have hmem : key v ∉ s.values.map key := by
      rw [← h.mem_indexes, ← AList.lookup_eq_none]
      exact hlookup
    rw [upsert_of_not_mem hmem]
    simp [values, reduceOption_append]
  | some i =>
    obtain ⟨old, hold, hkey⟩ := h.slot _ i hlookup
    obtain ⟨before, after, hvalues, hset, hbefore, -⟩ := values_set hold (some v)
    have hmem : key v ∈ s.values.map key := by
      rw [hvalues]
      simp [hkey]
    have hne : ∀ w ∈ before, decide (key w = key v) = false := by
      intro w hw
      obtain ⟨j, hj, hat⟩ := hbefore w hw
      simpa [← hkey] using h.key_ne hold hat hj
    have hvalue : ({ s with slots := s.slots.set i (some v) } : Slots K V).values =
        before ++ [v] ++ after := hset
    rw [upsert_of_mem hmem, hvalues, updateFirst_middle hne (by simpa using hkey)]
    simpa using hvalue

/-- Removing a key is a filter. -/
lemma Valid.values_remove (k : K) :
    (s.remove k).values = s.values.filter fun v => decide (key v ≠ k) := by
  rw [remove]
  cases hlookup : s.indexes.lookup k with
  | none =>
    have hmem : k ∉ s.values.map key := by
      rw [← h.mem_indexes, ← AList.lookup_eq_none]
      exact hlookup
    refine (filter_eq_self.2 fun v hv => ?_).symm
    simpa using fun heq : key v = k => hmem (heq ▸ mem_map_of_mem hv)
  | some i =>
    obtain ⟨old, hold, hkey⟩ := h.slot _ i hlookup
    obtain ⟨before, after, hvalues, hset, hbefore, hafter⟩ := values_set hold none
    have hstay : ∀ w, (∃ j, j ≠ i ∧ s.slots[j]? = some (some w)) → decide (key w ≠ k) = true := by
      rintro w ⟨j, hj, hat⟩
      simpa [← hkey] using h.key_ne hold hat hj
    have hvalue : (⟨s.slots.set i none, s.indexes.erase k⟩ : Slots K V).values =
        before ++ after := by
      rw [values, hset]
      simp
    rw [hvalues, filter_append, filter_cons, filter_eq_self.2 fun w hw => hstay w (hbefore w hw),
      filter_eq_self.2 fun w hw => hstay w (hafter w hw)]
    simpa [hkey] using hvalue

/-! ### The index stays right -/

lemma Valid.put (v : V) : Valid key (s.put key v) := by
  rw [Slots.put]
  cases hlookup : s.indexes.lookup (key v) with
  | none =>
    refine ⟨fun k i hk => ?_, fun i w hw => ?_⟩
    · by_cases hkv : k = key v
      · subst hkv
        rw [AList.lookup_insert] at hk
        obtain rfl := Option.some.inj hk
        exact ⟨v, by simp, rfl⟩
      · rw [AList.lookup_insert_ne hkv] at hk
        obtain ⟨w, hw, hkey⟩ := h.slot k i hk
        exact ⟨w, getElem?_append_left (List.getElem?_eq_some_iff.1 hw).1 ▸ hw, hkey⟩
    · rw [getElem?_append] at hw
      split at hw
      · have hindex := h.index i w hw
        have hne : key w ≠ key v := fun heq => by rw [heq, hlookup] at hindex; cases hindex
        rw [AList.lookup_insert_ne hne, hindex]
      · next hge =>
        obtain ⟨hi, rfl⟩ : i - s.slots.length = 0 ∧ v = w := by
          rcases hsub : i - s.slots.length with _ | n
          · simpa [hsub] using hw
          · simp [hsub] at hw
        have hlength : i = s.slots.length := by omega
        rw [AList.lookup_insert, hlength]
  | some i =>
    obtain ⟨old, hold, hkey⟩ := h.slot _ i hlookup
    have hlt := (List.getElem?_eq_some_iff.1 hold).1
    refine ⟨fun k j hk => ?_, fun j w hw => ?_⟩
    · obtain ⟨w, hw, hkw⟩ := h.slot k j hk
      by_cases hij : i = j
      · subst hij
        obtain rfl : old = w := by simpa using hold.symm.trans hw
        exact ⟨v, by simp [hlt], hkey.symm.trans hkw⟩
      · exact ⟨w, by rw [getElem?_set_ne hij]; exact hw, hkw⟩
    · by_cases hij : i = j
      · subst hij
        obtain rfl : v = w := by simpa [hlt] using hw
        exact hlookup
      · rw [getElem?_set_ne hij] at hw
        exact h.index j w hw

lemma Valid.remove (k : K) : Valid key (s.remove k) := by
  rw [Slots.remove]
  cases hlookup : s.indexes.lookup k with
  | none => exact h
  | some i =>
    obtain ⟨old, hold, hkey⟩ := h.slot _ i hlookup
    refine ⟨fun l j hl => ?_, fun j w hw => ?_⟩
    · have hlk : l ≠ k := by
        rintro rfl
        simp at hl
      rw [AList.lookup_erase_ne hlk] at hl
      obtain ⟨w, hw, hkw⟩ := h.slot l j hl
      have hij : i ≠ j := by
        rintro rfl
        obtain rfl : old = w := by simpa using hold.symm.trans hw
        exact hlk (hkw.symm.trans hkey)
      exact ⟨w, by rw [getElem?_set_ne hij]; exact hw, hkw⟩
    · by_cases hij : i = j
      · subst hij
        simp [getElem?_set] at hw
      · rw [getElem?_set_ne hij] at hw
        have hne := h.key_ne hold hw (Ne.symm hij)
        rw [AList.lookup_erase_ne (hkey ▸ hne)]
        exact h.index j w hw

/-- Removing several keys. -/
lemma Valid.foldl_remove (keys : List K) :
    Valid key (keys.foldl Slots.remove s) ∧ (keys.foldl Slots.remove s).values =
      s.values.filter fun v => decide (key v ∉ keys) := by
  induction keys generalizing s with
  | nil => exact ⟨h, by simp⟩
  | cons k keys ih =>
    obtain ⟨hvalid, hvalues⟩ := ih (h.remove k)
    refine ⟨hvalid, ?_⟩
    rw [foldl_cons, hvalues, h.values_remove, filter_filter]
    refine filter_congr fun v _ => ?_
    simp [Bool.and_comm]

lemma Valid.removeAll (p : K → Bool) : Valid key (s.removeAll p) ∧
    (s.removeAll p).values = s.values.filter fun v => !p (key v) := by
  obtain ⟨hvalid, hvalues⟩ := h.foldl_remove (s.indexes.keys.filter p)
  refine ⟨hvalid, hvalues.trans (filter_congr fun v hv => ?_)⟩
  have hmem : key v ∈ s.indexes.keys := h.mem_indexes.2 (mem_map_of_mem hv)
  simp [hmem]

/-- Putting several records. -/
lemma Valid.foldl_put (new : List V) : Valid key (new.foldl (Slots.put key) s) ∧
      (new.foldl (Slots.put key) s).values = new.foldl (upsert key) s.values := by
  induction new generalizing s with
  | nil => exact ⟨h, rfl⟩
  | cons v new ih =>
    obtain ⟨hvalid, hvalues⟩ := ih (h.put v)
    exact ⟨hvalid, by rw [foldl_cons, hvalues, h.values_put, foldl_cons]⟩

end

end Slots

end TokenCode.Keyed
