/-
Snapshots of the world state (`core/src/context/world_state/mod.rs`).

The world state has sections, and each of them serializes what it has told the model. A snapshot
collects that JSON by the section's id, without null fields. What is persisted is the snapshot
itself or the merge patch from the snapshot before it.
-/
import TokenCode.Context.MergePatch

namespace TokenCode.Context

open List SortedMap JsonTree

/-- `WorldStateSnapshot`: the snapshots of the sections, by their ids. -/
structure WorldStateSnapshot where
  sections : List ((_ : Text) × JsonTree)
  ordered : Ordered (.object sections)
deriving DecidableEq, Repr

namespace WorldStateSnapshot

/-- `into_value`. -/
def intoValue (snapshot : WorldStateSnapshot) : Json := ⟨.object snapshot.sections, snapshot.ordered⟩

/-- `serde_json::from_value`: a snapshot is read from an object. -/
def fromValue : Json → Option WorldStateSnapshot
  | ⟨.object sections, ordered⟩ => some ⟨sections, ordered⟩
  | _ => none

/-- `merge_patch_from`. -/
def mergePatchFrom (snapshot previous : WorldStateSnapshot) : Option Json :=
  (createMergePatch previous.intoValue.1 snapshot.intoValue.1).pmap Subtype.mk
    fun _ h => ordered_createMergePatch snapshot.ordered h

/-- `apply_merge_patch`, unless it fails. -/
def applyMergePatch (snapshot : WorldStateSnapshot) (patch : Json) : Option WorldStateSnapshot :=
  fromValue ⟨applyMergePatchValue snapshot.intoValue.1 patch.1,
    ordered_applyMergePatchValue snapshot.ordered patch.2⟩

/-- No field of an object in the snapshot is null. -/
def NoNullField (snapshot : WorldStateSnapshot) : Prop := snapshot.intoValue.1.NoNullField

instance (snapshot : WorldStateSnapshot) : Decidable snapshot.NoNullField :=
  inferInstanceAs (Decidable (JsonTree.NoNullField _))

variable {snapshot previous : WorldStateSnapshot}

lemma fromValue_intoValue : fromValue snapshot.intoValue = some snapshot := rfl

lemma intoValue_injective : Function.Injective intoValue := by
  intro snapshot other h
  have h := congrArg fromValue h
  exact Option.some.inj h

/-- There is no patch exactly between equal snapshots. -/
lemma mergePatchFrom_eq_none : snapshot.mergePatchFrom previous = none ↔ previous = snapshot := by
  rw [mergePatchFrom, Option.pmap_eq_none_iff, createMergePatch_eq_none, Subtype.val_inj,
    intoValue_injective.eq_iff]

/-- A patch leads from the previous snapshot to the current one. -/
lemma applyMergePatch_mergePatchFrom (hnull : snapshot.NoNullField) {patch : Json}
    (h : snapshot.mergePatchFrom previous = some patch) :
    previous.applyMergePatch patch = some snapshot := by
  obtain ⟨tree, htree, hcreate, rfl⟩ := Option.pmap_eq_some_iff.1 h
  have hvalue : applyMergePatchValue previous.intoValue.1 tree = snapshot.intoValue.1 :=
    applyMergePatchValue_createMergePatch previous.ordered snapshot.ordered hnull hcreate
  rw [applyMergePatch, ← fromValue_intoValue]
  exact congrArg fromValue (Subtype.ext hvalue)

end WorldStateSnapshot

/-! ### Taking a snapshot -/

mutual

/-- `remove_null_object_fields`. -/
def removeNullObjectFields : JsonTree → JsonTree
  | .object values => .object (removeNullFields values)
  | value => value

/-- The fields that are kept, without the null fields inside them. -/
def removeNullFields : List ((_ : Text) × JsonTree) → List ((_ : Text) × JsonTree)
  | [] => []
  | ⟨key, value⟩ :: values =>
    if value = .null then removeNullFields values
    else ⟨key, removeNullObjectFields value⟩ :: removeNullFields values

end

/-- `WorldState`: the ids of the sections, with the JSON that each one serializes to. -/
structure WorldState where
  sections : List (Text × Option Json)
deriving DecidableEq, Repr

/-- `ErasedWorldStateSection::snapshot`: nothing is kept of a section that fails to serialize or
serializes to null. -/
def sectionSnapshot (serialized : Option Json) : Option JsonTree :=
  serialized.bind fun value =>
    let snapshot := removeNullObjectFields value.1
    if snapshot = .null then none else some snapshot

/-- One section of the snapshot. -/
def addSection (sections : List ((_ : Text) × JsonTree)) (entry : Text × Option Json) :
    List ((_ : Text) × JsonTree) :=
  match sectionSnapshot entry.2 with
  | some snapshot => insertEntry entry.1 snapshot sections
  | none => sections

variable {tree : JsonTree}

lemma asObject_removeNullObjectFields (h : tree.asObject = none) :
    removeNullObjectFields tree = tree := by
  cases tree with
  | object fields => cases h
  | _ => rfl

lemma removeNullObjectFields_eq_null : removeNullObjectFields tree = .null ↔ tree = .null := by
  cases tree <;> simp [removeNullObjectFields]

variable {values : List ((_ : Text) × JsonTree)}

lemma mem_removeNullFields {field : (_ : Text) × JsonTree} (h : field ∈ removeNullFields values) :
    ∃ source ∈ values, source.2 ≠ .null ∧ field = ⟨source.1, removeNullObjectFields source.2⟩ := by
  induction values with
  | nil => cases h
  | cons source values ih =>
    rw [removeNullFields] at h
    split_ifs at h with hnull
    · obtain ⟨other, hother, hfield⟩ := ih h
      exact ⟨other, mem_cons_of_mem _ hother, hfield⟩
    · rcases mem_cons.1 h with rfl | h
      · exact ⟨source, mem_cons_self, hnull, rfl⟩
      · obtain ⟨other, hother, hfield⟩ := ih h
        exact ⟨other, mem_cons_of_mem _ hother, hfield⟩

lemma sorted_removeNullFields (h : Sorted values) : Sorted (removeNullFields values) := by
  induction values with
  | nil => exact sorted_nil
  | cons source values ih =>
    rw [removeNullFields]
    split_ifs with hnull
    · exact ih h.of_cons
    · refine (ih h.of_cons).cons fun field hfield => ?_
      obtain ⟨other, hother, -, rfl⟩ := mem_removeNullFields hfield
      exact (pairwise_cons.1 h).1 other hother

/-- Removing null fields keeps the order, and leaves no null field. -/
lemma removeNullObjectFields_spec (h : tree.Ordered) :
    (removeNullObjectFields tree).Ordered ∧ (removeNullObjectFields tree).NoNullField := by
  induction tree using object_induction with
  | value tree hobject =>
    rw [asObject_removeNullObjectFields hobject]
    refine ⟨h, ?_⟩
    cases tree with
    | object fields => cases hobject
    | _ => rfl
  | object fields ih =>
    obtain ⟨hsorted, hfields⟩ := ordered_object.1 h
    have hmem : ∀ field ∈ removeNullFields fields,
        field.2 ≠ .null ∧ field.2.Ordered ∧ field.2.NoNullField := by
      intro field hfield
      obtain ⟨source, hsource, hnull, rfl⟩ := mem_removeNullFields hfield
      exact ⟨removeNullObjectFields_eq_null.not.2 hnull, ih source hsource (hfields source hsource)⟩
    exact ⟨ordered_object.2 ⟨sorted_removeNullFields hsorted, fun field hfield =>
        (hmem field hfield).2.1⟩,
      noNullField_object.2 ⟨fun field hfield => (hmem field hfield).1, fun field hfield =>
        (hmem field hfield).2.2⟩⟩

lemma sectionSnapshot_spec {serialized : Option Json} {snapshot : JsonTree}
    (h : sectionSnapshot serialized = some snapshot) :
    snapshot ≠ .null ∧ snapshot.Ordered ∧ snapshot.NoNullField := by
  obtain ⟨value, rfl, hvalue⟩ := Option.bind_eq_some_iff.1 h
  simp only [Option.ite_none_left_eq_some, Option.some.injEq] at hvalue
  obtain ⟨hnull, rfl⟩ := hvalue
  exact ⟨hnull, removeNullObjectFields_spec value.2⟩

lemma addSection_spec {sections : List ((_ : Text) × JsonTree)} {entry : Text × Option Json}
    (h : Ordered (.object sections) ∧ JsonTree.NoNullField (.object sections)) :
    Ordered (.object (addSection sections entry)) ∧
      JsonTree.NoNullField (.object (addSection sections entry)) := by
  rw [addSection]
  cases hsection : sectionSnapshot entry.2 with
  | none => exact h
  | some snapshot =>
    obtain ⟨hnull, hordered, hnoNull⟩ := sectionSnapshot_spec hsection
    obtain ⟨hnotNull, hfields⟩ := noNullField_object.1 h.2
    refine ⟨ordered_insertEntry h.1 hordered _, noNullField_object.2 ⟨?_, ?_⟩⟩
    all_goals
      intro field hfield
      rcases mem_insertEntry hfield with rfl | hfield
    · exact hnull
    · exact hnotNull field hfield
    · exact hnoNull
    · exact hfields field hfield

lemma foldl_addSection_spec (entries : List (Text × Option Json)) :
    Ordered (.object (entries.foldl addSection [])) ∧
      JsonTree.NoNullField (.object (entries.foldl addSection [])) := by
  induction entries using reverseRecOn with
  | nil => exact ⟨rfl, rfl⟩
  | append_singleton entries entry ih =>
    rw [foldl_concat]
    exact addSection_spec ih

/-- `snapshot`. -/
def WorldState.snapshot (worldState : WorldState) : WorldStateSnapshot :=
  ⟨worldState.sections.foldl addSection [], (foldl_addSection_spec worldState.sections).1⟩

/-- A snapshot of the world state has no null fields. -/
lemma noNullField_snapshot (worldState : WorldState) : worldState.snapshot.NoNullField :=
  (foldl_addSection_spec worldState.sections).2

end TokenCode.Context
