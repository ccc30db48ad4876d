/-
Merge patches between JSON values (`core/src/context/world_state/mod.rs`, after RFC 7386).

A patch is an object: a field that is null deletes the field of that name, any other field is
applied to it, and a patch that is not an object replaces what it is applied to. A patch cannot say
that a field is null, and an object that is new is patched in field by field; so the value that a
patch leads to must have no null fields. Then the patch that is created between two values leads
from the one to the other (`applyMergePatchValue_createMergePatch`), whatever the first one is.
-/
import TokenCode.Lib.Json

namespace TokenCode.Context

open Option List SortedMap JsonTree

/-! ### Creating and applying -/

/-- The fields that the patch deletes. -/
def removedFields (previous : Option (List ((_ : Text) × JsonTree)))
    (current : List ((_ : Text) × JsonTree)) : List ((_ : Text) × JsonTree) :=
  (previous.getD []).foldl (fun patch field =>
    if field.1 ∈ current.keys then patch else insertEntry field.1 .null patch) []

mutual

/-- `create_merge_patch`. -/
def createMergePatch (previous : JsonTree) : JsonTree → Option JsonTree
  | .object current =>
    if previous = .object current then none
    else some (.object (changedFields previous.asObject
      (removedFields previous.asObject current) current))
  | current => if previous = current then none else some current

/-- The loop over the fields of the current object. -/
def changedFields (previous : Option (List ((_ : Text) × JsonTree)))
    (patch : List ((_ : Text) × JsonTree)) :
    List ((_ : Text) × JsonTree) → List ((_ : Text) × JsonTree)
  | [] => patch
  | ⟨key, currentValue⟩ :: current =>
    match previous.bind (dlookup key) with
    | none => changedFields previous (insertEntry key currentValue patch) current
    | some previousValue =>
      match createMergePatch previousValue currentValue with
      | some valuePatch => changedFields previous (insertEntry key valuePatch patch) current
      | none => changedFields previous patch current

end

mutual

/-- `apply_merge_patch_value`. -/
def applyMergePatchValue (target : JsonTree) : JsonTree → JsonTree
  | .object patch => .object (applyFields (target.asObject.getD []) patch)
  | patch => patch

/-- The loop over the fields of the patch. -/
def applyFields (target : List ((_ : Text) × JsonTree)) :
    List ((_ : Text) × JsonTree) → List ((_ : Text) × JsonTree)
  | [] => target
  | ⟨key, value⟩ :: patch =>
    if value = .null then applyFields (kerase key target) patch
    else applyFields
      (insertEntry key (applyMergePatchValue ((dlookup key target).getD .null) value) target) patch

end

section

variable {previous current target patch value : JsonTree}

lemma createMergePatch_of_asObject (h : current.asObject = none) :
    createMergePatch previous current = if previous = current then none else some current := by
  cases current with
  | object fields => cases h
  | _ => rfl

lemma applyMergePatchValue_of_asObject (h : patch.asObject = none) :
    applyMergePatchValue target patch = patch := by
  cases patch with
  | object fields => cases h
  | _ => rfl

/-- There is no patch exactly between equal values. -/
theorem createMergePatch_eq_none : createMergePatch previous current = none ↔
    previous = current := by
  cases current <;> simp [createMergePatch]

/-- A patch to a value that is not null deletes nothing by itself. -/
lemma ne_null_of_createMergePatch (h : createMergePatch previous current = some patch)
    (hcurrent : current ≠ .null) : patch ≠ .null := by
  cases current with
  | object fields =>
    simp only [createMergePatch, ite_none_left_eq_some, some.injEq] at h
    obtain ⟨-, rfl⟩ := h
    simp
  | _ =>
    simp only [createMergePatch, ite_none_left_eq_some, some.injEq] at h
    exact h.2 ▸ hcurrent

end

/-! ### The fields of a patch -/

section

variable {previous : Option (List ((_ : Text) × JsonTree))}
  {current patch target : List ((_ : Text) × JsonTree)} {key : Text} {value : JsonTree}

lemma ordered_insertEntry (h : Ordered (.object patch)) (hvalue : value.Ordered) (key : Text) :
    Ordered (.object (insertEntry key value patch)) := by
  obtain ⟨hsorted, hfields⟩ := ordered_object.1 h
  refine ordered_object.2 ⟨hsorted.insertEntry key value, fun field hfield => ?_⟩
  rcases mem_insertEntry hfield with rfl | hfield
  · exact hvalue
  · exact hfields field hfield

lemma ordered_kerase (h : Ordered (.object target)) (key : Text) :
    Ordered (.object (kerase key target)) := by
  obtain ⟨hsorted, hfields⟩ := ordered_object.1 h
  exact ordered_object.2 ⟨hsorted.kerase key,
    fun field hfield => hfields field ((kerase_sublist key target).subset hfield)⟩

lemma ordered_of_dlookup (h : Ordered (.object target)) (hvalue : dlookup key target = some value) :
    value.Ordered :=
  (ordered_object.1 h).2 ⟨key, value⟩ (of_mem_dlookup hvalue)

lemma ordered_removedFields : Ordered (.object (removedFields previous current)) := by
  have hfold : ∀ fields patch : List ((_ : Text) × JsonTree), Ordered (.object patch) →
      Ordered (.object (fields.foldl (fun patch field =>
        if field.1 ∈ current.keys then patch else insertEntry field.1 .null patch) patch)) := by
    intro fields
    induction fields with
    | nil => exact fun _ h => h
    | cons field fields ih =>
      intro patch h
      rw [foldl_cons]
      refine ih _ ?_
      split_ifs
      · exact h
      · exact ordered_insertEntry h (show Ordered .null from rfl) _
  exact hfold _ _ rfl

/-- The deleted fields are those that are gone. -/
lemma dlookup_removedFields : dlookup key (removedFields previous current) =
    if key ∈ (previous.getD []).keys ∧ key ∉ current.keys then some .null else none := by
  have hfold : ∀ fields patch : List ((_ : Text) × JsonTree),
      dlookup key (fields.foldl (fun patch field =>
          if field.1 ∈ current.keys then patch else insertEntry field.1 .null patch) patch) =
        if key ∈ fields.keys ∧ key ∉ current.keys then some .null else dlookup key patch := by
    intro fields
    induction fields with
    | nil => simp
    | cons field fields ih =>
      intro patch
      rw [foldl_cons, ih]
      by_cases hkey : key = field.1
      · subst hkey
        by_cases hcurrent : field.1 ∈ current.keys <;> simp [hcurrent, dlookup_insertEntry]
      · by_cases hcurrent : field.1 ∈ current.keys <;> simp [hcurrent, hkey, dlookup_insertEntry]
  exact hfold _ _

/-- What the patch has for a field of the current object. -/
def fieldPatch (previous : Option (List ((_ : Text) × JsonTree))) (key : Text)
    (value : JsonTree) : Option JsonTree :=
  match previous.bind (dlookup key) with
  | none => some value
  | some previousValue => createMergePatch previousValue value

lemma dlookup_getD : dlookup key (previous.getD []) = previous.bind (dlookup key) := by
  cases previous <;> rfl

/-- One field of the loop. -/
def addField (previous : Option (List ((_ : Text) × JsonTree)))
    (patch : List ((_ : Text) × JsonTree)) (key : Text) (value : JsonTree) :
    List ((_ : Text) × JsonTree) :=
  match fieldPatch previous key value with
  | some valuePatch => insertEntry key valuePatch patch
  | none => patch

lemma changedFields_cons : changedFields previous patch (⟨key, value⟩ :: current) =
    changedFields previous (addField previous patch key value) current := by
  rw [changedFields, addField, fieldPatch]
  cases previous.bind (dlookup key) with
  | none => rfl
  | some previousValue =>
    dsimp only
    cases createMergePatch previousValue value <;> rfl

lemma dlookup_addField (other : Text) : dlookup other (addField previous patch key value) =
    if other = key then (fieldPatch previous key value).or (dlookup key patch)
    else dlookup other patch := by
  rw [addField]
  cases fieldPatch previous key value with
  | none =>
    split_ifs with h
    · rw [h, none_or]
    · rfl
  | some valuePatch => simp [dlookup_insertEntry]

/-- The loop sets the fields of the current object. -/
lemma dlookup_changedFields (h : current.NodupKeys) :
    dlookup key (changedFields previous patch current) =
      ((dlookup key current).bind (fieldPatch previous key)).or (dlookup key patch) := by
  induction current generalizing patch with
  | nil => simp [changedFields]
  | cons field current ih =>
    obtain ⟨head, headValue⟩ := field
    obtain ⟨hhead, hcurrent⟩ := nodupKeys_cons.1 h
    rw [changedFields_cons, ih hcurrent, dlookup_addField]
    by_cases hkey : key = head
    · subst hkey
      rw [if_pos rfl, dlookup_eq_none.2 hhead, dlookup_cons_eq]
      rfl
    · rw [if_neg hkey, dlookup_cons_ne _ (⟨head, headValue⟩ : (_ : Text) × JsonTree) hkey]

/-- What a field of a patch leaves of the field it is applied to. -/
def applyField (target : List ((_ : Text) × JsonTree)) (key : Text) (value : JsonTree) :
    Option JsonTree :=
  if value = .null then none
  else some (applyMergePatchValue ((dlookup key target).getD .null) value)

/-- Applying a patch changes its fields. -/
lemma dlookup_applyFields (htarget : Sorted target) (h : patch.NodupKeys) :
    dlookup key (applyFields target patch) =
      match dlookup key patch with
      | none => dlookup key target
      | some value => applyField target key value := by
  induction patch generalizing target with
  | nil => rfl
  | cons field patch ih =>
    obtain ⟨head, headValue⟩ := field
    obtain ⟨hhead, hpatch⟩ := nodupKeys_cons.1 h
    by_cases hkey : key = head
    · -- the rest of the patch does not come back to the key
      subst hkey
      rw [applyFields, dlookup_cons_eq]
      simp only [applyField]
      split_ifs with hnull
      · rw [ih (htarget.kerase key) hpatch, dlookup_eq_none.2 hhead]
        simp [htarget.dlookup_kerase]
      · rw [ih (htarget.insertEntry key _) hpatch, dlookup_eq_none.2 hhead]
        simp [dlookup_insertEntry]
    · rw [applyFields, dlookup_cons_ne _ (⟨head, headValue⟩ : (_ : Text) × JsonTree) hkey]
      split_ifs with hnull
      · rw [ih (htarget.kerase head) hpatch]
        simp [applyField, htarget.dlookup_kerase, hkey]
      · rw [ih (htarget.insertEntry head _) hpatch]
        simp [applyField, dlookup_insertEntry, hkey]

end

/-! ### Values stay in order -/

section

variable {previous current target patch : JsonTree}

lemma ordered_changedFields {previous : Option (List ((_ : Text) × JsonTree))}
    {patch current : List ((_ : Text) × JsonTree)} (hpatch : Ordered (.object patch))
    (hfields : ∀ field ∈ current, ∀ valuePatch,
      fieldPatch previous field.1 field.2 = some valuePatch → valuePatch.Ordered) :
    Ordered (.object (changedFields previous patch current)) := by
  induction current generalizing patch with
  | nil => exact hpatch
  | cons field current ih =>
    rw [changedFields_cons]
    refine ih ?_ fun other hother => hfields other (mem_cons_of_mem _ hother)
    rw [addField]
    cases hfield : fieldPatch previous field.1 field.2 with
    | none => exact hpatch
    | some valuePatch =>
      exact ordered_insertEntry hpatch (hfields field mem_cons_self valuePatch hfield) _

lemma ordered_createMergePatch (hcurrent : current.Ordered)
    (h : createMergePatch previous current = some patch) : patch.Ordered := by
  induction current using object_induction generalizing previous patch with
  | value current hobject =>
    rw [createMergePatch_of_asObject hobject, ite_none_left_eq_some, some.injEq] at h
    exact h.2 ▸ hcurrent
  | object fields ih =>
    simp only [createMergePatch, ite_none_left_eq_some, some.injEq] at h
    obtain ⟨-, rfl⟩ := h
    refine ordered_changedFields ordered_removedFields fun field hfield valuePatch hpatch => ?_
    have hvalue := (ordered_object.1 hcurrent).2 field hfield
    rw [fieldPatch] at hpatch
    split at hpatch
    · exact some.inj hpatch ▸ hvalue
    · exact ih field hfield hvalue hpatch

lemma ordered_applyFields {target patch : List ((_ : Text) × JsonTree)}
    (htarget : Ordered (.object target))
    (hfields : ∀ field ∈ patch, ∀ target : JsonTree, target.Ordered →
      (applyMergePatchValue target field.2).Ordered) :
    Ordered (.object (applyFields target patch)) := by
  induction patch generalizing target with
  | nil => exact htarget
  | cons field patch ih =>
    have hrest := fun other hother => hfields other (mem_cons_of_mem field hother)
    rw [applyFields]
    split_ifs with hnull
    · exact ih (ordered_kerase htarget _) hrest
    · refine ih (ordered_insertEntry htarget (hfields field mem_cons_self _ ?_) _) hrest
      cases hvalue : dlookup field.1 target with
      | none => rfl
      | some value => exact ordered_of_dlookup htarget hvalue

lemma ordered_getD_asObject (h : target.Ordered) : Ordered (.object (target.asObject.getD [])) := by
  cases target with
  | object fields => exact h
  | _ => rfl

lemma ordered_applyMergePatchValue (htarget : target.Ordered) (hpatch : patch.Ordered) :
    (applyMergePatchValue target patch).Ordered := by
  induction patch using object_induction generalizing target with
  | value patch hobject => rwa [applyMergePatchValue_of_asObject hobject]
  | object fields ih =>
    exact ordered_applyFields (ordered_getD_asObject htarget) fun field hfield target htarget =>
      ih field hfield htarget ((ordered_object.1 hpatch).2 field hfield)

end

/-! ### A patch leads to the current value -/

section

variable {previous current target patch value : JsonTree}

/-- A value without null fields, applied to what is no object, is put in its place. -/
lemma applyMergePatchValue_eq_self (htarget : target.asObject = none) (hordered : value.Ordered)
    (hnull : value.NoNullField) : applyMergePatchValue target value = value := by
  induction value using object_induction generalizing target with
  | value value hobject => exact applyMergePatchValue_of_asObject hobject
  | object fields ih =>
    obtain ⟨hsorted, hfields⟩ := ordered_object.1 hordered
    obtain ⟨hnotNull, hnoNull⟩ := noNullField_object.1 hnull
    have happly : Sorted (applyFields [] fields) := by
      have hempty : Ordered (.object []) := rfl
      exact (ordered_object.1 (ordered_applyFields hempty fun field hfield target htarget =>
        ordered_applyMergePatchValue htarget (hfields field hfield))).1
    rw [applyMergePatchValue, htarget, getD_none, eq_of_dlookup_eq happly hsorted fun key => ?_]
    rw [dlookup_applyFields sorted_nil hsorted.nodupKeys]
    cases hvalue : dlookup key fields with
    | none => rfl
    | some value =>
      have hmem := of_mem_dlookup hvalue
      simp only [applyField, if_neg (hnotNull _ hmem), dlookup_nil, getD_none]
      rw [ih _ hmem rfl (hfields _ hmem) (hnoNull _ hmem)]

/-- **A patch leads from the previous value to the current one.** -/
theorem applyMergePatchValue_createMergePatch (hprevious : previous.Ordered)
    (hcurrent : current.Ordered) (hnull : current.NoNullField)
    (h : createMergePatch previous current = some patch) :
    applyMergePatchValue previous patch = current := by
  induction current using object_induction generalizing previous patch with
  | value current hobject =>
    rw [createMergePatch_of_asObject hobject, ite_none_left_eq_some, some.injEq] at h
    obtain ⟨-, rfl⟩ := h
    exact applyMergePatchValue_of_asObject hobject
  | object fields ih =>
    have hpatch := ordered_createMergePatch hcurrent h
    simp only [createMergePatch, ite_none_left_eq_some, some.injEq] at h
    obtain ⟨-, rfl⟩ := h
    obtain ⟨hsorted, hfields⟩ := ordered_object.1 hcurrent
    obtain ⟨hnotNull, hnoNull⟩ := noNullField_object.1 hnull
    have htarget := ordered_getD_asObject hprevious
    have hresult := ordered_applyMergePatchValue hprevious hpatch
    rw [applyMergePatchValue] at hresult ⊢
    -- both sides are in order, so it is enough to look at one key
    rw [eq_of_dlookup_eq (ordered_object.1 hresult).1 hsorted fun key => ?_]
    rw [dlookup_applyFields (ordered_object.1 htarget).1 (ordered_object.1 hpatch).1.nodupKeys,
      dlookup_changedFields hsorted.nodupKeys, dlookup_removedFields]
    cases hvalue : dlookup key fields with
    | none =>
      have hkey : key ∉ fields.keys := dlookup_eq_none.1 hvalue
      by_cases hgone : key ∈ (previous.asObject.getD []).keys
      · simp [hgone, hkey, applyField]
      · simp [hgone, dlookup_eq_none.2 hgone]
    | some value =>
      have hmem := of_mem_dlookup hvalue
      have hkey : key ∈ fields.keys := dlookup_isSome.1 (by rw [hvalue]; rfl)
      simp only [bind_some, hkey, not_true_eq_false, and_false, if_false, or_none,
        fieldPatch, applyField, dlookup_getD]
      cases hfield : previous.asObject.bind (dlookup key) with
      | none =>
        simp only [if_neg (hnotNull _ hmem), getD_none]
        rw [applyMergePatchValue_eq_self rfl (hfields _ hmem) (hnoNull _ hmem)]
      | some previousValue =>
        have hordered := ordered_of_dlookup htarget (dlookup_getD.trans hfield)
        dsimp only
        cases hpatch : createMergePatch previousValue value with
        | none => rw [createMergePatch_eq_none.1 hpatch]
        | some valuePatch =>
          simp only [if_neg (ne_null_of_createMergePatch hpatch (hnotNull _ hmem)), getD_some]
          rw [ih _ hmem hordered (hfields _ hmem) (hnoNull _ hmem) hpatch]

end

end TokenCode.Context
