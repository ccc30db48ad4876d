/-
Dropping the oldest item of the history (`remove_first_item` in `core/src/context_manager/history.rs`
and `remove_corresponding_for` in `normalize.rs`).

A call and its output are removed together. The counterpart is searched by a rule of its own for
every kind of item, but every rule finds an item of the same key, so that the keys of the calls stay
the keys of the outputs.
-/
import TokenCode.Rollout.Normalize

namespace TokenCode.Rollout

open List Text ContextManager

/-! ### The counterpart of an item -/

section

variable (callId : Text)

def isFunctionCall : ResponseItem → Bool
  | .functionCall _ existing _ => existing = callId
  | _ => false

def isLocalShellCall : ResponseItem → Bool
  | .localShellCall _ (some existing) _ => existing = callId
  | _ => false

def isFunctionCallOutput : ResponseItem → Bool
  | .functionCallOutput _ existing _ _ => existing = callId
  | _ => false

def isToolSearchCall : ResponseItem → Bool
  | .toolSearchCall _ (some existing) _ => existing = callId
  | _ => false

def isToolSearchOutput : ResponseItem → Bool
  | .toolSearchOutput _ (some existing) _ _ _ _ => existing = callId
  | _ => false

def isCustomToolCall : ResponseItem → Bool
  | .customToolCall _ existing _ => existing = callId
  | _ => false

def isCustomToolCallOutput : ResponseItem → Bool
  | .customToolCallOutput _ existing _ _ _ => existing = callId
  | _ => false

end

/-- `remove_first_matching`. -/
def removeFirstMatching (items : List ResponseItem) (predicate : ResponseItem → Bool) :
    List ResponseItem :=
  match items.findIdx? predicate with
  | some pos => items.eraseIdx pos
  | none => items

/-- `remove_corresponding_for`. -/
def removeCorrespondingFor (items : List ResponseItem) : ResponseItem → List ResponseItem
  | .functionCall _ callId _ => removeFirstMatching items (isFunctionCallOutput callId)
  | .functionCallOutput _ callId _ _ =>
    match items.findIdx? (isFunctionCall callId) with
    | some pos => items.eraseIdx pos
    | none =>
      match items.findIdx? (isLocalShellCall callId) with
      | some pos => items.eraseIdx pos
      | none => items
  | .toolSearchCall _ (some callId) _ => removeFirstMatching items (isToolSearchOutput callId)
  | .toolSearchOutput _ (some callId) _ _ _ _ =>
    removeFirstMatching items (isToolSearchCall callId)
  | .customToolCall _ callId _ => removeFirstMatching items (isCustomToolCallOutput callId)
  | .customToolCallOutput _ callId _ _ _ => removeFirstMatching items (isCustomToolCall callId)
  | .localShellCall _ (some callId) _ => removeFirstMatching items (isFunctionCallOutput callId)
  | _ => items

/-- `remove_first_item`. -/
def ContextManager.removeFirstItem (h : ContextManager) : ContextManager :=
  match h.items with
  | [] => h
  | removed :: items =>
    { h with items := removeCorrespondingFor items removed, worldStateBaseline := none }

/-- **The history is well paired**: no call id is used twice, every call has exactly one output of its
kind, and every output its call. -/
structure WellPaired (items : List ResponseItem) : Prop where
  distinct : ((items.filterMap callKey).map Prod.snd).Nodup
  matched : (items.filterMap callKey).Perm (items.filterMap outputKey)

instance (items : List ResponseItem) : Decidable (WellPaired items) :=
  decidable_of_iff (((items.filterMap callKey).map Prod.snd).Nodup ∧
    (items.filterMap callKey).Perm (items.filterMap outputKey))
    ⟨fun h => ⟨h.1, h.2⟩, fun h => ⟨h.1, h.2⟩⟩

variable (callId : Text)

section

variable {items rest : List ResponseItem} {item : ResponseItem} {key : OutputKind × Text}

lemma removeFirstMatching_eq (items : List ResponseItem) (p : ResponseItem → Bool) :
    removeFirstMatching items p = items.eraseP p := by
  rw [removeFirstMatching, eraseP_eq_eraseIdx]
  cases items.findIdx? p <;> rfl

/-- The list is the removed item and the rest. -/
lemma exists_perm_eraseP {p : ResponseItem → Bool} (h : ∃ x ∈ items, p x = true) :
    ∃ found, p found = true ∧ items.Perm (found :: items.eraseP p) := by
  obtain ⟨x, hx, hp⟩ := h
  obtain ⟨found, before, after, -, hfound, hitems, herase⟩ := exists_of_eraseP hx hp
  refine ⟨found, hfound, ?_⟩
  rw [herase, hitems]
  exact perm_middle

/-- The output of a function call belongs to a function call or to a local shell call. -/
lemma removeCorrespondingFor_functionCallOutput (id : Option Text) (callId : Text)
    (output : FunctionCallOutputPayload) (metadata : Option Text) :
    removeCorrespondingFor items (.functionCallOutput id callId output metadata) =
      if items.any (isFunctionCall callId) then items.eraseP (isFunctionCall callId)
      else items.eraseP (isLocalShellCall callId) := by
  rw [removeCorrespondingFor, eraseP_eq_eraseIdx, eraseP_eq_eraseIdx]
  cases hfunction : items.findIdx? (isFunctionCall callId) with
  | some pos =>
    have hany : items.any (isFunctionCall callId) = true := by
      rw [← findIdx?_isSome, hfunction]
      rfl
    rw [if_pos hany]
  | none =>
    have hany : items.any (isFunctionCall callId) = false := by
      rw [← findIdx?_isSome, hfunction]
      rfl
    rw [hany]
    cases items.findIdx? (isLocalShellCall callId) <;> rfl

section

variable (item : ResponseItem)

lemma isFunctionCallOutput_iff :
    isFunctionCallOutput callId item = true ↔ outputKey item = some (.function, callId) := by
  cases item with
  | toolSearchOutput id callId' => cases callId' <;> simp [isFunctionCallOutput, outputKey]
  | _ => simp [isFunctionCallOutput, outputKey]

lemma isToolSearchOutput_iff :
    isToolSearchOutput callId item = true ↔ outputKey item = some (.toolSearch, callId) := by
  cases item with
  | toolSearchOutput id callId' => cases callId' <;> simp [isToolSearchOutput, outputKey]
  | _ => simp [isToolSearchOutput, outputKey]

lemma isCustomToolCallOutput_iff :
    isCustomToolCallOutput callId item = true ↔ outputKey item = some (.customTool, callId) := by
  cases item with
  | toolSearchOutput id callId' => cases callId' <;> simp [isCustomToolCallOutput, outputKey]
  | _ => simp [isCustomToolCallOutput, outputKey]

lemma isToolSearchCall_iff :
    isToolSearchCall callId item = true ↔ callKey item = some (.toolSearch, callId) := by
  cases item with
  | toolSearchCall id callId' | localShellCall id callId' =>
    cases callId' <;> simp [isToolSearchCall, callKey]
  | _ => simp [isToolSearchCall, callKey]

lemma isCustomToolCall_iff :
    isCustomToolCall callId item = true ↔ callKey item = some (.customTool, callId) := by
  cases item with
  | toolSearchCall id callId' | localShellCall id callId' =>
    cases callId' <;> simp [isCustomToolCall, callKey]
  | _ => simp [isCustomToolCall, callKey]

/-- A function's output is needed by function calls and by local shell calls. -/
lemma isFunctionCall_or_iff :
    isFunctionCall callId item = true ∨ isLocalShellCall callId item = true ↔
      callKey item = some (.function, callId) := by
  cases item with
  | toolSearchCall id callId' | localShellCall id callId' =>
    cases callId' <;> simp [isFunctionCall, isLocalShellCall, callKey]
  | _ => simp [isFunctionCall, isLocalShellCall, callKey]

end

/-- The outputs that have a key. -/
lemma outputKey_cases (h : outputKey item ≠ none) :
    (∃ id callId output metadata, item = .functionCallOutput id callId output metadata) ∨
      (∃ id callId status execution tools metadata,
        item = .toolSearchOutput id (some callId) status execution tools metadata) ∨
      ∃ id callId name output metadata,
        item = .customToolCallOutput id callId name output metadata := by
  cases item with
  | functionCallOutput id callId output metadata => exact .inl ⟨id, callId, output, metadata, rfl⟩
  | toolSearchOutput id callId status execution tools metadata =>
    cases callId with
    | none => exact absurd rfl h
    | some callId => exact .inr (.inl ⟨id, callId, status, execution, tools, metadata, rfl⟩)
  | customToolCallOutput id callId name output metadata =>
    exact .inr (.inr ⟨id, callId, name, output, metadata, rfl⟩)
  | _ => exact absurd rfl h

/-- What has the key is removed. -/
lemma exists_removed {keyOf : ResponseItem → Option (OutputKind × Text)} {p : ResponseItem → Bool}
    (hmem : key ∈ items.filterMap keyOf) (hp : ∀ y, p y = true ↔ keyOf y = some key) :
    ∃ found, keyOf found = some key ∧ items.Perm (found :: removeFirstMatching items p) := by
  obtain ⟨x, hx, hkey⟩ := mem_filterMap.1 hmem
  obtain ⟨found, hfound, hperm⟩ := exists_perm_eraseP ⟨x, hx, (hp x).2 hkey⟩
  exact ⟨found, (hp found).1 hfound, by rwa [removeFirstMatching_eq]⟩

/-- **The output of a removed call is removed.** -/
lemma exists_output_removed (hkey : callKey item = some key)
    (hmem : key ∈ items.filterMap outputKey) : ∃ found, outputKey found = some key ∧
      items.Perm (found :: removeCorrespondingFor items item) := by
  obtain ⟨id, callId, fields, rfl⟩ | ⟨id, callId, fields, rfl⟩ | ⟨id, callId, fields, rfl⟩ |
    ⟨id, callId, fields, rfl⟩ := callKey_cases (hkey ▸ Option.some_ne_none key)
  · obtain rfl := Option.some.inj hkey
    exact exists_removed hmem (isFunctionCallOutput_iff callId)
  · obtain rfl := Option.some.inj hkey
    exact exists_removed hmem (isFunctionCallOutput_iff callId)
  · obtain rfl := Option.some.inj hkey
    exact exists_removed hmem (isToolSearchOutput_iff callId)
  · obtain rfl := Option.some.inj hkey
    exact exists_removed hmem (isCustomToolCallOutput_iff callId)

/-- **The call of a removed output is removed.** -/
lemma exists_call_removed (hkey : outputKey item = some key)
    (hmem : key ∈ items.filterMap callKey) : ∃ found, callKey found = some key ∧
      items.Perm (found :: removeCorrespondingFor items item) := by
  obtain ⟨x, hx, hcall⟩ := mem_filterMap.1 hmem
  obtain ⟨id, callId, output, metadata, rfl⟩ | ⟨id, callId, status, execution, tools, metadata, rfl⟩ |
    ⟨id, callId, name, output, metadata, rfl⟩ := outputKey_cases (hkey ▸ Option.some_ne_none key)
  · obtain rfl := Option.some.inj hkey
    rw [removeCorrespondingFor_functionCallOutput]
    by_cases hany : items.any (isFunctionCall callId) = true
    · obtain ⟨found, hfound, hperm⟩ := exists_perm_eraseP (any_eq_true.1 hany)
      rw [if_pos hany]
      exact ⟨found, (isFunctionCall_or_iff callId found).1 (.inl hfound), hperm⟩
    · -- no function call has the id, so the call is a local shell call
      have hshell : isLocalShellCall callId x = true :=
        ((isFunctionCall_or_iff callId x).2 hcall).resolve_left fun hfunction =>
          hany (any_eq_true.2 ⟨x, hx, hfunction⟩)
      obtain ⟨found, hfound, hperm⟩ := exists_perm_eraseP ⟨x, hx, hshell⟩
      rw [if_neg hany]
      exact ⟨found, (isFunctionCall_or_iff callId found).1 (.inr hfound), hperm⟩
  · obtain rfl := Option.some.inj hkey
    exact exists_removed hmem (isToolSearchCall_iff callId)
  · obtain rfl := Option.some.inj hkey
    exact exists_removed hmem (isCustomToolCall_iff callId)

lemma removeCorrespondingFor_of_none (hcall : callKey item = none) (houtput : outputKey item = none) :
    removeCorrespondingFor items item = items := by
  cases item with
  | localShellCall id callId fields | toolSearchCall id callId fields => cases callId with
    | none => rfl
    | some callId => cases hcall
  | toolSearchOutput id callId => cases callId with
    | none => rfl
    | some callId => cases houtput
  | functionCall id callId fields | customToolCall id callId fields => cases hcall
  | functionCallOutput | customToolCallOutput => cases houtput
  | _ => rfl

lemma removeCorrespondingFor_sublist (items : List ResponseItem) (item : ResponseItem) :
    (removeCorrespondingFor items item).Sublist items := by
  have hfirst : ∀ p, (removeFirstMatching items p).Sublist items := fun p =>
    removeFirstMatching_eq items p ▸ eraseP_sublist
  cases item with
  | localShellCall id callId fields => cases callId with
    | none => exact .refl _
    | some callId => exact hfirst _
  | toolSearchCall id callId fields => cases callId with
    | none => exact .refl _
    | some callId => exact hfirst _
  | toolSearchOutput id callId => cases callId with
    | none => exact .refl _
    | some callId => exact hfirst _
  | functionCall id callId fields | customToolCall id callId fields => exact hfirst _
  | functionCallOutput id callId output metadata =>
    rw [removeCorrespondingFor_functionCallOutput]
    split_ifs
    all_goals exact eraseP_sublist
  | customToolCallOutput id callId name output metadata => exact hfirst _
  | _ => exact .refl _

lemma outputKey_of_callKey (h : callKey item = some key) : outputKey item = none := by
  refine (callProtocol id).reply_of_request item ?_
  change callKey item ≠ none
  rw [h]
  exact Option.some_ne_none key

lemma callKey_of_outputKey (h : outputKey item = some key) : callKey item = none := by
  by_contra hcall
  obtain ⟨key', hkey'⟩ := Option.ne_none_iff_exists'.1 hcall
  rw [outputKey_of_callKey hkey'] at h
  cases h

/-- **The first item is dropped together with its counterpart.** -/
lemma WellPaired.removeCorrespondingFor (h : WellPaired (item :: rest)) :
    WellPaired (removeCorrespondingFor rest item) := by
  refine ⟨?_, ?_⟩
  · have hsub := (removeCorrespondingFor_sublist rest item).trans (sublist_cons_self item rest)
    exact h.distinct.sublist ((hsub.filterMap callKey).map Prod.snd)
  · have hmatched := h.matched
    rcases hcall : callKey item with _ | key
    · rcases houtput : outputKey item with _ | key
      · rw [removeCorrespondingFor_of_none hcall houtput]
        rwa [filterMap_cons_none hcall, filterMap_cons_none houtput] at hmatched
      · rw [filterMap_cons_none hcall, filterMap_cons_some houtput] at hmatched
        obtain ⟨found, hfound, hperm⟩ :=
          exists_call_removed houtput (hmatched.mem_iff.2 mem_cons_self)
        have hcalls := hperm.filterMap callKey
        have houtputs := hperm.filterMap outputKey
        rw [filterMap_cons_some hfound] at hcalls
        rw [filterMap_cons_none (outputKey_of_callKey hfound)] at houtputs
        exact ((hcalls.symm.trans hmatched).cons_inv).trans houtputs
    · rw [filterMap_cons_some hcall, filterMap_cons_none (outputKey_of_callKey hcall)] at hmatched
      obtain ⟨found, hfound, hperm⟩ :=
        exists_output_removed hcall (hmatched.mem_iff.1 mem_cons_self)
      have hcalls := hperm.filterMap callKey
      have houtputs := hperm.filterMap outputKey
      rw [filterMap_cons_some hfound] at houtputs
      rw [filterMap_cons_none (callKey_of_outputKey hfound)] at hcalls
      exact hcalls.symm.trans (hmatched.trans houtputs).cons_inv

/-- What one removal does. -/
lemma ContextManager.removeFirstItem_spec (h : ContextManager) (hpaired : WellPaired h.items) :
    WellPaired h.removeFirstItem.items ∧ h.removeFirstItem.items.Sublist h.items ∧
      (h.items ≠ [] → h.removeFirstItem.items.length < h.items.length) := by
  unfold removeFirstItem
  cases hitems : h.items with
  | nil =>
    rw [hitems] at hpaired ⊢
    exact ⟨hpaired, .refl _, fun hne => absurd rfl hne⟩
  | cons removed items =>
    rw [hitems] at hpaired
    have hsub := removeCorrespondingFor_sublist items removed
    exact ⟨hpaired.removeCorrespondingFor, hsub.trans (sublist_cons_self _ _),
      fun _ => Nat.lt_succ_of_le hsub.length_le⟩

/-- **Dropping the oldest items keeps calls and outputs paired.**  After any number of removals the
history is well paired and a subsequence of what it was, and a removal from a history that is not
empty makes it shorter. -/
theorem removeFirstItem_iterate_paired (h : ContextManager) (hpaired : WellPaired h.items) (n : ℕ) :
    WellPaired (ContextManager.removeFirstItem^[n] h).items ∧
      (ContextManager.removeFirstItem^[n] h).items.Sublist h.items ∧
      ((ContextManager.removeFirstItem^[n] h).items ≠ [] →
        (ContextManager.removeFirstItem^[n + 1] h).items.length <
          (ContextManager.removeFirstItem^[n] h).items.length) := by
  have hrun : WellPaired (removeFirstItem^[n] h).items ∧
      (removeFirstItem^[n] h).items.Sublist h.items := by
    induction n with
    | zero => exact ⟨hpaired, .refl _⟩
    | succ n ih =>
      rw [Function.iterate_succ_apply']
      obtain ⟨hstep, hsub, -⟩ := removeFirstItem_spec _ ih.1
      exact ⟨hstep, hsub.trans ih.2⟩
  rw [Function.iterate_succ_apply']
  exact ⟨hrun.1, hrun.2, (removeFirstItem_spec _ hrun.1).2.2⟩

end

/-- A shell call whose output stands in front of it, and a function call. -/
def interleavedHistory : List ResponseItem :=
  [.functionCallOutput none "c1".toList ⟨.text "ok".toList, none⟩ none,
    .functionCall none "c2".toList [], .localShellCall none (some "c1".toList) [],
    .functionCallOutput none "c2".toList ⟨.text "ok".toList, none⟩ none]

theorem removeFirstItem_iterate_paired_once : WellPaired interleavedHistory ∧
      WellPaired (ContextManager.removeFirstItem^[1] ⟨interleavedHistory, 0, none, none⟩).items ∧
      (ContextManager.removeFirstItem^[1] ⟨interleavedHistory, 0, none, none⟩).items =
        [.functionCall none "c2".toList [],
          .functionCallOutput none "c2".toList ⟨.text "ok".toList, none⟩ none] :=
  have hpaired : WellPaired interleavedHistory := by decide
  ⟨hpaired, (removeFirstItem_iterate_paired ⟨interleavedHistory, 0, none, none⟩ hpaired 1).1,
    by decide⟩

end TokenCode.Rollout
