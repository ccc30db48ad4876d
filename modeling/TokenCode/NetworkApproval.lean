/-
Approval of network requests (`core/src/tools/network_approval.rs`).

The first request for a host owns a pending approval, and the later ones wait for its decision.
Only the control flow of the owner publishes the decision and removes the approval. So a host is
blocked exactly if an owner was dropped before its decision (`hosts_served_iff`,
`host_blocked_by_dropped_owner`).
-/
import TokenCode.Lib.Text

namespace TokenCode.NetworkApproval

inductive NetworkDecision
  | allow
  | deny (reason : Text)
  deriving DecidableEq

inductive PendingApprovalDecision
  | allowOnce
  | allowForSession
  | deny
  deriving DecidableEq

def PendingApprovalDecision.toNetworkDecision : PendingApprovalDecision → NetworkDecision
  | .allowOnce | .allowForSession => .allow
  | .deny => .deny "not_allowed".toList

inductive ReviewDecision
  | approved
  | approvedExecpolicyAmendment
  | approvedForSession
  | networkPolicyAmendment (allow : Bool)
  | denied
  | abort
  | timedOut

/-- What an owner learns. -/
inductive Answer
  /-- there is no turn, or its profile or policy does not allow a review -/
  | refused
  /-- `run_permission_request_hooks` decides -/
  | hook (allow : Bool)
  | review (decision : ReviewDecision)

def Answer.resolved : Answer → PendingApprovalDecision
  | .hook true | .review .approved | .review .approvedExecpolicyAmendment => .allowOnce
  | .review .approvedForSession | .review (.networkPolicyAmendment true) => .allowForSession
  | _ => .deny

/-- What the awaits of a call give. At first it finds its decision (there is no environment, or the
session has approved or denied the host) or its key. -/
structure Request (Key : Type*) where
  key : Except NetworkDecision Key
  /-- `owner_call.is_some()` -/
  attributed : Bool
  useGuardian : Bool
  answer : Answer

/-- What an owner awaits, apart from its decision and the map. -/
inductive Await
  | hooks
  | review
  | persistAmendment
  | report
  | rejectionMessage
  | recordCallOutcome
  | approvedHosts
  | deniedHosts

variable {Key ι : Type*}

def Request.recordOutcome (request : Request Key) : List Await :=
  if request.attributed then [.recordCallOutcome] else []

/-- The awaits before `set_decision`. -/
def Request.awaits (request : Request Key) : List Await :=
  match request.answer with
  | .refused => []
  | .hook true => [.hooks]
  | .hook false => .hooks :: request.recordOutcome
  | .review decision => [.hooks, .review] ++ match decision with
    | .approved | .approvedExecpolicyAmendment => []
    | .approvedForSession => [.deniedHosts, .approvedHosts]
    | .networkPolicyAmendment true => [.persistAmendment, .report, .deniedHosts, .approvedHosts]
    | .networkPolicyAmendment false =>
      [.persistAmendment, .report] ++ request.recordOutcome ++ [.approvedHosts, .deniedHosts]
    | .denied | .abort =>
      (if request.attributed && request.useGuardian then [.rejectionMessage] else []) ++
        request.recordOutcome
    | .timedOut => request.recordOutcome

/-- What a call does next. -/
inductive Phase (Key ι : Type*)
  | resolving
  /-- `get_or_create_pending_approval` -/
  | joining (key : Key)
  | waiting (key : Key) (owner : ι)
  /-- an owner, in front of its decision -/
  | owning (key : Key) (awaits : List Await)
  | removing (key : Key)
  /-- the awaits behind the removal -/
  | finishing (awaits : List Await)
  | done (decision : NetworkDecision)
  | dropped

def Phase.inProgress : Phase Key ι → Bool
  | .done _ | .dropped => false
  | _ => true

/-- The service and its calls. A pending approval is named by its owner; `abandoned` are the owners
that were dropped before their decision. -/
structure System (Key ι : Type*) where
  pending : Key → Option ι := fun _ => none
  decision : ι → Option PendingApprovalDecision := fun _ => none
  phase : ι → Phase Key ι := fun _ => .resolving
  abandoned : List ι := []

/-- A call goes on, or is dropped. -/
inductive Turn (ι : Type*)
  | go (call : ι)
  | drop (call : ι)

open Function

variable [DecidableEq ι]

namespace System

def goto (s : System Key ι) (i : ι) (phase : Phase Key ι) : System Key ι :=
  { s with phase := update s.phase i phase }

/-- `handle_inline_policy_request` goes on by one await. -/
def go [DecidableEq Key] (request : ι → Request Key) (s : System Key ι) (i : ι) : System Key ι :=
  match s.phase i with
  | .resolving =>
    match (request i).key with
    | .error decision => s.goto i (.done decision)
    | .ok key => s.goto i (.joining key)
  | .joining key =>
    match s.pending key with
    | some owner => s.goto i (.waiting key owner)
    | none => { s.goto i (.owning key (request i).awaits) with
        pending := update s.pending key (some i) }
  | .waiting _ owner =>
    match s.decision owner with
    | some decision => s.goto i (.done decision.toNetworkDecision)
    | none => s
  | .owning key (_ :: awaits) => s.goto i (.owning key awaits)
  | .owning key [] => { s.goto i (.removing key) with
      decision := update s.decision i (some (request i).answer.resolved) }
  | .removing key =>
    { s.goto i (.finishing (if (request i).answer matches .refused then (request i).recordOutcome
        else [])) with
      pending := update s.pending key none }
  | .finishing (_ :: awaits) => s.goto i (.finishing awaits)
  | .finishing [] => s.goto i (.done (request i).answer.resolved.toNetworkDecision)
  | .done _ | .dropped => s

def drop (s : System Key ι) (i : ι) : System Key ι :=
  match s.phase i with
  | .done _ | .dropped => s
  | .owning _ _ => { s.goto i .dropped with abandoned := i :: s.abandoned }
  | _ => s.goto i .dropped

end System

def step [DecidableEq Key] (request : ι → Request Key) (s : System Key ι) : Turn ι → System Key ι
  | .go i => s.go request i
  | .drop i => s.drop i

def run [DecidableEq Key] (request : ι → Request Key) (schedule : List (Turn ι)) : System Key ι :=
  schedule.foldl (step request) {}

/-! ### Owners and their approvals -/

/-- What the state holds for a call in a phase. -/
def Holds (s : System Key ι) (i : ι) : Phase Key ι → Prop
  | .resolving | .joining _ =>
    (∀ k, s.pending k ≠ some i) ∧ i ∉ s.abandoned ∧ s.decision i = none
  | .waiting key owner => (∀ k, s.pending k ≠ some i) ∧ i ∉ s.abandoned ∧
      ((s.decision owner).isSome ∨ s.pending key = some owner)
  | .owning key _ =>
    (∀ k, s.pending k = some i ↔ k = key) ∧ i ∉ s.abandoned ∧ s.decision i = none
  | .removing key =>
    (∀ k, s.pending k = some i ↔ k = key) ∧ i ∉ s.abandoned ∧ (s.decision i).isSome
  | .finishing _ | .done _ => (∀ k, s.pending k ≠ some i) ∧ i ∉ s.abandoned
  | .dropped => if i ∈ s.abandoned then s.decision i = none ∧ ∃ k, s.pending k = some i
      else ∀ k, s.pending k = some i → (s.decision i).isSome

def Inv (s : System Key ι) : Prop := ∀ i, Holds s i (s.phase i)

namespace Inv

variable {s t : System Key ι} {i : ι} (h : Inv s)
include h

/-- A step of one call keeps what the others see. -/
lemma of_call (phase : Phase Key ι) (hphase : t.phase = update s.phase i phase)
    (hpending : ∀ k, ∀ j ≠ i, t.pending k = some j ↔ s.pending k = some j)
    (hdecision : ∀ j ≠ i, t.decision j = s.decision j)
    (habandoned : ∀ j ≠ i, j ∈ t.abandoned ↔ j ∈ s.abandoned)
    (hkept : ∀ k, (s.decision i).isSome ∨ s.pending k = some i →
      (t.decision i).isSome ∨ t.pending k = some i) (hi : Holds t i phase) : Inv t := by
  intro j
  by_cases hj : j = i
  · subst hj
    rwa [hphase, update_self]
  · have hholds := h j
    rw [hphase, update_of_ne hj]
    cases hp : s.phase j with
    | waiting key owner =>
      rw [hp] at hholds
      refine ⟨fun k => mt (hpending k j hj).1 (hholds.1 k), mt (habandoned j hj).1 hholds.2.1, ?_⟩
      by_cases howner : owner = i
      · subst howner
        exact hkept key hholds.2.2
      · rw [hdecision owner howner, hpending key owner howner]
        exact hholds.2.2
    | _ =>
      rw [hp] at hholds
      simpa [Holds, hpending _ j hj, hdecision j hj, habandoned j hj] using hholds

lemma goto (phase : Phase Key ι) (hi : Holds s i phase) : Inv (s.goto i phase) :=
  h.of_call phase rfl (fun _ _ _ => Iff.rfl) (fun _ _ => rfl) (fun _ _ => Iff.rfl) (fun _ hk => hk)
    hi

lemma drop (i : ι) : Inv (s.drop i) := by
  have hi := h i
  unfold System.drop
  split
  case h_1 | h_2 => exact h
  case h_3 key awaits hp =>
    rw [hp] at hi
    refine h.of_call .dropped rfl (fun _ _ _ => Iff.rfl) (fun _ _ => rfl) (fun j hj => by simp [hj])
      (fun _ hk => hk) ?_
    simp only [Holds, List.mem_cons_self, if_true]
    exact ⟨hi.2.2, key, (hi.1 key).2 rfl⟩
  case h_4 =>
    refine h.goto .dropped ?_
    cases hp : s.phase i with
    | _ => simp_all [Holds]

variable [DecidableEq Key]

/-- The approval of a key may change if it is nobody else's. -/
lemma setPending {phase : Phase Key ι} {key : Key} {value : Option ι}
    (hold : ∀ j ≠ i, s.pending key ≠ some j) (hnew : ∀ j ≠ i, value ≠ some j)
    (hkept : ∀ k, (s.decision i).isSome ∨ s.pending k = some i → (s.decision i).isSome)
    (hi : Holds { s with pending := update s.pending key value } i phase) :
    Inv { s.goto i phase with pending := update s.pending key value } := by
  refine h.of_call phase rfl (fun k j hj => ?_) (fun _ _ => rfl) (fun _ _ => Iff.rfl)
    (fun k hk => .inl (hkept k hk)) hi
  by_cases hk : k = key
  · subst hk
    simp [hold j hj, hnew j hj]
  · simp [hk]

lemma go (request : ι → Request Key) (i : ι) : Inv (s.go request i) := by
  have hi := h i
  unfold System.go
  split <;> rename_i hp <;> rw [hp] at hi
  case h_1 =>
    split
    · exact h.goto (.done _) ⟨hi.1, hi.2.1⟩
    · exact h.goto (.joining _) hi
  case h_2 key =>
    split
    · next owner howner => exact h.goto (.waiting key owner) ⟨hi.1, hi.2.1, .inr howner⟩
    · next hnone =>
      refine h.setPending (by simp [hnone]) (fun j hj hij => hj (Option.some.inj hij).symm)
        (fun k hk => hk.resolve_right (hi.1 k)) ⟨fun k => ?_, hi.2⟩
      by_cases hk : k = key
      · simp [hk]
      · simp [hk, hi.1 k]
  case h_3 owner =>
    split
    · exact h.goto (.done _) ⟨hi.1, hi.2.1⟩
    · exact h
  case h_4 key await awaits =>
    exact h.goto (.owning key awaits) hi
  case h_5 key =>
    exact h.of_call (.removing key) rfl (fun _ _ _ => Iff.rfl) (fun j hj => update_of_ne hj _ _)
      (fun _ _ => Iff.rfl) (fun k _ => .inl (by simp)) ⟨hi.1, hi.2.1, by simp⟩
  case h_6 key =>
    refine h.setPending (fun j hj hij => ?_) nofun (fun _ _ => hi.2.2) ⟨fun k => ?_, hi.2.1⟩
    · exact hj (Option.some.inj (hij.symm.trans ((hi.1 key).2 rfl)))
    · by_cases hk : k = key
      · simp [hk]
      · simpa [hk] using mt (hi.1 k).1 hk
  case h_7 awaits =>
    exact h.goto (.finishing _) hi
  case h_8 =>
    exact h.goto (.done _) hi
  case h_9 | h_10 => exact h

end Inv

variable [DecidableEq Key]

lemma inv_run (request : ι → Request Key) (schedule : List (Turn ι)) :
    Inv (run request schedule) := by
  refine List.foldlRecOn schedule _ (fun i => ⟨nofun, nofun, rfl⟩) fun s h turn _ => ?_
  cases turn with
  | go i => exact h.go request i
  | drop i => exact h.drop i

/-- **When no host is blocked.**  Every pending approval has its decision or an owner that goes on,
and so has whatever is waited for, if and only if no owner was dropped before its decision. -/
theorem hosts_served_iff (request : ι → Request Key) (schedule : List (Turn ι)) :
    let s := run request schedule
    ((∀ key i, s.pending key = some i → (s.decision i).isSome ∨ (s.phase i).inProgress) ∧
      ∀ i key owner, s.phase i = .waiting key owner →
        (s.decision owner).isSome ∨ (s.phase owner).inProgress) ↔ s.abandoned = [] := by
  intro s
  have h : Inv s := inv_run request schedule
  constructor
  · rintro ⟨hserved, -⟩
    refine List.eq_nil_iff_forall_not_mem.2 fun i hmem => ?_
    have hi := h i
    cases hp : s.phase i with
    | dropped =>
      rw [hp, Holds, if_pos hmem] at hi
      obtain ⟨hnone, key, hpending⟩ := hi
      simpa [hnone, hp, Phase.inProgress] using hserved key i hpending
    | _ => simp_all [Holds]
  · intro hnil
    have hserved : ∀ key i, s.pending key = some i →
        (s.decision i).isSome ∨ (s.phase i).inProgress := by
      intro key i hpending
      have hi := h i
      cases hp : s.phase i with
      | finishing awaits | done decision =>
        rw [hp] at hi
        exact absurd hpending (hi.1 key)
      | dropped =>
        rw [hp, Holds, if_neg (by simp [hnil])] at hi
        exact .inl (hi key hpending)
      | _ => exact .inr rfl
    refine ⟨hserved, fun i key owner hwaiting => ?_⟩
    have hi := h i
    rw [hwaiting] at hi
    exact hi.2.2.elim .inl (hserved key owner)

/-- **At most one call owns the approval of a host.** -/
theorem owner_subsingleton (request : ι → Request Key) (schedule : List (Turn ι)) (key : Key) :
    {i | ∃ awaits, (run request schedule).phase i = .owning key awaits}.Subsingleton := by
  rintro i ⟨_, hi⟩ j ⟨_, hj⟩
  have howns := inv_run request schedule i
  have howns' := inv_run request schedule j
  rw [hi] at howns
  rw [hj] at howns'
  exact Option.some.inj (((howns.1 key).2 rfl).symm.trans ((howns'.1 key).2 rfl))

/-- Requests for one host, which a user would approve. -/
def requests : Fin 2 → Request Unit := fun _ => ⟨.ok (), false, false, .review .approved⟩

/-- The owner is dropped at its review, and a later request waits for it. -/
theorem host_blocked_by_dropped_owner :
    let s := run requests [.go 0, .go 0, .go 0, .drop 0, .go 1, .go 1, .go 1]
    s.pending () = some 0 ∧ s.decision 0 = none ∧ s.phase 0 = .dropped ∧
      s.phase 1 = .waiting () 0 :=
  ⟨rfl, rfl, rfl, rfl⟩

end TokenCode.NetworkApproval
