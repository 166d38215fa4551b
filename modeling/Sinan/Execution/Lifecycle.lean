import Mathlib.Data.List.ReduceOption
import Sinan.Execution.State
import Sinan.Lib.Run

/-!
# Command lifecycle: runs

`commandEffect` inverts `transitionCommand` once: the state is returned unchanged, a receipt is
recorded, or the status moves along the table.  From it, `Advances` relates any two states of a run
(a preorder), and a measure that every applied transition raises bounds how many there can be.
-/

namespace Sinan.Execution

open Lib

section
variable {F : Type}

/-! ## the state validation, read as a conjunction -/

/-- what `validate_command_state` accepts -/
structure ValidState (command : ExecutionCommand F) (s : ExecutionCommandState) : Prop where
  identity : validateCommandIdentity command = .ok ()
  commandId : s.commandId = command.commandId
  accountId : s.accountId = command.accountId
  planId : s.planId = command.planId
  legId : s.legId = command.legId
  created : 0 ≤ s.createdAt
  updated : s.createdAt ≤ s.updatedAt
  expiry : s.createdAt < command.expiresAt
  completed : commandStatusIsTerminal s.status = s.completedAt.isSome
  window : ∀ t ∈ lifecycleTimestamps s, s.createdAt ≤ t ∧ t ≤ s.updatedAt
  pristine : s.status = .created → s.deliveryAttempts = 0 ∧ s.dispatchedAt = none ∧
    s.commandReceivedAt = none ∧ s.reconcilingAt = none
  attempts : s.dispatchedAt.isSome = decide (s.deliveryAttempts > 0)
  dispatch : requiresDispatch s.status = true → s.dispatchedAt.isSome = true
  deliveryError : s.status = .deliveryUnconfirmed → missingText s.lastDeliveryError = false
  reconciling : requiresReconciliation s.status = true → s.reconcilingAt.isSome = true
  receipt : requiresReceipt s.status = true → s.commandReceivedAt.isSome = true

theorem not_required {b c : Bool} : ¬ (b = true ∧ c = true) ↔ (b = true → c = false) := by
  cases b <;> cases c <;> decide

theorem isNone_false {α : Type} {o : Option α} : o.isNone = false ↔ o.isSome = true := by
  cases o with
  | none => exact ⟨fun h => (by cases h), fun h => (by cases h)⟩
  | some a => exact ⟨fun _ => rfl, fun _ => rfl⟩

variable {command : ExecutionCommand F} {s : ExecutionCommandState}

theorem validateCommandState_ok :
    validateCommandState command s = .ok () ↔ ValidState command s := by
  unfold validateCommandState
  simp only [bind_ok, exists_unit, reject_ok, each_ok, not_or, not_not, Int.not_lt, not_required,
    isNone_false, gt_iff_lt, Int.not_le]
  constructor
  · rintro ⟨h1, ⟨h2, h3, h4, h5⟩, ⟨h6, h7⟩, h8, h9, h10, h11, h12, h13, h14, h15, h16⟩
    refine ⟨h1, h2, h3, h4, h5, h6, h7, h8, h9, h10, fun hc => ?_, h12, h13, fun hd => ?_, h15, h16⟩
    · simpa [hc] using h11
    · simpa [hd] using h14
  · intro h
    refine ⟨h.identity, ⟨h.commandId, h.accountId, h.planId, h.legId⟩, ⟨h.created, h.updated⟩,
      h.expiry, h.completed, h.window, ?_, h.attempts, h.dispatch, ?_, h.reconciling, h.receipt⟩
    · rintro ⟨hc, hlater⟩
      obtain ⟨h1, h2, h3, h4⟩ := h.pristine hc
      simp [h1, h2, h3, h4] at hlater
    · rintro ⟨hd, hmissing⟩
      rw [h.deliveryError hd] at hmissing
      cases hmissing

theorem mem_lifecycleTimestamps {t : Int} :
    t ∈ lifecycleTimestamps s ↔ s.dispatchedAt = some t ∨ s.commandReceivedAt = some t ∨
      s.reconcilingAt = some t ∨ s.completedAt = some t := by
  simp only [lifecycleTimestamps, List.reduceOption_mem_iff, List.mem_cons, List.not_mem_nil,
    or_false, eq_comm (a := some t)]

theorem ValidState.persisted (h : ValidState command s) {createdAt : Int}
    (hc : s.createdAt = createdAt) :
    validatePersistedCommandState s ⟨command, createdAt⟩ = .ok () := by
  have hwindow : ∀ o : Option Int, (∀ t, o = some t → t ∈ lifecycleTimestamps s) →
      ¬ (o.any fun t => t < s.createdAt || t > s.updatedAt) = true := by
    intro o ho
    cases o with
    | none => exact Bool.false_ne_true
    | some t =>
      have := h.window t (ho t rfl)
      simp only [Option.any_some, Bool.or_eq_true, decide_eq_true_eq]
      omega
  simp only [validatePersistedCommandState, bind_ok, exists_unit, reject_ok, each_ok, not_or,
    not_not, Int.not_lt, persistedTimestamps, List.mem_cons, List.not_mem_nil, or_false,
    forall_eq_or_imp, forall_eq]
  refine ⟨⟨h.commandId, h.accountId, h.planId, h.legId, hc⟩, ⟨h.created, h.updated⟩, ?_, ?_, ?_, ?_⟩
  · exact hwindow _ fun t ht => mem_lifecycleTimestamps.mpr (.inl ht)
  · exact hwindow _ fun t ht => mem_lifecycleTimestamps.mpr (.inr (.inl ht))
  · exact hwindow _ fun t ht => mem_lifecycleTimestamps.mpr (.inr (.inr (.inl ht)))
  · exact hwindow _ fun t ht => mem_lifecycleTimestamps.mpr (.inr (.inr (.inr ht)))

/-! ## the effect of one call -/

/-- the status of a state after a receipt: the table's, or the stronger one it already has -/
def receiptMoves (s : ExecutionCommandState) (target : ExecutionCommandStatus) : Prop :=
  target = .commandReceived ∧ transitionIsAllowed s.status .commandReceived = true ∨
  target = s.status ∧ transitionIsAllowed s.status .commandReceived = false ∧
    acceptsLateReceipt s.status = true

theorem nextVersion_ok {t v : Int} (h : nextVersion s t = .ok v) :
    s.updatedAt < v := by
  simp only [nextVersion, bind_ok, need_ok, pure_ok] at h
  obtain ⟨w, hw, rfl⟩ := h
  have := checkedAdd_some hw
  omega

variable [F64 F] {evidence : CommandEvidence F} {claim : ExecutionCommandStatus × Int}

theorem evidenceTarget_ok :
    evidenceTarget command evidence = .ok claim ↔
      evidenceClaim command evidence = .ok claim ∧ 0 ≤ claim.2 := by
  simp only [evidenceTarget, bind_ok, exists_unit, reject_ok, pure_ok, Int.not_lt]
  constructor
  · rintro ⟨a, ha, hpos, rfl⟩
    exact ⟨ha, hpos⟩
  · rintro ⟨ha, hpos⟩
    exact ⟨claim, ha, hpos, rfl⟩

omit [F64 F] in
/-- the status each kind of evidence claims -/
def claimedStatus : CommandEvidence F → ExecutionCommandStatus
  | .dispatched _ => .dispatched
  | .deliveryUnconfirmed _ _ => .deliveryUnconfirmed
  | .beginReconciliation _ => .reconciling
  | .requireManualReconciliation _ => .manualReconciliationRequired
  | .receivedRecorded _ | .receivedDuplicateKnownSamePayload _ => .commandReceived
  | .executionEvent event => eventStatus event.status
  | .expire _ => .expired
  | .cancel _ => .cancelled

theorem evidenceClaim_status (h : evidenceClaim command evidence = .ok claim) :
    claim.1 = claimedStatus evidence := by
  cases evidence <;> simp only [evidenceClaim, bind_ok, exists_unit, pure_ok] at h
  case dispatched => rw [← h.2]; rfl
  case receivedRecorded => rw [← h.2.2]; rfl
  case receivedDuplicateKnownSamePayload => rw [← h.2]; rfl
  case executionEvent => rw [← h.2]; rfl
  case expire => rw [← h.2]; rfl
  all_goals rw [← h]; rfl

theorem evidenceTarget_status (h : evidenceTarget command evidence = .ok claim) :
    claim.1 = claimedStatus evidence :=
  evidenceClaim_status (evidenceTarget_ok.mp h).1

theorem evidenceTarget_receipt {received : CommandReceived}
    (h : evidenceTarget command evidence = .ok claim)
    (hr : receiptEvidence evidence = some received) : claim.1 = .commandReceived := by
  have htarget := evidenceTarget_status h
  cases evidence <;> first | exact htarget | cases hr

/-- what an applied transition did to the state -/
inductive Applied (command : ExecutionCommand F) (s : ExecutionCommandState)
    (evidence : CommandEvidence F) : ExecutionCommandState → Prop where
  | receipt (received : CommandReceived) (target : ExecutionCommandStatus) (version : Int)
      (isReceipt : receiptEvidence evidence = some received)
      (missing : s.commandReceivedAt = none) (newer : s.updatedAt < version)
      (moves : receiptMoves s target) :
      Applied command s evidence
        { s with status := target, commandReceivedAt := some received.receivedAt,
                 updatedAt := version }
  | advance (target : ExecutionCommandStatus) (version evidenceAt : Int)
      (recorded : ExecutionCommandState) (noReceipt : receiptEvidence evidence = none)
      (claim : evidenceTarget command evidence = .ok (target, evidenceAt))
      (newer : s.updatedAt < version)
      (allowed : transitionIsAllowed s.status target = true)
      (records : recordEvidence { s with status := target, updatedAt := version } evidence
        = .ok recorded) :
      Applied command s evidence (completeAt recorded evidenceAt)

/-- why a call repeats the state: its receipt is recorded already, or its status is reached -/
def Repeats (s : ExecutionCommandState) (evidence : CommandEvidence F) : Prop :=
  (receiptEvidence evidence).isSome = true ∧ s.commandReceivedAt.isSome = true ∨
  receiptEvidence evidence = none ∧ claimedStatus evidence = s.status

/-- the inversion of `transition_command`: a returned outcome repeats the state, or applies the
evidence to it and leaves a valid state -/
theorem commandEffect {o : CommandTransitionOutcome}
    (h : transitionCommand command s evidence = .ok o) :
    ValidState command s ∧ (o = .duplicate s ∧ Repeats s evidence ∨ ∃ s', o = .applied s' ∧
      Applied command s evidence s' ∧ ValidState command s') := by
  simp only [transitionCommand, bind_ok, exists_unit, validateCommandState_ok] at h
  obtain ⟨hvalid, ⟨target, evidenceAt⟩, hclaim, -, -, h⟩ := h
  refine ⟨hvalid, ?_⟩
  split at h
  case h_1 received hreceipt =>
    obtain rfl : target = .commandReceived := evidenceTarget_receipt hclaim hreceipt
    simp only [applyReceiptEvidence, bind_ok, exists_unit] at h
    obtain ⟨-, h⟩ := h
    split at h
    case h_1 recordedAt hrecorded =>
      simp only [bind_ok, exists_unit, pure_ok] at h
      exact .inl ⟨h.2.symm, .inl ⟨by rw [hreceipt]; rfl, by rw [hrecorded]; rfl⟩⟩
    case h_2 hnone =>
      split at h
      case isTrue hallowed =>
        simp only [bind_ok, exists_unit, pure_ok, validateCommandState_ok] at h
        obtain ⟨version, hversion, hnext, rfl⟩ := h
        exact .inr ⟨_, rfl, .receipt received .commandReceived version hreceipt hnone
          (nextVersion_ok hversion) (.inl ⟨rfl, hallowed⟩), hnext⟩
      case isFalse hrefused =>
        split at h
        case isTrue hlate =>
          simp only [bind_ok, exists_unit, pure_ok, validateCommandState_ok] at h
          obtain ⟨version, hversion, hnext, rfl⟩ := h
          exact .inr ⟨_, rfl, .receipt received s.status version hreceipt hnone
            (nextVersion_ok hversion) (.inr ⟨rfl, Bool.eq_false_iff.mpr hrefused, hlate⟩), hnext⟩
        case isFalse => cases h
  case h_2 hreceipt =>
    simp only [advanceCommand, bind_ok, exists_unit] at h
    obtain ⟨-, h⟩ := h
    split at h
    case isTrue hsame =>
      have htarget : target = claimedStatus evidence := evidenceTarget_status hclaim
      exact .inl ⟨(pure_ok.mp h).symm, .inr ⟨hreceipt, htarget.symm.trans hsame⟩⟩
    case isFalse =>
      simp only [bind_ok, exists_unit, reject_ok, pure_ok, validateCommandState_ok,
        Bool.not_eq_false] at h
      obtain ⟨-, hallowed, version, hversion, recorded, hrecorded, hnext, rfl⟩ := h
      exact .inr ⟨_, rfl, .advance target version evidenceAt recorded hreceipt hclaim
        (nextVersion_ok hversion) hallowed hrecorded, hnext⟩

end

/-! ## the order of the statuses -/

/-- every edge of the table goes up -/
def statusRank : ExecutionCommandStatus → Nat
  | .created => 0
  | .dispatched => 1
  | .deliveryUnconfirmed => 2
  | .reconciling => 3
  | .manualReconciliationRequired => 4
  | .commandReceived => 5
  | .accepted => 6
  | .orderSent => 7
  | .partiallyFilled => 8
  | .deliveryFailed | .rejected | .filled | .failed | .expired | .cancelled => 9

theorem statusRank_lt {a b : ExecutionCommandStatus} (h : transitionIsAllowed a b = true) :
    statusRank a < statusRank b := by
  revert h
  cases a <;> cases b <;> decide

theorem statusRank_le (a : ExecutionCommandStatus) : statusRank a ≤ 9 := by
  cases a <;> decide

theorem not_terminal_of_allowed {a b : ExecutionCommandStatus}
    (h : transitionIsAllowed a b = true) : commandStatusIsTerminal a = false := by
  revert h
  cases a <;> cases b <;> decide

/-- `s'` is `s` or a later state of the same command -/
structure Advances (s s' : ExecutionCommandState) : Prop where
  commandId : s'.commandId = s.commandId
  accountId : s'.accountId = s.accountId
  planId : s'.planId = s.planId
  legId : s'.legId = s.legId
  createdAt : s'.createdAt = s.createdAt
  rank : statusRank s.status ≤ statusRank s'.status
  status : statusRank s'.status = statusRank s.status → s'.status = s.status
  dispatchedAt : ∀ t, s.dispatchedAt = some t → s'.dispatchedAt = some t
  commandReceivedAt : ∀ t, s.commandReceivedAt = some t → s'.commandReceivedAt = some t
  reconcilingAt : ∀ t, s.reconcilingAt = some t → s'.reconcilingAt = some t
  completedAt : ∀ t, s.completedAt = some t → s'.completedAt = some t
  terminal : commandStatusIsTerminal s.status = true →
    s' = { s with commandReceivedAt := s'.commandReceivedAt, updatedAt := s'.updatedAt }
  updatedAt : s.updatedAt ≤ s'.updatedAt

theorem advances_refl (s : ExecutionCommandState) : Advances s s where
  commandId := rfl
  accountId := rfl
  planId := rfl
  legId := rfl
  createdAt := rfl
  rank := Nat.le_refl _
  status := fun _ => rfl
  dispatchedAt := fun _ => id
  commandReceivedAt := fun _ => id
  reconcilingAt := fun _ => id
  completedAt := fun _ => id
  terminal := fun _ => rfl
  updatedAt := Int.le_refl _

theorem advances_trans {a b c : ExecutionCommandState} (hab : Advances a b) (hbc : Advances b c) :
    Advances a c where
  commandId := hbc.commandId.trans hab.commandId
  accountId := hbc.accountId.trans hab.accountId
  planId := hbc.planId.trans hab.planId
  legId := hbc.legId.trans hab.legId
  createdAt := hbc.createdAt.trans hab.createdAt
  rank := Nat.le_trans hab.rank hbc.rank
  status := by
    intro h
    have h1 := hab.rank
    have h2 := hbc.rank
    rw [hbc.status (by omega), hab.status (by omega)]
  dispatchedAt := fun t h => hbc.dispatchedAt t (hab.dispatchedAt t h)
  commandReceivedAt := fun t h => hbc.commandReceivedAt t (hab.commandReceivedAt t h)
  reconcilingAt := fun t h => hbc.reconcilingAt t (hab.reconcilingAt t h)
  completedAt := fun t h => hbc.completedAt t (hab.completedAt t h)
  terminal := by
    intro h
    have hb := hab.terminal h
    have hstatus : b.status = a.status := by rw [hb]
    have hc := hbc.terminal (by rw [hstatus]; exact h)
    rw [hc, hb]
  updatedAt := Int.le_trans hab.updatedAt hbc.updatedAt

/-! ## one call -/

section
variable {F : Type}

/-- how much of its life a command has behind it: the rank, and one more for a recorded receipt -/
def progress (s : ExecutionCommandState) : Nat :=
  statusRank s.status + if s.commandReceivedAt.isSome then 1 else 0

theorem progress_le (s : ExecutionCommandState) : progress s ≤ 10 := by
  have := statusRank_le s.status
  unfold progress
  split <;> omega

variable {s : ExecutionCommandState} {evidence : CommandEvidence F} {r : ExecutionCommandState}

theorem recordEvidence_frame (h : recordEvidence s evidence = .ok r) :
    r.commandId = s.commandId ∧ r.accountId = s.accountId ∧ r.planId = s.planId ∧
      r.legId = s.legId ∧ r.createdAt = s.createdAt ∧ r.status = s.status ∧
      r.updatedAt = s.updatedAt ∧ r.completedAt = s.completedAt := by
  cases evidence <;> simp only [recordEvidence, bind_ok, exists_unit, pure_ok] at h
  case dispatched => obtain ⟨_, -, rfl⟩ := h; exact ⟨rfl, rfl, rfl, rfl, rfl, rfl, rfl, rfl⟩
  case deliveryUnconfirmed => obtain ⟨-, rfl⟩ := h; exact ⟨rfl, rfl, rfl, rfl, rfl, rfl, rfl, rfl⟩
  all_goals subst h; exact ⟨rfl, rfl, rfl, rfl, rfl, rfl, rfl, rfl⟩

theorem recordEvidence_dispatch (h : recordEvidence s evidence = .ok r) :
    r.deliveryAttempts = s.deliveryAttempts ∧ r.dispatchedAt = s.dispatchedAt ∨
      claimedStatus evidence = .dispatched ∧ r.deliveryAttempts = s.deliveryAttempts + 1 := by
  cases evidence <;> simp only [recordEvidence, bind_ok, exists_unit, pure_ok] at h
  case dispatched =>
    obtain ⟨attempts, hattempts, rfl⟩ := h
    rw [need_ok, checkedSuccU32] at hattempts
    split at hattempts
    · exact .inr ⟨rfl, (Option.some.inj hattempts).symm⟩
    · cases hattempts
  case deliveryUnconfirmed => obtain ⟨-, rfl⟩ := h; exact .inl ⟨rfl, rfl⟩
  all_goals subst h; exact .inl ⟨rfl, rfl⟩

theorem recordEvidence_keeps (h : recordEvidence s evidence = .ok r) :
    (∀ t, s.commandReceivedAt = some t → r.commandReceivedAt = some t) ∧
      (∀ t, s.reconcilingAt = some t → r.reconcilingAt = some t) := by
  cases evidence <;> simp only [recordEvidence, bind_ok, exists_unit, pure_ok] at h
  case dispatched => obtain ⟨_, -, rfl⟩ := h; exact ⟨fun _ => id, fun _ => id⟩
  case deliveryUnconfirmed => obtain ⟨-, rfl⟩ := h; exact ⟨fun _ => id, fun _ => id⟩
  case beginReconciliation | requireManualReconciliation =>
    subst h
    exact ⟨fun _ => id, fun t ht => by simp [ht]⟩
  case receivedRecorded | receivedDuplicateKnownSamePayload =>
    subst h
    exact ⟨fun t ht => by simp [ht], fun _ => id⟩
  all_goals subst h; exact ⟨fun _ => id, fun _ => id⟩

theorem completeAt_frame (s : ExecutionCommandState) (t : Int) :
    (completeAt s t).commandId = s.commandId ∧ (completeAt s t).accountId = s.accountId ∧
      (completeAt s t).planId = s.planId ∧ (completeAt s t).legId = s.legId ∧
      (completeAt s t).createdAt = s.createdAt ∧ (completeAt s t).status = s.status ∧
      (completeAt s t).updatedAt = s.updatedAt ∧
      (completeAt s t).deliveryAttempts = s.deliveryAttempts ∧
      (completeAt s t).dispatchedAt = s.dispatchedAt ∧
      (completeAt s t).commandReceivedAt = s.commandReceivedAt ∧
      (completeAt s t).reconcilingAt = s.reconcilingAt := by
  unfold completeAt
  split <;> exact ⟨rfl, rfl, rfl, rfl, rfl, rfl, rfl, rfl, rfl, rfl, rfl⟩

theorem isSome_mono {α : Type} {a b : Option α} (h : ∀ t, a = some t → b = some t) :
    a.isSome = true → b.isSome = true := by
  intro ha
  obtain ⟨t, ht⟩ := Option.isSome_iff_exists.mp ha
  rw [h t ht]
  rfl

/-- what an applied call does, beside the order of states -/
structure StepSpec (s s' : ExecutionCommandState) : Prop where
  advances : Advances s s'
  newer : s.updatedAt < s'.updatedAt
  progress : progress s < progress s'
  attempts : s.deliveryAttempts ≤ 1 → s'.deliveryAttempts ≤ 1

theorem stepSpec_receipt (received : CommandReceived) (target : ExecutionCommandStatus)
    (version : Int) (missing : s.commandReceivedAt = none) (newer : s.updatedAt < version)
    (moves : receiptMoves s target) :
    StepSpec s { s with status := target, commandReceivedAt := some received.receivedAt,
                        updatedAt := version } := by
  have hrank : statusRank s.status ≤ statusRank target := by
    rcases moves with ⟨rfl, hallowed⟩ | ⟨rfl, -, -⟩
    · exact Nat.le_of_lt (statusRank_lt hallowed)
    · exact Nat.le_refl _
  have hstatus : statusRank target = statusRank s.status → target = s.status := by
    intro h
    rcases moves with ⟨rfl, hallowed⟩ | ⟨rfl, -, -⟩
    · have := statusRank_lt hallowed
      omega
    · rfl
  have hterminal : commandStatusIsTerminal s.status = true → target = s.status := by
    intro h
    rcases moves with ⟨rfl, hallowed⟩ | ⟨rfl, -, -⟩
    · rw [not_terminal_of_allowed hallowed] at h
      cases h
    · rfl
  refine ⟨⟨rfl, rfl, rfl, rfl, rfl, hrank, hstatus, fun _ => id, fun t h => ?_, fun _ => id,
    fun _ => id, fun h => ?_, Int.le_of_lt newer⟩, newer, ?_, id⟩
  · rw [missing] at h
    cases h
  · rw [hterminal h]
  · show statusRank s.status + (if s.commandReceivedAt.isSome then 1 else 0) < statusRank target + 1
    rw [missing]
    show statusRank s.status + 0 < statusRank target + 1
    omega

variable [F64 F] {command : ExecutionCommand F}

theorem stepSpec_advance (hs : ValidState command s) {target : ExecutionCommandStatus}
    {version evidenceAt : Int} {recorded : ExecutionCommandState}
    (claim : evidenceTarget command evidence = .ok (target, evidenceAt))
    (newer : s.updatedAt < version) (allowed : transitionIsAllowed s.status target = true)
    (records : recordEvidence { s with status := target, updatedAt := version } evidence
      = .ok recorded) :
    StepSpec s (completeAt recorded evidenceAt) := by
  obtain ⟨c1, c2, c3, c4, c5, c6, c7, c8, c9, c10, c11⟩ := completeAt_frame recorded evidenceAt
  obtain ⟨r1, r2, r3, r4, r5, r6, r7, r8⟩ := recordEvidence_frame records
  obtain ⟨hreceived, hreconciling⟩ := recordEvidence_keeps records
  have htarget : target = claimedStatus evidence := evidenceTarget_status claim
  have hlt := statusRank_lt allowed
  have hstatus : (completeAt recorded evidenceAt).status = target := c6.trans r6
  have hrunning := not_terminal_of_allowed allowed
  -- a dispatch starts from CREATED, where nothing is recorded yet
  have hdispatch : recorded.deliveryAttempts = s.deliveryAttempts ∧
      recorded.dispatchedAt = s.dispatchedAt ∨
      s.deliveryAttempts = 0 ∧ s.dispatchedAt = none ∧ recorded.deliveryAttempts = 1 := by
    rcases recordEvidence_dispatch records with h | ⟨hd, hattempts⟩
    · exact .inl h
    · have hcreated : s.status = .created := by
        rw [htarget, hd] at allowed
        cases hst : s.status <;> rw [hst] at allowed <;> first | rfl | cases allowed
      obtain ⟨hzero, hnone, -, -⟩ := hs.pristine hcreated
      have hone : recorded.deliveryAttempts = s.deliveryAttempts + 1 := hattempts
      exact .inr ⟨hzero, hnone, by omega⟩
  refine ⟨⟨c1.trans r1, c2.trans r2, c3.trans r3, c4.trans r4, c5.trans r5, ?_, ?_, fun t h => ?_,
    fun t h => c10.trans (hreceived t h), fun t h => c11.trans (hreconciling t h), fun t h => ?_,
    fun h => ?_, ?_⟩, ?_, ?_, fun h => ?_⟩
  · rw [hstatus]; omega
  · intro h
    rw [hstatus] at h
    omega
  · rw [c9]
    rcases hdispatch with ⟨-, hsame⟩ | ⟨-, hnone, -⟩
    · rw [hsame, h]
    · rw [hnone] at h
      cases h
  · have hcompleted := hs.completed
    rw [hrunning, h] at hcompleted
    cases hcompleted
  · rw [hrunning] at h
    cases h
  · rw [c7, r7]; exact Int.le_of_lt newer
  · rw [c7, r7]; exact newer
  · have hkept : s.commandReceivedAt.isSome = true →
        (completeAt recorded evidenceAt).commandReceivedAt.isSome = true :=
      isSome_mono fun t h => c10.trans (hreceived t h)
    unfold progress
    rw [hstatus]
    split
    case isTrue h => rw [if_pos (hkept h)]; omega
    case isFalse => omega
  · rw [c8]
    rcases hdispatch with ⟨hsame, -⟩ | ⟨-, -, hone⟩ <;> omega

theorem applied_stepSpec {s' : ExecutionCommandState} (hs : ValidState command s)
    (h : Applied command s evidence s') : StepSpec s s' := by
  cases h with
  | receipt received target version isReceipt missing newer moves =>
    exact stepSpec_receipt received target version missing newer moves
  | advance target version evidenceAt recorded noReceipt claim newer allowed records =>
    exact stepSpec_advance hs claim newer allowed records

/-! ## runs -/

/-- the state after one call, errors skipped -/
def commandStep (command : ExecutionCommand F) (s : ExecutionCommandState)
    (evidence : CommandEvidence F) : ExecutionCommandState :=
  match transitionCommand command s evidence with
  | .ok outcome => outcome.state
  | .error _ => s

/-- the call returns an applied outcome -/
def isApplied (command : ExecutionCommand F) (s : ExecutionCommandState)
    (evidence : CommandEvidence F) : Bool :=
  match transitionCommand command s evidence with
  | .ok (.applied _) => true
  | _ => false

/-- the invariant of a run -/
structure Alive (command : ExecutionCommand F) (createdAt : Int) (s : ExecutionCommandState) :
    Prop where
  valid : ValidState command s
  created : s.createdAt = createdAt
  attempts : s.deliveryAttempts ≤ 1

theorem commandStep_cases (command : ExecutionCommand F) (s : ExecutionCommandState)
    (evidence : CommandEvidence F) :
    commandStep command s evidence = s ∧ isApplied command s evidence = false ∨
      StepSpec s (commandStep command s evidence) ∧
        ValidState command (commandStep command s evidence) := by
  unfold commandStep isApplied
  cases h : transitionCommand command s evidence with
  | error e => exact .inl ⟨rfl, rfl⟩
  | ok o =>
    obtain ⟨hs, ⟨rfl, -⟩ | ⟨s', rfl, happlied, hvalid⟩⟩ := commandEffect h
    · exact .inl ⟨rfl, rfl⟩
    · exact .inr ⟨applied_stepSpec hs happlied, hvalid⟩

theorem commandStep_advances (command : ExecutionCommand F) (s : ExecutionCommandState)
    (evidence : CommandEvidence F) : Advances s (commandStep command s evidence) := by
  rcases commandStep_cases command s evidence with ⟨h, -⟩ | ⟨h, -⟩
  · rw [h]; exact advances_refl s
  · exact h.advances

variable {createdAt : Int}

theorem commandStep_alive (h : Alive command createdAt s) (evidence : CommandEvidence F) :
    Alive command createdAt (commandStep command s evidence) := by
  rcases commandStep_cases command s evidence with ⟨hsame, -⟩ | ⟨hstep, hvalid⟩
  · rw [hsame]; exact h
  · exact ⟨hvalid, hstep.advances.createdAt.trans h.created, hstep.attempts h.attempts⟩

omit [F64 F] in
theorem initialCommandState_alive (h : initialCommandState command createdAt = .ok s) :
    Alive command createdAt s := by
  simp only [initialCommandState, bind_ok, exists_unit, pure_ok, validateCommandState_ok] at h
  obtain ⟨-, -, hvalid, rfl⟩ := h
  exact ⟨hvalid, rfl, Nat.zero_le 1⟩

theorem countApplied_le {s₀ : ExecutionCommandState} (hstart : Alive command createdAt s₀)
    (evidence : List (CommandEvidence F)) :
    countAlong (commandStep command) (isApplied command) s₀ evidence ≤ 10 := by
  have hcount := countAlong_le (commandStep command) (p := isApplied command)
    (P := Alive command createdAt) progress 10 (fun s e h => commandStep_alive h e)
    (fun s e _ => ?_) (fun s e _ happlied => ?_) progress_le s₀ evidence hstart
  · omega
  · rcases commandStep_cases command s e with ⟨h, -⟩ | ⟨h, -⟩
    · rw [h]
    · exact Nat.le_of_lt h.progress
  · rcases commandStep_cases command s e with ⟨-, h⟩ | ⟨h, -⟩
    · rw [h] at happlied
      cases happlied
    · exact h.progress

/-- Every run of a command from its initial state: all states are valid, for the lifecycle and for the
store; an applied call raises `updated_at`, any other call leaves the state alone; any two states are
in order (`Advances`), so a status once left does not return; and at most ten calls apply. -/
theorem command_run_lifecycle (command : ExecutionCommand F) (createdAt : Int)
    (s₀ : ExecutionCommandState) (start : initialCommandState command createdAt = .ok s₀)
    (evidence : List (CommandEvidence F)) :
    (∀ k, validateCommandState command (before (commandStep command) s₀ evidence k) = .ok () ∧
      validatePersistedCommandState (before (commandStep command) s₀ evidence k)
        ⟨command, createdAt⟩ = .ok () ∧
      (before (commandStep command) s₀ evidence k).deliveryAttempts ≤ 1) ∧
    (∀ k e s', evidence[k]? = some e →
      transitionCommand command (before (commandStep command) s₀ evidence k) e = .ok (.applied s') →
      (before (commandStep command) s₀ evidence k).updatedAt < s'.updatedAt ∧
      before (commandStep command) s₀ evidence (k + 1) = s') ∧
    (∀ k e s', evidence[k]? = some e →
      transitionCommand command (before (commandStep command) s₀ evidence k) e
        = .ok (.duplicate s') →
      s' = before (commandStep command) s₀ evidence k ∧
      before (commandStep command) s₀ evidence (k + 1)
        = before (commandStep command) s₀ evidence k) ∧
    (∀ k e err, evidence[k]? = some e →
      transitionCommand command (before (commandStep command) s₀ evidence k) e = .error err →
      before (commandStep command) s₀ evidence (k + 1)
        = before (commandStep command) s₀ evidence k) ∧
    (∀ i k, i ≤ k → Advances (before (commandStep command) s₀ evidence i)
      (before (commandStep command) s₀ evidence k)) ∧
    (∀ i j k, i ≤ j → j ≤ k →
      (before (commandStep command) s₀ evidence j).status
        ≠ (before (commandStep command) s₀ evidence i).status →
      (before (commandStep command) s₀ evidence k).status
        ≠ (before (commandStep command) s₀ evidence i).status) ∧
    countAlong (commandStep command) (isApplied command) s₀ evidence ≤ 10 := by
  have hstart := initialCommandState_alive start
  have halive : ∀ k, Alive command createdAt (before (commandStep command) s₀ evidence k) :=
    before_invariant (commandStep command) s₀ evidence hstart
      fun s e h => commandStep_alive h e
  have horder : ∀ i k, i ≤ k → Advances (before (commandStep command) s₀ evidence i)
      (before (commandStep command) s₀ evidence k) := fun i k hik =>
    before_related (commandStep command) advances_refl advances_trans s₀ evidence hik
      fun _ e _ _ => commandStep_advances command _ e
  refine ⟨fun k => ⟨validateCommandState_ok.mpr (halive k).valid,
      (halive k).valid.persisted (halive k).created, (halive k).attempts⟩,
    fun k e s' he h => ?_, fun k e s' he h => ?_, fun k e err he h => ?_, horder,
    fun i j k hij hjk hleft => ?_, ?_⟩
  · obtain ⟨hs, ⟨hdup, -⟩ | ⟨s'', heq, happlied, -⟩⟩ := commandEffect h
    · cases hdup
    · cases heq
      refine ⟨(applied_stepSpec hs happlied).newer, ?_⟩
      rw [before_succ _ s₀ he, commandStep, h]
      rfl
  · obtain ⟨hs, ⟨hdup, -⟩ | ⟨s'', heq, -, -⟩⟩ := commandEffect h
    · cases hdup
      refine ⟨rfl, ?_⟩
      rw [before_succ _ s₀ he, commandStep, h]
      rfl
    · cases heq
  · rw [before_succ _ s₀ he, commandStep, h]
  · -- the rank went up when the status was left, and it never comes down
    intro hback
    have hij' := horder i j hij
    have hjk' := (horder j k hjk).rank
    have hrank := hij'.rank
    rw [hback] at hjk'
    exact hleft (hij'.status (by omega))
  · exact countApplied_le hstart evidence

end

/-! ## a command whose receipt comes after its first reconciliation -/

/-- a market order with exact numbers -/
def sampleCommand : ExecutionCommand ℚ where
  commandId := "cmd"
  planId := some "plan"
  legId := some "leg"
  strategyId := "strategy"
  accountId := "account"
  terminalId := none
  clientId := none
  symbol := "EURUSD"
  brokerSymbol := none
  action := .buy
  orderType := some .market
  lots := some 1
  price := none
  sl := none
  tp := none
  deviationPoints := none
  magic := 7
  comment := none
  positionTicket := none
  brokerOrderId := none
  fillingPolicy := none
  timePolicy := none
  expirationTime := none
  expiresAt := 1000
  idempotencyKey := "key"
  hmac := "mac"

def sampleReceipt (receivedAt : Int) : CommandReceived where
  commandId := "cmd"
  idempotencyKey := "key"
  accountId := "account"
  terminalId := none
  clientId := none
  receivedAt := receivedAt
  inboxStatus := .recorded

def sampleEvent (status : ExecutionEventStatus) (eventAt : Int) (filledAt : Option Int) :
    ExecutionEvent ℚ where
  executionId := "execution"
  commandId := "cmd"
  planId := some "plan"
  legId := some "leg"
  accountId := "account"
  terminalId := none
  clientId := none
  symbol := "EURUSD"
  brokerSymbol := none
  status := status
  brokerOrderId := none
  brokerDealId := none
  positionTicket := none
  idempotencyKey := none
  requestedLots := none
  fillPrice := none
  filledLots := filledAt.map fun _ => 1
  remainingLots := none
  eventAt := eventAt
  filledAt := filledAt
  brokerFilledAt := none
  errorCode := none
  message := none

def sampleState : ExecutionCommandState where
  commandId := "cmd"
  accountId := "account"
  planId := some "plan"
  legId := some "leg"
  status := .created
  deliveryAttempts := 0
  lastDeliveryError := none
  createdAt := 10
  dispatchedAt := none
  commandReceivedAt := none
  reconcilingAt := none
  completedAt := none
  updatedAt := 10

def sampleEvidence : List (CommandEvidence ℚ) :=
  [.dispatched 20, .deliveryUnconfirmed 30 "timeout", .beginReconciliation 40,
   .executionEvent (sampleEvent .filled 60 (some 50)), .receivedRecorded (sampleReceipt 25),
   .cancel 70]

/-- five of the six calls apply, and the filled command only gains its late receipt -/
theorem command_run_lifecycle_sample :
    countAlong (commandStep sampleCommand) (isApplied sampleCommand) sampleState sampleEvidence = 5 ∧
      (before (commandStep sampleCommand) sampleState sampleEvidence 6).status = .filled ∧
      (before (commandStep sampleCommand) sampleState sampleEvidence 6).commandReceivedAt = some 25 ∧
      validateCommandState sampleCommand
        (before (commandStep sampleCommand) sampleState sampleEvidence 6) = .ok () := by
  refine ⟨by decide +kernel, by decide +kernel, by decide +kernel, ?_⟩
  exact ((command_run_lifecycle sampleCommand 10 sampleState (by decide +kernel)
    sampleEvidence).1 6).1

end Sinan.Execution
