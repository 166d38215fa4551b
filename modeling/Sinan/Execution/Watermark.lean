import Sinan.Execution.Lifecycle
import Sinan.Risk.Prepare

/-!
# Versions and watermarks

`updated_at` is both the time of the last evidence and the version of the state: an applied call raises
it by one at least.  With evidence no later than some time it stays within the number of applied calls
of that time, and a watermark covers the state exactly when it has reached that version.
-/

set_option linter.unusedSectionVars false

namespace Sinan.Execution

open Lib

section
variable {F : Type}

/-- the time a piece of evidence carries -/
def evidenceTime : CommandEvidence F → Int
  | .dispatched time | .deliveryUnconfirmed time _ | .beginReconciliation time
  | .requireManualReconciliation time | .expire time | .cancel time => time
  | .receivedRecorded received | .receivedDuplicateKnownSamePayload received => received.receivedAt
  | .executionEvent event => event.eventAt

variable {evidence : CommandEvidence F} {s : ExecutionCommandState}

theorem receiptEvidence_time {received : CommandReceived}
    (h : receiptEvidence evidence = some received) :
    received.receivedAt = evidenceTime evidence := by
  cases evidence with
  | receivedRecorded r | receivedDuplicateKnownSamePayload r =>
    cases h
    rfl
  | dispatched | deliveryUnconfirmed | beginReconciliation | requireManualReconciliation
  | executionEvent | expire | cancel => exact (nomatch h)

theorem nextVersion_eq {t v : Int} (h : nextVersion s t = .ok v) :
    v = max (s.updatedAt + 1) t := by
  simp only [nextVersion, bind_ok, need_ok, pure_ok] at h
  obtain ⟨w, hw, rfl⟩ := h
  rw [checkedAdd_some hw]

variable [F64 F] {command : ExecutionCommand F}

theorem evidenceTarget_time {claim : ExecutionCommandStatus × Int}
    (h : evidenceTarget command evidence = .ok claim) :
    claim.2 = evidenceTime evidence := by
  have hclaim := (evidenceTarget_ok.mp h).1
  cases evidence <;> simp only [evidenceClaim, bind_ok, exists_unit, pure_ok] at hclaim
  case dispatched => rw [← hclaim.2]; rfl
  case receivedRecorded => rw [← hclaim.2.2]; rfl
  case receivedDuplicateKnownSamePayload => rw [← hclaim.2]; rfl
  case executionEvent => rw [← hclaim.2]; rfl
  case expire => rw [← hclaim.2]; rfl
  all_goals rw [← hclaim]; rfl

theorem applied_version {s' : ExecutionCommandState}
    (h : transitionCommand command s evidence = .ok (.applied s')) :
    s'.updatedAt = max (s.updatedAt + 1) (evidenceTime evidence) := by
  simp only [transitionCommand, bind_ok, exists_unit] at h
  obtain ⟨-, claim, hclaim, -, -, h⟩ := h
  split at h
  case h_1 received hreceipt =>
    have htime := receiptEvidence_time hreceipt
    simp only [applyReceiptEvidence, bind_ok, exists_unit] at h
    obtain ⟨-, h⟩ := h
    split at h
    case h_1 =>
      simp only [bind_ok, exists_unit, pure_ok] at h
      exact (nomatch h.2)
    case h_2 =>
      split at h
      case isTrue =>
        simp only [bind_ok, exists_unit, pure_ok] at h
        obtain ⟨version, hversion, -, hnext⟩ := h
        cases hnext
        rw [← htime]
        exact nextVersion_eq hversion
      case isFalse =>
        split at h
        case isTrue =>
          simp only [bind_ok, exists_unit, pure_ok] at h
          obtain ⟨version, hversion, -, hnext⟩ := h
          cases hnext
          rw [← htime]
          exact nextVersion_eq hversion
        case isFalse => exact (nomatch h)
  case h_2 =>
    simp only [advanceCommand, bind_ok, exists_unit] at h
    obtain ⟨-, h⟩ := h
    split at h
    case isTrue => exact (nomatch (pure_ok.mp h))
    case isFalse =>
      simp only [bind_ok, exists_unit, pure_ok] at h
      obtain ⟨-, -, version, hversion, recorded, hrecorded, -, hnext⟩ := h
      cases hnext
      obtain ⟨-, -, -, -, -, -, hcompleted, -⟩ := completeAt_frame recorded claim.2
      obtain ⟨-, -, -, -, -, -, hkept, -⟩ := recordEvidence_frame hrecorded
      rw [hcompleted, hkept, ← evidenceTarget_time hclaim]
      exact nextVersion_eq hversion

theorem commandStep_version (command : ExecutionCommand F) (s : ExecutionCommandState)
    (evidence : CommandEvidence F) :
    (commandStep command s evidence).updatedAt =
      if isApplied command s evidence then max (s.updatedAt + 1) (evidenceTime evidence)
      else s.updatedAt := by
  unfold commandStep isApplied
  cases h : transitionCommand command s evidence with
  | error e => rfl
  | ok o =>
    obtain ⟨-, ⟨rfl, -⟩ | ⟨s', rfl, -, -⟩⟩ := commandEffect h
    · rfl
    · exact applied_version h

theorem terminal_eq (status : ExecutionCommandStatus) :
    Risk.commandStateIsTerminal status = commandStatusIsTerminal status := by
  cases status <;> rfl

theorem coveredCommand_iff (h : ValidState command s) (request : Risk.RiskRequest F) :
    Risk.validateCommandStateTime request s = .ok () ↔
      s.updatedAt ≤ request.stateWatermarks.pendingCommandsReconciledAt := by
  simp only [Risk.validateCommandStateTime, bind_ok, exists_unit, reject_ok, each_ok, not_or, not_lt,
    gt_iff_lt, terminal_eq, ne_eq, not_not]
  constructor
  · rintro ⟨-, ⟨-, -, hcovered⟩, -⟩
    exact hcovered
  · intro hcovered
    refine ⟨h.completed, ⟨h.created, h.updated, hcovered⟩, fun t ht => h.window t ?_⟩
    exact ht

theorem initialCommandState_version {createdAt : Int}
    (h : initialCommandState command createdAt = .ok s) :
    s.updatedAt = createdAt := by
  simp only [initialCommandState, bind_ok, exists_unit, pure_ok] at h
  obtain ⟨-, -, -, rfl⟩ := h
  rfl

theorem version_le {s₀ : ExecutionCommandState} {evidence : List (CommandEvidence F)} {T : Int}
    (hstart : s₀.updatedAt ≤ T) (hevidence : ∀ e ∈ evidence, evidenceTime e ≤ T) (k : Nat) :
    (before (commandStep command) s₀ evidence k).updatedAt ≤
      T + countAlong (commandStep command) (isApplied command) s₀ (evidence.take k) := by
  induction k with
  | zero => exact hstart.trans (le_add_of_nonneg_right (Int.natCast_nonneg _))
  | succ k ih =>
    cases he : evidence[k]? with
    | none =>
      have htake : evidence.take (k + 1) = evidence.take k := by
        rw [List.take_add_one, he, Option.toList_none, List.append_nil]
      rw [before_past _ _ he, htake]
      exact ih
    | some e =>
      have htime := hevidence e (List.mem_of_getElem? he)
      rw [before_succ _ _ he, countAlong_take_succ _ _ he, commandStep_version]
      split
      case isTrue =>
        push_cast
        omega
      case isFalse =>
        push_cast
        omega

/-- With evidence no later than `T` a state is at most as many applied calls past `T`, at most ten; a
call leaves it at `T` exactly when it met a version below `T`; and a watermark covers it from its
version on. -/
theorem command_run_version (command : ExecutionCommand F) (createdAt : Int)
    (s₀ : ExecutionCommandState) (start : initialCommandState command createdAt = .ok s₀)
    (evidence : List (CommandEvidence F)) (T : Int) (hcreated : createdAt ≤ T)
    (hevidence : ∀ e ∈ evidence, evidenceTime e ≤ T) (k : Nat) :
    (before (commandStep command) s₀ evidence k).updatedAt ≤
        T + countAlong (commandStep command) (isApplied command) s₀ (evidence.take k) ∧
      countAlong (commandStep command) (isApplied command) s₀ (evidence.take k) ≤ 10 ∧
      (∀ e s', evidence[k]? = some e →
        transitionCommand command (before (commandStep command) s₀ evidence k) e = .ok (.applied s') →
        (s'.updatedAt ≤ T ↔ (before (commandStep command) s₀ evidence k).updatedAt < T)) ∧
      ∀ request : Risk.RiskRequest F,
        Risk.validateCommandStateTime request (before (commandStep command) s₀ evidence k) = .ok () ↔
          (before (commandStep command) s₀ evidence k).updatedAt
            ≤ request.stateWatermarks.pendingCommandsReconciledAt := by
  have hstart := initialCommandState_alive start
  have halive : Alive command createdAt (before (commandStep command) s₀ evidence k) :=
    before_invariant (commandStep command) s₀ evidence hstart (fun _ e h => commandStep_alive h e) k
  refine ⟨?_, countApplied_le hstart _, fun e s' he h => ?_, fun request => coveredCommand_iff halive.valid request⟩
  · exact version_le (initialCommandState_version start ▸ hcreated) hevidence k
  · have htime := hevidence e (List.mem_of_getElem? he)
    rw [applied_version h]
    omega

end

/-! ## evidence of one millisecond -/

/-- created and dispatched at 10, a command has version 11, which a watermark of 10 does not cover -/
theorem dispatch_outruns_watermark :
    initialCommandState sampleCommand 10 = .ok sampleState ∧
    (∃ s, transitionCommand sampleCommand sampleState (.dispatched 10) = .ok (.applied s) ∧
      s.updatedAt = 11 ∧
      Risk.validateCommandStateTime { Risk.goldRequest with
        stateWatermarks := { Risk.goldRequest.stateWatermarks with pendingCommandsReconciledAt := 10 } } s
        ≠ .ok ()) := by
  refine ⟨by decide +kernel, _, rfl, by decide +kernel, by decide +kernel⟩

theorem sample_run_version :
    (before (commandStep sampleCommand) sampleState sampleEvidence 6).updatedAt ≤ 70 + 5 :=
  (command_run_version sampleCommand 10 sampleState (by decide +kernel) sampleEvidence 70 (by decide)
    (by decide) 6).1.trans (by decide +kernel)

end Sinan.Execution
