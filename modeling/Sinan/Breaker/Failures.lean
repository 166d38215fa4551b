import Sinan.Breaker.Invariant

/-!
# Circuit breaker: outcomes that carry an error

Every error fails closed: the breaker stays as it is, and is not closed, or a safety fallback opens
it afresh.  `Answers` is the fact about one outcome; it is shown for every function of a step, and
for `transition` in `transition_answers`.  The same walk says when an audit record is written.
-/

namespace Sinan.Breaker

open Lib CircuitBreakerOutcome

/-- a safety fallback opened the breaker, and nothing of a recovery is left -/
structure SafetyOpened (o : CircuitBreakerOutcome) : Prop where
  transition : o.transition = .safetyFallbackOpened
  status : o.state.status = .open
  reason : o.state.reason = .safetyInvariantViolation
  halfOpened : o.state.halfOpenedAtMs = none
  daily : o.state.halfOpenDailyLossBaselineBps = none
  drawdown : o.state.halfOpenDrawdownBaselineBps = none
  resetAt : o.state.resetAtMs = none
  resetBy : o.state.resetBy = none

structure FailsClosed (s : CircuitBreakerState) (o : CircuitBreakerOutcome) : Prop where
  active : o.state.status ≠ .closed
  unaudited : o.manualResetAudit = none
  count : o.state.blockedIntentCount = s.blockedIntentCount
  change : o.state = s ∨ SafetyOpened o

def TransitionRequest.byOperator : TransitionRequest → Bool
  | .close _ (.operator _) => true
  | _ => false

/-- an error of the outcome satisfies `Q` and fails closed; an audit record is written by a close under
operator authorization only -/
structure Answers (Q : CircuitBreakerError → Prop) (s : CircuitBreakerState) (r : TransitionRequest)
    (o : CircuitBreakerOutcome) : Prop where
  failure : ∀ e, o.error = some e → Q e ∧ FailsClosed s o
  audit : o.manualResetAudit.isSome ↔ o.transition = .closed ∧ r.byOperator

section
variable {Q : CircuitBreakerError → Prop} {s : CircuitBreakerState} {r : TransitionRequest}
  {t : Int} {e : CircuitBreakerError}

/-! ## the exits of a step -/

theorem Answers.silent {o : CircuitBreakerOutcome} (herror : o.error = none)
    (haudit : o.manualResetAudit = none) (htransition : o.transition ≠ .closed) :
    Answers Q s r o where
  failure := fun e he => by rw [herror] at he; cases he
  audit := by
    rw [haudit]
    exact ⟨fun h => (by cases h), fun h => absurd h.1 htransition⟩

theorem Answers.unchanged (s : CircuitBreakerState) : Answers Q s r (unchanged s) :=
  .silent rfl rfl (fun h => (by cases h))

theorem Answers.refused {o : CircuitBreakerOutcome} (hstate : o.state = s)
    (htransition : o.transition = .noChange) (haudit : o.manualResetAudit = none)
    (hactive : s.status ≠ .closed) (hQ : ∀ e, o.error = some e → Q e) : Answers Q s r o where
  failure := fun e he => ⟨hQ e he, ⟨by rw [hstate]; exact hactive, haudit, by rw [hstate],
    .inl hstate⟩⟩
  audit := by
    rw [haudit, htransition]
    exact ⟨fun h => (by cases h), fun h => (by cases h.1)⟩

theorem Answers.withError (hactive : s.status ≠ .closed) (hQ : Q e) :
    Answers Q s r (withError s e) :=
  .refused rfl rfl rfl hactive fun _ he => by cases he; exact hQ

theorem recoveryEpochOverflow_failsClosed (s : CircuitBreakerState) (t : Int) :
    FailsClosed s (recoveryEpochOverflow s t) :=
  ⟨fun h => (by cases h), rfl, rfl, .inr ⟨rfl, rfl, rfl, rfl, rfl, rfl, rfl, rfl⟩⟩

theorem openBreaker_answers (hQ : Q .recoveryEpochOverflow) {vs : List CircuitBreakerViolation}
    (hne : vs ≠ []) (fp : CircuitBreakerIncidentFingerprint) (reopened : Bool) :
    Answers Q s r (openBreaker s vs hne fp t reopened) := by
  unfold openBreaker
  split
  · refine ⟨fun e he => ?_, ⟨fun h => (by cases h), fun h => (by cases h.1)⟩⟩
    cases he
    exact ⟨hQ, recoveryEpochOverflow_failsClosed s t⟩
  · refine .silent rfl rfl ?_
    cases reopened <;> exact fun h => (by cases h)

theorem fallbackOpened_answers (hoverflow : Q .recoveryEpochOverflow) (hQ : Q e)
    (fp : CircuitBreakerIncidentFingerprint) (reopened : Bool)
    (hne : [CircuitBreakerViolation.safetyInvariantViolation] ≠ []) :
    Answers Q s r (asSafetyFallback
      (openBreaker s [.safetyInvariantViolation] hne fp t reopened) e) := by
  unfold openBreaker
  split
  · unfold asSafetyFallback
    rw [if_pos (show (recoveryEpochOverflow s t).error = some .recoveryEpochOverflow from rfl)]
    refine ⟨fun e he => ?_, ⟨fun h => (by cases h), fun h => (by cases h.1)⟩⟩
    cases he
    exact ⟨hoverflow, recoveryEpochOverflow_failsClosed s t⟩
  · unfold asSafetyFallback
    rw [if_neg (fun h => (by cases h))]
    refine ⟨fun e he => ?_, ⟨fun h => (by cases h), fun h => (by cases h.1)⟩⟩
    cases he
    exact ⟨hQ, fun h => (by cases h), rfl, rfl, .inr ⟨rfl, rfl, rfl, rfl, rfl, rfl, rfl, rfl⟩⟩

theorem safetyFallback_answers (hoverflow : Q .recoveryEpochOverflow) (hQ : Q e) :
    Answers Q s r (safetyFallback s t e) := by
  unfold safetyFallback
  dsimp only
  split
  case isTrue hopen =>
    split
    · exact fallbackOpened_answers hoverflow hQ _ _ _
    · refine .refused rfl rfl rfl ?_ fun _ he => by cases he; exact hQ
      rw [hopen]
      exact fun h => by cases h
  case isFalse => exact fallbackOpened_answers hoverflow hQ _ _ _

end

/-! ## errors that are not about the policy -/

/-- an error of a request or of the clock -/
def NotPolicy (e : CircuitBreakerError) : Prop
    := ∀ field requirement, e ≠ .invalidPolicy field requirement

theorem validateNonBlank_notPolicy {field value : String} {e : CircuitBreakerError}
    (h : validateNonBlank field value = .error e) : NotPolicy e := by
  unfold validateNonBlank at h
  split at h
  · cases h
    exact fun _ _ h => by cases h
  · cases h

theorem collectViolations_notPolicy {p : CircuitBreakerPolicy} {input : CircuitBreakerInput}
    {t : Int} {e : CircuitBreakerError} (h : collectViolations p input t = .error e) :
    NotPolicy e := by
  simp only [collectViolations, bind_error, pure, Except.pure, reduceCtorEq, and_false, exists_false,
    or_false] at h
  rcases h with h | ⟨_, -, h⟩
  · unfold validateManualTrigger at h
    split at h
    · cases h
    · rcases bind_error.mp h with h | ⟨_, -, h⟩
      · exact validateNonBlank_notPolicy h
      · exact validateNonBlank_notPolicy h
  · unfold timeSyncViolations at h
    split at h
    · cases h
    · split at h
      · cases h
        exact fun _ _ h => by cases h
      · split at h
        · cases h
          exact fun _ _ h => by cases h
        · cases h

theorem filterHalfOpenViolations_notPolicy {s : CircuitBreakerState}
    {all : List CircuitBreakerViolation} {input : CircuitBreakerInput} {e : CircuitBreakerError}
    (h : filterHalfOpenViolations s all input = .error e) : NotPolicy e := by
  unfold filterHalfOpenViolations at h
  split at h
  · cases h
  · cases h
    exact fun _ _ h => by cases h

theorem missingPrerequisites_notPolicy {triggeredAtMs t : Int} {e : CircuitBreakerError}
    {evidence : List (String × Option Int × RecoveryPrerequisite)}
    (h : missingPrerequisites triggeredAtMs t evidence = .error e) : NotPolicy e := by
  induction evidence with
  | nil => cases h
  | cons first rest ih =>
    obtain ⟨field, observedAtMs, prerequisite⟩ := first
    unfold missingPrerequisites at h
    split at h
    · cases h
      exact fun _ _ h => by cases h
    · rcases bind_error.mp h with h | ⟨_, -, h⟩
      · exact ih h
      · cases h

variable {authorization : ResetAuthorization}

theorem resetAuthority_notPolicy {p : CircuitBreakerPolicy} {t : Int} {e : CircuitBreakerError}
    (h : resetAuthority p authorization t = .error e) :
    NotPolicy e := by
  cases authorization with
  | automatic =>
    unfold resetAuthority at h
    dsimp only at h
    split at h
    · cases h
    · cases h
      exact fun _ _ h => by cases h
  | operator evidence =>
    rcases bind_error.mp h with h | ⟨_, -, h⟩
    · unfold validateManualResetEvidence at h
      split at h
      · cases h
        exact fun _ _ h => by cases h
      · cases h
    · cases h

theorem resetAuthority_audit {p : CircuitBreakerPolicy} {t : Int} {resetBy : String}
    {audit : Option ManualResetAuditRecord} (health : RecoveryHealth)
    (h : resetAuthority p authorization t = .ok (resetBy, audit)) :
    audit.isSome = (TransitionRequest.close health authorization).byOperator := by
  cases authorization with
  | automatic =>
    unfold resetAuthority at h
    dsimp only at h
    split at h
    · cases h
      rfl
    · cases h
  | operator evidence =>
    obtain ⟨_, -, h⟩ := bind_ok.mp h
    cases h
    rfl

/-! ## the requests -/

section
variable {p : CircuitBreakerPolicy} {s : CircuitBreakerState} {t : Int}

theorem notPolicy_overflow : NotPolicy .recoveryEpochOverflow := fun _ _ h => (by cases h)

theorem observe_answers (r : TransitionRequest) (input : CircuitBreakerInput) :
    Answers NotPolicy s r (observe p s input t) := by
  unfold observe
  split
  case h_1 e he => exact safetyFallback_answers notPolicy_overflow (collectViolations_notPolicy he)
  case h_2 vs hvs =>
    dsimp only
    split
    · split
      · exact .silent rfl rfl (fun h => (by cases h))
      · exact openBreaker_answers notPolicy_overflow _ _ _
    · unfold observeHalfOpen
      split
      case h_1 e he =>
        exact safetyFallback_answers notPolicy_overflow (filterHalfOpenViolations_notPolicy he)
      case h_2 =>
        split
        · exact .unchanged s
        · exact openBreaker_answers notPolicy_overflow _ _ _
    · split
      · split
        · exact .silent rfl rfl (fun h => (by cases h))
        · exact .silent rfl rfl (fun h => (by cases h))
      · split
        · exact .silent rfl rfl (fun h => (by cases h))
        · exact openBreaker_answers notPolicy_overflow _ _ _

theorem admitHalfOpen_answers (r : TransitionRequest) (readiness : HalfOpenReadiness)
    (input : CircuitBreakerInput) (violations : List CircuitBreakerViolation)
    (hactive : s.status ≠ .closed) :
    Answers NotPolicy s r (admitHalfOpen s readiness input violations t) := by
  unfold admitHalfOpen
  split
  · exact safetyFallback_answers notPolicy_overflow (fun _ _ h => (by cases h))
  · split
    · exact .withError hactive (fun _ _ h => (by cases h))
    · split
      case h_1 e he =>
        exact safetyFallback_answers notPolicy_overflow (missingPrerequisites_notPolicy he)
      case h_2 =>
        split
        · exact .withError hactive (fun _ _ h => (by cases h))
        · exact .silent rfl rfl (fun h => (by cases h))

theorem enterHalfOpen_answers (r : TransitionRequest) (readiness : HalfOpenReadiness)
    (input : CircuitBreakerInput) :
    Answers NotPolicy s r (enterHalfOpen p s readiness input t) := by
  unfold enterHalfOpen
  split
  · exact .unchanged s
  · exact observe_answers r input
  case h_3 hopen =>
    have hactive : s.status ≠ .closed := by
      rw [hopen]
      exact fun h => by cases h
    split
    case h_1 e he => exact safetyFallback_answers notPolicy_overflow (collectViolations_notPolicy he)
    case h_2 =>
      dsimp only
      split
      · exact openBreaker_answers notPolicy_overflow _ _ _
      · split
        · refine .refused rfl rfl rfl hactive fun _ he => ?_
          cases he
          exact fun _ _ h => by cases h
        · exact admitHalfOpen_answers r readiness input _ hactive

theorem finishClose_answers (health : RecoveryHealth) (authorization : ResetAuthorization)
    (hactive : s.status ≠ .closed) :
    Answers NotPolicy s (.close health authorization) (finishClose p s authorization t) := by
  unfold finishClose
  split
  · exact safetyFallback_answers notPolicy_overflow (fun _ _ h => (by cases h))
  · dsimp only
    split
    · exact .withError hactive (fun _ _ h => (by cases h))
    · split
      case h_1 e he => exact .withError hactive (resetAuthority_notPolicy he)
      case h_2 resetBy audit hauthority =>
        refine ⟨fun e he => (by cases he), ?_⟩
        show audit.isSome = true ↔ _
        rw [resetAuthority_audit health hauthority]
        exact ⟨fun h => ⟨rfl, h⟩, fun h => h.2⟩

theorem close_answers (health : RecoveryHealth) (authorization : ResetAuthorization) :
    Answers NotPolicy s (.close health authorization) (close p s health authorization t) := by
  unfold close
  split
  · exact .unchanged s
  case h_2 hopen =>
    refine .withError ?_ (fun _ _ h => (by cases h))
    rw [hopen]
    exact fun h => by cases h
  case h_3 hhalf =>
    have hactive : s.status ≠ .closed := by
      rw [hhalf]
      exact fun h => by cases h
    split
    case h_1 e he =>
      rcases bind_error.mp he with he | ⟨_, -, he⟩
      · exact safetyFallback_answers notPolicy_overflow (collectViolations_notPolicy he)
      · exact safetyFallback_answers notPolicy_overflow (filterHalfOpenViolations_notPolicy he)
    case h_2 =>
      dsimp only
      split
      · exact openBreaker_answers notPolicy_overflow _ _ _
      · split
        · exact .withError hactive (fun _ _ h => (by cases h))
        · exact finishClose_answers health authorization hactive

theorem dispatch_answers (r : TransitionRequest) : Answers NotPolicy s r (dispatch p s r t) := by
  cases r with
  | observe input => exact observe_answers _ input
  | enterHalfOpen readiness input => exact enterHalfOpen_answers _ readiness input
  | close health authorization => exact close_answers health authorization
  | recordBlockedIntentCount observedTotal =>
    unfold dispatch recordBlockedIntentCount
    dsimp only
    split
    · exact .unchanged s
    · exact .silent rfl rfl (fun h => (by cases h))

end

/-! ## the step -/

theorem transition_answers (p : CircuitBreakerPolicy) (s : CircuitBreakerState)
    (r : TransitionRequest) (t : Int) :
    Answers (fun e => NotPolicy e ∨ p.validate ≠ .ok ()) s r (transition p s r t) := by
  have hweak : ∀ {o}, Answers NotPolicy s r o → Answers (fun e => NotPolicy e ∨ p.validate ≠ .ok ()) s r o :=
    fun h => ⟨fun e he => ⟨.inl (h.failure e he).1, (h.failure e he).2⟩, h.audit⟩
  unfold transition
  split
  · exact hweak (safetyFallback_answers notPolicy_overflow (fun _ _ h => (by cases h)))
  · split
    case h_1 e he =>
      refine safetyFallback_answers (.inl notPolicy_overflow) (.inr ?_)
      rw [he]
      exact fun h => by cases h
    case h_2 =>
      split
      · exact hweak (dispatch_answers r)
      · split
        · exact hweak (safetyFallback_answers notPolicy_overflow (fun _ _ h => (by cases h)))
        · exact hweak (dispatch_answers r)

/-- An outcome with an error leaves the breaker active, unaudited and with its count; the state is the
old one or that of a safety fallback.  An audit record is produced exactly by a close that an operator
authorized. -/
theorem errors_fail_closed (p : CircuitBreakerPolicy) (s : CircuitBreakerState)
    (r : TransitionRequest) (t : Int) :
    ((transition p s r t).error.isSome → FailsClosed s (transition p s r t)) ∧
    ((transition p s r t).manualResetAudit.isSome ↔
      (transition p s r t).transition = .closed ∧
        ∃ health evidence, r = .close health (.operator evidence)) := by
  have h := transition_answers p s r t
  constructor
  · intro herror
    obtain ⟨e, he⟩ := Option.isSome_iff_exists.mp herror
    exact (h.failure e he).2
  · rw [h.audit]
    refine and_congr_right fun _ => ?_
    cases r with
    | close health authorization =>
      cases authorization with
      | operator evidence => exact ⟨fun _ => ⟨health, evidence, rfl⟩, fun _ => rfl⟩
      | automatic => exact ⟨fun h => (by cases h), by rintro ⟨_, _, h⟩; cases h⟩
    | observe input => exact ⟨fun h => (by cases h), by rintro ⟨_, _, h⟩; cases h⟩
    | enterHalfOpen readiness input => exact ⟨fun h => (by cases h), by rintro ⟨_, _, h⟩; cases h⟩
    | recordBlockedIntentCount n => exact ⟨fun h => (by cases h), by rintro ⟨_, _, h⟩; cases h⟩

/-- a negative clock: the new breaker is opened by a fallback -/
theorem errors_fail_closed_negative_clock :
    (transition impatientPolicy .new (.observe {}) (-1)).error.isSome ∧
      FailsClosed .new (transition impatientPolicy .new (.observe {}) (-1)) :=
  ⟨by decide, (errors_fail_closed impatientPolicy .new (.observe {}) (-1)).1 (by decide)⟩

end Sinan.Breaker
