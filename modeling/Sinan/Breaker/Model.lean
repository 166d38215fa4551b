import Mathlib
import Sinan.Types.Basic

/-!
# Circuit breaker: data model

The types of the global hard-risk circuit breaker: policy, durable state, telemetry input,
requests, violations, the incident fingerprint and the errors an outcome carries.  The caller
owns persistence and the clock, so nothing here reads the time: `serverNowMs` is an argument of
every step.
-/

namespace Sinan.Breaker

/-! ## policy, status, reason -/

/-- configuration of the breaker; `u32` thresholds are natural numbers -/
structure CircuitBreakerPolicy where
  maxDailyRealizedLossBps : Nat
  maxEquityDrawdownBps : Nat
  maxConsecutiveBrokerRejections : Nat
  maxConsecutiveCommandFailures : Nat
  maxTimeSyncUnhealthyMs : Int
  maxConsecutiveSnapshotStale : Nat
  maxConsecutiveSymbolMetadataStale : Nat
  halfOpenObservationMs : Int
  autoReset : Bool
  deriving DecidableEq

inductive CircuitBreakerStatus where
  | closed
  | «open»
  | halfOpen
  deriving DecidableEq

def CircuitBreakerStatus.isActive : CircuitBreakerStatus → Bool
  | .closed => false
  | _ => true

inductive CircuitBreakerReason where
  | ok
  | dailyRealizedLossLimit
  | equityDrawdownLimit
  | consecutiveBrokerRejections
  | consecutiveCommandFailures
  | manualReconciliationRequired
  | storeRecoveryReconciliationPending
  | timeSyncUnhealthy
  | snapshotStale
  | symbolMetadataStale
  | manualTrigger
  | hardRiskViolationDuringRecovery
  | safetyInvariantViolation
  deriving DecidableEq

/-- component or operator that caused the current incident -/
inductive CircuitBreakerTriggerSource where
  | riskTelemetry
  | broker
  | execution
  | reconciliation
  | storeRecovery
  | clock
  | snapshotHealth
  | operator (id : String)
  | safetyInvariant
  deriving DecidableEq

/-! ## errors -/

inductive RecoveryPrerequisite where
  | accountRefresh
  | positionRefresh
  | orderRefresh
  | symbolMetadataRefresh
  | pendingCommandReconciliation
  | clockHealth
  | stateStoreHealth
  deriving DecidableEq

inductive TransitionRequestKind where
  | observe
  | enterHalfOpen
  | close
  | recordBlockedIntentCount
  deriving DecidableEq

/-- timestamp fields checked against the server clock during durable restore -/
inductive CircuitBreakerSnapshotTimestamp where
  | triggeredAt
  | incidentEvidenceClearedAt
  | halfOpenedAt
  | resetAt
  deriving DecidableEq

inductive CircuitBreakerSnapshotInvariant where
  | recoveryEpochExhausted
  | initialStateHasIncidentData
  | incidentStateMissingTrigger
  | triggerPresentWithoutRecoveryEpoch
  | statusReasonMismatch
  | activeStateHasResetData
  | closedStateMissingResetData
  | resetIdentityIncomplete
  | resetByBlank
  | halfOpenRecoveryDataIncomplete
  | halfOpenRecoveryDataOutsideHalfOpen
  | fingerprintEmpty
  | fingerprintDuplicateEvidence
  | fingerprintPrimaryReasonMismatch
  | fingerprintPrimarySourceMismatch
  | fingerprintAndEvidenceClearedCoexist
  | activeStateMissingFingerprintOrClearEvidence
  | timestampNegative
  | timestampOrderInvalid
  | triggerSourceBlank
  | fingerprintTextBlank
  deriving DecidableEq

/-- why a durable snapshot could not be restored -/
inductive CircuitBreakerRestoreFailure where
  | missingSnapshot
  | corruptPayload
  | unsupportedSchemaVersion (found : String)
  | invalidSnapshot (invariant : CircuitBreakerSnapshotInvariant)
  | snapshotTimestampInFuture (field : CircuitBreakerSnapshotTimestamp)
      (timestampMs serverNowMs : Int)
  | invalidServerTime (serverNowMs : Int)
  | storeUnavailable
  deriving DecidableEq

inductive CircuitBreakerError where
  | invalidPolicy (field requirement : String)
  | invalidInput (field requirement : String)
  | serverTimeRegressed (latestTransitionAtMs serverNowMs : Int)
  | invalidTransition (status : CircuitBreakerStatus) (request : TransitionRequestKind)
  | recoveryPrerequisitesMissing (missing : List RecoveryPrerequisite)
  | recoveryEpochMismatch (expected observed : Nat)
  | recoveryBlockedByViolations (reasons : List CircuitBreakerReason)
  | halfOpenObservationNotComplete (remainingMs : Int)
  | automaticResetDisabled
  | manualResetEvidenceMissing (field : String)
  | halfOpenBaselineMissing
  | recoveryEpochOverflow
  | durableRestoreFailed (failure : CircuitBreakerRestoreFailure)
  deriving DecidableEq

/-- The source keeps an owned copy of the error inside a fingerprint, constructor for constructor
and text for text; with `&'static str` and `String` both `String` here, it is the error itself. -/
abbrev CircuitBreakerErrorFingerprint := CircuitBreakerError

/-! ## violations and the incident fingerprint -/

/-- exact trigger evidence handed to audit adapters -/
inductive CircuitBreakerViolation where
  | dailyRealizedLoss (observedBps thresholdBps : Nat)
  | dailyRealizedLossWorsened (baselineBps observedBps : Nat)
  | equityDrawdown (observedBps thresholdBps : Nat)
  | equityDrawdownWorsened (baselineBps observedBps : Nat)
  | consecutiveBrokerRejections (observed threshold : Nat)
  | consecutiveCommandFailures (observed threshold : Nat)
  | manualReconciliationRequired (count : Nat)
  | storeRecoveryReconciliationPending
  | timeSyncUnhealthy (unhealthyForMs thresholdMs : Int)
  | snapshotStale (consecutiveCount threshold : Nat)
  | symbolMetadataStale (consecutiveCount threshold : Nat)
  | manualTrigger (operatorId reason : String)
  | hardRiskViolationDuringRecovery
  | safetyInvariantViolation
  deriving DecidableEq

/-- One piece of evidence behind an incident epoch.  Time-sync evidence keeps the start of the
unhealthy period, not its growing duration, so that polling the same fault is idempotent. -/
inductive CircuitBreakerIncidentEvidence where
  | dailyRealizedLoss (observedBps thresholdBps : Nat)
  | dailyRealizedLossWorsened (baselineBps observedBps : Nat)
  | equityDrawdown (observedBps thresholdBps : Nat)
  | equityDrawdownWorsened (baselineBps observedBps : Nat)
  | consecutiveBrokerRejections (observed threshold : Nat)
  | consecutiveCommandFailures (observed threshold : Nat)
  | manualReconciliationRequired (count : Nat)
  | storeRecoveryReconciliationPending
  | timeSyncUnhealthy (unhealthySinceMs : Option Int) (thresholdMs : Int)
  | snapshotStale (consecutiveCount threshold : Nat)
  | symbolMetadataStale (consecutiveCount threshold : Nat)
  | manualTrigger (operatorId reason : String)
  | hardRiskViolationDuringRecovery
  | safetyInvariantViolation
  | safetyInvariantError (error : CircuitBreakerErrorFingerprint)
  deriving DecidableEq

abbrev CircuitBreakerIncidentFingerprint := List CircuitBreakerIncidentEvidence

def CircuitBreakerViolation.reason : CircuitBreakerViolation → CircuitBreakerReason
  | .dailyRealizedLoss .. | .dailyRealizedLossWorsened .. => .dailyRealizedLossLimit
  | .equityDrawdown .. | .equityDrawdownWorsened .. => .equityDrawdownLimit
  | .consecutiveBrokerRejections .. => .consecutiveBrokerRejections
  | .consecutiveCommandFailures .. => .consecutiveCommandFailures
  | .manualReconciliationRequired .. => .manualReconciliationRequired
  | .storeRecoveryReconciliationPending => .storeRecoveryReconciliationPending
  | .timeSyncUnhealthy .. => .timeSyncUnhealthy
  | .snapshotStale .. => .snapshotStale
  | .symbolMetadataStale .. => .symbolMetadataStale
  | .manualTrigger .. => .manualTrigger
  | .hardRiskViolationDuringRecovery => .hardRiskViolationDuringRecovery
  | .safetyInvariantViolation => .safetyInvariantViolation

def CircuitBreakerViolation.source : CircuitBreakerViolation → CircuitBreakerTriggerSource
  | .dailyRealizedLoss .. | .dailyRealizedLossWorsened ..
  | .equityDrawdown .. | .equityDrawdownWorsened .. => .riskTelemetry
  | .consecutiveBrokerRejections .. => .broker
  | .consecutiveCommandFailures .. | .hardRiskViolationDuringRecovery => .execution
  | .manualReconciliationRequired .. => .reconciliation
  | .storeRecoveryReconciliationPending => .storeRecovery
  | .timeSyncUnhealthy .. => .clock
  | .snapshotStale .. | .symbolMetadataStale .. => .snapshotHealth
  | .manualTrigger operatorId _ => .operator operatorId
  | .safetyInvariantViolation => .safetyInvariant

/-- the two capital-loss limits, which a recovery may keep at their half-open baseline -/
def CircuitBreakerViolation.isLossLimit : CircuitBreakerViolation → Bool
  | .dailyRealizedLoss .. | .equityDrawdown .. => true
  | _ => false

def CircuitBreakerViolation.isDailyRealizedLoss : CircuitBreakerViolation → Bool
  | .dailyRealizedLoss .. => true
  | _ => false

def CircuitBreakerViolation.isEquityDrawdown : CircuitBreakerViolation → Bool
  | .equityDrawdown .. => true
  | _ => false

/-! ## state -/

/-- durable state of the breaker -/
structure CircuitBreakerState where
  recoveryEpoch : Nat
  status : CircuitBreakerStatus
  reason : CircuitBreakerReason
  triggeredAtMs : Option Int
  triggeredBy : Option CircuitBreakerTriggerSource
  lastIncidentFingerprint : Option CircuitBreakerIncidentFingerprint
  incidentEvidenceClearedAtMs : Option Int
  halfOpenedAtMs : Option Int
  halfOpenDailyLossBaselineBps : Option Nat
  halfOpenDrawdownBaselineBps : Option Nat
  resetAtMs : Option Int
  resetBy : Option String
  blockedIntentCount : Nat
  deriving DecidableEq

/-- `CircuitBreakerState::new` -/
def CircuitBreakerState.new : CircuitBreakerState where
  recoveryEpoch := 0
  status := .closed
  reason := .ok
  triggeredAtMs := none
  triggeredBy := none
  lastIncidentFingerprint := none
  incidentEvidenceClearedAtMs := none
  halfOpenedAtMs := none
  halfOpenDailyLossBaselineBps := none
  halfOpenDrawdownBaselineBps := none
  resetAtMs := none
  resetBy := none
  blockedIntentCount := 0

/-- the four timestamps of a state, in the order of the source -/
def CircuitBreakerState.timestamps (s : CircuitBreakerState) : List Int :=
  [s.triggeredAtMs, s.incidentEvidenceClearedAtMs, s.halfOpenedAtMs, s.resetAtMs].reduceOption

def CircuitBreakerState.latestTransitionAtMs (s : CircuitBreakerState) : Option Int :=
  s.timestamps.max?

inductive CircuitBreakerAction where
  | riskIncreasingTradeIntent
  | riskIncreasingCommand
  | riskReducingCommand
  | readState
  | ingestSnapshot
  | ingestExecutionEvent
  | reconciliation
  | manualReview
  | noOpValidation
  deriving DecidableEq

structure CircuitBreakerGateDecision where
  allowed : Bool
  status : CircuitBreakerStatus
  blockedReason : Option CircuitBreakerReason
  deriving DecidableEq

/-- the action matrix of the breaker -/
def CircuitBreakerState.authorize (s : CircuitBreakerState) (action : CircuitBreakerAction) :
    CircuitBreakerGateDecision :=
  let allowed := match s.status with
    | .closed => true
    | .open | .halfOpen => match action with
      | .riskIncreasingTradeIntent | .riskIncreasingCommand => false
      | _ => true
  { allowed, status := s.status, blockedReason := if allowed then none else some s.reason }

/-! ## requests and outcomes -/

structure ManualTrigger where
  operatorId : String
  reason : String
  deriving DecidableEq

/-- counters and health signals evaluated by the breaker -/
structure CircuitBreakerInput where
  dailyRealizedLossBps : Nat := 0
  equityDrawdownBps : Nat := 0
  consecutiveBrokerRejections : Nat := 0
  consecutiveCommandFailures : Nat := 0
  manualReconciliationRequiredCount : Nat := 0
  storeRecoveryReconciliationPending : Bool := false
  timeSyncUnhealthySinceMs : Option Int := none
  consecutiveSnapshotStaleCount : Nat := 0
  consecutiveSymbolMetadataStaleCount : Nat := 0
  manualTrigger : Option ManualTrigger := none
  deriving DecidableEq

/-- evidence that snapshots and pending commands were refreshed after the incident -/
structure HalfOpenReadiness where
  recoveryEpoch : Nat
  accountRefreshedAtMs : Option Int
  positionsRefreshedAtMs : Option Int
  ordersRefreshedAtMs : Option Int
  symbolMetadataRefreshedAtMs : Option Int
  pendingCommandsReconciledAtMs : Option Int
  deriving DecidableEq

structure RecoveryHealth where
  clockHealthy : Bool
  stateStoreHealthy : Bool
  newHardRiskViolation : Bool
  input : CircuitBreakerInput
  deriving DecidableEq

structure ManualResetEvidence where
  auditEventId : String
  operatorId : String
  reason : String
  evidence : String
  deriving DecidableEq

inductive ResetAuthorization where
  | automatic
  | operator (evidence : ManualResetEvidence)
  deriving DecidableEq

inductive TransitionRequest where
  | observe (input : CircuitBreakerInput)
  | enterHalfOpen (readiness : HalfOpenReadiness) (input : CircuitBreakerInput)
  | close (health : RecoveryHealth) (authorization : ResetAuthorization)
  | recordBlockedIntentCount (observedTotal : Nat)
  deriving DecidableEq

structure ManualResetAuditRecord where
  auditEventId : String
  operatorId : String
  reason : String
  evidence : String
  beforeState : CircuitBreakerStatus
  afterState : CircuitBreakerStatus
  recordedAtMs : Int
  deriving DecidableEq

inductive CircuitBreakerTransition where
  | noChange
  | opened
  | enteredHalfOpen
  | reopened
  | closed
  | safetyFallbackOpened
  | incidentEvidenceCleared
  | blockedIntentCountAdvanced
  deriving DecidableEq

/-- a transition always returns the resulting state, also with an error -/
structure CircuitBreakerOutcome where
  state : CircuitBreakerState
  transition : CircuitBreakerTransition
  violations : List CircuitBreakerViolation
  error : Option CircuitBreakerError
  manualResetAudit : Option ManualResetAuditRecord
  deriving DecidableEq

def CircuitBreakerOutcome.unchanged (s : CircuitBreakerState) : CircuitBreakerOutcome where
  state := s
  transition := .noChange
  violations := []
  error := none
  manualResetAudit := none

def CircuitBreakerOutcome.withError (s : CircuitBreakerState) (e : CircuitBreakerError) :
    CircuitBreakerOutcome where
  state := s
  transition := .noChange
  violations := []
  error := some e
  manualResetAudit := none

end Sinan.Breaker
