import Sinan.Breaker.Step
import Sinan.Lib.Check

/-!
# Circuit breaker: durable snapshot and restore

`durableSnapshotV1` writes the complete state, `restoreCircuitBreakerSnapshotV1` reads it back
through `validateRestoredState`, a sequence of cross-field checks.  Any refusal becomes a fresh
safety incident: a breaker is never restored as CLOSED by default.
-/

namespace Sinan.Breaker

open Lib CircuitBreakerOutcome

def circuitBreakerSnapshotSchemaVersionV1 : String := "circuit-breaker-state.v1"

/-- the complete, versioned persistence format -/
structure CircuitBreakerSnapshotV1 where
  schemaVersion : String
  recoveryEpoch : Nat
  status : CircuitBreakerStatus
  reason : CircuitBreakerReason
  triggeredAtMs : Option Int
  triggeredBy : Option CircuitBreakerTriggerSource
  lastIncidentFingerprint : Option CircuitBreakerIncidentFingerprint
  incidentEvidenceClearedAtMs : Option Int
  halfOpenedAtMs : Option Int
  halfOpenDailyLossBaselineBps : Option Nat
  halfOpenDrawdownBaselineBps : Option Nat
  resetAtMs : Option Int
  resetBy : Option String
  blockedIntentCount : Nat
  deriving DecidableEq

def CircuitBreakerState.durableSnapshotV1 (s : CircuitBreakerState) : CircuitBreakerSnapshotV1 where
  schemaVersion := circuitBreakerSnapshotSchemaVersionV1
  recoveryEpoch := s.recoveryEpoch
  status := s.status
  reason := s.reason
  triggeredAtMs := s.triggeredAtMs
  triggeredBy := s.triggeredBy
  lastIncidentFingerprint := s.lastIncidentFingerprint
  incidentEvidenceClearedAtMs := s.incidentEvidenceClearedAtMs
  halfOpenedAtMs := s.halfOpenedAtMs
  halfOpenDailyLossBaselineBps := s.halfOpenDailyLossBaselineBps
  halfOpenDrawdownBaselineBps := s.halfOpenDrawdownBaselineBps
  resetAtMs := s.resetAtMs
  resetBy := s.resetBy
  blockedIntentCount := s.blockedIntentCount

/-- the state rebuilt from a snapshot, before it is validated -/
def CircuitBreakerSnapshotV1.restored (s : CircuitBreakerSnapshotV1) : CircuitBreakerState where
  recoveryEpoch := s.recoveryEpoch
  status := s.status
  reason := s.reason
  triggeredAtMs := s.triggeredAtMs
  triggeredBy := s.triggeredBy
  lastIncidentFingerprint := s.lastIncidentFingerprint
  incidentEvidenceClearedAtMs := s.incidentEvidenceClearedAtMs
  halfOpenedAtMs := s.halfOpenedAtMs
  halfOpenDailyLossBaselineBps := s.halfOpenDailyLossBaselineBps
  halfOpenDrawdownBaselineBps := s.halfOpenDrawdownBaselineBps
  resetAtMs := s.resetAtMs
  resetBy := s.resetBy
  blockedIntentCount := s.blockedIntentCount

/-! ## what a stored piece of evidence says about its incident -/

def incidentEvidenceReason : CircuitBreakerIncidentEvidence → CircuitBreakerReason
  | .dailyRealizedLoss .. | .dailyRealizedLossWorsened .. => .dailyRealizedLossLimit
  | .equityDrawdown .. | .equityDrawdownWorsened .. => .equityDrawdownLimit
  | .consecutiveBrokerRejections .. => .consecutiveBrokerRejections
  | .consecutiveCommandFailures .. => .consecutiveCommandFailures
  | .manualReconciliationRequired .. => .manualReconciliationRequired
  | .storeRecoveryReconciliationPending => .storeRecoveryReconciliationPending
  | .timeSyncUnhealthy .. => .timeSyncUnhealthy
  | .snapshotStale .. => .snapshotStale
  | .symbolMetadataStale .. => .symbolMetadataStale
  | .manualTrigger .. => .manualTrigger
  | .hardRiskViolationDuringRecovery => .hardRiskViolationDuringRecovery
  | .safetyInvariantViolation | .safetyInvariantError .. => .safetyInvariantViolation

def incidentEvidenceSource : CircuitBreakerIncidentEvidence → CircuitBreakerTriggerSource
  | .dailyRealizedLoss .. | .dailyRealizedLossWorsened ..
  | .equityDrawdown .. | .equityDrawdownWorsened .. => .riskTelemetry
  | .consecutiveBrokerRejections .. => .broker
  | .consecutiveCommandFailures .. | .hardRiskViolationDuringRecovery => .execution
  | .manualReconciliationRequired .. => .reconciliation
  | .storeRecoveryReconciliationPending => .storeRecovery
  | .timeSyncUnhealthy .. => .clock
  | .snapshotStale .. | .symbolMetadataStale .. => .snapshotHealth
  | .manualTrigger operatorId _ => .operator operatorId
  | .safetyInvariantViolation | .safetyInvariantError .. => .safetyInvariant

def errorFingerprintHasBlankText : CircuitBreakerErrorFingerprint → Bool
  | .invalidPolicy field requirement | .invalidInput field requirement =>
    blank field || blank requirement
  | .manualResetEvidenceMissing field => blank field
  | _ => false

def incidentEvidenceHasBlankText : CircuitBreakerIncidentEvidence → Bool
  | .manualTrigger operatorId reason => blank operatorId || blank reason
  | .safetyInvariantError error => errorFingerprintHasBlankText error
  | _ => false

/-! ## validation -/

abbrev RestoreCheck := Except CircuitBreakerRestoreFailure Unit

/-- refuse a snapshot for breaking `invariant` when `c` holds -/
def breaks (c : Prop) [Decidable c] (invariant : CircuitBreakerSnapshotInvariant) : RestoreCheck :=
  reject c (.invalidSnapshot invariant)

/-- a present timestamp is neither negative nor ahead of the server clock -/
def checkTimestamp (serverNowMs : Int) (entry : CircuitBreakerSnapshotTimestamp × Option Int) :
    RestoreCheck :=
  match entry.2 with
  | none => .ok ()
  | some timestampMs => do
    breaks (timestampMs < 0) .timestampNegative
    reject (timestampMs > serverNowMs)
      (.snapshotTimestampInFuture entry.1 timestampMs serverNowMs)

def CircuitBreakerState.timestampFields (s : CircuitBreakerState) :
    List (CircuitBreakerSnapshotTimestamp × Option Int) :=
  [(.triggeredAt, s.triggeredAtMs), (.incidentEvidenceClearedAt, s.incidentEvidenceClearedAtMs),
   (.halfOpenedAt, s.halfOpenedAtMs), (.resetAt, s.resetAtMs)]

/-- `reset_at_ms` and `reset_by` are both present -/
def CircuitBreakerState.resetPairPresent (s : CircuitBreakerState) : Bool :=
  s.resetAtMs.isSome && s.resetBy.isSome

def CircuitBreakerState.halfOpenFields (s : CircuitBreakerState) : List Bool :=
  [s.halfOpenedAtMs.isSome, s.halfOpenDailyLossBaselineBps.isSome,
   s.halfOpenDrawdownBaselineBps.isSome]

/-- the part of the validation that depends on the status -/
def checkStatusFields (s : CircuitBreakerState) : RestoreCheck :=
  match s.status with
  | .closed => do
    breaks (s.halfOpenFields.any id = true) .halfOpenRecoveryDataOutsideHalfOpen
    if s.recoveryEpoch = 0 then
      breaks (s.triggeredAtMs.isSome ∨ s.lastIncidentFingerprint.isSome ∨
        s.incidentEvidenceClearedAtMs.isSome ∨ s.resetPairPresent) .initialStateHasIncidentData
    else breaks (¬ s.resetPairPresent) .closedStateMissingResetData
  | .open => do
    breaks s.resetPairPresent .activeStateHasResetData
    breaks (s.halfOpenFields.any id = true) .halfOpenRecoveryDataOutsideHalfOpen
  | .halfOpen => do
    breaks s.resetPairPresent .activeStateHasResetData
    breaks (s.halfOpenFields.any not = true) .halfOpenRecoveryDataIncomplete

/-- the loop over the evidence of a fingerprint; `seen` is the part already visited -/
def checkEvidence (seen : List CircuitBreakerIncidentEvidence) :
    List CircuitBreakerIncidentEvidence → RestoreCheck
  | [] => .ok ()
  | evidence :: rest => do
    breaks (evidence ∈ seen) .fingerprintDuplicateEvidence
    breaks (incidentEvidenceHasBlankText evidence) .fingerprintTextBlank
    checkEvidence (seen ++ [evidence]) rest

/-- an active incident is explained by the first piece of its evidence -/
def checkPrimary (s : CircuitBreakerState) (primary : CircuitBreakerIncidentEvidence) :
    RestoreCheck := do
  breaks (incidentEvidenceReason primary ≠ s.reason) .fingerprintPrimaryReasonMismatch
  breaks (s.triggeredBy ≠ some (incidentEvidenceSource primary)) .fingerprintPrimarySourceMismatch

def checkFingerprint (s : CircuitBreakerState) : RestoreCheck :=
  match s.lastIncidentFingerprint with
  | none => .ok ()
  | some [] => .error (.invalidSnapshot .fingerprintEmpty)
  | some (primary :: rest) => do
    checkEvidence [] (primary :: rest)
    if s.status.isActive then checkPrimary s primary else .ok ()

/-- a present `later` does not precede a present `earlier` -/
def checkOrder (earlier later : Option Int) : RestoreCheck :=
  match earlier, later with
  | some e, some l => breaks (l < e) .timestampOrderInvalid
  | _, _ => .ok ()

def operatorBlank : Option CircuitBreakerTriggerSource → Bool
  | some (.operator operatorId) => blank operatorId
  | _ => false

def validateRestoredState (s : CircuitBreakerState) (serverNowMs : Int) : RestoreCheck := do
  breaks (s.recoveryEpoch = u64Max) .recoveryEpochExhausted
  each s.timestampFields (checkTimestamp serverNowMs)
  breaks (s.triggeredAtMs.isSome ≠ s.triggeredBy.isSome) .incidentStateMissingTrigger
  breaks (s.recoveryEpoch = 0 ∧ s.triggeredAtMs.isSome) .triggerPresentWithoutRecoveryEpoch
  breaks (s.recoveryEpoch > 0 ∧ s.triggeredAtMs.isNone) .incidentStateMissingTrigger
  breaks (¬ (s.status = .closed ↔ s.reason = .ok)) .statusReasonMismatch
  breaks (s.resetAtMs.isSome ≠ s.resetBy.isSome) .resetIdentityIncomplete
  breaks (blankOpt s.resetBy) .resetByBlank
  checkStatusFields s
  breaks (s.lastIncidentFingerprint.isSome ∧ s.incidentEvidenceClearedAtMs.isSome)
    .fingerprintAndEvidenceClearedCoexist
  breaks (s.status.isActive ∧ s.lastIncidentFingerprint.isNone ∧
    s.incidentEvidenceClearedAtMs.isNone) .activeStateMissingFingerprintOrClearEvidence
  breaks (operatorBlank s.triggeredBy) .triggerSourceBlank
  checkFingerprint s
  checkOrder s.triggeredAtMs s.incidentEvidenceClearedAtMs
  checkOrder s.triggeredAtMs s.halfOpenedAtMs
  checkOrder s.triggeredAtMs s.resetAtMs
  checkOrder s.incidentEvidenceClearedAtMs s.halfOpenedAtMs
  checkOrder s.incidentEvidenceClearedAtMs s.resetAtMs

/-! ## restore -/

structure CircuitBreakerRecoveryEpochExhausted where
  lastRecoveryEpoch : Nat
  restoreFailure : CircuitBreakerRestoreFailure
  outcome : CircuitBreakerOutcome
  deriving DecidableEq

/-- a safety incident after a known persisted epoch, or the exhausted outcome -/
def failClosedCircuitBreakerRestoreAfterEpoch (failure : CircuitBreakerRestoreFailure)
    (serverNowMs : Int) (lastRecoveryEpoch : Nat) :
    Except CircuitBreakerRecoveryEpochExhausted CircuitBreakerOutcome :=
  let previous := { CircuitBreakerState.new with recoveryEpoch := lastRecoveryEpoch }
  match checkedSucc lastRecoveryEpoch with
  | none => .error
      { lastRecoveryEpoch
        restoreFailure := failure
        outcome := Breaker.recoveryEpochOverflow previous serverNowMs }
  | some _ => .ok (safetyFallback previous serverNowMs (.durableRestoreFailed failure))

/-- the runtime fallback for a failed restore; epoch zero always has a successor, so the error
branch, `unreachable!` in the source, only has to be filled in -/
def failClosedCircuitBreakerRestore (failure : CircuitBreakerRestoreFailure) (serverNowMs : Int) :
    CircuitBreakerOutcome :=
  match failClosedCircuitBreakerRestoreAfterEpoch failure serverNowMs 0 with
  | .ok outcome => outcome
  | .error exhausted => exhausted.outcome

def restoreCircuitBreakerSnapshotV1 (snapshot : CircuitBreakerSnapshotV1) (serverNowMs : Int) :
    CircuitBreakerOutcome :=
  if serverNowMs < 0 then
    failClosedCircuitBreakerRestore (.invalidServerTime serverNowMs) serverNowMs
  else if snapshot.schemaVersion ≠ circuitBreakerSnapshotSchemaVersionV1 then
    failClosedCircuitBreakerRestore (.unsupportedSchemaVersion snapshot.schemaVersion) serverNowMs
  else match validateRestoredState snapshot.restored serverNowMs with
    | .error failure => failClosedCircuitBreakerRestore failure serverNowMs
    | .ok () => unchanged snapshot.restored

end Sinan.Breaker
