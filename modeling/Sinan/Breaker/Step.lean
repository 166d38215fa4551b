import Sinan.Breaker.Model

/-!
# Circuit breaker: one step

`transition policy state request serverNowMs` and the functions it is made of, in the order of
the source.  `openBreaker` asks for a proof that its list of violations is not empty, which is
the `expect` of the source: no call that could reach it can be written down.
-/

namespace Sinan.Breaker

open CircuitBreakerOutcome

/-! ## validation of the policy and of the input -/

def CircuitBreakerPolicy.requiredPositive (p : CircuitBreakerPolicy) : List (String × Int) :=
  [("max_daily_realized_loss_bps", p.maxDailyRealizedLossBps),
   ("max_equity_drawdown_bps", p.maxEquityDrawdownBps),
   ("max_consecutive_broker_rejections", p.maxConsecutiveBrokerRejections),
   ("max_consecutive_command_failures", p.maxConsecutiveCommandFailures),
   ("half_open_observation_ms", p.halfOpenObservationMs)]

def CircuitBreakerPolicy.validate (p : CircuitBreakerPolicy) : Except CircuitBreakerError Unit :=
  -- the source tests for zero, so a negative observation window passes
  match p.requiredPositive.find? (fun fv => fv.2 == 0) with
  | some fv => .error (.invalidPolicy fv.1 "must be greater than zero")
  | none =>
    if p.maxTimeSyncUnhealthyMs < 0 then
      .error (.invalidPolicy "max_time_sync_unhealthy_ms" "must not be negative")
    else .ok ()

def validateNonBlank (field value : String) : Except CircuitBreakerError Unit :=
  if blank value then .error (.invalidInput field "must not be blank") else .ok ()

def validateManualTrigger : Option ManualTrigger → Except CircuitBreakerError Unit
  | none => .ok ()
  | some trigger => do
    validateNonBlank "manual_trigger.operator_id" trigger.operatorId
    validateNonBlank "manual_trigger.reason" trigger.reason

/-- `[value]` if the condition holds: one `if c { violations.push(value) }` -/
def pushIf (c : Bool) (v : CircuitBreakerViolation) : List CircuitBreakerViolation :=
  if c then [v] else []

variable (p : CircuitBreakerPolicy) (s : CircuitBreakerState)

/-- the clock part of `collect_violations` -/
def timeSyncViolations (since : Option Int) (serverNowMs : Int) :
    Except CircuitBreakerError (List CircuitBreakerViolation) :=
  match since with
  | none => .ok []
  | some since =>
    if since < 0 ∨ since > serverNowMs then
      .error (.invalidInput "time_sync_unhealthy_since_ms" "must be between zero and server_now_ms")
    else match checkedSub serverNowMs since with
      | none =>
        .error (.invalidInput "time_sync_unhealthy_since_ms" "duration calculation must not overflow")
      | some unhealthyForMs =>
        .ok (pushIf (unhealthyForMs > p.maxTimeSyncUnhealthyMs)
          (.timeSyncUnhealthy unhealthyForMs p.maxTimeSyncUnhealthyMs))

def manualTriggerViolations : Option ManualTrigger → List CircuitBreakerViolation
  | none => []
  | some trigger => [.manualTrigger trigger.operatorId trigger.reason]

/-- every violation of the input, in the fixed order that decides the primary one -/
def collectViolations (input : CircuitBreakerInput) (serverNowMs : Int) :
    Except CircuitBreakerError (List CircuitBreakerViolation) := do
  validateManualTrigger input.manualTrigger
  let timeSync ← timeSyncViolations p input.timeSyncUnhealthySinceMs serverNowMs
  return pushIf (input.dailyRealizedLossBps ≥ p.maxDailyRealizedLossBps)
      (.dailyRealizedLoss input.dailyRealizedLossBps p.maxDailyRealizedLossBps)
    ++ pushIf (input.equityDrawdownBps ≥ p.maxEquityDrawdownBps)
      (.equityDrawdown input.equityDrawdownBps p.maxEquityDrawdownBps)
    ++ pushIf (input.consecutiveBrokerRejections ≥ p.maxConsecutiveBrokerRejections)
      (.consecutiveBrokerRejections input.consecutiveBrokerRejections
        p.maxConsecutiveBrokerRejections)
    ++ pushIf (input.consecutiveCommandFailures ≥ p.maxConsecutiveCommandFailures)
      (.consecutiveCommandFailures input.consecutiveCommandFailures
        p.maxConsecutiveCommandFailures)
    ++ pushIf (input.manualReconciliationRequiredCount > 0)
      (.manualReconciliationRequired input.manualReconciliationRequiredCount)
    ++ pushIf input.storeRecoveryReconciliationPending .storeRecoveryReconciliationPending
    ++ timeSync
    ++ pushIf (input.consecutiveSnapshotStaleCount > p.maxConsecutiveSnapshotStale)
      (.snapshotStale input.consecutiveSnapshotStaleCount p.maxConsecutiveSnapshotStale)
    ++ pushIf (input.consecutiveSymbolMetadataStaleCount > p.maxConsecutiveSymbolMetadataStale)
      (.symbolMetadataStale input.consecutiveSymbolMetadataStaleCount
        p.maxConsecutiveSymbolMetadataStale)
    ++ manualTriggerViolations input.manualTrigger

/-! ## fingerprints -/

def incidentEvidence (input : Option CircuitBreakerInput) :
    CircuitBreakerViolation → CircuitBreakerIncidentEvidence
  | .dailyRealizedLoss o t => .dailyRealizedLoss o t
  | .dailyRealizedLossWorsened b o => .dailyRealizedLossWorsened b o
  | .equityDrawdown o t => .equityDrawdown o t
  | .equityDrawdownWorsened b o => .equityDrawdownWorsened b o
  | .consecutiveBrokerRejections o t => .consecutiveBrokerRejections o t
  | .consecutiveCommandFailures o t => .consecutiveCommandFailures o t
  | .manualReconciliationRequired c => .manualReconciliationRequired c
  | .storeRecoveryReconciliationPending => .storeRecoveryReconciliationPending
  | .timeSyncUnhealthy _ t =>
    .timeSyncUnhealthy (input.bind CircuitBreakerInput.timeSyncUnhealthySinceMs) t
  | .snapshotStale c t => .snapshotStale c t
  | .symbolMetadataStale c t => .symbolMetadataStale c t
  | .manualTrigger o r => .manualTrigger o r
  | .hardRiskViolationDuringRecovery => .hardRiskViolationDuringRecovery
  | .safetyInvariantViolation => .safetyInvariantViolation

def incidentFingerprint (violations : List CircuitBreakerViolation)
    (input : Option CircuitBreakerInput) : CircuitBreakerIncidentFingerprint :=
  violations.map (incidentEvidence input)

/-! ## opening -/

/-- the state of a fresh incident: every recovery and reset field is cleared -/
def incidentState (epoch : Nat) (reason : CircuitBreakerReason)
    (source : CircuitBreakerTriggerSource) (fingerprint : CircuitBreakerIncidentFingerprint)
    (atMs : Int) : CircuitBreakerState where
  recoveryEpoch := epoch
  status := .open
  reason := reason
  triggeredAtMs := some atMs
  triggeredBy := some source
  lastIncidentFingerprint := some fingerprint
  incidentEvidenceClearedAtMs := none
  halfOpenedAtMs := none
  halfOpenDailyLossBaselineBps := none
  halfOpenDrawdownBaselineBps := none
  resetAtMs := none
  resetBy := none
  blockedIntentCount := s.blockedIntentCount

/-- a timestamp not before anything the state already carries, whatever the clock says -/
def fallbackAtMs (serverNowMs : Int) : Int :=
  match s.latestTransitionAtMs with
  | none => max serverNowMs 0
  | some latest => max latest (max serverNowMs 0)

def recoveryEpochOverflow (serverNowMs : Int) : CircuitBreakerOutcome where
  state := incidentState s s.recoveryEpoch .safetyInvariantViolation .safetyInvariant
    [.safetyInvariantError .recoveryEpochOverflow] (fallbackAtMs s serverNowMs)
  transition := .safetyFallbackOpened
  violations := [.safetyInvariantViolation]
  error := some .recoveryEpochOverflow
  manualResetAudit := none

/-- `open` of the source; the first violation is the primary one -/
def openBreaker (violations : List CircuitBreakerViolation) (nonempty : violations ≠ [])
    (fingerprint : CircuitBreakerIncidentFingerprint) (serverNowMs : Int) (reopened : Bool) :
    CircuitBreakerOutcome :=
  match checkedSucc s.recoveryEpoch with
  | none => recoveryEpochOverflow s serverNowMs
  | some epoch =>
    let primary := violations.head nonempty
    { state := incidentState s epoch primary.reason primary.source fingerprint serverNowMs
      transition := if reopened then .reopened else .opened
      violations := violations
      error := none
      manualResetAudit := none }

/-- an outcome of `openBreaker` relabelled as a fallback, unless the epoch was exhausted -/
def asSafetyFallback (o : CircuitBreakerOutcome) (e : CircuitBreakerError) :
    CircuitBreakerOutcome :=
  if o.error = some .recoveryEpochOverflow then o
  else { o with transition := .safetyFallbackOpened, error := some e }

def safetyFallback (serverNowMs : Int) (e : CircuitBreakerError) : CircuitBreakerOutcome :=
  let violations : List CircuitBreakerViolation := [.safetyInvariantViolation]
  let fingerprint : CircuitBreakerIncidentFingerprint := [.safetyInvariantError e]
  let atMs := fallbackAtMs s serverNowMs
  if s.status = .open then
    if s.lastIncidentFingerprint ≠ some fingerprint then
      asSafetyFallback (openBreaker s violations (by simp [violations]) fingerprint atMs true) e
    else
      { state := s, transition := .noChange, violations, error := some e, manualResetAudit := none }
  else
    asSafetyFallback (openBreaker s violations (by simp [violations]) fingerprint atMs
      (s.status = .halfOpen)) e

/-! ## the half-open observation -/

/-- Violations of a half-open breaker: a loss limit counts only above its baseline, every other
violation always. -/
def filterHalfOpenViolations (all : List CircuitBreakerViolation) (input : CircuitBreakerInput) :
    Except CircuitBreakerError (List CircuitBreakerViolation) :=
  match s.halfOpenDailyLossBaselineBps, s.halfOpenDrawdownBaselineBps with
  | some daily, some drawdown =>
    .ok (pushIf (input.dailyRealizedLossBps > daily)
        ((all.find? CircuitBreakerViolation.isDailyRealizedLoss).getD
          (.dailyRealizedLossWorsened daily input.dailyRealizedLossBps))
      ++ pushIf (input.equityDrawdownBps > drawdown)
        ((all.find? CircuitBreakerViolation.isEquityDrawdown).getD
          (.equityDrawdownWorsened drawdown input.equityDrawdownBps))
      ++ all.filter (fun v => !v.isLossLimit))
  | _, _ => .error .halfOpenBaselineMissing

def halfOpenViolations (input : CircuitBreakerInput) (serverNowMs : Int) :
    Except CircuitBreakerError (List CircuitBreakerViolation) := do
  let all ← collectViolations p input serverNowMs
  filterHalfOpenViolations s all input

def observeHalfOpen (all : List CircuitBreakerViolation) (input : CircuitBreakerInput)
    (serverNowMs : Int) : CircuitBreakerOutcome :=
  match filterHalfOpenViolations s all input with
  | .error e => safetyFallback s serverNowMs e
  | .ok violations =>
    if h : violations = [] then unchanged s
    else openBreaker s violations h (incidentFingerprint violations (some input)) serverNowMs true

/-! ## the four requests -/

def observe (input : CircuitBreakerInput) (serverNowMs : Int) : CircuitBreakerOutcome :=
  match collectViolations p input serverNowMs with
  | .error e => safetyFallback s serverNowMs e
  | .ok violations =>
    let fingerprint := incidentFingerprint violations (some input)
    match s.status with
    | .closed =>
      if h : violations = [] then { unchanged s with violations }
      else openBreaker s violations h fingerprint serverNowMs false
    | .halfOpen => observeHalfOpen s violations input serverNowMs
    | .open =>
      if h : violations = [] then
        if s.lastIncidentFingerprint.isSome then
          -- a healthy observation separates fault episodes
          { state := { s with lastIncidentFingerprint := none,
                              incidentEvidenceClearedAtMs := some serverNowMs }
            transition := .incidentEvidenceCleared
            violations, error := none, manualResetAudit := none }
        else { unchanged s with violations }
      else if s.lastIncidentFingerprint = some fingerprint then { unchanged s with violations }
      else openBreaker s violations h fingerprint serverNowMs true

/-- the five refresh timestamps of a readiness record with their fields and prerequisites -/
def HalfOpenReadiness.evidence (r : HalfOpenReadiness) :
    List (String × Option Int × RecoveryPrerequisite) :=
  [("readiness.account_refreshed_at_ms", r.accountRefreshedAtMs, .accountRefresh),
   ("readiness.positions_refreshed_at_ms", r.positionsRefreshedAtMs, .positionRefresh),
   ("readiness.orders_refreshed_at_ms", r.ordersRefreshedAtMs, .orderRefresh),
   ("readiness.symbol_metadata_refreshed_at_ms", r.symbolMetadataRefreshedAtMs,
     .symbolMetadataRefresh),
   ("readiness.pending_commands_reconciled_at_ms", r.pendingCommandsReconciledAtMs,
     .pendingCommandReconciliation)]

/-- the loop of `missing_half_open_prerequisites` over the evidence that is left -/
def missingPrerequisites (triggeredAtMs serverNowMs : Int) :
    List (String × Option Int × RecoveryPrerequisite) →
      Except CircuitBreakerError (List RecoveryPrerequisite)
  | [] => .ok []
  | (field, observedAtMs, prerequisite) :: rest =>
    if observedAtMs.any (fun t => t < 0 || t > serverNowMs) then
      .error (.invalidInput field "must be between zero and server_now_ms")
    else do
      let missing ← missingPrerequisites triggeredAtMs serverNowMs rest
      return if observedAtMs.all (fun t => t < triggeredAtMs) then prerequisite :: missing
        else missing

def missingHalfOpenPrerequisites (r : HalfOpenReadiness) (triggeredAtMs serverNowMs : Int) :
    Except CircuitBreakerError (List RecoveryPrerequisite) :=
  missingPrerequisites triggeredAtMs serverNowMs r.evidence

/-- what `enter_half_open` does once no violation stands in the way -/
def admitHalfOpen (readiness : HalfOpenReadiness) (input : CircuitBreakerInput)
    (violations : List CircuitBreakerViolation) (serverNowMs : Int) : CircuitBreakerOutcome :=
  match s.triggeredAtMs with
  | none => safetyFallback s serverNowMs
      (.invalidInput "state.triggered_at_ms" "must be present while the breaker is open")
  | some triggeredAtMs =>
    if readiness.recoveryEpoch ≠ s.recoveryEpoch then
      withError s (.recoveryEpochMismatch s.recoveryEpoch readiness.recoveryEpoch)
    else match missingHalfOpenPrerequisites readiness triggeredAtMs serverNowMs with
      | .error e => safetyFallback s serverNowMs e
      | .ok missing =>
        if missing ≠ [] then withError s (.recoveryPrerequisitesMissing missing)
        else
          { state := { s with
              status := .halfOpen
              halfOpenedAtMs := some serverNowMs
              halfOpenDailyLossBaselineBps := some input.dailyRealizedLossBps
              halfOpenDrawdownBaselineBps := some input.equityDrawdownBps }
            transition := .enteredHalfOpen
            violations, error := none, manualResetAudit := none }

def enterHalfOpen (readiness : HalfOpenReadiness) (input : CircuitBreakerInput) (serverNowMs : Int) :
    CircuitBreakerOutcome :=
  match s.status with
  | .closed => unchanged s
  | .halfOpen => observe p s input serverNowMs
  | .open =>
    match collectViolations p input serverNowMs with
    | .error e => safetyFallback s serverNowMs e
    | .ok violations =>
      let fingerprint := incidentFingerprint violations (some input)
      if h : violations ≠ [] ∧ s.lastIncidentFingerprint ≠ some fingerprint then
        openBreaker s violations h.1 fingerprint serverNowMs true
      else
        let blocking := violations.filter (fun v => !v.isLossLimit)
        if blocking ≠ [] then
          { withError s (.recoveryBlockedByViolations (blocking.map CircuitBreakerViolation.reason))
            with violations }
        else admitHalfOpen s readiness input violations serverNowMs

def ManualResetEvidence.fields (e : ManualResetEvidence) : List (String × String) :=
  [("audit_event_id", e.auditEventId), ("operator_id", e.operatorId), ("reason", e.reason),
   ("evidence", e.evidence)]

def validateManualResetEvidence (e : ManualResetEvidence) : Except CircuitBreakerError Unit :=
  match e.fields.find? (fun fv => blank fv.2) with
  | some fv => .error (.manualResetEvidenceMissing fv.1)
  | none => .ok ()

/-- who closes the breaker, with the audit record of a manual reset -/
def resetAuthority (authorization : ResetAuthorization) (serverNowMs : Int) :
    Except CircuitBreakerError (String × Option ManualResetAuditRecord) :=
  match authorization with
  | .automatic => if p.autoReset then .ok ("AUTOMATIC", none) else .error .automaticResetDisabled
  | .operator evidence => do
    validateManualResetEvidence evidence
    return (evidence.operatorId, some
      { auditEventId := evidence.auditEventId
        operatorId := evidence.operatorId
        reason := evidence.reason
        evidence := evidence.evidence
        beforeState := .halfOpen
        afterState := .closed
        recordedAtMs := serverNowMs })

def closedState (resetBy : String) (serverNowMs : Int) : CircuitBreakerState :=
  { s with
    status := .closed
    reason := .ok
    halfOpenedAtMs := none
    halfOpenDailyLossBaselineBps := none
    halfOpenDrawdownBaselineBps := none
    resetAtMs := some serverNowMs
    resetBy := some resetBy }

/-- the unhealthy prerequisites of a close, clock first -/
def RecoveryHealth.unhealthy (h : RecoveryHealth) : List RecoveryPrerequisite :=
  (if h.clockHealthy then [] else [.clockHealth])
    ++ (if h.stateStoreHealthy then [] else [.stateStoreHealth])

/-- what `close` does once the half-open observation found nothing -/
def finishClose (authorization : ResetAuthorization) (serverNowMs : Int) : CircuitBreakerOutcome :=
  match s.halfOpenedAtMs with
  | none => safetyFallback s serverNowMs .halfOpenBaselineMissing
  | some halfOpenedAtMs =>
    let elapsedMs := serverNowMs - halfOpenedAtMs
    if elapsedMs < p.halfOpenObservationMs then
      withError s (.halfOpenObservationNotComplete (p.halfOpenObservationMs - elapsedMs))
    else match resetAuthority p authorization serverNowMs with
      | .error e => withError s e
      | .ok (resetBy, audit) =>
        { state := closedState s resetBy serverNowMs
          transition := .closed
          violations := []
          error := none
          manualResetAudit := audit }

def close (health : RecoveryHealth) (authorization : ResetAuthorization) (serverNowMs : Int) :
    CircuitBreakerOutcome :=
  match s.status with
  | .closed => unchanged s
  | .open => withError s (.invalidTransition .open .close)
  | .halfOpen =>
    match halfOpenViolations p s health.input serverNowMs with
    | .error e => safetyFallback s serverNowMs e
    | .ok observed =>
      let violations := observed
        ++ pushIf health.newHardRiskViolation .hardRiskViolationDuringRecovery
      if h : violations ≠ [] then
        openBreaker s violations h (incidentFingerprint violations (some health.input))
          serverNowMs true
      else if health.unhealthy ≠ [] then
        withError s (.recoveryPrerequisitesMissing health.unhealthy)
      else finishClose p s authorization serverNowMs

def recordBlockedIntentCount (observedTotal : Nat) : CircuitBreakerOutcome :=
  if observedTotal ≤ s.blockedIntentCount then unchanged s
  else
    { state := { s with blockedIntentCount := observedTotal }
      transition := .blockedIntentCountAdvanced
      violations := []
      error := none
      manualResetAudit := none }

def dispatch (request : TransitionRequest) (serverNowMs : Int) : CircuitBreakerOutcome :=
  match request with
  | .observe input => observe p s input serverNowMs
  | .enterHalfOpen readiness input => enterHalfOpen p s readiness input serverNowMs
  | .close health authorization => close p s health authorization serverNowMs
  | .recordBlockedIntentCount observedTotal => recordBlockedIntentCount s observedTotal

/-- `transition`: a negative or regressed clock and an invalid policy fail closed before the
request is looked at -/
def transition (request : TransitionRequest) (serverNowMs : Int) : CircuitBreakerOutcome :=
  if serverNowMs < 0 then
    safetyFallback s serverNowMs (.invalidInput "server_now_ms" "must not be negative")
  else match p.validate with
    | .error e => safetyFallback s serverNowMs e
    | .ok () =>
      match s.latestTransitionAtMs with
      | none => dispatch p s request serverNowMs
      | some latest =>
        if serverNowMs < latest then
          safetyFallback s serverNowMs (.serverTimeRegressed latest serverNowMs)
        else dispatch p s request serverNowMs

end Sinan.Breaker
