import Sinan.Risk.Sizing

/-!
# The evaluator

`evaluate` turns a request and the circuit breaker into a risk result.  Denials are results with
`approved = false`; an error is left only for a request no result could name.
-/

namespace Sinan.Risk

open Lib
open Breaker

structure RiskEvaluationError where
  field : String
  reason : String
  deriving DecidableEq

inductive Approval (F : Type) where
  | noOp (validUntil : Int)
  | actionable (approval : ActionableApproval F)

/-- `now.saturating_sub(observed_at).max(0)` -/
def bestEffortAge (now observedAt : Int) : Int := max (min (now - observedAt) i64Max) 0

section
variable {F : Type} [F64 F]

def AuditAges.bestEffort (request : RiskRequest F) : AuditAges :=
  let now := request.evaluatedAt
  let marks := request.stateWatermarks
  { snapshot := ([marks.positionsObservedAt, marks.ordersObservedAt,
        marks.pendingCommandsReconciledAt] ++ request.positions.map PositionSnapshot.observedAt ++
        request.orders.map OrderSnapshot.observedAt).foldl
      (fun age observedAt => max age (bestEffortAge now observedAt))
      (bestEffortAge now request.account.observedAt)
    market := (request.markets.map fun m => bestEffortAge now m.snapshot.observedAt).foldl max 0
    metadata := (request.symbolMetadata.map fun m => bestEffortAge now m.observedAt).foldl max 0
    capacity := bestEffortAge now request.capacity.observedAt }

def validateResultIdentity (request : RiskRequest F) : Except RiskEvaluationError Unit := do
  each [("risk_id", request.riskId), ("request_id", request.requestId),
      ("intent_id", request.intent.intentId), ("account_id", request.intent.accountId),
      ("decision_id", request.intent.decisionId)]
    fun field => reject (blank field.2) ⟨field.1, "must not be empty"⟩
  reject (request.evaluatedAt < 0)
    ⟨"evaluated_at", "must be a non-negative server Unix timestamp"⟩

/-- the part of `evaluate_inner` behind the breaker -/
def evaluateOpening (request : RiskRequest F) : Evaluation (ActionableApproval F) := do
  validateControlTime request
  validateFreshnessPolicy request
  let required := requiredSymbols request
  indexSnapshots request required
  let ages ← validateFreshness request required
  let riskBase ← validatePolicyAndInputs request
  validateSymbolInputs request required
  let prepared ← prepareLegs request
  validateLossCapacity request
  let active ← activePendingCommands request
  validatePendingExposure request prepared active
  validateConcurrency request prepared active
  let validUntil ← approvalValidUntil request required
  sizeAndCap request prepared (active.map Prod.fst) riskBase ages validUntil

def evaluateInner (request : RiskRequest F) (breaker : CircuitBreakerState) :
    Evaluation (Approval F) := do
  validateRequestIdentity request
  validateActionShape request
  match request.intent.action with
  | .hold => do
    validateControlTime request
    let validUntil ← holdValidUntil request
    return .noOp validUntil
  | .close => .error ⟨.riskReductionNotProvable,
      "CLOSE has no target position and close lots in the v1 TradeIntent contract"⟩
  | _ => do
    reject ((breaker.authorize .riskIncreasingTradeIntent).allowed = false)
      ⟨.riskEngineCircuitBreakerTriggered,
        "the global circuit breaker blocks risk-increasing intents"⟩
    let approval ← evaluateOpening request
    return .actionable approval

/-- a result without sizing, with the identity and the times of the request -/
def rejectedResult (request : RiskRequest F) (requestHash : String) (ages : AuditAges)
    (rejection : Rejection) : RiskResult F where
  riskId := request.riskId
  requestId := request.requestId
  intentId := request.intent.intentId
  accountId := request.intent.accountId
  riskRequestHash := requestHash
  approved := false
  reason := .known rejection.code
  message := some rejection.message
  sizingVersion := none
  riskBaseAmount := none
  riskBudgetAmount := none
  adjustedRiskPct := none
  sizingCandidates := none
  adjustedLegs := none
  decisionId := request.intent.decisionId
  snapshotAgeMs := ages.snapshot
  marketSnapshotAgeMs := ages.market
  symbolMetadataAgeMs := ages.metadata
  capacityAgeMs := ages.capacity
  evaluatedAt := max request.evaluatedAt 0
  validUntil := max request.evaluatedAt 0

def noOpResult (request : RiskRequest F) (requestHash : String) (validUntil : Int) :
    RiskResult F where
  riskId := request.riskId
  requestId := request.requestId
  intentId := request.intent.intentId
  accountId := request.intent.accountId
  riskRequestHash := requestHash
  approved := true
  reason := .other "OK"
  message := none
  sizingVersion := none
  riskBaseAmount := none
  riskBudgetAmount := none
  adjustedRiskPct := none
  sizingCandidates := none
  adjustedLegs := none
  decisionId := request.intent.decisionId
  snapshotAgeMs := 0
  marketSnapshotAgeMs := 0
  symbolMetadataAgeMs := 0
  capacityAgeMs := 0
  evaluatedAt := request.evaluatedAt
  validUntil := validUntil

def actionableResult (request : RiskRequest F) (requestHash : String)
    (approval : ActionableApproval F) : RiskResult F where
  riskId := request.riskId
  requestId := request.requestId
  intentId := request.intent.intentId
  accountId := request.intent.accountId
  riskRequestHash := requestHash
  approved := true
  reason := .other "OK"
  message := none
  sizingVersion := some approval.sizingVersion
  riskBaseAmount := decimalToF64 approval.riskBase
  riskBudgetAmount := decimalToF64 approval.riskBudget
  adjustedRiskPct := decimalToF64 approval.actualRiskPct
  sizingCandidates := some approval.candidates
  adjustedLegs := some approval.legs
  decisionId := request.intent.decisionId
  snapshotAgeMs := approval.ages.snapshot
  marketSnapshotAgeMs := approval.ages.market
  symbolMetadataAgeMs := approval.ages.metadata
  capacityAgeMs := approval.ages.capacity
  evaluatedAt := request.evaluatedAt
  validUntil := approval.validUntil

/-- the result before its own validation -/
def draftResult (request : RiskRequest F) (requestHash : String) :
    Evaluation (Approval F) → RiskResult F
  | .ok (.noOp validUntil) => noOpResult request requestHash validUntil
  | .ok (.actionable approval) => actionableResult request requestHash approval
  | .error rejection => rejectedResult request requestHash (AuditAges.bestEffort request) rejection

def evaluate (digest : RequestDigest F) (request : RiskRequest F) (breaker : CircuitBreakerState) :
    Except RiskEvaluationError (RiskResult F) := do
  validateResultIdentity request
  let requestHash := digest.hash request
  let result := draftResult request requestHash (evaluateInner request breaker)
  match result.validate with
  | .ok () => return result
  | .error error =>
    -- an approval that is no valid result is turned into a refusal
    if result.approved then
      let rejected := rejectedResult request requestHash (AuditAges.bestEffort request)
        (inputInvalid ("invalid evaluator output at " ++ error.field ++ ": " ++ error.reason))
      match rejected.validate with
      | .ok () => return rejected
      | .error fallback =>
        .error ⟨fallback.field, "invalid fail-closed RiskResult: " ++ fallback.reason⟩
    else .error ⟨error.field, error.reason⟩

/-! ## what is behind an approval -/

variable {request : RiskRequest F} {breaker : CircuitBreakerState}

theorem evaluate_approved {digest : RequestDigest F} {result : RiskResult F}
    (h : evaluate digest request breaker = .ok result) (happroved : result.approved = true) :
    ∃ approval, evaluateInner request breaker = .ok approval ∧
      result = draftResult request (digest.hash request) (.ok approval) ∧
      result.validate = .ok () := by
  simp only [evaluate, bind_ok, exists_unit] at h
  obtain ⟨-, h⟩ := h
  split at h
  case h_1 hvalid =>
    cases h
    cases hinner : evaluateInner request breaker with
    | error rejection =>
      rw [hinner] at happroved
      exact absurd happroved Bool.false_ne_true
    | ok approval =>
      rw [hinner] at hvalid
      exact ⟨approval, rfl, rfl, hvalid⟩
  case h_2 error hinvalid =>
    split at h
    · split at h
      · cases h
        exact absurd happroved Bool.false_ne_true
      · cases h
    · cases h

theorem evaluateInner_actionable {approval : ActionableApproval F}
    (h : evaluateInner request breaker = .ok (.actionable approval)) :
    (request.intent.action = .buy ∨ request.intent.action = .sell) ∧
      (breaker.authorize .riskIncreasingTradeIntent).allowed = true ∧
      evaluateOpening request = .ok approval := by
  simp only [evaluateInner, bind_ok, exists_unit] at h
  obtain ⟨-, -, h⟩ := h
  cases haction : request.intent.action with
  | hold =>
    simp only [haction, bind_ok, exists_unit, pure_ok] at h
    obtain ⟨-, _, -, happroval⟩ := h
    cases happroval
  | close =>
    rw [haction] at h
    cases h
  | buy =>
    simp only [haction, bind_ok, exists_unit, reject_ok, pure_ok, Approval.actionable.injEq,
      Bool.not_eq_false] at h
    obtain ⟨hallowed, _, hopening, rfl⟩ := h
    exact ⟨.inl rfl, hallowed, hopening⟩
  | sell =>
    simp only [haction, bind_ok, exists_unit, reject_ok, pure_ok, Approval.actionable.injEq,
      Bool.not_eq_false] at h
    obtain ⟨hallowed, _, hopening, rfl⟩ := h
    exact ⟨.inr rfl, hallowed, hopening⟩

theorem evaluate_sized {digest : RequestDigest F} {result : RiskResult F}
    {legs : List (AdjustedRiskLeg F)} (h : evaluate digest request breaker = .ok result)
    (happroved : result.approved = true) (hlegs : result.adjustedLegs = some legs) :
    ∃ approval, evaluateInner request breaker = .ok (.actionable approval) ∧
      result = actionableResult request (digest.hash request) approval ∧
      approval.legs = legs ∧ result.validate = .ok () := by
  obtain ⟨approval, hinner, rfl, hvalid⟩ := evaluate_approved h happroved
  cases approval with
  | noOp validUntil => cases hlegs
  | actionable approval => exact ⟨approval, hinner, rfl, Option.some.inj hlegs, hvalid⟩

end

end Sinan.Risk
