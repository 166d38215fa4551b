import Sinan.Execution.State
import Sinan.Protocol.Signing
import Sinan.Risk.Model
import Sinan.Types.Plan

/-!
# Execution builder

`buildExecution` turns an approved risk result into a plan, its signed commands and their initial
states.  Approval, resolved parameters and symbol metadata are joined by leg id, through maps whose
`[]` fails on an absent key; such a failure, and a failed `expect`, is a stop of its own (`Halt`), so
that a call that does not return stays visible in the result.
-/

namespace Sinan.Execution

open Lib Protocol Risk

structure ResolvedLegExecution (F : Type) where
  legId : LegId
  dependency : List LegId
  commandId : CommandId
  idempotencyKey : IdempotencyKey
  terminalId : Option TerminalId
  clientId : Option ClientId
  orderType : OrderType
  price : Option F
  deviationPoints : Option Int
  magic : Int
  comment : Option String
  fillingPolicy : Option FillingPolicy
  timePolicy : Option TimePolicy
  expirationTime : Option Int
  deriving DecidableEq

structure ExecutionBuildRequest (F : Type) where
  planId : PlanId
  nowMs : Int
  riskRequest : RiskRequest F
  riskResult : RiskResult F
  policy : ExecutionPolicy
  resolvedLegs : List (ResolvedLegExecution F)
  signingSecret : List UInt8
  deriving DecidableEq

structure ExecutionBundle (F : Type) where
  plan : ExecutionPlan F
  commands : List (ExecutionCommand F)
  commandStates : List ExecutionCommandState
  deriving DecidableEq

inductive ExecutionBuildOutcome (F : Type) where
  | noOp
  | built (bundle : ExecutionBundle F)
  deriving DecidableEq

inductive ExecutionBuildError (F : Type) where
  | invalidInput (field reason : String)
  | riskNotApproved (reason : String)
  | requiresReRisk (reason : String)
  | signing (error : SigningError F)
  | initialState (error : CommandTransitionError)
  deriving DecidableEq

/-- an `Err` that is returned, or a place where the source would not return -/
inductive Halt (F : Type) where
  | error (error : ExecutionBuildError F)
  | absentAdjusted (legId : LegId)
  | absentResolved (legId : LegId)
  | absentMetadata (legId : LegId)
  | topology (stop : Stop)
  deriving DecidableEq

/-- the halts the source has no result for -/
def Halt.crashes {F : Type} : Halt F → Bool
  | .error _ => false
  | _ => true

structure IntentLeg (F : Type) where
  legId : LegId
  symbol : SymbolCode
  action : ExecutionAction
  ratio : F
  tp : Option F
  deriving DecidableEq

section
variable {F : Type} [F64 F]

abbrev Build (F : Type) := Except (Halt F)

def invalid (field reason : String) : Halt F := .error (.invalidInput field reason)
def notApproved (reason : String) : Halt F := .error (.riskNotApproved reason)
def reRisk (reason : String) : Halt F := .error (.requiresReRisk reason)

def nonEmpty (field value : String) : Build F Unit :=
  reject (blank value) (invalid field "must not be empty")

def optionalNonEmpty (field : String) (value : Option String) : Build F Unit :=
  reject (blankOpt value) (invalid field "must not be empty when present")

def sameF64 (left right : F) : Bool := sameF64Bits left right

/-- `!value.is_finite() || value <= 0.0` -/
def notPositive (value : F) : Bool := !F64.isFinite value || F64.le value F64.zero

/-- an error of another validator, with its own field and reason -/
def liftResult (r : ResultCheck Unit) : Build F Unit :=
  match r with
  | .ok u => .ok u
  | .error e => .error (invalid e.field e.reason)

def liftPlan (r : PlanCheck) : Build F Unit :=
  match r with
  | .ok u => .ok u
  | .error e => .error (invalid e.field e.reason)

def liftSigning {α : Type} (r : SigningCheck F α) : Build F α :=
  match r with
  | .ok a => .ok a
  | .error e => .error (.error (.signing e))

def liftState {α : Type} (r : CommandCheck α) : Build F α :=
  match r with
  | .ok a => .ok a
  | .error e => .error (.error (.initialState e))

/-! ## the request as a whole -/

def validateCommon (digest : RequestDigest F) (request : ExecutionBuildRequest F) :
    Build F Unit := do
  nonEmpty "plan_id" request.planId
  reject (request.nowMs < 0) (invalid "now_ms" "must be a non-negative server timestamp")
  reject (request.policy.timeoutMs ≤ 0 ∨ request.policy.maxCommandTtlMs ≤ 0)
    (invalid "policy" "timeout_ms and max_command_ttl_ms must be positive")
  reject (request.policy.rollbackPolicy.bind RollbackPolicy.maxRetryAttempts = some 0)
    (invalid "rollback_policy.max_retry_attempts" "must be positive when present")
  reject request.signingSecret.isEmpty (invalid "signing_secret" "must not be empty")
  liftResult request.riskResult.validate
  reject (request.riskResult.approved = false) (notApproved request.riskResult.reason.asStr)
  let result := request.riskResult
  reject (result.riskId ≠ request.riskRequest.riskId ∨
      result.requestId ≠ request.riskRequest.requestId ∨
      result.intentId ≠ request.riskRequest.intent.intentId ∨
      result.accountId ≠ request.riskRequest.intent.accountId ∨
      result.decisionId ≠ request.riskRequest.intent.decisionId ∨
      result.evaluatedAt ≠ request.riskRequest.evaluatedAt)
    (reRisk "risk result identity does not match its request")
  reject (digest.hash request.riskRequest ≠ result.riskRequestHash)
    (reRisk "risk request hash does not match the approval")
  reject (request.nowMs < result.evaluatedAt ∨ request.nowMs ≥ result.validUntil)
    (reRisk "risk approval is not currently valid")

/-! ## the intended legs -/

def proposedLeg (leg : TradeIntentLeg F) : Build F (IntentLeg F) :=
  match leg.action with
  | .buy => .ok ⟨leg.legId, leg.symbol, .buy, leg.ratio, leg.proposedTp⟩
  | .sell => .ok ⟨leg.legId, leg.symbol, .sell, leg.ratio, leg.proposedTp⟩
  | .close => .error (notApproved ("CLOSE leg " ++ leg.legId ++ " is not executable in v1"))

def singleAction : TradeIntentAction → Build F ExecutionAction
  | .buy => .ok .buy
  | .sell => .ok .sell
  | _ => .error (notApproved "only BUY/SELL can produce an actionable plan")

def intentLegs (request : RiskRequest F) : Build F (List (IntentLeg F)) :=
  match request.intent.proposedLegs with
  | some legs => collect proposedLeg legs
  | none => do
    let action ← singleAction request.intent.action
    let candidate ← need
      (request.sizingCandidates.find? fun c => c.legId == singleLegId request.intent.intentId)
      (reRisk "single leg candidate missing")
    return [⟨candidate.legId, request.intent.symbol, action, F64.ofInt 1, request.intent.proposedTp⟩]

/-! ## topology -/

def IntentLeg.ids (legs : List (IntentLeg F)) : List LegId := legs.map IntentLeg.legId

/-- one edge from each dependency to its resolved leg -/
def resolvedEdges (resolved : List (ResolvedLegExecution F)) : List (LegId × LegId) :=
  resolved.flatMap fun leg => leg.dependency.map fun d => (d, leg.legId)

/-- the keys of the degree map: the ids, and every resolved leg that has a dependency -/
def topologyNodes (ids : List LegId) (resolved : List (ResolvedLegExecution F)) : List LegId :=
  ids ++ ((resolvedEdges resolved).map Prod.snd).dedup.filter fun id => id ∉ ids

def validateTopology (mode : ExecutionPlanMode) (legs : List (IntentLeg F))
    (resolved : List (ResolvedLegExecution F)) : Build F Unit := do
  let ids := IntentLeg.ids legs
  reject (¬ ids.Nodup) (invalid "legs[].leg_id" "must be globally unique within a plan")
  reject (mode = .simultaneous ∧ resolved.any fun leg => !leg.dependency.isEmpty)
    (invalid "resolved_legs[].dependency" "simultaneous plans cannot contain dependencies")
  each resolved fun leg =>
    reject (¬ dependenciesWellFormed ids leg.legId leg.dependency)
      (invalid "resolved_legs[].dependency"
        "dependencies must be unique, known, and cannot reference the same leg")
  match kahn (topologyNodes ids resolved) (resolvedEdges resolved) with
  | .error stop => .error (.topology stop)
  | .ok visited =>
    reject (visited ≠ ids.length)
      (invalid "resolved_legs[].dependency" "dependency graph must be acyclic")

/-! ## the three maps -/

/-- the approved legs, distinct and as many as the intended ones -/
def indexAdjustedLegs (result : RiskResult F) (legs : List (IntentLeg F)) :
    Build F (List (AdjustedRiskLeg F)) := do
  let adjusted ← need result.adjustedLegs (notApproved "approved actionable result has no legs")
  reject (adjusted.length ≠ legs.length) (reRisk "approved and intended leg counts differ")
  eachApart (fun y x => decide (y.legId = x.legId)) (fun _ => .ok ())
    (fun leg => reRisk ("duplicate approved leg " ++ leg.legId)) (fun _ => .ok ()) [] adjusted
  return adjusted

def candidateMatches (bound : SizingCandidateProvenance F) (c : PositionSizingCandidate F) : Bool :=
  bound.symbol == c.symbol && decide (bound.action = c.action) && sameF64 bound.ratio c.ratio &&
  sameF64 bound.worstEntryPrice c.worstEntryPrice && sameF64 bound.stopLossPrice c.stopLossPrice &&
  sameF64 bound.estimatedCostPerLot c.estimatedCostPerLot

def validateResultCandidates (request : RiskRequest F) (result : RiskResult F) : Build F Unit := do
  let approved ← need result.sizingCandidates
    (notApproved "approved actionable result has no candidates")
  reject (approved.length ≠ request.sizingCandidates.length)
    (reRisk "approved candidate set differs from risk request")
  each request.sizingCandidates fun c => do
    let bound ← need (approved.find? fun b => b.legId == c.legId)
      (reRisk ("candidate " ++ c.legId ++ " is not bound to the approval"))
    reject (candidateMatches bound c = false)
      (reRisk ("candidate " ++ c.legId ++ " changed after approval"))

/-- the metadata of each intended leg, keyed by leg id; a later insert shadows an earlier one -/
def indexMetadataLegs (accountId : AccountId) (metadata : List (SymbolMetadataSnapshot F)) :
    List (IntentLeg F) → Build F (List (LegId × SymbolMetadataSnapshot F))
  | [] => .ok []
  | leg :: rest => do
    let found ← need (metadata.find? fun m => m.symbol == leg.symbol)
      (reRisk ("metadata missing for " ++ leg.symbol))
    reject (found.accountId ≠ accountId ∨ blank found.brokerSymbol)
      (reRisk ("metadata identity differs for " ++ leg.symbol))
    let others ← indexMetadataLegs accountId metadata rest
    return others ++ [(leg.legId, found)]

def indexMetadata (request : RiskRequest F) (legs : List (IntentLeg F)) :
    Build F (List (LegId × SymbolMetadataSnapshot F)) := do
  eachApart (fun y x => decide (y.symbol = x.symbol)) (fun _ => .ok ())
    (fun m => reRisk ("duplicate metadata for " ++ m.symbol)) (fun _ => .ok ()) []
    request.symbolMetadata
  indexMetadataLegs request.intent.accountId request.symbolMetadata legs

def resolvedClash (y x : ResolvedLegExecution F) : Bool :=
  y.commandId == x.commandId || y.idempotencyKey == x.idempotencyKey || y.legId == x.legId

def indexResolved (resolved : List (ResolvedLegExecution F)) (legs : List (IntentLeg F)) :
    Build F (List (ResolvedLegExecution F)) := do
  reject (resolved.length ≠ legs.length)
    (invalid "resolved_legs" "must correspond one-to-one with intended legs")
  eachApart resolvedClash
    (fun leg => do
      nonEmpty "resolved_legs[].leg_id" leg.legId
      nonEmpty "resolved_legs[].command_id" leg.commandId
      nonEmpty "resolved_legs[].idempotency_key" leg.idempotencyKey
      optionalNonEmpty "resolved_legs[].terminal_id" leg.terminalId
      optionalNonEmpty "resolved_legs[].client_id" leg.clientId)
    (fun _ => invalid "resolved_legs" "leg, command, and idempotency identities must be unique")
    (fun _ => .ok ()) [] resolved
  return resolved

/-! ## one leg -/

def AdjustedRiskLegAction.toExecution : AdjustedRiskLegAction → ExecutionAction
  | .buy => .buy
  | .sell => .sell

/-- the entry price of a non-market order is not worse than the approved one -/
def withinEntryBound (approved : AdjustedRiskLeg F) (price : F) : Bool :=
  match approved.action with
  | .buy => F64.le price approved.sizingEntryPrice
  | .sell => F64.le approved.sizingEntryPrice price

def validateOrderPrice (intent : IntentLeg F) (approved : AdjustedRiskLeg F)
    (resolved : ResolvedLegExecution F) : Build F Unit :=
  match resolved.orderType with
  | .market =>
    reject resolved.price.isSome
      (invalid "resolved_legs[].price" "MARKET commands must not carry a price")
  | _ => do
    let price ← need resolved.price
      (invalid "resolved_legs[].price" "non-MARKET commands require a price")
    reject (notPositive price) (invalid "resolved_legs[].price" "must be positive and finite")
    reject (withinEntryBound approved price = false)
      (reRisk ("entry price for " ++ intent.legId ++ " exceeds the approved worst-entry bound"))

def validateLegBinding (intent : IntentLeg F) (approved : AdjustedRiskLeg F)
    (resolved : ResolvedLegExecution F) (metadata : SymbolMetadataSnapshot F) : Build F Unit := do
  reject (approved.legId ≠ intent.legId ∨ approved.symbol ≠ intent.symbol ∨
      AdjustedRiskLegAction.toExecution approved.action ≠ intent.action ∨
      resolved.legId ≠ intent.legId ∨ metadata.symbol ≠ intent.symbol)
    (reRisk ("leg " ++ intent.legId ++ " identity changed after approval"))
  each [("lots", approved.lots), ("approved_sl", approved.approvedSl), ("ratio", intent.ratio)]
    fun fv => reject (notPositive fv.2) (invalid fv.1 "must be positive and finite")
  reject (intent.tp.any notPositive) (invalid "tp" "must be positive and finite when present")
  validateOrderPrice intent approved resolved
  reject ((resolved.expirationTime.any fun t => t < 0) ∨ (resolved.deviationPoints.any fun v => v < 0))
    (invalid "resolved_legs" "expiration_time and deviation_points must be non-negative")

/-- what the loop reads: the intended legs, the three maps and the common expiry -/
structure Prepared (F : Type) where
  legs : List (IntentLeg F)
  adjusted : List (AdjustedRiskLeg F)
  metadata : List (LegId × SymbolMetadataSnapshot F)
  resolved : List (ResolvedLegExecution F)
  expiresAt : Int

/-- what the loop produces for one leg -/
structure BuiltLeg (F : Type) where
  leg : ExecutionLeg F
  command : ExecutionCommand F
  state : ExecutionCommandState

def executionLeg (intent : IntentLeg F) (approved : AdjustedRiskLeg F)
    (resolved : ResolvedLegExecution F) : ExecutionLeg F where
  definition :=
    { legId := intent.legId
      symbol := intent.symbol
      action := intent.action
      lots := some approved.lots
      sl := some approved.approvedSl
      tp := intent.tp
      ratio := intent.ratio
      dependency := resolved.dependency }
  state := { status := .pending }

def unsignedCommand (request : ExecutionBuildRequest F) (expiresAt : Int) (intent : IntentLeg F)
    (approved : AdjustedRiskLeg F) (resolved : ResolvedLegExecution F)
    (metadata : SymbolMetadataSnapshot F) : ExecutionCommand F where
  commandId := resolved.commandId
  planId := some request.planId
  legId := some intent.legId
  strategyId := request.riskRequest.intent.strategyId
  accountId := request.riskRequest.intent.accountId
  terminalId := resolved.terminalId
  clientId := resolved.clientId
  symbol := intent.symbol
  brokerSymbol := some metadata.brokerSymbol
  action := intent.action
  orderType := some resolved.orderType
  lots := some approved.lots
  price := resolved.price
  sl := some approved.approvedSl
  tp := intent.tp
  deviationPoints := resolved.deviationPoints
  magic := resolved.magic
  comment := resolved.comment
  positionTicket := none
  brokerOrderId := none
  fillingPolicy := resolved.fillingPolicy
  timePolicy := resolved.timePolicy
  expirationTime := resolved.expirationTime
  expiresAt := expiresAt
  idempotencyKey := resolved.idempotencyKey
  hmac := ""

/-- the body of the loop, with its three map accesses -/
def buildLeg (mac : Mac) (request : ExecutionBuildRequest F) (p : Prepared F)
    (intent : IntentLeg F) : Build F (BuiltLeg F) := do
  let approved ← need (p.adjusted.find? fun leg => leg.legId == intent.legId)
    (.absentAdjusted intent.legId)
  let resolved ← need (p.resolved.find? fun leg => leg.legId == intent.legId)
    (.absentResolved intent.legId)
  let metadata ← need (p.metadata.lookup intent.legId) (.absentMetadata intent.legId)
  validateLegBinding intent approved resolved metadata
  let unsigned := unsignedCommand request p.expiresAt intent approved resolved metadata
  let format ← liftSigning (CommandSigningFormat.fromSymbolMetadata metadata)
  let hmac ← liftSigning (signExecutionCommand mac unsigned request.signingSecret format)
  let command := { unsigned with hmac := hmac }
  let state ← liftState (initialCommandState command request.nowMs)
  return { leg := executionLeg intent approved resolved, command, state }

/-! ## the plan -/

def pendingPlan (request : ExecutionBuildRequest F) (legs : List (ExecutionLeg F)) :
    ExecutionPlan F where
  definition :=
    { planId := request.planId
      accountId := request.riskRequest.intent.accountId
      strategyId := request.riskRequest.intent.strategyId
      mode := request.policy.mode
      failurePolicy := request.policy.failurePolicy
      rollbackPolicy := request.policy.rollbackPolicy }
  legs := legs
  state := { status := .pending, filledLegs := [], failedLegs := [] }

/-- everything of `build_execution` before its loop, for an actionable intent -/
def prepare (request : ExecutionBuildRequest F) : Build F (Prepared F) := do
  let legs ← intentLegs request.riskRequest
  validateTopology request.policy.mode legs request.resolvedLegs
  let adjusted ← indexAdjustedLegs request.riskResult legs
  validateResultCandidates request.riskRequest request.riskResult
  let metadata ← indexMetadata request.riskRequest legs
  let resolved ← indexResolved request.resolvedLegs legs
  let ttlBoundary ← need (checkedAdd request.nowMs request.policy.maxCommandTtlMs)
    (invalid "max_command_ttl_ms" "timestamp overflow")
  let expiresAt := min (min request.riskRequest.intent.signalExpiresAt
    request.riskResult.validUntil) ttlBoundary
  reject (expiresAt ≤ request.nowMs) (reRisk "approval has no remaining execution window")
  return { legs, adjusted, metadata, resolved, expiresAt }

/-- the loop and the plan around its legs -/
def assemble (mac : Mac) (request : ExecutionBuildRequest F) (p : Prepared F) :
    Build F (ExecutionBuildOutcome F) := do
  let built ← collect (buildLeg mac request p) p.legs
  let plan := pendingPlan request (built.map BuiltLeg.leg)
  liftPlan plan.validate
  return .built { plan, commands := built.map BuiltLeg.command,
                  commandStates := built.map BuiltLeg.state }

def buildExecution (mac : Mac) (digest : RequestDigest F) (request : ExecutionBuildRequest F) :
    Build F (ExecutionBuildOutcome F) := do
  validateCommon digest request
  match request.riskRequest.intent.action with
  | .hold => do
    reject (request.resolvedLegs ≠ [] ∨ request.riskResult.adjustedLegs.isSome)
      (invalid "resolved_legs" "approved HOLD must remain a no-op")
    return .noOp
  | .close => .error (notApproved "v1 CLOSE lacks a provable target and close quantity")
  | _ => do
    let p ← prepare request
    assemble mac request p

end

end Sinan.Execution
