import Sinan.Breaker.Restore
import Sinan.Risk.Evaluator
import Sinan.Store.Bundle

/-!
# The risk workflow

One pass over a pending intent: assemble a risk request from the trusted snapshot and the trusted
configuration, evaluate it, build the execution of an approval, and hand the workflow to the store.
The snapshot is what the store has read in one transaction; decoding the payload of the circuit
breaker is a parameter.
-/

namespace Sinan.Core

open Lib Breaker Risk Execution Store Protocol

structure RiskWorkflowLeg (F : Type) where
  legId : LegId
  symbol : SymbolCode
  action : AdjustedRiskLegAction
  ratio : F
  proposedStopLoss : Option F

structure TrustedLegExecutionParameters (F : Type) where
  dependency : List LegId
  terminalId : Option TerminalId
  clientId : Option ClientId
  orderType : OrderType
  price : Option F
  deviationPoints : Option Int
  magic : Int
  comment : Option String
  fillingPolicy : Option FillingPolicy
  timePolicy : Option TimePolicy
  expirationTime : Option Int
  estimatedCostPerLot : F

/-- trusted policy and configuration; the secret is not empty -/
structure TrustedRiskWorkflowContext (F : Type) where
  riskPolicy : RiskPolicy F
  strategyPolicy : StrategyRiskPolicy F
  executionPolicy : ExecutionPolicy
  executionResolver : TradeIntent F → RiskWorkflowLeg F →
    Except String (TrustedLegExecutionParameters F)
  signingSecret : List UInt8
  secretGiven : signingSecret.isEmpty = false

/-- the stored intent with the time it was recorded -/
structure PendingIntent (F : Type) extends StoredTradeIntent F where
  createdAt : Int

structure PendingCommandSnapshot (F : Type) where
  command : ExecutionCommand F
  state : ExecutionCommandState

structure AccountReconciliationCheckpoint where
  positionsObservedAt : Int
  ordersObservedAt : Int
  pendingCommandsReconciledAt : Option Int

/-- all mutable inputs of one evaluation, of one account -/
structure TrustedRiskSnapshot (F : Type) where
  intent : PendingIntent F
  account : AccountSnapshot F
  checkpoint : AccountReconciliationCheckpoint
  positions : List (PositionSnapshot F)
  orders : List (OrderSnapshot F)
  symbolMetadata : List (SymbolMetadataSnapshot F)
  markets : List (RiskMarketSnapshot F)
  pendingCommands : List (PendingCommandSnapshot F)
  circuitBreaker : Option String
  capacity : RiskCapacity F

inductive RiskWorkflowError (F : Type) where
  | store (error : StoreError)
  | riskEvaluation (error : RiskEvaluationError)
  | executionBuild (halt : Halt F)
  | invalidTrustedInput (reason : String)
  | circuitBreakerUnavailable
  /-- the `expect` on the watermark, which a loaded snapshot always has -/
  | missingWatermark
  deriving DecidableEq

abbrev Workflow (F : Type) := Except (RiskWorkflowError F)

structure AssembledRiskWorkflow (F : Type) where
  request : RiskRequest F
  breaker : CircuitBreakerState
  resolvedLegs : List (ResolvedLegExecution F)
  intentCreatedAt : Int
  deriving DecidableEq

/-! ## identities -/

def initialRequestId (intentId : IntentId) : RequestId := "risk-request:" ++ intentId ++ ":initial"
def initialRiskId (intentId : IntentId) : RiskId := "risk:" ++ intentId ++ ":initial"
def initialPlanId (intentId : IntentId) : PlanId := "plan:" ++ intentId ++ ":initial"

def initialCommandId (intentId : IntentId) (legId : LegId) : CommandId :=
  "command:" ++ intentId ++ ":" ++ legId

def initialCommandIdempotencyKey (intentId : IntentId) (legId : LegId) : IdempotencyKey :=
  "command:" ++ intentId ++ ":" ++ legId ++ ":initial"

/-- `restore_circuit_breaker_snapshot`; `decode` reads the payload -/
def restoreCircuitBreakerSnapshot (decode : String → Option CircuitBreakerSnapshotV1)
    (snapshotJson : Option String) (serverNowMs : Int) : CircuitBreakerOutcome :=
  if serverNowMs < 0 then
    failClosedCircuitBreakerRestore (.invalidServerTime serverNowMs) serverNowMs
  else match snapshotJson with
    | none => failClosedCircuitBreakerRestore .missingSnapshot serverNowMs
    | some json => match decode json with
      | none => failClosedCircuitBreakerRestore .corruptPayload serverNowMs
      | some snapshot => restoreCircuitBreakerSnapshotV1 snapshot serverNowMs

section
variable {F : Type} [F64 F]

/-! ## legs -/

def openingAction : TradeIntentLegAction → Option AdjustedRiskLegAction
  | .buy => some .buy
  | .sell => some .sell
  | .close => none

def workflowLeg (leg : TradeIntentLeg F) : Option (RiskWorkflowLeg F) :=
  (openingAction leg.action).map fun action =>
    { legId := leg.legId, symbol := leg.symbol, action, ratio := leg.ratio
      proposedStopLoss := leg.proposedSl }

def workflowLegs (intent : TradeIntent F) : List (RiskWorkflowLeg F) :=
  match intent.proposedLegs with
  | some legs => legs.filterMap workflowLeg
  | none =>
    let single (action : AdjustedRiskLegAction) : List (RiskWorkflowLeg F) :=
      [{ legId := singleLegId intent.intentId, symbol := intent.symbol, action
         ratio := F64.ofInt 1, proposedStopLoss := intent.proposedSl }]
    match intent.action with
    | .buy => single .buy
    | .sell => single .sell
    | .close | .hold => []

def validateEvaluatedAt (evaluatedAt : Int) : Workflow F Unit :=
  reject (evaluatedAt < 0) (.invalidTrustedInput "evaluated_at must be non-negative")

def validateExecutionParameters (value : TrustedLegExecutionParameters F) : Workflow F Unit := do
  reject (F64.isFinite value.estimatedCostPerLot = false ∨
      F64.lt value.estimatedCostPerLot F64.zero)
    (.invalidTrustedInput "estimated_cost_per_lot must be finite and non-negative")
  reject (value.deviationPoints.any fun points => points < 0)
    (.invalidTrustedInput "deviation_points must be non-negative")
  reject (value.price.any notPositive)
    (.invalidTrustedInput "execution price must be positive and finite")

/-- the worst price the resolved order may fill at -/
def worstEntryPrice (leg : RiskWorkflowLeg F) (parameters : TrustedLegExecutionParameters F)
    (metadata : SymbolMetadataSnapshot F) (market : RiskMarketSnapshot F) : F :=
  let deviation := F64.mul (F64.ofInt (parameters.deviationPoints.getD 0)) metadata.point
  match leg.action with
  | .buy => F64.add (parameters.price.getD market.snapshot.ask) deviation
  | .sell => F64.sub (parameters.price.getD market.snapshot.bid) deviation

def sizingCandidate (leg : RiskWorkflowLeg F) (stopLossPrice : F)
    (parameters : TrustedLegExecutionParameters F) (metadata : SymbolMetadataSnapshot F)
    (market : RiskMarketSnapshot F) : PositionSizingCandidate F where
  legId := leg.legId
  symbol := leg.symbol
  action := leg.action
  ratio := leg.ratio
  worstEntryPrice := worstEntryPrice leg parameters metadata market
  stopLossPrice := stopLossPrice
  estimatedCostPerLot := parameters.estimatedCostPerLot

def resolvedLeg (intentId : IntentId) (leg : RiskWorkflowLeg F)
    (parameters : TrustedLegExecutionParameters F) : ResolvedLegExecution F where
  legId := leg.legId
  dependency := parameters.dependency
  commandId := initialCommandId intentId leg.legId
  idempotencyKey := initialCommandIdempotencyKey intentId leg.legId
  terminalId := parameters.terminalId
  clientId := parameters.clientId
  orderType := parameters.orderType
  price := parameters.price
  deviationPoints := parameters.deviationPoints
  magic := parameters.magic
  comment := parameters.comment
  fillingPolicy := parameters.fillingPolicy
  timePolicy := parameters.timePolicy
  expirationTime := parameters.expirationTime

/-- a failure of the resolver names its leg -/
def resolveParameters (context : TrustedRiskWorkflowContext F) (intent : TradeIntent F)
    (leg : RiskWorkflowLeg F) : Workflow F (TrustedLegExecutionParameters F) :=
  match context.executionResolver intent leg with
  | .ok parameters => .ok parameters
  | .error reason => .error (.invalidTrustedInput
      ("execution parameters for " ++ leg.legId ++ ": " ++ reason))

/-- the body of the loop: a leg without a stop, or of a symbol without a point size, is passed over -/
def assembleLeg (snapshot : TrustedRiskSnapshot F) (context : TrustedRiskWorkflowContext F)
    (leg : RiskWorkflowLeg F) :
    Workflow F (Option (PositionSizingCandidate F × ResolvedLegExecution F)) :=
  match leg.proposedStopLoss with
  | none => .ok none
  | some stopLossPrice => do
    let metadata ← need (snapshot.symbolMetadata.find? fun m => m.symbol == leg.symbol)
      (.invalidTrustedInput ("symbol metadata for " ++ leg.symbol ++
        " is missing from the trusted snapshot"))
    let market ← need (snapshot.markets.find? fun m => m.snapshot.symbol == leg.symbol)
      (.invalidTrustedInput ("market snapshot for " ++ leg.symbol ++
        " is missing from the trusted snapshot"))
    if notPositive metadata.point then return none
    else do
      let parameters ← resolveParameters context snapshot.intent.intent leg
      validateExecutionParameters parameters
      return some (sizingCandidate leg stopLossPrice parameters metadata market,
        resolvedLeg snapshot.intent.intent.intentId leg parameters)

/-- the decision is read off the intent -/
def decisionOf (intent : TradeIntent F) : StrategyDecision F where
  decisionId := intent.decisionId
  strategyId := intent.strategyId
  symbol := intent.symbol
  timeframe := intent.timeframe
  action := intent.action
  confidence := intent.confidence
  reason := intent.reason
  proposedRiskPct := intent.proposedRiskPct
  proposedSl := intent.proposedSl
  proposedTp := intent.proposedTp
  timestamp := intent.decisionTimestamp
  signalExpiresAt := intent.signalExpiresAt

def assembledRequest (snapshot : TrustedRiskSnapshot F) (evaluatedAt : Int)
    (context : TrustedRiskWorkflowContext F) (candidates : List (PositionSizingCandidate F))
    (reconciledAt : Int) : RiskRequest F where
  requestId := initialRequestId snapshot.intent.intent.intentId
  riskId := initialRiskId snapshot.intent.intent.intentId
  evaluatedAt := evaluatedAt
  decision := decisionOf snapshot.intent.intent
  intent := snapshot.intent.intent
  agentReview := none
  account := snapshot.account
  positions := snapshot.positions
  orders := snapshot.orders
  symbolMetadata := snapshot.symbolMetadata
  pendingCommands := snapshot.pendingCommands.map PendingCommandSnapshot.command
  pendingCommandStates := snapshot.pendingCommands.map PendingCommandSnapshot.state
  policy := context.riskPolicy
  strategyPolicy := context.strategyPolicy
  markets := snapshot.markets
  sizingCandidates := candidates
  stateWatermarks :=
    { positionsObservedAt := snapshot.checkpoint.positionsObservedAt
      ordersObservedAt := snapshot.checkpoint.ordersObservedAt
      pendingCommandsReconciledAt := reconciledAt }
  capacity := snapshot.capacity

def assembleRiskRequest (decode : String → Option CircuitBreakerSnapshotV1)
    (snapshot : TrustedRiskSnapshot F) (evaluatedAt : Int)
    (context : TrustedRiskWorkflowContext F) : Workflow F (AssembledRiskWorkflow F) := do
  let payload ← need snapshot.circuitBreaker .circuitBreakerUnavailable
  let restored := restoreCircuitBreakerSnapshot decode (some payload) evaluatedAt
  reject restored.error.isSome .circuitBreakerUnavailable
  let legs ← collect (assembleLeg snapshot context) (workflowLegs snapshot.intent.intent)
  let assembled := legs.filterMap id
  let reconciledAt ← need snapshot.checkpoint.pendingCommandsReconciledAt .missingWatermark
  return { request := assembledRequest snapshot evaluatedAt context (assembled.map Prod.fst)
             reconciledAt
           breaker := restored.state
           resolvedLegs := assembled.map Prod.snd
           intentCreatedAt := snapshot.intent.createdAt }

/-! ## one pass -/

def buildRequest (context : TrustedRiskWorkflowContext F) (evaluatedAt : Int)
    (assembled : AssembledRiskWorkflow F) (result : RiskResult F) : ExecutionBuildRequest F where
  planId := initialPlanId assembled.request.intent.intentId
  nowMs := evaluatedAt
  riskRequest := assembled.request
  riskResult := result
  policy := context.executionPolicy
  resolvedLegs := assembled.resolvedLegs
  signingSecret := context.signingSecret

def newExecutionWorkflow (evaluatedAt : Int) (assembled : AssembledRiskWorkflow F)
    (result : RiskResult F) (bundle : ExecutionBundle F) : NewExecutionWorkflow F where
  intent :=
    { intent := assembled.request.intent, initialStatus := .accepted
      recordedAt := assembled.intentCreatedAt }
  riskResult := result
  plan :=
    { plan := bundle.plan, riskId := assembled.request.riskId
      intentId := assembled.request.intent.intentId, recordedAt := evaluatedAt }
  commands := bundle.commands.map fun command =>
    { command, riskId := assembled.request.riskId, createdAt := evaluatedAt }
  commandStates := bundle.commandStates

inductive RiskWorkflowOutcome (F : Type) where
  | riskOnly (result : RiskResult F)
  | executionReady (result : RiskResult F) (plan : ExecutionPlan F)
      (commands : List (ExecutionCommand F))
  deriving DecidableEq

/-- the statements of one pass -/
abbrev Pass (P F : Type) := Script (WorkflowTables P F) (RiskWorkflowError F)

/-- the error of another stage, as one of the workflow -/
def liftStage {ε α : Type} (wrap : ε → RiskWorkflowError F) : Except ε α → Workflow F α
  | .ok a => .ok a
  | .error e => .error (wrap e)

variable {P : Type} [DecidableEq P] [DecidableEq F]

/-- `process_in_transaction` for a loaded snapshot -/
def processInTransaction (codec : JournalCodec P F)
    (decode : String → Option CircuitBreakerSnapshotV1) (mac : Mac) (digest : RequestDigest F)
    (snapshot : TrustedRiskSnapshot F) (evaluatedAt : Int) (context : TrustedRiskWorkflowContext F) :
    Pass P F (RiskWorkflowOutcome F) := do
  Script.query fun _ => validateEvaluatedAt evaluatedAt
  let assembled ← Script.query fun _ => assembleRiskRequest decode snapshot evaluatedAt context
  let result ← Script.query fun _ =>
    liftStage .riskEvaluation (evaluate digest assembled.request assembled.breaker)
  if result.approved = false ∨ assembled.request.intent.action = .hold then do
    let _ ← Script.mapError .store (insertRiskResult result)
    return .riskOnly result
  else do
    let outcome ← Script.query fun _ => liftStage .executionBuild
      (buildExecution mac digest (buildRequest context evaluatedAt assembled result))
    match outcome with
    | .noOp => do
      let _ ← Script.mapError .store (insertRiskResult result)
      return .riskOnly result
    | .built bundle => do
      let _ ← Script.mapError .store (commitExecutionWorkflowOn codec
        (newExecutionWorkflow evaluatedAt assembled result bundle))
      return .executionReady result bundle.plan bundle.commands

/-- `finish_in_transaction`: the transaction is committed, or rolled back on an error -/
def finishInTransaction (codec : JournalCodec P F)
    (decode : String → Option CircuitBreakerSnapshotV1) (mac : Mac) (digest : RequestDigest F)
    (snapshot : TrustedRiskSnapshot F) (evaluatedAt : Int) (context : TrustedRiskWorkflowContext F) :
    Pass P F (RiskWorkflowOutcome F) :=
  Script.savepoint (processInTransaction codec decode mac digest snapshot evaluatedAt context)

end

end Sinan.Core
