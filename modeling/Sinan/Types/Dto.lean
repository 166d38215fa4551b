import Sinan.Types.Enums

/-!
# Data transfer objects

The records the crates of the workspace hand to each other, generic in the type `F` of their numbers.
-/

namespace Sinan

/-! ## market and account snapshots -/

structure MarketSnapshot (F : Type) where
  symbol : SymbolCode
  brokerSymbol : Option String
  bid : F
  ask : F
  spread : F
  observedAt : Int
  deriving DecidableEq

structure SymbolMetadataSnapshot (F : Type) where
  accountId : AccountId
  symbol : SymbolCode
  brokerSymbol : String
  digits : Nat
  point : F
  tickSize : F
  tickValueLoss : F
  contractSize : F
  volumeMin : F
  volumeMax : F
  volumeStep : F
  stopsLevelPoints : Nat
  freezeLevelPoints : Nat
  marginInitial : Option F
  marginMaintenance : Option F
  tradeMode : SymbolTradeMode
  observedAt : Int
  deriving DecidableEq

structure AccountSnapshot (F : Type) where
  accountId : AccountId
  balance : F
  equity : F
  margin : F
  freeMargin : F
  currency : String
  observedAt : Int
  deriving DecidableEq

structure PositionSnapshot (F : Type) where
  accountId : AccountId
  symbol : SymbolCode
  positionId : PositionId
  side : PositionSide
  lots : F
  openPrice : F
  sl : Option F
  tp : Option F
  floatingPnl : F
  observedAt : Int
  deriving DecidableEq

structure OrderSnapshot (F : Type) where
  accountId : AccountId
  terminalId : Option TerminalId
  clientId : Option ClientId
  symbol : SymbolCode
  brokerSymbol : Option String
  brokerOrderId : BrokerOrderId
  positionTicket : Option PositionTicket
  commandId : Option CommandId
  planId : Option PlanId
  legId : Option LegId
  idempotencyKey : Option IdempotencyKey
  side : PositionSide
  orderType : OrderType
  status : OrderSnapshotStatus
  requestedLots : F
  filledLots : F
  remainingLots : F
  price : Option F
  sl : Option F
  tp : Option F
  createdAt : Option Int
  updatedAt : Option Int
  observedAt : Int
  deriving DecidableEq

/-! ## intent and risk -/

structure TradeIntentLeg (F : Type) where
  legId : LegId
  symbol : SymbolCode
  action : TradeIntentLegAction
  ratio : F
  proposedSl : Option F
  proposedTp : Option F
  deriving DecidableEq

structure TradeIntent (F : Type) where
  intentId : IntentId
  decisionId : DecisionId
  strategyId : StrategyId
  correlationId : CorrelationId
  idempotencyKey : IdempotencyKey
  accountId : AccountId
  symbol : SymbolCode
  timeframe : TimeframeCode
  action : TradeIntentAction
  confidence : F
  reason : String
  proposedRiskPct : F
  proposedSl : Option F
  proposedTp : Option F
  proposedLegs : Option (List (TradeIntentLeg F))
  decisionTimestamp : Int
  signalExpiresAt : Int
  requestedAt : Int
  deriving DecidableEq

structure RiskCapacity (F : Type) where
  accountId : AccountId
  strategyId : StrategyId
  observedAt : Int
  dailyRealizedLossPct : F
  equityDrawdownPct : F
  remainingAccountRiskPct : F
  remainingPortfolioRiskPct : F
  remainingStrategyLegs : Nat
  deriving DecidableEq

structure SizingCandidateProvenance (F : Type) where
  legId : LegId
  symbol : SymbolCode
  action : AdjustedRiskLegAction
  ratio : F
  worstEntryPrice : F
  stopLossPrice : F
  estimatedCostPerLot : F
  deriving DecidableEq

structure AdjustedRiskLeg (F : Type) where
  legId : LegId
  symbol : SymbolCode
  action : AdjustedRiskLegAction
  lots : F
  riskAmount : F
  riskPct : F
  sizingEntryPrice : F
  approvedSl : F
  lossPerLot : F
  reason : Option ErrorCodeOrString
  deriving DecidableEq

structure RiskResult (F : Type) where
  riskId : RiskId
  requestId : RequestId
  intentId : IntentId
  accountId : AccountId
  riskRequestHash : String
  approved : Bool
  reason : ErrorCodeOrString
  message : Option String
  sizingVersion : Option String
  riskBaseAmount : Option F
  riskBudgetAmount : Option F
  adjustedRiskPct : Option F
  sizingCandidates : Option (List (SizingCandidateProvenance F))
  adjustedLegs : Option (List (AdjustedRiskLeg F))
  decisionId : DecisionId
  snapshotAgeMs : Int
  marketSnapshotAgeMs : Int
  symbolMetadataAgeMs : Int
  capacityAgeMs : Int
  evaluatedAt : Int
  validUntil : Int
  deriving DecidableEq

/-! ## execution -/

structure ExecutionCommand (F : Type) where
  commandId : CommandId
  planId : Option PlanId
  legId : Option LegId
  strategyId : StrategyId
  accountId : AccountId
  terminalId : Option TerminalId
  clientId : Option ClientId
  symbol : SymbolCode
  brokerSymbol : Option String
  action : ExecutionAction
  orderType : Option OrderType
  lots : Option F
  price : Option F
  sl : Option F
  tp : Option F
  deviationPoints : Option Int
  magic : Int
  comment : Option String
  positionTicket : Option PositionTicket
  brokerOrderId : Option BrokerOrderId
  fillingPolicy : Option FillingPolicy
  timePolicy : Option TimePolicy
  expirationTime : Option Int
  expiresAt : Int
  idempotencyKey : IdempotencyKey
  hmac : String
  deriving DecidableEq

structure RollbackPolicy where
  mode : RollbackMode
  maxRetryAttempts : Option Nat
  deriving DecidableEq

structure ExecutionPolicy where
  mode : ExecutionPlanMode
  failurePolicy : ExecutionFailurePolicy
  timeoutMs : Int
  maxCommandTtlMs : Int
  rollbackPolicy : Option RollbackPolicy
  deriving DecidableEq

/-- immutable fields of a plan leg; the status is projected separately -/
structure ExecutionLegDefinition (F : Type) where
  legId : LegId
  symbol : SymbolCode
  action : ExecutionAction
  lots : Option F
  sl : Option F
  tp : Option F
  ratio : F
  dependency : List LegId
  deriving DecidableEq

structure ExecutionLegState where
  status : ExecutionLegStatus
  deriving DecidableEq

structure ExecutionLeg (F : Type) where
  definition : ExecutionLegDefinition F
  state : ExecutionLegState
  deriving DecidableEq

structure ExecutionPlanDefinition where
  planId : PlanId
  accountId : AccountId
  strategyId : StrategyId
  mode : ExecutionPlanMode
  failurePolicy : ExecutionFailurePolicy
  rollbackPolicy : Option RollbackPolicy
  deriving DecidableEq

structure ExecutionPlanState where
  status : ExecutionPlanStatus
  filledLegs : List LegId
  failedLegs : List LegId
  deriving DecidableEq

structure ExecutionPlan (F : Type) where
  definition : ExecutionPlanDefinition
  legs : List (ExecutionLeg F)
  state : ExecutionPlanState
  deriving DecidableEq

structure ExecutionCommandState where
  commandId : CommandId
  accountId : AccountId
  planId : Option PlanId
  legId : Option LegId
  status : ExecutionCommandStatus
  deliveryAttempts : Nat
  lastDeliveryError : Option String
  createdAt : Int
  dispatchedAt : Option Int
  commandReceivedAt : Option Int
  reconcilingAt : Option Int
  completedAt : Option Int
  updatedAt : Int
  deriving DecidableEq

structure ExecutionEvent (F : Type) where
  executionId : ExecutionId
  commandId : CommandId
  planId : Option PlanId
  legId : Option LegId
  accountId : AccountId
  terminalId : Option TerminalId
  clientId : Option ClientId
  symbol : SymbolCode
  brokerSymbol : Option String
  status : ExecutionEventStatus
  brokerOrderId : Option BrokerOrderId
  brokerDealId : Option BrokerDealId
  positionTicket : Option PositionTicket
  idempotencyKey : Option IdempotencyKey
  requestedLots : Option F
  fillPrice : Option F
  filledLots : Option F
  remainingLots : Option F
  eventAt : Int
  filledAt : Option Int
  brokerFilledAt : Option Int
  errorCode : Option ErrorCodeOrString
  message : Option String
  deriving DecidableEq

/-! ## receipts -/

inductive CommandInboxStatus where
  | recorded
  | duplicate
  | expired
  | rejected
  deriving DecidableEq

structure CommandReceived where
  commandId : CommandId
  idempotencyKey : IdempotencyKey
  accountId : AccountId
  terminalId : Option TerminalId
  clientId : Option ClientId
  receivedAt : Int
  inboxStatus : CommandInboxStatus
  deriving DecidableEq

end Sinan
