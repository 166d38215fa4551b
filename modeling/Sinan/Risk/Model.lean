import Sinan.Types.RiskResult

/-!
# Risk requests

The self-contained input of one risk evaluation.  Its digest is a parameter (`RequestDigest`): some
function of the request whose value is a lower-case SHA-256 digest.
-/

namespace Sinan.Risk

inductive AgentReviewRecommendation where
  | none
  | skip
  | reduceRisk
  | manualReview
  deriving DecidableEq

structure AgentReview (F : Type) where
  reviewId : String
  scoreAdjustment : F
  recommendation : AgentReviewRecommendation
  reason : String
  deriving DecidableEq

structure StrategyDecision (F : Type) where
  decisionId : DecisionId
  strategyId : StrategyId
  symbol : SymbolCode
  timeframe : TimeframeCode
  action : TradeIntentAction
  confidence : F
  reason : String
  proposedRiskPct : F
  proposedSl : Option F
  proposedTp : Option F
  timestamp : Int
  signalExpiresAt : Int
  deriving DecidableEq

structure PositionSizingCandidate (F : Type) where
  legId : LegId
  symbol : SymbolCode
  action : AdjustedRiskLegAction
  ratio : F
  worstEntryPrice : F
  stopLossPrice : F
  estimatedCostPerLot : F
  deriving DecidableEq

structure RiskPolicy (F : Type) where
  positionSizingVersion : String
  maxRiskPerTradePct : F
  maxDailyLossPct : F
  maxDrawdownPct : F
  maxSymbolExposurePct : F
  maxTotalExposurePct : F
  maxMarginUsagePct : F
  requireStopLoss : Bool
  rejectExpiredSignal : Bool
  maxApprovalTtlMs : Int
  maxSnapshotAgeMs : Int
  maxOrderSnapshotAgeMs : Int
  maxMarketSnapshotAgeMs : Int
  maxSymbolMetadataAgeMs : Int
  maxCapacityAgeMs : Int
  maxConcurrentPositions : Nat
  requireValidSymbolMetadata : Bool
  rejectTradeModeDisabled : Bool
  deriving DecidableEq

structure StrategyRiskPolicy (F : Type) where
  maxRiskPerTradePct : F
  maxConcurrentLegs : Nat
  requireStopLoss : Bool
  signalExpiryBars : Nat
  deriving DecidableEq

/-- account-level watermarks: empty position and order lists are fresh full snapshots -/
structure RiskStateWatermarks where
  positionsObservedAt : Int
  ordersObservedAt : Int
  pendingCommandsReconciledAt : Int
  deriving DecidableEq

structure RiskMarketSnapshot (F : Type) where
  accountId : AccountId
  snapshot : MarketSnapshot F
  deriving DecidableEq

structure RiskRequest (F : Type) where
  requestId : RequestId
  riskId : RiskId
  evaluatedAt : Int
  decision : StrategyDecision F
  intent : TradeIntent F
  agentReview : Option (AgentReview F)
  account : AccountSnapshot F
  positions : List (PositionSnapshot F)
  orders : List (OrderSnapshot F)
  symbolMetadata : List (SymbolMetadataSnapshot F)
  pendingCommands : List (ExecutionCommand F)
  pendingCommandStates : List ExecutionCommandState
  policy : RiskPolicy F
  strategyPolicy : StrategyRiskPolicy F
  markets : List (RiskMarketSnapshot F)
  sizingCandidates : List (PositionSizingCandidate F)
  stateWatermarks : RiskStateWatermarks
  capacity : RiskCapacity F
  deriving DecidableEq

/-- `risk_request_hash`: SHA-256 over the request, in lower-case hexadecimal -/
structure RequestDigest (F : Type) where
  hash : RiskRequest F → String
  isSha256 : ∀ request, isSha256 (hash request) = true

/-! ## a request to buy gold

One leg, no open exposure: 1% of 10000 at a stop 1000 ticks away. -/

def goldDecision : StrategyDecision ℚ where
  decisionId := "decision-1"
  strategyId := "strategy-1"
  symbol := "XAUUSD"
  timeframe := "M15"
  action := .buy
  confidence := 1 / 2
  reason := "breakout"
  proposedRiskPct := 1
  proposedSl := some 1990
  proposedTp := some (4041 / 2)
  timestamp := 9000
  signalExpiresAt := 60000

def goldIntent : TradeIntent ℚ where
  intentId := "intent-1"
  decisionId := "decision-1"
  strategyId := "strategy-1"
  correlationId := "correlation-1"
  idempotencyKey := "intent-key-1"
  accountId := "account-1"
  symbol := "XAUUSD"
  timeframe := "M15"
  action := .buy
  confidence := 1 / 2
  reason := "breakout"
  proposedRiskPct := 1
  proposedSl := some 1990
  proposedTp := some (4041 / 2)
  proposedLegs := none
  decisionTimestamp := 9000
  signalExpiresAt := 60000
  requestedAt := 9500

def goldMetadata : SymbolMetadataSnapshot ℚ where
  accountId := "account-1"
  symbol := "XAUUSD"
  brokerSymbol := "XAUUSD"
  digits := 2
  point := 1 / 100
  tickSize := 1 / 100
  tickValueLoss := 1
  contractSize := 100
  volumeMin := 1 / 100
  volumeMax := 100
  volumeStep := 1 / 100
  stopsLevelPoints := 0
  freezeLevelPoints := 0
  marginInitial := some 1000
  marginMaintenance := none
  tradeMode := .full
  observedAt := 9900

def goldPolicy : RiskPolicy ℚ where
  positionSizingVersion := "fixed-risk-at-stop.v1"
  maxRiskPerTradePct := 1
  maxDailyLossPct := 5
  maxDrawdownPct := 10
  maxSymbolExposurePct := 400
  maxTotalExposurePct := 400
  maxMarginUsagePct := 50
  requireStopLoss := true
  rejectExpiredSignal := true
  maxApprovalTtlMs := 30000
  maxSnapshotAgeMs := 30000
  maxOrderSnapshotAgeMs := 30000
  maxMarketSnapshotAgeMs := 30000
  maxSymbolMetadataAgeMs := 30000
  maxCapacityAgeMs := 30000
  maxConcurrentPositions := 5
  requireValidSymbolMetadata := true
  rejectTradeModeDisabled := true

def goldRequest : RiskRequest ℚ where
  requestId := "request-1"
  riskId := "risk-1"
  evaluatedAt := 10000
  decision := goldDecision
  intent := goldIntent
  agentReview := none
  account :=
    { accountId := "account-1", balance := 10000, equity := 10000, margin := 0, freeMargin := 10000
      currency := "USD", observedAt := 9900 }
  positions := []
  orders := []
  symbolMetadata := [goldMetadata]
  pendingCommands := []
  pendingCommandStates := []
  policy := goldPolicy
  strategyPolicy :=
    { maxRiskPerTradePct := 1, maxConcurrentLegs := 2, requireStopLoss := true
      signalExpiryBars := 3 }
  markets :=
    [{ accountId := "account-1"
       snapshot :=
        { symbol := "XAUUSD", brokerSymbol := some "XAUUSD", bid := 3999 / 2, ask := 2000
          spread := 1 / 2, observedAt := 9900 } }]
  sizingCandidates :=
    [{ legId := "leg:intent-1:0", symbol := "XAUUSD", action := .buy, ratio := 1
       worstEntryPrice := 2000, stopLossPrice := 1990, estimatedCostPerLot := 0 }]
  stateWatermarks :=
    { positionsObservedAt := 9900, ordersObservedAt := 9900, pendingCommandsReconciledAt := 9900 }
  capacity :=
    { accountId := "account-1", strategyId := "strategy-1", observedAt := 9950
      dailyRealizedLossPct := 0, equityDrawdownPct := 0, remainingAccountRiskPct := 5
      remainingPortfolioRiskPct := 5, remainingStrategyLegs := 2 }

/-- the digest of `goldRequest` -/
def goldHash : String := "930871dbb6502038cde1bdd7c1a486178c9fb0130505bab3c66a1845d873188b"

def goldDigest : RequestDigest ℚ where
  hash := fun _ => goldHash
  isSha256 := fun _ => by decide

/-- its approval: a tenth of a lot -/
def goldResult : RiskResult ℚ where
  riskId := "risk-1"
  requestId := "request-1"
  intentId := "intent-1"
  accountId := "account-1"
  riskRequestHash := goldHash
  approved := true
  reason := .other "OK"
  message := none
  sizingVersion := some "fixed-risk-at-stop.v1"
  riskBaseAmount := some 10000
  riskBudgetAmount := some 100
  adjustedRiskPct := some 1
  sizingCandidates := some
    [{ legId := "leg:intent-1:0", symbol := "XAUUSD", action := .buy, ratio := 1
       worstEntryPrice := 2000, stopLossPrice := 1990, estimatedCostPerLot := 0 }]
  adjustedLegs := some
    [{ legId := "leg:intent-1:0", symbol := "XAUUSD", action := .buy, lots := 1 / 10
       riskAmount := 100, riskPct := 1, sizingEntryPrice := 2000, approvedSl := 1990
       lossPerLot := 1000, reason := some (.other "OK") }]
  decisionId := "decision-1"
  snapshotAgeMs := 100
  marketSnapshotAgeMs := 100
  symbolMetadataAgeMs := 100
  capacityAgeMs := 50
  evaluatedAt := 10000
  validUntil := 39900

/-! ## two legs

Gold is bought and silver is sold, half of the risk each: a fifth of the lots in gold. -/

def goldPart : TradeIntentLeg ℚ := ⟨"leg-gold", "XAUUSD", .buy, 1, some 1990, some (4041 / 2)⟩

def silverPart : TradeIntentLeg ℚ := ⟨"leg-silver", "XAGUSD", .sell, 5, some 26, none⟩

def silverMetadata : SymbolMetadataSnapshot ℚ :=
  { goldMetadata with symbol := "XAGUSD", brokerSymbol := "XAGUSD" }

def silverMarket : RiskMarketSnapshot ℚ where
  accountId := "account-1"
  snapshot :=
    { symbol := "XAGUSD", brokerSymbol := some "XAGUSD", bid := 24, ask := 49 / 2, spread := 1 / 2
      observedAt := 9900 }

def pairRequest : RiskRequest ℚ :=
  { goldRequest with
    intent := { goldIntent with proposedLegs := some [goldPart, silverPart] }
    symbolMetadata := [goldMetadata, silverMetadata]
    markets := goldRequest.markets ++ [silverMarket]
    sizingCandidates :=
      [{ legId := "leg-gold", symbol := "XAUUSD", action := .buy, ratio := 1
         worstEntryPrice := 2000, stopLossPrice := 1990, estimatedCostPerLot := 0 },
        { legId := "leg-silver", symbol := "XAGUSD", action := .sell, ratio := 5
          worstEntryPrice := 24, stopLossPrice := 26, estimatedCostPerLot := 0 }] }

def pairResult : RiskResult ℚ :=
  { goldResult with
    sizingCandidates := some
      [{ legId := "leg-gold", symbol := "XAUUSD", action := .buy, ratio := 1
         worstEntryPrice := 2000, stopLossPrice := 1990, estimatedCostPerLot := 0 },
        { legId := "leg-silver", symbol := "XAGUSD", action := .sell, ratio := 5
          worstEntryPrice := 24, stopLossPrice := 26, estimatedCostPerLot := 0 }]
    adjustedLegs := some
      [{ legId := "leg-gold", symbol := "XAUUSD", action := .buy, lots := 1 / 20
         riskAmount := 50, riskPct := 1 / 2, sizingEntryPrice := 2000, approvedSl := 1990
         lossPerLot := 1000, reason := some (.other "OK") },
        { legId := "leg-silver", symbol := "XAGUSD", action := .sell, lots := 1 / 4
          riskAmount := 50, riskPct := 1 / 2, sizingEntryPrice := 24, approvedSl := 26
          lossPerLot := 200, reason := some (.other "OK") }] }

end Sinan.Risk
