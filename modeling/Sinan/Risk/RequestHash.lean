import Sinan.Lib.Binding
import Sinan.Lib.Json
import Sinan.Risk.Model

/-!
# The bytes of a request's digest

A request is digested as its JSON text followed by the bits of all its numbers: the text writes every
number that is not finite as `null`.  Numbers are held as their 64 bits here.  The text comes from a
library and is a parameter; the tree it is made from and the walk over the numbers are the source's.
-/

namespace Sinan.Risk

open Lib Json

/-- the numbers a request serializes: integers, and finite floats by their bits -/
inductive JsonNumber where
  | int (value : Int)
  | float (bits : UInt64)
  deriving DecidableEq

abbrev JsonValue := Json JsonNumber

/-- the exponent is not the one of infinities and NaNs -/
def isFiniteBits (bits : UInt64) : Bool := (bits >>> 52) &&& 0x7FF != 0x7FF

/-! ## the tree -/

def int (value : Int) : JsonValue := .number (.int value)

def nat (value : Nat) : JsonValue := int value

def float (bits : UInt64) : JsonValue := if isFiniteBits bits then .number (.float bits) else .null

/-- an option that is not left out when it is empty -/
def nullable (value : Option JsonValue) : Option JsonValue := some (value.getD .null)

def AgentReviewRecommendation.asStr : AgentReviewRecommendation → String
  | .none => "none"
  | .skip => "skip"
  | .reduceRisk => "reduce_risk"
  | .manualReview => "manual_review"

def agentReviewJson (x : AgentReview UInt64) : JsonValue :=
  record
    [("review_id", some (.string x.reviewId)),
      ("score_adjustment", some (float x.scoreAdjustment)),
      ("recommendation", some (.string x.recommendation.asStr)),
      ("reason", some (.string x.reason))]

def decisionJson (x : StrategyDecision UInt64) : JsonValue :=
  record
    [("decision_id", some (.string x.decisionId)),
      ("strategy_id", some (.string x.strategyId)),
      ("symbol", some (.string x.symbol)),
      ("timeframe", some (.string x.timeframe)),
      ("action", some (.string x.action.asStr)),
      ("confidence", some (float x.confidence)),
      ("reason", some (.string x.reason)),
      ("proposed_risk_pct", some (float x.proposedRiskPct)),
      ("proposed_sl", nullable (x.proposedSl.map float)),
      ("proposed_tp", nullable (x.proposedTp.map float)),
      ("timestamp", some (int x.timestamp)),
      ("signal_expires_at", some (int x.signalExpiresAt))]

def intentLegJson (x : TradeIntentLeg UInt64) : JsonValue :=
  record
    [("leg_id", some (.string x.legId)),
      ("symbol", some (.string x.symbol)),
      ("action", some (.string x.action.asStr)),
      ("ratio", some (float x.ratio)),
      ("proposed_sl", x.proposedSl.map float),
      ("proposed_tp", x.proposedTp.map float)]

def intentJson (x : TradeIntent UInt64) : JsonValue :=
  record
    [("intent_id", some (.string x.intentId)),
      ("decision_id", some (.string x.decisionId)),
      ("strategy_id", some (.string x.strategyId)),
      ("correlation_id", some (.string x.correlationId)),
      ("idempotency_key", some (.string x.idempotencyKey)),
      ("account_id", some (.string x.accountId)),
      ("symbol", some (.string x.symbol)),
      ("timeframe", some (.string x.timeframe)),
      ("action", some (.string x.action.asStr)),
      ("confidence", some (float x.confidence)),
      ("reason", some (.string x.reason)),
      ("proposed_risk_pct", some (float x.proposedRiskPct)),
      ("proposed_sl", x.proposedSl.map float),
      ("proposed_tp", x.proposedTp.map float),
      ("proposed_legs", x.proposedLegs.map fun legs => .array (legs.map intentLegJson)),
      ("decision_timestamp", some (int x.decisionTimestamp)),
      ("signal_expires_at", some (int x.signalExpiresAt)),
      ("requested_at", some (int x.requestedAt))]

def accountJson (x : AccountSnapshot UInt64) : JsonValue :=
  record
    [("account_id", some (.string x.accountId)),
      ("balance", some (float x.balance)),
      ("equity", some (float x.equity)),
      ("margin", some (float x.margin)),
      ("free_margin", some (float x.freeMargin)),
      ("currency", some (.string x.currency)),
      ("observed_at", some (int x.observedAt))]

def positionJson (x : PositionSnapshot UInt64) : JsonValue :=
  record
    [("account_id", some (.string x.accountId)),
      ("symbol", some (.string x.symbol)),
      ("position_id", some (.string x.positionId)),
      ("side", some (.string x.side.asStr)),
      ("lots", some (float x.lots)),
      ("open_price", some (float x.openPrice)),
      ("sl", x.sl.map float),
      ("tp", x.tp.map float),
      ("floating_pnl", some (float x.floatingPnl)),
      ("observed_at", some (int x.observedAt))]

def orderJson (x : OrderSnapshot UInt64) : JsonValue :=
  record
    [("account_id", some (.string x.accountId)),
      ("terminal_id", x.terminalId.map .string),
      ("client_id", x.clientId.map .string),
      ("symbol", some (.string x.symbol)),
      ("broker_symbol", x.brokerSymbol.map .string),
      ("broker_order_id", some (.string x.brokerOrderId)),
      ("position_ticket", x.positionTicket.map .string),
      ("command_id", x.commandId.map .string),
      ("plan_id", x.planId.map .string),
      ("leg_id", x.legId.map .string),
      ("idempotency_key", x.idempotencyKey.map .string),
      ("side", some (.string x.side.asStr)),
      ("order_type", some (.string x.orderType.asStr)),
      ("status", some (.string x.status.asStr)),
      ("requested_lots", some (float x.requestedLots)),
      ("filled_lots", some (float x.filledLots)),
      ("remaining_lots", some (float x.remainingLots)),
      ("price", x.price.map float),
      ("sl", x.sl.map float),
      ("tp", x.tp.map float),
      ("created_at", x.createdAt.map int),
      ("updated_at", x.updatedAt.map int),
      ("observed_at", some (int x.observedAt))]

def metadataJson (x : SymbolMetadataSnapshot UInt64) : JsonValue :=
  record
    [("account_id", some (.string x.accountId)),
      ("symbol", some (.string x.symbol)),
      ("broker_symbol", some (.string x.brokerSymbol)),
      ("digits", some (nat x.digits)),
      ("point", some (float x.point)),
      ("tick_size", some (float x.tickSize)),
      ("tick_value_loss", some (float x.tickValueLoss)),
      ("contract_size", some (float x.contractSize)),
      ("volume_min", some (float x.volumeMin)),
      ("volume_max", some (float x.volumeMax)),
      ("volume_step", some (float x.volumeStep)),
      ("stops_level_points", some (nat x.stopsLevelPoints)),
      ("freeze_level_points", some (nat x.freezeLevelPoints)),
      ("margin_initial", x.marginInitial.map float),
      ("margin_maintenance", x.marginMaintenance.map float),
      ("trade_mode", some (.string x.tradeMode.asStr)),
      ("observed_at", some (int x.observedAt))]

def commandJson (x : ExecutionCommand UInt64) : JsonValue :=
  record
    [("command_id", some (.string x.commandId)),
      ("plan_id", x.planId.map .string),
      ("leg_id", x.legId.map .string),
      ("strategy_id", some (.string x.strategyId)),
      ("account_id", some (.string x.accountId)),
      ("terminal_id", x.terminalId.map .string),
      ("client_id", x.clientId.map .string),
      ("symbol", some (.string x.symbol)),
      ("broker_symbol", x.brokerSymbol.map .string),
      ("action", some (.string x.action.asStr)),
      ("order_type", x.orderType.map fun t => .string t.asStr),
      ("lots", x.lots.map float),
      ("price", x.price.map float),
      ("sl", x.sl.map float),
      ("tp", x.tp.map float),
      ("deviation_points", x.deviationPoints.map int),
      ("magic", some (int x.magic)),
      ("comment", x.comment.map .string),
      ("position_ticket", x.positionTicket.map .string),
      ("broker_order_id", x.brokerOrderId.map .string),
      ("filling_policy", x.fillingPolicy.map fun p => .string p.asStr),
      ("time_policy", x.timePolicy.map fun p => .string p.asStr),
      ("expiration_time", x.expirationTime.map int),
      ("expires_at", some (int x.expiresAt)),
      ("idempotency_key", some (.string x.idempotencyKey)),
      ("hmac", some (.string x.hmac))]

def commandStateJson (x : ExecutionCommandState) : JsonValue :=
  record
    [("command_id", some (.string x.commandId)),
      ("account_id", some (.string x.accountId)),
      ("plan_id", x.planId.map .string),
      ("leg_id", x.legId.map .string),
      ("status", some (.string x.status.asStr)),
      ("delivery_attempts", some (nat x.deliveryAttempts)),
      ("last_delivery_error", x.lastDeliveryError.map .string),
      ("created_at", some (int x.createdAt)),
      ("dispatched_at", x.dispatchedAt.map int),
      ("command_received_at", x.commandReceivedAt.map int),
      ("reconciling_at", x.reconcilingAt.map int),
      ("completed_at", x.completedAt.map int),
      ("updated_at", some (int x.updatedAt))]

def policyJson (x : RiskPolicy UInt64) : JsonValue :=
  record
    [("position_sizing_version", some (.string x.positionSizingVersion)),
      ("max_risk_per_trade_pct", some (float x.maxRiskPerTradePct)),
      ("max_daily_loss_pct", some (float x.maxDailyLossPct)),
      ("max_drawdown_pct", some (float x.maxDrawdownPct)),
      ("max_symbol_exposure_pct", some (float x.maxSymbolExposurePct)),
      ("max_total_exposure_pct", some (float x.maxTotalExposurePct)),
      ("max_margin_usage_pct", some (float x.maxMarginUsagePct)),
      ("require_stop_loss", some (.bool x.requireStopLoss)),
      ("reject_expired_signal", some (.bool x.rejectExpiredSignal)),
      ("max_approval_ttl_ms", some (int x.maxApprovalTtlMs)),
      ("max_snapshot_age_ms", some (int x.maxSnapshotAgeMs)),
      ("max_order_snapshot_age_ms", some (int x.maxOrderSnapshotAgeMs)),
      ("max_market_snapshot_age_ms", some (int x.maxMarketSnapshotAgeMs)),
      ("max_symbol_metadata_age_ms", some (int x.maxSymbolMetadataAgeMs)),
      ("max_capacity_age_ms", some (int x.maxCapacityAgeMs)),
      ("max_concurrent_positions", some (nat x.maxConcurrentPositions)),
      ("require_valid_symbol_metadata", some (.bool x.requireValidSymbolMetadata)),
      ("reject_trade_mode_disabled", some (.bool x.rejectTradeModeDisabled))]

def strategyPolicyJson (x : StrategyRiskPolicy UInt64) : JsonValue :=
  record
    [("max_risk_per_trade_pct", some (float x.maxRiskPerTradePct)),
      ("max_concurrent_legs", some (nat x.maxConcurrentLegs)),
      ("require_stop_loss", some (.bool x.requireStopLoss)),
      ("signal_expiry_bars", some (nat x.signalExpiryBars))]

def marketJson (x : RiskMarketSnapshot UInt64) : JsonValue :=
  record
    [("account_id", some (.string x.accountId)),
      ("snapshot", some (record
        [("symbol", some (.string x.snapshot.symbol)),
          ("broker_symbol", x.snapshot.brokerSymbol.map .string),
          ("bid", some (float x.snapshot.bid)),
          ("ask", some (float x.snapshot.ask)),
          ("spread", some (float x.snapshot.spread)),
          ("observed_at", some (int x.snapshot.observedAt))]))]

def candidateJson (x : PositionSizingCandidate UInt64) : JsonValue :=
  record
    [("leg_id", some (.string x.legId)),
      ("symbol", some (.string x.symbol)),
      ("action", some (.string x.action.asStr)),
      ("ratio", some (float x.ratio)),
      ("worst_entry_price", some (float x.worstEntryPrice)),
      ("stop_loss_price", some (float x.stopLossPrice)),
      ("estimated_cost_per_lot", some (float x.estimatedCostPerLot))]

def watermarksJson (x : RiskStateWatermarks) : JsonValue :=
  record
    [("positions_observed_at", some (int x.positionsObservedAt)),
      ("orders_observed_at", some (int x.ordersObservedAt)),
      ("pending_commands_reconciled_at", some (int x.pendingCommandsReconciledAt))]

def capacityJson (x : RiskCapacity UInt64) : JsonValue :=
  record
    [("account_id", some (.string x.accountId)),
      ("strategy_id", some (.string x.strategyId)),
      ("observed_at", some (int x.observedAt)),
      ("daily_realized_loss_pct", some (float x.dailyRealizedLossPct)),
      ("equity_drawdown_pct", some (float x.equityDrawdownPct)),
      ("remaining_account_risk_pct", some (float x.remainingAccountRiskPct)),
      ("remaining_portfolio_risk_pct", some (float x.remainingPortfolioRiskPct)),
      ("remaining_strategy_legs", some (nat x.remainingStrategyLegs))]

def requestJson (x : RiskRequest UInt64) : JsonValue :=
  record
    [("request_id", some (.string x.requestId)),
      ("risk_id", some (.string x.riskId)),
      ("evaluated_at", some (int x.evaluatedAt)),
      ("decision", some (decisionJson x.decision)),
      ("intent", some (intentJson x.intent)),
      ("agent_review", nullable (x.agentReview.map agentReviewJson)),
      ("account", some (accountJson x.account)),
      ("positions", some (.array (x.positions.map positionJson))),
      ("orders", some (.array (x.orders.map orderJson))),
      ("symbol_metadata", some (.array (x.symbolMetadata.map metadataJson))),
      ("pending_commands", some (.array (x.pendingCommands.map commandJson))),
      ("pending_command_states", some (.array (x.pendingCommandStates.map commandStateJson))),
      ("policy", some (policyJson x.policy)),
      ("strategy_policy", some (strategyPolicyJson x.strategyPolicy)),
      ("markets", some (.array (x.markets.map marketJson))),
      ("sizing_candidates", some (.array (x.sizingCandidates.map candidateJson))),
      ("state_watermarks", some (watermarksJson x.stateWatermarks)),
      ("capacity", some (capacityJson x.capacity))]

/-! ## the walk -/

def hashF64 (bits : UInt64) : List UInt8 := bigEndian 8 bits.toNat

def hashOptionalF64 : Option UInt64 → List UInt8
  | some bits => 1 :: hashF64 bits
  | none => [0]

def decisionFloats (x : StrategyDecision UInt64) : List UInt8 :=
  hashF64 x.confidence ++ hashF64 x.proposedRiskPct ++ hashOptionalF64 x.proposedSl ++
    hashOptionalF64 x.proposedTp

def intentLegFloats (x : TradeIntentLeg UInt64) : List UInt8 :=
  hashF64 x.ratio ++ hashOptionalF64 x.proposedSl ++ hashOptionalF64 x.proposedTp

def intentFloats (x : TradeIntent UInt64) : List UInt8 :=
  hashF64 x.confidence ++ hashF64 x.proposedRiskPct ++ hashOptionalF64 x.proposedSl ++
    hashOptionalF64 x.proposedTp ++
    (x.proposedLegs.map fun legs => legs.flatMap intentLegFloats).getD []

def agentReviewFloats (x : AgentReview UInt64) : List UInt8 := hashF64 x.scoreAdjustment

def accountFloats (x : AccountSnapshot UInt64) : List UInt8 :=
  hashF64 x.balance ++ hashF64 x.equity ++ hashF64 x.margin ++ hashF64 x.freeMargin

def positionFloats (x : PositionSnapshot UInt64) : List UInt8 :=
  hashF64 x.lots ++ hashF64 x.openPrice ++ hashOptionalF64 x.sl ++ hashOptionalF64 x.tp ++
    hashF64 x.floatingPnl

def orderFloats (x : OrderSnapshot UInt64) : List UInt8 :=
  hashF64 x.requestedLots ++ hashF64 x.filledLots ++ hashF64 x.remainingLots ++
    hashOptionalF64 x.price ++ hashOptionalF64 x.sl ++ hashOptionalF64 x.tp

def metadataFloats (x : SymbolMetadataSnapshot UInt64) : List UInt8 :=
  hashF64 x.point ++ hashF64 x.tickSize ++ hashF64 x.tickValueLoss ++ hashF64 x.contractSize ++
    hashF64 x.volumeMin ++ hashF64 x.volumeMax ++ hashF64 x.volumeStep ++
    hashOptionalF64 x.marginInitial ++ hashOptionalF64 x.marginMaintenance

def commandFloats (x : ExecutionCommand UInt64) : List UInt8 :=
  hashOptionalF64 x.lots ++ hashOptionalF64 x.price ++ hashOptionalF64 x.sl ++
    hashOptionalF64 x.tp

def policyFloats (x : RiskPolicy UInt64) : List UInt8 :=
  hashF64 x.maxRiskPerTradePct ++ hashF64 x.maxDailyLossPct ++ hashF64 x.maxDrawdownPct ++
    hashF64 x.maxSymbolExposurePct ++ hashF64 x.maxTotalExposurePct ++
    hashF64 x.maxMarginUsagePct

def strategyPolicyFloats (x : StrategyRiskPolicy UInt64) : List UInt8 :=
  hashF64 x.maxRiskPerTradePct

def marketFloats (x : RiskMarketSnapshot UInt64) : List UInt8 :=
  hashF64 x.snapshot.bid ++ hashF64 x.snapshot.ask ++ hashF64 x.snapshot.spread

def candidateFloats (x : PositionSizingCandidate UInt64) : List UInt8 :=
  hashF64 x.ratio ++ hashF64 x.worstEntryPrice ++ hashF64 x.stopLossPrice ++
    hashF64 x.estimatedCostPerLot

def capacityFloats (x : RiskCapacity UInt64) : List UInt8 :=
  hashF64 x.dailyRealizedLossPct ++ hashF64 x.equityDrawdownPct ++
    hashF64 x.remainingAccountRiskPct ++ hashF64 x.remainingPortfolioRiskPct

def hashRequestFloatBits (request : RiskRequest UInt64) : List UInt8 :=
  decisionFloats request.decision ++ intentFloats request.intent ++
    (request.agentReview.map agentReviewFloats).getD [] ++ accountFloats request.account ++
    request.positions.flatMap positionFloats ++ request.orders.flatMap orderFloats ++
    request.symbolMetadata.flatMap metadataFloats ++
    request.pendingCommands.flatMap commandFloats ++ policyFloats request.policy ++
    strategyPolicyFloats request.strategyPolicy ++ request.markets.flatMap marketFloats ++
    request.sizingCandidates.flatMap candidateFloats ++ capacityFloats request.capacity

/-! ## the digest -/

/-- a byte vector, which is no longer than its length can say -/
structure ByteVec where
  bytes : List UInt8
  short : bytes.length < 2 ^ 64

def riskRequestDomain : List UInt8 :=
  ("sinan-risk-request.v1".toList.map fun c => UInt8.ofNat c.toNat) ++ [0]

section
variable (toVec : JsonValue → Option ByteVec) (nonJson : RiskRequest UInt64 → ByteVec)

/-- `toVec` writes a tree, and `nonJson` stands in for a request it fails on -/
def requestBytes (request : RiskRequest UInt64) : ByteVec :=
  (toVec (requestJson request)).getD (nonJson request)

/-- what is fed to the digest, in this order -/
def hashedBytes (request : RiskRequest UInt64) : List UInt8 :=
  let bytes := (requestBytes toVec nonJson request).bytes
  riskRequestDomain ++ bigEndian 8 bytes.length ++ bytes ++ hashRequestFloatBits request

def riskRequestHash (sha256 : List UInt8 → List UInt8) (request : RiskRequest UInt64) : String :=
  encodeHex (sha256 (hashedBytes toVec nonJson request))

/-- the digest the evaluator and the builder use -/
def riskRequestDigest (sha256 : List UInt8 → List UInt8)
    (hlength : ∀ bytes, (sha256 bytes).length = 32) : RequestDigest UInt64 where
  hash := riskRequestHash toVec nonJson sha256
  isSha256 request := by
    unfold isSha256 riskRequestHash
    rw [encodeHex_length, hlength, encodeHex_lower]
    rfl

end

end Sinan.Risk
