import Sinan.Breaker.Model
import Sinan.Risk.Model
import Sinan.Types.Plan

/-!
# Hard-risk inputs

The checks `evaluate` makes before it sizes anything: identities, shape of the action, times,
freshness of every snapshot, policies, account and symbol numbers.  `Decimal` is `ℚ`; a checked
operation of `Decimal` can only fail on a division by zero.
-/

namespace Sinan.Risk

open Lib

structure Rejection where
  code : ErrorCode
  message : String
  deriving DecidableEq

abbrev Evaluation := Except Rejection

structure AuditAges where
  snapshot : Int
  market : Int
  metadata : Int
  capacity : Int
  deriving DecidableEq

def positionSizingVersionV1 : String := "fixed-risk-at-stop.v1"

def inputInvalid (message : String) : Rejection := ⟨.riskInputInvalid, message⟩

def arithmeticOverflow : Rejection := inputInvalid "decimal or integer arithmetic overflowed"

/-- `Decimal::checked_div` -/
def checkedDiv (a b : ℚ) : Evaluation ℚ := do
  reject (b = 0) arithmeticOverflow
  return a / b

section
variable {F : Type} [F64 F]

def decimal (name : String) (value : F) : Evaluation ℚ := do
  reject (F64.isFinite value = false) (inputInvalid (name ++ " must be finite"))
  need (F64.toDecimal value) (inputInvalid (name ++ " is out of range"))

/-- `value.map(|v| decimal(name, v)).transpose()` -/
def decimalOpt (name : String) : Option F → Evaluation (Option ℚ)
  | none => .ok none
  | some value => do
    let d ← decimal name value
    return some d

def positiveOptionalDecimal (name : String) (value : Option F) : Evaluation ℚ := do
  let present ← need value (inputInvalid (name ++ " is required"))
  let d ← decimal name present
  reject (d ≤ 0) (inputInvalid (name ++ " must be greater than zero"))
  return d

def validatePercentage (name : String) (value : F) (positive : Bool) : Evaluation Unit := do
  let d ← decimal name value
  reject ((positive = true ∧ d ≤ 0) ∨ (positive = false ∧ d < 0) ∨ d > 100)
    (inputInvalid (name ++ " must be within the configured percentage-point range"))

def validateNonNegativePercentage (name : String) (value : F) : Evaluation Unit :=
  validatePercentage name value false

def sameFloat (left right : F) : Bool := sameF64Bits left right

def sameOptionalFloat : Option F → Option F → Bool
  | some left, some right => sameFloat left right
  | none, none => true
  | _, _ => false

/-! ## identity -/

/-- the decision and the intent name the same signal -/
def decisionMatches (decision : StrategyDecision F) (intent : TradeIntent F) : Bool :=
  decision.decisionId == intent.decisionId && decision.strategyId == intent.strategyId &&
  decision.symbol == intent.symbol && decision.timeframe == intent.timeframe &&
  decide (decision.action = intent.action) && sameFloat decision.confidence intent.confidence &&
  sameFloat decision.proposedRiskPct intent.proposedRiskPct &&
  sameOptionalFloat decision.proposedSl intent.proposedSl &&
  sameOptionalFloat decision.proposedTp intent.proposedTp &&
  decide (decision.timestamp = intent.decisionTimestamp) &&
  decide (decision.signalExpiresAt = intent.signalExpiresAt)

def validateRequestIdentity (request : RiskRequest F) : Evaluation Unit := do
  let intent := request.intent
  reject (request.evaluatedAt < 0)
    (inputInvalid "evaluated_at must be a non-negative server Unix timestamp")
  each [("request_id", request.requestId), ("risk_id", request.riskId),
      ("intent_id", intent.intentId), ("decision_id", intent.decisionId),
      ("strategy_id", intent.strategyId), ("account_id", intent.accountId),
      ("symbol", intent.symbol), ("timeframe", intent.timeframe),
      ("idempotency_key", intent.idempotencyKey)]
    fun field => reject (blank field.2) (inputInvalid (field.1 ++ " must not be empty"))
  reject (decisionMatches request.decision intent = false)
    (inputInvalid "StrategyDecision and TradeIntent identity or risk fields do not match")
  reject (intent.accountId ≠ request.account.accountId)
    (inputInvalid "TradeIntent and AccountSnapshot account_id do not match")
  reject (request.capacity.accountId ≠ intent.accountId ∨
      request.capacity.strategyId ≠ intent.strategyId)
    (inputInvalid "RiskCapacity account_id or strategy_id does not match the intent")
  each request.positions fun position => do
    reject (position.accountId ≠ intent.accountId)
      (inputInvalid "PositionSnapshot belongs to another account")
    reject (blank position.positionId ∨ blank position.symbol)
      (inputInvalid "PositionSnapshot identity must not be empty")
  each request.orders fun order => do
    reject (order.accountId ≠ intent.accountId)
      (inputInvalid "OrderSnapshot belongs to another account")
    reject (blank order.brokerOrderId ∨ blank order.symbol)
      (inputInvalid "OrderSnapshot identity must not be empty")
  each request.symbolMetadata fun metadata =>
    reject (metadata.accountId ≠ intent.accountId)
      (inputInvalid "SymbolMetadataSnapshot belongs to another account")
  each request.markets fun market =>
    reject (market.accountId ≠ intent.accountId)
      (inputInvalid "MarketSnapshot belongs to another account")
  each request.pendingCommands fun command =>
    reject (command.accountId ≠ intent.accountId)
      (inputInvalid "ExecutionCommand belongs to another account")
  each request.pendingCommandStates fun state =>
    reject (state.accountId ≠ intent.accountId)
      (inputInvalid "ExecutionCommandState belongs to another account")

def validateActionShape (request : RiskRequest F) : Evaluation Unit :=
  let legs := request.intent.proposedLegs.getD []
  match request.intent.action with
  | .hold => do
    reject (legs.isEmpty = false ∨ request.sizingCandidates.isEmpty = false)
      (inputInvalid "HOLD must not contain proposed legs or sizing candidates")
    reject (F64.eq request.intent.proposedRiskPct F64.zero = false ∨
        request.intent.proposedSl.isSome ∨ request.intent.proposedTp.isSome)
      (inputInvalid "HOLD must not contain executable risk or stop/target fields")
  | .close =>
    reject (request.sizingCandidates.isEmpty = false)
      (inputInvalid "CLOSE must not contain risk-increasing sizing candidates")
  | _ =>
    reject (request.intent.proposedLegs.isSome ∧ legs.isEmpty)
      (inputInvalid "proposed_legs must be omitted or non-empty")

def validateControlTime (request : RiskRequest F) : Evaluation Unit := do
  let intent := request.intent
  reject (request.policy.maxApprovalTtlMs ≤ 0)
    (inputInvalid "max_approval_ttl_ms must be greater than zero")
  reject (request.decision.timestamp < 0 ∨ intent.decisionTimestamp < 0 ∨ intent.requestedAt < 0 ∨
      intent.decisionTimestamp > intent.requestedAt ∨ intent.requestedAt > request.evaluatedAt ∨
      intent.signalExpiresAt ≤ intent.requestedAt)
    ⟨.tradeIntentTimeInvalid, "decision, request, evaluation, and expiry timestamps are inconsistent"⟩
  reject (request.evaluatedAt ≥ intent.signalExpiresAt)
    ⟨.tradeIntentExpired, "the trade intent signal has expired"⟩

def holdValidUntil (request : RiskRequest F) : Evaluation Int := do
  let ttlBoundary ← need (checkedAdd request.evaluatedAt request.policy.maxApprovalTtlMs)
    (inputInvalid "approval TTL overflow")
  let validUntil := min ttlBoundary request.intent.signalExpiresAt
  reject (validUntil ≤ request.evaluatedAt)
    ⟨.tradeIntentExpired, "HOLD validation has no positive validity window"⟩
  return validUntil

/-! ## freshness -/

def validateFreshnessPolicy (request : RiskRequest F) : Evaluation Unit :=
  each [("max_snapshot_age_ms", request.policy.maxSnapshotAgeMs),
      ("max_order_snapshot_age_ms", request.policy.maxOrderSnapshotAgeMs),
      ("max_market_snapshot_age_ms", request.policy.maxMarketSnapshotAgeMs),
      ("max_symbol_metadata_age_ms", request.policy.maxSymbolMetadataAgeMs),
      ("max_capacity_age_ms", request.policy.maxCapacityAgeMs)]
    fun limit => reject (limit.2 ≤ 0) (inputInvalid (limit.1 ++ " must be greater than zero"))

def orderIsActive : OrderSnapshotStatus → Bool
  | .placed | .partiallyFilled | .unknown => true
  | _ => false

def commandStateIsTerminal : ExecutionCommandStatus → Bool
  | .deliveryFailed | .rejected | .filled | .failed | .expired | .cancelled => true
  | _ => false

/-- the elements of a `BTreeSet`, in its order -/
def sortedSet (xs : List String) : List String := xs.dedup.insertionSort (· ≤ ·)

/-- BUY and SELL commands without a terminal state -/
def commandMayExpose (request : RiskRequest F) (command : ExecutionCommand F) : Bool :=
  command.action.isOpening &&
  (request.pendingCommandStates.filter fun s => s.commandId == command.commandId).all fun s =>
    !commandStateIsTerminal s.status

def requiredSymbols (request : RiskRequest F) : List SymbolCode :=
  let intended := match request.intent.proposedLegs with
    | some legs => legs.map TradeIntentLeg.symbol
    | none => [request.intent.symbol]
  sortedSet (intended ++ request.positions.map PositionSnapshot.symbol ++
    (request.orders.filter fun order => orderIsActive order.status).map OrderSnapshot.symbol ++
    (request.pendingCommands.filter (commandMayExpose request)).map ExecutionCommand.symbol)

/-- `SnapshotIndex`: one metadata and one market snapshot for a symbol -/
def metadataOf (request : RiskRequest F) (symbol : SymbolCode) : Option (SymbolMetadataSnapshot F) :=
  request.symbolMetadata.find? fun m => m.symbol == symbol

def marketOf (request : RiskRequest F) (symbol : SymbolCode) : Option (RiskMarketSnapshot F) :=
  request.markets.find? fun m => m.snapshot.symbol == symbol

def indexSnapshots (request : RiskRequest F) (required : List SymbolCode) : Evaluation Unit := do
  eachApart (fun y x => decide (y.symbol = x.symbol)) (fun _ => .ok ())
    (fun m => inputInvalid ("multiple symbol metadata snapshots exist for " ++ m.symbol))
    (fun _ => .ok ()) [] request.symbolMetadata
  eachApart (fun y x => decide (y.snapshot.symbol = x.snapshot.symbol)) (fun _ => .ok ())
    (fun m => inputInvalid ("multiple market snapshots exist for " ++ m.snapshot.symbol))
    (fun _ => .ok ()) [] request.markets
  each required fun symbol => do
    reject ((metadataOf request symbol).isNone)
      ⟨.symbolMetadataStale, "symbol metadata is missing for " ++ symbol⟩
    reject ((marketOf request symbol).isNone)
      ⟨.marketSnapshotStale, "market snapshot is missing for " ++ symbol⟩

def requiredMetadata (request : RiskRequest F) (symbol : SymbolCode) :
    Evaluation (SymbolMetadataSnapshot F) :=
  need (metadataOf request symbol) ⟨.symbolMetadataStale, "metadata is missing for " ++ symbol⟩

def requiredMarket (request : RiskRequest F) (symbol : SymbolCode) :
    Evaluation (RiskMarketSnapshot F) :=
  need (marketOf request symbol) ⟨.marketSnapshotStale, "market is missing for " ++ symbol⟩

def checkedAge (now observedAt maxAge : Int) (code : ErrorCode) (label : String) :
    Evaluation Int := do
  let age ← need (checkedSub now observedAt) ⟨code, label ++ " age arithmetic overflowed"⟩
  reject (age < 0 ∨ age ≥ maxAge) ⟨code, label ++ " is future-dated or stale"⟩
  return age

/-- the running maximum of an age over a list -/
def oldest {α : Type} (age : α → Evaluation Int) (start : Int) : List α → Evaluation Int
  | [] => .ok start
  | x :: xs => do
    let a ← age x
    oldest age (max start a) xs

def positionAge (request : RiskRequest F) (position : PositionSnapshot F) : Evaluation Int := do
  reject (position.observedAt ≠ request.stateWatermarks.positionsObservedAt)
    ⟨.accountSnapshotStale, "position rows must belong to the declared full-set snapshot"⟩
  checkedAge request.evaluatedAt position.observedAt request.policy.maxSnapshotAgeMs
    .accountSnapshotStale "position snapshot"

def orderAge (request : RiskRequest F) (order : OrderSnapshot F) : Evaluation Int := do
  reject (order.observedAt ≠ request.stateWatermarks.ordersObservedAt)
    ⟨.orderSnapshotStale, "order rows must belong to the declared full-set snapshot"⟩
  checkedAge request.evaluatedAt order.observedAt request.policy.maxOrderSnapshotAgeMs
    .orderSnapshotStale "order snapshot"

/-- the ages of the account, of the three full sets and of their rows -/
def snapshotAge (request : RiskRequest F) : Evaluation Int := do
  let now := request.evaluatedAt
  let marks := request.stateWatermarks
  let account ← checkedAge now request.account.observedAt request.policy.maxSnapshotAgeMs
    .accountSnapshotStale "account snapshot"
  let positions ← checkedAge now marks.positionsObservedAt request.policy.maxSnapshotAgeMs
    .accountSnapshotStale "position full-set watermark"
  let orders ← checkedAge now marks.ordersObservedAt request.policy.maxOrderSnapshotAgeMs
    .orderSnapshotStale "order full-set watermark"
  let commands ← checkedAge now marks.pendingCommandsReconciledAt
    request.policy.maxOrderSnapshotAgeMs .pendingExposureConflict
    "pending-command reconciliation watermark"
  reject (request.account.observedAt < marks.pendingCommandsReconciledAt ∨
      marks.positionsObservedAt < marks.pendingCommandsReconciledAt ∨
      marks.ordersObservedAt < marks.pendingCommandsReconciledAt)
    ⟨.pendingExposureConflict,
      "account, position, and order snapshots must not predate command reconciliation"⟩
  let rows ← oldest (positionAge request) (max (max (max account positions) orders) commands)
    request.positions
  oldest (orderAge request) rows request.orders

/-- the ages of the market and of the metadata of the required symbols -/
def symbolAges (request : RiskRequest F) (market metadata : Int) :
    List SymbolCode → Evaluation (Int × Int)
  | [] => .ok (market, metadata)
  | symbol :: rest => do
    let found ← need (marketOf request symbol)
      ⟨.marketSnapshotStale, "market snapshot is missing for " ++ symbol⟩
    let marketAge ← checkedAge request.evaluatedAt found.snapshot.observedAt
      request.policy.maxMarketSnapshotAgeMs .marketSnapshotStale "market snapshot"
    let described ← need (metadataOf request symbol)
      ⟨.symbolMetadataStale, "symbol metadata is missing for " ++ symbol⟩
    let metadataAge ← checkedAge request.evaluatedAt described.observedAt
      request.policy.maxSymbolMetadataAgeMs .symbolMetadataStale "symbol metadata"
    symbolAges request (max market marketAge) (max metadata metadataAge) rest

def validateFreshness (request : RiskRequest F) (required : List SymbolCode) :
    Evaluation AuditAges := do
  let snapshot ← snapshotAge request
  let (market, metadata) ← symbolAges request 0 0 required
  let capacity ← checkedAge request.evaluatedAt request.capacity.observedAt
    request.policy.maxCapacityAgeMs .accountSnapshotStale "risk capacity"
  let marks := request.stateWatermarks
  reject (request.capacity.observedAt < max (max (max request.account.observedAt
      marks.positionsObservedAt) marks.ordersObservedAt) marks.pendingCommandsReconciledAt)
    ⟨.pendingExposureConflict,
      "risk capacity must not predate account, position, order, or command evidence"⟩
  return { snapshot, market, metadata, capacity }

/-! ## policies and numbers -/

def reviewAccepted (review : AgentReview F) : Bool :=
  !blank review.reviewId && F64.isFinite review.scoreAdjustment &&
  F64.le (F64.ofInt (-1)) review.scoreAdjustment && F64.le review.scoreAdjustment (F64.ofInt 1) &&
  decide (review.recommendation = .none)

def validatePolicySwitches (request : RiskRequest F) : Evaluation Unit := do
  let policy := request.policy
  let strategy := request.strategyPolicy
  reject (policy.positionSizingVersion ≠ positionSizingVersionV1)
    (inputInvalid ("unsupported position_sizing_version " ++ policy.positionSizingVersion ++
      "; expected " ++ positionSizingVersionV1))
  reject (policy.requireStopLoss = false ∨ policy.rejectExpiredSignal = false ∨
      policy.requireValidSymbolMetadata = false ∨ policy.rejectTradeModeDisabled = false ∨
      strategy.requireStopLoss = false)
    (inputInvalid "v1 hard-risk policy switches must all remain enabled")
  reject (policy.maxConcurrentPositions = 0 ∨ strategy.maxConcurrentLegs = 0)
    (inputInvalid "concurrency limits must be greater than zero")
  reject (request.capacity.remainingStrategyLegs > strategy.maxConcurrentLegs)
    (inputInvalid "remaining_strategy_legs exceeds the configured strategy limit")
  reject (strategy.signalExpiryBars = 0)
    (inputInvalid "signal_expiry_bars must be greater than zero")

def validatePercentages (request : RiskRequest F) : Evaluation Unit := do
  let policy := request.policy
  each [("max_risk_per_trade_pct", policy.maxRiskPerTradePct),
      ("max_daily_loss_pct", policy.maxDailyLossPct), ("max_drawdown_pct", policy.maxDrawdownPct),
      ("max_margin_usage_pct", policy.maxMarginUsagePct),
      ("strategy.max_risk_per_trade_pct", request.strategyPolicy.maxRiskPerTradePct)]
    fun field => validatePercentage field.1 field.2 true
  validateNonNegativePercentage "remaining_account_risk_pct"
    request.capacity.remainingAccountRiskPct
  validateNonNegativePercentage "remaining_portfolio_risk_pct"
    request.capacity.remainingPortfolioRiskPct
  validatePercentage "proposed_risk_pct" request.intent.proposedRiskPct true
  each [("max_symbol_exposure_pct", policy.maxSymbolExposurePct),
      ("max_total_exposure_pct", policy.maxTotalExposurePct)]
    fun field => do
      let value ← decimal field.1 field.2
      reject (value ≤ 0) (inputInvalid (field.1 ++ " must be greater than zero"))
  validateNonNegativePercentage "daily_realized_loss_pct" request.capacity.dailyRealizedLossPct
  validateNonNegativePercentage "equity_drawdown_pct" request.capacity.equityDrawdownPct

/-- the smaller of balance and equity, neither below zero -/
def riskBaseOf (balance equity : ℚ) : ℚ := min (max balance 0) (max equity 0)

def validatePolicyAndInputs (request : RiskRequest F) : Evaluation ℚ := do
  validatePolicySwitches request
  validatePercentages request
  let confidence ← decimal "confidence" request.intent.confidence
  reject (confidence < 0 ∨ confidence > 1)
    (inputInvalid "confidence must be between zero and one")
  reject (request.agentReview.any fun review => !reviewAccepted review)
    (inputInvalid "agent review is incomplete or requests unsupported risk mutation")
  reject (blank request.account.currency) (inputInvalid "account currency must not be empty")
  let balance ← decimal "account.balance" request.account.balance
  let equity ← decimal "account.equity" request.account.equity
  let margin ← decimal "account.margin" request.account.margin
  let freeMargin ← decimal "account.free_margin" request.account.freeMargin
  reject (margin < 0 ∨ freeMargin < 0)
    (inputInvalid "account margin and free_margin must be non-negative")
  reject (riskBaseOf balance equity ≤ 0)
    ⟨.riskLimitExceeded, "risk base is zero because balance or equity is not positive"⟩
  return riskBaseOf balance equity

def validateSymbolMetadata (symbol : SymbolCode) (metadata : SymbolMetadataSnapshot F) :
    Evaluation Unit := do
  let point ← decimal "metadata.point" metadata.point
  let tickSize ← decimal "metadata.tick_size" metadata.tickSize
  let tickValue ← decimal "metadata.tick_value_loss" metadata.tickValueLoss
  let contractSize ← decimal "metadata.contract_size" metadata.contractSize
  let volumeMin ← decimal "metadata.volume_min" metadata.volumeMin
  let volumeMax ← decimal "metadata.volume_max" metadata.volumeMax
  let volumeStep ← decimal "metadata.volume_step" metadata.volumeStep
  reject ((∃ v ∈ [point, tickSize, tickValue, contractSize, volumeMin, volumeMax, volumeStep],
      v ≤ 0) ∨ volumeMin > volumeMax ∨ volumeStep > volumeMax)
    (inputInvalid ("invalid broker metadata constraints for " ++ symbol))
  let present ← need metadata.marginInitial
    (inputInvalid ("margin_initial is missing for " ++ symbol))
  let marginInitial ← decimal "metadata.margin_initial" present
  reject (marginInitial ≤ 0) (inputInvalid ("margin_initial must be positive for " ++ symbol))

def validateSymbolInput (request : RiskRequest F) (symbol : SymbolCode) : Evaluation Unit := do
  let metadata ← need (metadataOf request symbol) ⟨.symbolMetadataStale, "metadata missing"⟩
  let market ← need (marketOf request symbol) ⟨.marketSnapshotStale, "market missing"⟩
  reject (blank metadata.brokerSymbol) (inputInvalid ("broker_symbol is empty for " ++ symbol))
  reject (market.snapshot.brokerSymbol.any fun broker => broker != metadata.brokerSymbol)
    (inputInvalid ("market and metadata broker_symbol differ for " ++ symbol))
  validateSymbolMetadata symbol metadata
  let bid ← decimal "market.bid" market.snapshot.bid
  let ask ← decimal "market.ask" market.snapshot.ask
  let spread ← decimal "market.spread" market.snapshot.spread
  reject (bid ≤ 0 ∨ ask ≤ 0 ∨ ask < bid ∨ spread < 0)
    (inputInvalid ("invalid market snapshot prices for " ++ symbol))

def validateSymbolInputs (request : RiskRequest F) (required : List SymbolCode) :
    Evaluation Unit :=
  each required (validateSymbolInput request)

end

end Sinan.Risk
