import Sinan.Risk.Inputs

/-!
# Legs and pending exposure

What `evaluate` derives from its inputs before it sizes: the legs with their loss, notional and
margin of one lot, the commands still on their way, and the instant an approval lapses.
-/

namespace Sinan.Risk

open Lib

structure ExpectedLeg (F : Type) where
  legId : LegId
  symbol : SymbolCode
  action : AdjustedRiskLegAction
  ratio : F
  stop : Option F

structure PreparedLeg (F : Type) where
  provenance : SizingCandidateProvenance F
  ratio : ℚ
  entry : ℚ
  stop : ℚ
  lossPerLot : ℚ
  notionalPerLot : ℚ
  marginPerLot : ℚ
  volumeMin : ℚ
  volumeMax : ℚ
  volumeStep : ℚ

section
variable {F : Type} [F64 F]

/-! ## legs -/

def legAction (leg : TradeIntentLeg F) : Evaluation AdjustedRiskLegAction :=
  match leg.action with
  | .buy => .ok .buy
  | .sell => .ok .sell
  | .close => .error ⟨.riskReductionNotProvable,
      "CLOSE leg " ++ leg.legId ++ " cannot prove its reduction amount"⟩

/-- the loop over the proposed legs; `seen` are the ids of those already expected -/
def expectLegs (seen : List LegId) : List (TradeIntentLeg F) → Evaluation (List (ExpectedLeg F))
  | [] => .ok []
  | leg :: rest => do
    reject (leg.legId ∈ seen) (inputInvalid ("duplicate proposed leg id " ++ leg.legId))
    let action ← legAction leg
    let expected ← expectLegs (seen ++ [leg.legId]) rest
    return { legId := leg.legId, symbol := leg.symbol, action, ratio := leg.ratio
             stop := leg.proposedSl } :: expected

def expectedLegs (request : RiskRequest F) : Evaluation (List (ExpectedLeg F)) :=
  match request.intent.proposedLegs with
  | some legs => expectLegs [] legs
  | none => do
    let action ← match request.intent.action with
      | .buy => .ok .buy
      | .sell => .ok .sell
      | _ => .error (inputInvalid "only BUY/SELL can reach actionable sizing")
    return [{ legId := singleLegId request.intent.intentId, symbol := request.intent.symbol, action
              ratio := F64.ofInt 1, stop := request.intent.proposedSl }]

def tradeModePermits : AdjustedRiskLegAction → SymbolTradeMode → Bool
  | .buy, .full | .buy, .longOnly | .sell, .full | .sell, .shortOnly => true
  | _, _ => false

def validateTradeMode (action : AdjustedRiskLegAction) (mode : SymbolTradeMode) : Evaluation Unit :=
  reject (tradeModePermits action mode = false)
    ⟨.tradeModeDisabled, "trade mode " ++ mode.asStr ++ " does not permit " ++ action.asStr⟩

/-- the worst of the bid, the ask and a further price, in ticks and then in money -/
def notionalPerLot (metadata : SymbolMetadataSnapshot F) (market : RiskMarketSnapshot F)
    (additionalPrice : Option ℚ) : Evaluation ℚ := do
  let bid ← decimal "market.bid" market.snapshot.bid
  let ask ← decimal "market.ask" market.snapshot.ask
  let quoted := max |bid| |ask|
  let price := match additionalPrice with
    | some additional => max quoted |additional|
    | none => quoted
  let tickSize ← decimal "metadata.tick_size" metadata.tickSize
  let tickValue ← decimal "metadata.tick_value_loss" metadata.tickValueLoss
  let ticks ← checkedDiv price tickSize
  reject (⌈ticks⌉ * tickValue ≤ 0) arithmeticOverflow
  return ⌈ticks⌉ * tickValue

/-- entry on the losing side of the market, stop on the losing side of the entry -/
def directionValid (action : AdjustedRiskLegAction) (entry stop bid ask : ℚ) : Bool :=
  match action with
  | .buy => decide (stop < entry ∧ ask ≤ entry)
  | .sell => decide (entry < stop ∧ entry ≤ bid)

/-- the loss of one lot at the stop: whole ticks, and costs -/
def lossPerLotOf (legId : LegId) (metadata : SymbolMetadataSnapshot F) (entry stop cost : ℚ) :
    Evaluation ℚ := do
  let point ← decimal "metadata.point" metadata.point
  let tickSize ← decimal "metadata.tick_size" metadata.tickSize
  let tickValue ← decimal "metadata.tick_value_loss" metadata.tickValueLoss
  let stopDistance := |entry - stop|
  reject (stopDistance < metadata.stopsLevelPoints * point)
    ⟨.invalidStops, "stop distance violates stops_level for " ++ legId⟩
  let lossTicks ← checkedDiv stopDistance tickSize
  let lossPerLot := ⌈lossTicks⌉ * tickValue + cost
  reject (⌈lossTicks⌉ ≤ 0 ∨ lossPerLot ≤ 0) (inputInvalid ("loss cannot be bounded for " ++ legId))
  return lossPerLot

def PositionSizingCandidate.provenance (c : PositionSizingCandidate F) :
    SizingCandidateProvenance F where
  legId := c.legId
  symbol := c.symbol
  action := c.action
  ratio := c.ratio
  worstEntryPrice := c.worstEntryPrice
  stopLossPrice := c.stopLossPrice
  estimatedCostPerLot := c.estimatedCostPerLot

/-- the body of the loop of `prepare_legs` -/
def prepareLeg (request : RiskRequest F) (expected : ExpectedLeg F) :
    Evaluation (PreparedLeg F) := do
  let candidate ← need (request.sizingCandidates.find? fun c => c.legId == expected.legId)
    (inputInvalid ("sizing candidate is missing for " ++ expected.legId))
  reject (candidate.symbol ≠ expected.symbol ∨ candidate.action ≠ expected.action)
    (inputInvalid ("candidate identity differs for " ++ expected.legId))
  let ratio ← decimal "candidate.ratio" candidate.ratio
  let expectedRatio ← decimal "proposed leg ratio" expected.ratio
  reject (ratio ≤ 0 ∨ ratio ≠ expectedRatio)
    (inputInvalid ("candidate ratio differs for " ++ expected.legId))
  reject (request.intent.proposedLegs.isNone ∧ ratio ≠ 1)
    (inputInvalid "single-leg ratio must equal one")
  let proposedStop ← need expected.stop (inputInvalid "stop loss is required")
  let expectedStop ← decimal "proposed stop loss" proposedStop
  let entry ← decimal "candidate.worst_entry_price" candidate.worstEntryPrice
  let stop ← decimal "candidate.stop_loss_price" candidate.stopLossPrice
  let cost ← decimal "candidate.estimated_cost_per_lot" candidate.estimatedCostPerLot
  reject (entry ≤ 0 ∨ stop ≤ 0 ∨ stop ≠ expectedStop)
    (inputInvalid ("invalid or mismatched stop for " ++ expected.legId))
  let metadata ← need (metadataOf request candidate.symbol)
    ⟨.symbolMetadataStale, "candidate metadata missing"⟩
  let market ← need (marketOf request candidate.symbol)
    ⟨.marketSnapshotStale, "candidate market missing"⟩
  validateTradeMode candidate.action metadata.tradeMode
  let bid ← decimal "market.bid" market.snapshot.bid
  let ask ← decimal "market.ask" market.snapshot.ask
  reject (directionValid candidate.action entry stop bid ask = false)
    ⟨.invalidStops, "entry/stop direction or conservative entry is invalid for " ++
      candidate.legId⟩
  let lossPerLot ← lossPerLotOf candidate.legId metadata entry stop (max cost 0)
  let notionalPerLot ← notionalPerLot metadata market (some entry)
  let marginInitial ← need metadata.marginInitial (inputInvalid "margin_initial is missing")
  let marginPerLot ← decimal "metadata.margin_initial" marginInitial
  let volumeMin ← decimal "metadata.volume_min" metadata.volumeMin
  let volumeMax ← decimal "metadata.volume_max" metadata.volumeMax
  let volumeStep ← decimal "metadata.volume_step" metadata.volumeStep
  return { provenance := candidate.provenance, ratio, entry, stop, lossPerLot, notionalPerLot
           marginPerLot, volumeMin, volumeMax, volumeStep }

def prepareLegs (request : RiskRequest F) : Evaluation (List (PreparedLeg F)) := do
  let unfit := inputInvalid "sizing candidate leg ids and symbols must be non-empty and unique"
  eachApart (fun y x => decide (y.legId = x.legId))
    (fun c => reject (blank c.legId ∨ blank c.symbol) unfit) (fun _ => unfit) (fun _ => .ok ()) []
    request.sizingCandidates
  let expected ← expectedLegs request
  reject (expected.length ≠ request.sizingCandidates.length)
    (inputInvalid "sizing candidates must correspond one-to-one with proposed legs")
  collect (prepareLeg request) (expected.insertionSort fun x y => x.legId ≤ y.legId)

def validateLossCapacity (request : RiskRequest F) : Evaluation Unit := do
  let daily ← decimal "daily_realized_loss_pct" request.capacity.dailyRealizedLossPct
  let drawdown ← decimal "equity_drawdown_pct" request.capacity.equityDrawdownPct
  let maxDaily ← decimal "max_daily_loss_pct" request.policy.maxDailyLossPct
  reject (maxDaily ≤ daily)
    ⟨.riskLimitExceeded, "daily realized loss reached the configured limit"⟩
  let maxDrawdown ← decimal "max_drawdown_pct" request.policy.maxDrawdownPct
  reject (maxDrawdown ≤ drawdown)
    ⟨.riskLimitExceeded, "equity drawdown reached the configured limit"⟩
  reject (F64.le request.capacity.remainingAccountRiskPct F64.zero ∨
      F64.le request.capacity.remainingPortfolioRiskPct F64.zero)
    ⟨.riskLimitExceeded, "no account or portfolio risk capacity remains"⟩

/-! ## commands on their way -/

def validateCommandStateTime (request : RiskRequest F) (state : ExecutionCommandState) :
    Evaluation Unit := do
  reject (commandStateIsTerminal state.status ≠ state.completedAt.isSome)
    (inputInvalid ("command state " ++ state.commandId ++
      " completed_at does not match terminal status"))
  reject (state.createdAt < 0 ∨ state.updatedAt < state.createdAt ∨
      state.updatedAt > request.stateWatermarks.pendingCommandsReconciledAt)
    ⟨.pendingExposureConflict,
      "command state " ++ state.commandId ++ " is not covered by reconciliation"⟩
  each ([state.dispatchedAt, state.commandReceivedAt, state.reconcilingAt,
      state.completedAt].filterMap id)
    fun timestamp => reject (timestamp < state.createdAt ∨ timestamp > state.updatedAt)
      (inputInvalid ("command state " ++ state.commandId ++
        " has an invalid lifecycle timestamp"))

def validateActiveCommand (command : ExecutionCommand F) : Evaluation Unit := do
  reject (blank command.commandId ∨ blank command.strategyId ∨ blank command.symbol ∨
      blank command.idempotencyKey ∨ blank command.hmac)
    (inputInvalid "active command identity and HMAC fields must not be empty")
  match command.action with
  | .buy | .sell => do
    let _ ← positiveOptionalDecimal "command.lots" command.lots
    let orderType ← need command.orderType
      (inputInvalid "active BUY/SELL order_type is required")
    let price ← decimalOpt "command.price" command.price
    reject (price.any (· ≤ 0) ∨ (orderType ≠ .market ∧ price.isNone))
      (inputInvalid "active pending-order price is missing or invalid")
  | .close => do
    reject command.positionTicket.isNone
      (inputInvalid "active CLOSE command must identify its target position")
    let lots ← decimalOpt "command.lots" command.lots
    reject (lots.any (· ≤ 0)) (inputInvalid "active CLOSE lots must be positive when present")
  | .modify => do
    reject (command.positionTicket.isNone ∧ command.brokerOrderId.isNone)
      (inputInvalid "active MODIFY command must identify an order or position")
    reject (command.sl.isNone ∧ command.tp.isNone ∧ command.price.isNone ∧
        command.expirationTime.isNone)
      (inputInvalid "active MODIFY command has no modified field")
  | .cancel =>
    reject command.brokerOrderId.isNone
      (inputInvalid "active CANCEL command must identify a broker order")

/-- the loop of `active_pending_commands`, over the commands in the order of their ids -/
def activeCommands (request : RiskRequest F) :
    List (ExecutionCommand F) → Evaluation (List (ExecutionCommand F × ExecutionCommandState))
  | [] => .ok []
  | command :: rest => do
    let state ← need
      (request.pendingCommandStates.find? fun s => s.commandId == command.commandId)
      (inputInvalid ("state is missing for pending command " ++ command.commandId))
    reject (state.commandId ≠ command.commandId ∨ state.accountId ≠ command.accountId ∨
        state.planId ≠ command.planId ∨ state.legId ≠ command.legId)
      (inputInvalid ("command state identity differs for " ++ command.commandId))
    validateCommandStateTime request state
    if commandStateIsTerminal state.status then activeCommands request rest
    else do
      validateActiveCommand command
      reject (command.expiresAt ≤ request.evaluatedAt)
        ⟨.pendingExposureConflict,
          "non-terminal command " ++ command.commandId ++ " is expired and unreconciled"⟩
      let active ← activeCommands request rest
      return (command, state) :: active

def activePendingCommands (request : RiskRequest F) :
    Evaluation (List (ExecutionCommand F × ExecutionCommandState)) := do
  eachApart (fun y x => decide (y.commandId = x.commandId)) (fun _ => .ok ())
    (fun command => inputInvalid ("duplicate command " ++ command.commandId)) (fun _ => .ok ()) []
    request.pendingCommands
  eachApart (fun y x => decide (y.commandId = x.commandId)) (fun _ => .ok ())
    (fun state => inputInvalid ("duplicate command state " ++ state.commandId)) (fun _ => .ok ())
    [] request.pendingCommandStates
  reject (request.pendingCommands.length ≠ request.pendingCommandStates.length)
    (inputInvalid "pending commands and states must correspond one-to-one")
  activeCommands request
    (request.pendingCommands.insertionSort fun x y => x.commandId ≤ y.commandId)

/-! ## positions and orders -/

def validatePosition (position : PositionSnapshot F) : Evaluation ℚ := do
  let lots ← decimal "position.lots" position.lots
  let openPrice ← decimal "position.open_price" position.openPrice
  let _ ← decimal "position.floating_pnl" position.floatingPnl
  reject (lots ≤ 0 ∨ openPrice ≤ 0) (inputInvalid ("invalid position " ++ position.positionId))
  let _ ← decimalOpt "position.sl" position.sl
  let _ ← decimalOpt "position.tp" position.tp
  return lots

def validateOrder (order : OrderSnapshot F) : Evaluation ℚ := do
  let requested ← decimal "order.requested_lots" order.requestedLots
  let filled ← decimal "order.filled_lots" order.filledLots
  let remaining ← decimal "order.remaining_lots" order.remainingLots
  reject (requested ≤ 0 ∨ filled < 0 ∨ remaining ≤ 0 ∨ filled > requested ∨
      remaining > requested ∨ filled + remaining ≠ requested)
    (inputInvalid ("invalid order lots for " ++ order.brokerOrderId))
  reject (order.status = .placed ∧ filled ≠ 0)
    (inputInvalid ("PLACED order " ++ order.brokerOrderId ++ " must not have filled lots"))
  reject (order.status = .partiallyFilled ∧ filled ≤ 0)
    (inputInvalid ("PARTIALLY_FILLED order " ++ order.brokerOrderId ++ " must have filled lots"))
  let price ← decimalOpt "order.price" order.price
  reject (price.any (· ≤ 0) ∨ (order.orderType ≠ .market ∧ price.isNone))
    (inputInvalid ("order " ++ order.brokerOrderId ++ " has an invalid or missing price"))
  return remaining

def validateBrokerSymbol (label : String) (brokerSymbol : Option String)
    (metadata : SymbolMetadataSnapshot F) : Evaluation Unit :=
  reject (brokerSymbol.any fun symbol => symbol != metadata.brokerSymbol)
    (inputInvalid (label ++ " broker_symbol does not match symbol metadata for " ++
      metadata.symbol))

def validatePendingOrder (request : RiskRequest F) (newSymbols : List SymbolCode)
    (order : OrderSnapshot F) : Evaluation Unit :=
  if orderIsActive order.status = false then .ok ()
  else do
    reject (order.status = .unknown)
      ⟨.pendingExposureConflict,
        "order " ++ order.brokerOrderId ++ " has unknown broker status and exposure"⟩
    let metadata ← requiredMetadata request order.symbol
    validateBrokerSymbol "active order" order.brokerSymbol metadata
    let remaining ← validateOrder order
    reject (remaining > 0 ∧ order.symbol ∈ newSymbols)
      ⟨.pendingExposureConflict,
        "open order " ++ order.brokerOrderId ++ " already exposes " ++ order.symbol⟩

def validatePendingCommand (request : RiskRequest F) (newSymbols : List SymbolCode)
    (command : ExecutionCommand F) : Evaluation Unit :=
  if command.action.isOpening = false then .ok ()
  else do
    let metadata ← requiredMetadata request command.symbol
    validateBrokerSymbol "active command" command.brokerSymbol metadata
    reject (command.symbol ∈ newSymbols)
      ⟨.pendingExposureConflict,
        "pending command " ++ command.commandId ++ " already exposes " ++ command.symbol⟩

def validatePendingExposure (request : RiskRequest F) (legs : List (PreparedLeg F))
    (active : List (ExecutionCommand F × ExecutionCommandState)) : Evaluation Unit := do
  let newSymbols := legs.map fun leg => leg.provenance.symbol
  match active.find? fun entry => entry.1.action = .modify with
  | some entry => .error ⟨.pendingExposureConflict,
      "pending MODIFY command " ++ entry.1.commandId ++ " has no v1 risk-reduction proof"⟩
  | none => do
    each request.orders (validatePendingOrder request newSymbols)
    each active fun entry => validatePendingCommand request newSymbols entry.1

/-- `usize` sums of list lengths stay in range -/
def validateConcurrency (request : RiskRequest F) (legs : List (PreparedLeg F))
    (active : List (ExecutionCommand F × ExecutionCommandState)) : Evaluation Unit := do
  let activeOrders := request.orders.filter fun order =>
    orderIsActive order.status && F64.positive order.remainingLots
  let activeRiskCommands := active.filter fun entry => entry.1.action.isOpening
  reject (request.positions.length + activeOrders.length + activeRiskCommands.length + legs.length >
      request.policy.maxConcurrentPositions)
    ⟨.positionLimitExceeded, "prospective account position count exceeds policy"⟩
  reject (legs.length > request.capacity.remainingStrategyLegs)
    ⟨.positionLimitExceeded,
      "new legs exceed the trusted assembler's remaining strategy capacity"⟩

/-! ## the end of an approval -/

def timeBoundary (observedAt maxAge : Int) : Evaluation Int :=
  need (checkedAdd observedAt maxAge) (inputInvalid "freshness boundary overflow")

/-- the running minimum of the boundaries of a list of observations -/
def earliest (start : Int) : List (Int × Int) → Evaluation Int
  | [] => .ok start
  | (observedAt, maxAge) :: rest => do
    let boundary ← timeBoundary observedAt maxAge
    earliest (min start boundary) rest

def symbolBoundary (request : RiskRequest F) (start : Int) (symbol : SymbolCode) :
    Evaluation Int := do
  let market ← requiredMarket request symbol
  let marketBoundary ← timeBoundary market.snapshot.observedAt request.policy.maxMarketSnapshotAgeMs
  let metadata ← requiredMetadata request symbol
  let metadataBoundary ← timeBoundary metadata.observedAt request.policy.maxSymbolMetadataAgeMs
  return min (min start marketBoundary) metadataBoundary

def approvalValidUntil (request : RiskRequest F) (required : List SymbolCode) :
    Evaluation Int := do
  let policy := request.policy
  let marks := request.stateWatermarks
  let ttl ← timeBoundary request.evaluatedAt policy.maxApprovalTtlMs
  let observed ← earliest (min request.intent.signalExpiresAt ttl)
    ([(request.account.observedAt, policy.maxSnapshotAgeMs),
      (marks.positionsObservedAt, policy.maxSnapshotAgeMs),
      (marks.ordersObservedAt, policy.maxOrderSnapshotAgeMs),
      (marks.pendingCommandsReconciledAt, policy.maxOrderSnapshotAgeMs),
      (request.capacity.observedAt, policy.maxCapacityAgeMs)] ++
    request.positions.map (fun position => (position.observedAt, policy.maxSnapshotAgeMs)) ++
    request.orders.map fun order => (order.observedAt, policy.maxOrderSnapshotAgeMs))
  let validUntil ← required.foldlM (symbolBoundary request) observed
  reject (validUntil ≤ request.evaluatedAt) (inputInvalid "approval validity window is empty")
  return validUntil

end

end Sinan.Risk
