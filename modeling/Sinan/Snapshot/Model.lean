import Sinan.Breaker.Attempt
import Sinan.Projection.Rebuilt
import Sinan.Risk.Inputs
import Sinan.Snapshot.Capacity
import Sinan.Store.Recommit

/-!
# The inputs of hard risk

`nextPendingRiskIntentId` picks one accepted intent by a predicate over the tables that hold its
inputs; `loadTrustedRiskSnapshot` reads these inputs, each through a loader that makes checks of its
own.  `RiskCall` is one write of the store into any of these tables.

A payload is held decoded, and a column that repeats a field of the payload is read from it.
-/

namespace Sinan.Snapshot

open Lib Store Projection
open Execution hiding ProjectionError

/-- a market snapshot with the account of its row -/
structure AccountMarketSnapshot (F : Type) where
  accountId : AccountId
  snapshot : MarketSnapshot F
  deriving DecidableEq

def marketKey {F : Type} (market : AccountMarketSnapshot F) : AccountId × SymbolCode :=
  (market.accountId, market.snapshot.symbol)

/-- `market_snapshots` -/
abbrev MarketTable (F : Type) := LatestTable (marketKey (F := F))

def marketKind {F E : Type} (digest : MarketSnapshot F → E) : LatestKind E (marketKey (F := F)) where
  entity := "market_snapshot"
  keyText market := pairText (marketKey market)
  observedAt market := market.snapshot.observedAt
  digest market := digest market.snapshot

/-- the tables behind a risk snapshot -/
structure RiskTables (P F D J : Type) where
  workflows : WorkflowTables P F
  projected : ProjectionStore F D
  markets : MarketTable F
  breakers : List (Breaker.SnapshotRow J)
  capacities : CapacityTables F

def RiskTables.empty (P F D J : Type) : RiskTables P F D J where
  workflows := ⟨.empty, .empty, .empty, .empty, .empty, .empty⟩
  projected := .empty F D
  markets := .empty
  breakers := []
  capacities := ⟨.empty, .empty⟩

/-- a command in flight with its state -/
structure PendingCommandSnapshot (F : Type) where
  command : CommandRow F
  state : ExecutionCommandState
  deriving DecidableEq

structure TrustedRiskSnapshot (F D J : Type) where
  intent : StoredTradeIntent F
  account : AccountSnapshot F
  checkpoint : AccountReconciliationCheckpoint D
  positions : List (PositionSnapshot F)
  orders : List (OrderSnapshot F)
  symbolMetadata : List (SymbolMetadataSnapshot F)
  markets : List (AccountMarketSnapshot F)
  pendingCommands : List (PendingCommandSnapshot F)
  circuitBreaker : Option (Breaker.StoredCircuitBreakerSnapshot J)
  capacity : StoredRiskCapacitySnapshot F
  deriving DecidableEq

inductive LoadError where
  | store (source : ProjectionError)
  | snapshotUnavailable (intentId : IntentId) (input : String)
  deriving DecidableEq

abbrev LoadCheck := Except LoadError

section
variable {P F D J : Type} [DecidableEq P] [DecidableEq F] [DecidableEq D] [DecidableEq J] [F64 F]

/-! ## the choice of an intent -/

/-- the account has metadata and a market of the symbol -/
def RiskTables.covers (t : RiskTables P F D J) (accountId : AccountId) (symbol : SymbolCode) : Bool :=
  (t.projected.projections.symbols.rows.any fun metadata =>
    metadata.payload.accountId == accountId && metadata.payload.symbol == symbol) &&
  t.markets.rows.any fun market =>
    market.payload.accountId == accountId && market.payload.snapshot.symbol == symbol

def RiskTables.riskResultExists (t : RiskTables P F D J) (intentId : IntentId) : Bool :=
  t.workflows.risks.rows.any fun result => result.intentId == intentId

/-- `NOT EXISTS` a latest row of the account after the watermark of its full set -/
def settledBehind {S : Type} {key : S → AccountId × String} (observedAt : S → Int)
    (latest : LatestTable key) (accountId : AccountId) (watermark : Int) : Bool :=
  !latest.rows.any fun row =>
    (key row.payload).1 == accountId && decide (observedAt row.payload > watermark)

/-- every command of the account has a state, and none is later than the watermark -/
def commandsSettled (t : WorkflowTables P F) (accountId : AccountId) (reconciledAt : Int) : Bool :=
  !t.commands.rows.any fun row =>
    row.command.accountId == accountId &&
    (t.states.get row.command.commandId).all fun state => decide (state.updatedAt > reconciledAt)

/-- the command has a state that is not a final one -/
def inFlight (states : StateTable) (row : CommandRow F) : Bool :=
  (states.get row.command.commandId).any fun state => !Risk.commandStateIsTerminal state.status

def intendedSymbols (intent : TradeIntent F) : List SymbolCode :=
  match intent.proposedLegs with
  | some legs => legs.map TradeIntentLeg.symbol
  | none => [intent.symbol]

/-- every symbol that the intent, a position, an active order or a command in flight is about -/
def RiskTables.symbolsCovered (t : RiskTables P F D J) (intent : TradeIntent F) : Bool :=
  let p := t.projected.projections
  (intendedSymbols intent).all (t.covers intent.accountId) &&
  (p.positions.latest.rows.all fun position =>
    position.payload.accountId != intent.accountId ||
    t.covers intent.accountId position.payload.symbol) &&
  (p.orders.latest.rows.all fun order =>
    order.payload.accountId != intent.accountId || !Risk.orderIsActive order.payload.status ||
    t.covers intent.accountId order.payload.symbol) &&
  t.workflows.commands.rows.all fun row =>
    row.command.accountId != intent.accountId || !row.command.action.isOpening ||
    !inFlight t.workflows.states row || t.covers intent.accountId row.command.symbol

/-- the account is known and reconciled, and nothing has moved since -/
def RiskTables.accountReady (t : RiskTables P F D J) (accountId : AccountId)
    (strategyId : StrategyId) : Bool :=
  let p := t.projected.projections
  (p.accounts.get accountId).isSome && (t.capacities.latest.get (accountId, strategyId)).isSome &&
  (p.checkpoints.get accountId).any fun checkpoint =>
    (checkpoint.pendingCommandsReconciledAt.any fun reconciledAt =>
      commandsSettled t.workflows accountId reconciledAt) &&
    settledBehind PositionSnapshot.observedAt p.positions.latest accountId
      checkpoint.positionsObservedAt &&
    settledBehind OrderSnapshot.observedAt p.orders.latest accountId checkpoint.ordersObservedAt

/-- the `WHERE` clause -/
def RiskTables.ready (t : RiskTables P F D J) (row : IntentRow F) : Bool :=
  decide (row.status = .accepted) && !t.riskResultExists row.intent.intentId &&
  t.accountReady row.intent.accountId row.intent.strategyId && !t.breakers.isEmpty &&
  t.symbolsCovered row.intent

/-- `… ORDER BY requested_at, intent_id LIMIT 1` -/
def nextPendingRiskIntentId (t : RiskTables P F D J) : Option IntentId :=
  (sortBy (fun row : IntentRow F => toLex (row.intent.requestedAt, row.intent.intentId))
    (t.workflows.intents.rows.filter t.ready)).head?.map fun row => row.intent.intentId

/-! ## the loaders -/

def unavailable (intentId : IntentId) (input : String) : LoadError :=
  .snapshotUnavailable intentId input

def corruptInput (entity key reason : String) : LoadError := .store (corrupt entity key reason)

/-- `reject_partial_state_after_checkpoint` for one kind -/
def rejectPartialState {S : Type} {key : S → AccountId × String} (kind : SetKind D key)
    (tables : SetTables key) (checkpoint : AccountReconciliationCheckpoint D)
    (intentId : IntentId) : LoadCheck Unit :=
  reject (∃ row ∈ tables.latest.rows, (key row.payload).1 = checkpoint.accountId ∧
      kind.observedAt row.payload > kind.watermark checkpoint)
    (unavailable intentId (kind.noun ++ " snapshot changed after the full-set watermark"))

/-- `load_position_members`, `load_order_members` -/
def loadMembers {S : Type} {key : S → AccountId × String} (kind : SetKind D key)
    (tables : SetTables key) (checkpoint : AccountReconciliationCheckpoint D) : LoadCheck (List S) :=
  collect (fun row : MemberRow S => do
      reject (row.setObservedAt ≠ kind.watermark checkpoint ∨
          (key row.payload).1 ≠ checkpoint.accountId ∨
          kind.observedAt row.payload ≠ kind.watermark checkpoint)
        (corruptInput ("reconciliation_" ++ kind.noun ++ "_set_member")
          (pairText (checkpoint.accountId, (key row.payload).2))
          "payload identity or watermark does not match checkpoint")
      return row.payload)
    (memberRows tables checkpoint.accountId)

def pendingCommand (t : WorkflowTables P F) (accountId : AccountId) (commandId : CommandId) :
    LoadCheck (PendingCommandSnapshot F) := do
  let corrupted := corruptInput "risk_input.pending_command" commandId
  let command ← need (t.commands.get commandId)
    (corrupted "command disappeared while loading one transaction")
  let state ← need (t.states.get commandId)
    (corrupted "command state disappeared while loading one transaction")
  (validatePersistedCommandState state command.toStoredExecutionCommand).mapError corrupted
  reject (command.command.accountId ≠ accountId ∨ state.accountId ≠ accountId)
    (corrupted "command or state belongs to another account")
  return ⟨command, state⟩

/-- the commands of an account, `ORDER BY command_id` -/
def accountCommands (t : WorkflowTables P F) (accountId : AccountId) : List (CommandRow F) :=
  sortBy (fun row : CommandRow F => row.command.commandId)
    (t.commands.rows.filter fun row => row.command.accountId == accountId)

def loadPendingCommands (t : WorkflowTables P F) (intentId : IntentId) (accountId : AccountId)
    (reconciledAt : Int) : LoadCheck (List (PendingCommandSnapshot F)) := do
  let rows := accountCommands t accountId
  let missing := rows.find? fun row => (t.states.get row.command.commandId).isNone
  each missing.toList fun row => .error (corruptInput "risk_input.pending_command"
    row.command.commandId "execution command has no lifecycle state")
  reject (∃ state ∈ t.states.rows, state.accountId = accountId ∧ state.updatedAt > reconciledAt)
    (unavailable intentId "command lifecycle changed after the reconciliation watermark")
  collect (fun row : CommandRow F => pendingCommand t accountId row.command.commandId)
    (rows.filter (inFlight t.states))

/-- `required_symbols`, a `BTreeSet` -/
def requiredSymbols (intent : TradeIntent F) (positions : List (PositionSnapshot F))
    (orders : List (OrderSnapshot F)) (commands : List (PendingCommandSnapshot F)) :
    List SymbolCode :=
  orderedSet (intendedSymbols intent ++ positions.map PositionSnapshot.symbol ++
    (orders.filter fun order => Risk.orderIsActive order.status).map OrderSnapshot.symbol ++
    (commands.filter fun value => value.command.command.action.isOpening &&
        !Risk.commandStateIsTerminal value.state.status).map fun value =>
      value.command.command.symbol)

/-- one value for each required symbol, in the order of the symbols: a second one is a conflict -/
def loadRequired {S : Type} (symbolOf : S → SymbolCode) (entity missing : String)
    (intentId : IntentId) (accountId : AccountId) (required : List SymbolCode) (values : List S) :
    LoadCheck (List S) := do
  let found := values.filter fun value => required.contains (symbolOf value)
  eachApart (fun earlier later => decide (symbolOf earlier = symbolOf later)) (fun _ => .ok ())
    (fun _ => .store (identityConflict entity accountId)) (fun _ => .ok ()) [] found
  reject (∃ symbol ∈ required, symbol ∉ found.map symbolOf) (unavailable intentId missing)
  return sortBy symbolOf found

def loadRequiredMetadata (t : RiskTables P F D J) (intentId : IntentId) (accountId : AccountId)
    (required : List SymbolCode) : LoadCheck (List (SymbolMetadataSnapshot F)) :=
  loadRequired SymbolMetadataSnapshot.symbol "risk_input.symbol_metadata"
    "required symbol metadata set is incomplete" intentId accountId required
    (sortBy SymbolMetadataSnapshot.brokerSymbol
      ((t.projected.projections.symbols.rows.map LatestRow.payload).filter fun metadata =>
        metadata.accountId == accountId))

def loadRequiredMarkets (t : RiskTables P F D J) (intentId : IntentId) (accountId : AccountId)
    (required : List SymbolCode) : LoadCheck (List (AccountMarketSnapshot F)) :=
  loadRequired (fun market : AccountMarketSnapshot F => market.snapshot.symbol)
    "risk_input.market_snapshot" "required market snapshot set is incomplete" intentId accountId
    required
    (sortBy (fun market : AccountMarketSnapshot F => market.snapshot.symbol)
      ((t.markets.rows.map LatestRow.payload).filter fun market => market.accountId == accountId))

/-- what is read once the intent is known to be waiting -/
def loadInputs (digests : Digests F D) (codec : Breaker.SnapshotCodec J) (t : RiskTables P F D J)
    (intent : StoredTradeIntent F) : LoadCheck (TrustedRiskSnapshot F D J) := do
  let intentId := intent.intent.intentId
  let accountId := intent.intent.accountId
  let p := t.projected.projections
  let account ← need ((p.accounts.get accountId).map LatestRow.payload)
    (unavailable intentId "account snapshot is unavailable")
  let found ← (fetchCheckpoint digests t.projected.events t.projected.runs p accountId).mapError .store
  let checkpoint ← need found (unavailable intentId "reconciliation checkpoint is unavailable")
  let reconciledAt ← need checkpoint.pendingCommandsReconciledAt
    (unavailable intentId "pending-command reconciliation watermark is unavailable")
  rejectPartialState (positionKind digests) p.positions checkpoint intentId
  rejectPartialState (orderKind digests) p.orders checkpoint intentId
  let positions ← loadMembers (positionKind digests) p.positions checkpoint
  let orders ← loadMembers (orderKind digests) p.orders checkpoint
  let pendingCommands ← loadPendingCommands t.workflows intentId accountId reconciledAt
  let required := requiredSymbols intent.intent positions orders pendingCommands
  let symbolMetadata ← loadRequiredMetadata t intentId accountId required
  let markets ← loadRequiredMarkets t intentId accountId required
  let circuitBreaker ← (Breaker.fetchLatestCircuitBreakerSnapshot codec t.breakers).mapError
    fun e => .store (.store e)
  let latest ← (fetchLatestRiskCapacitySnapshot t.capacities.latest accountId
    intent.intent.strategyId).mapError .store
  let capacity ← need latest (unavailable intentId "risk capacity is unavailable")
  return { intent, account, checkpoint, positions, orders, symbolMetadata, markets, pendingCommands,
           circuitBreaker, capacity }

/-- `load_trusted_risk_snapshot_on` -/
def loadTrustedRiskSnapshot (digests : Digests F D) (codec : Breaker.SnapshotCodec J)
    (t : RiskTables P F D J) (intentId : IntentId) :
    LoadCheck (Option (TrustedRiskSnapshot F D J)) := do
  let found ← (t.workflows.fetchTradeIntentById intentId).mapError fun e => .store (.store e)
  let intent ← need found (.store (.store (.notFound "trade_intent" intentId)))
  if intent.status ≠ .accepted ∨ t.riskResultExists intentId = true then return none
  else (loadInputs digests codec t intent).map some

/-! ## the writes -/

/-- one write of the store -/
inductive RiskCall (F J : Type) where
  | projection (call : ProjectionCall F)
  | market (snapshot : AccountMarketSnapshot F) (updatedAt : Int)
  | breaker (snapshot : Breaker.NewCircuitBreakerSnapshot J)
  | capacity (snapshot : NewRiskCapacitySnapshot F)
  | intent (new : NewTradeIntent F)
  | riskResult (result : RiskResult F)
  | plan (new : NewExecutionPlan F)
  | command (new : NewExecutionCommand F)
  | commandState (state : ExecutionCommandState)
  | workflow (call : WorkflowCall F)

/-- the tables that an accepted statement leaves -/
def accepted {α : Type} (statement : Statement P F α) (t : RiskTables P F D J) :
    ProjectionCheck (RiskTables P F D J) :=
  match statement t.workflows with
  | (.ok _, workflows) => .ok { t with workflows }
  | (.error e, _) => .error (.store e)

/-- what the store writes with -/
structure Writers (P F D E J : Type) where
  digests : Digests F D
  market : MarketSnapshot F → E
  breaker : Breaker.SnapshotCodec J
  journal : JournalCodec P F

/-- the tables after an accepted call -/
def RiskCall.apply {E : Type} [DecidableEq E] (w : Writers P F D E J) (t : RiskTables P F D J) :
    RiskCall F J → ProjectionCheck (RiskTables P F D J)
  | .projection call => do
    let projected ← projectionCall w.digests t.projected call
    return { t with projected }
  | .market snapshot updatedAt => do
    -- `update_market_snapshot` names the decision `Applied`, `ProjectionIgnored` or
    -- `ProjectionUnchanged`
    let (markets, _) ← applyLatest (marketKind w.market) t.markets snapshot updatedAt
    return { t with markets }
  | .breaker snapshot => do
    let (_, breakers) ←
      (Breaker.writeCircuitBreakerSnapshot w.breaker t.breakers snapshot).mapError .store
    return { t with breakers }
  | .capacity snapshot => do
    let (capacities, _) ← recordRiskCapacitySnapshot t.capacities snapshot
    return { t with capacities }
  | .intent new => accepted (insertTradeIntent new) t
  | .riskResult result => accepted (insertRiskResult result) t
  | .plan new => accepted (insertExecutionPlan w.journal new) t
  | .command new => accepted (insertExecutionCommand new) t
  | .commandState state => accepted (insertExecutionCommandState state) t
  | .workflow call => do
    let workflows ← (call.apply w.journal t.workflows).mapError .store
    return { t with workflows }

/-- the tables after some calls, if all of them are accepted -/
def riskRun {E : Type} [DecidableEq E] (w : Writers P F D E J) (t : RiskTables P F D J)
    (calls : List (RiskCall F J)) : ProjectionCheck (RiskTables P F D J) :=
  calls.foldlM (RiskCall.apply w) t

end

end Sinan.Snapshot
