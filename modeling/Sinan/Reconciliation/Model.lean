import Mathlib.Data.Prod.Lex
import Mathlib.Data.String.Basic
import Sinan.Execution.Delivery
import Sinan.Execution.State
import Sinan.Lib.Sorted

/-!
# Reconciliation: requests, results and the checks on them

A request asks a client for what its broker holds, for a list of commands or for the whole account.
The result is checked against the request and in itself; the commands and events that the store holds
are checked against the request.  A map keyed by command id is the list of its values in the order of
their ids.
-/

namespace Sinan.Reconciliation

open Lib Execution

structure ReconciliationRequestContext where
  request : ReconciliationRequest
  requestedAt : Int
  deriving DecidableEq

structure ReconciliationCommand (F : Type) where
  command : ExecutionCommand F
  state : ExecutionCommandState
  deriving DecidableEq

def ReconciliationCommand.commandId {F : Type} (item : ReconciliationCommand F) : CommandId :=
  item.command.commandId

structure ReconciliationResult (F : Type) where
  requestId : RequestId
  accountId : AccountId
  terminalId : Option TerminalId
  clientId : Option ClientId
  observedAt : Int
  account : Option (AccountSnapshot F)
  positions : List (PositionSnapshot F)
  orders : List (OrderSnapshot F)
  symbolMetadata : List (SymbolMetadataSnapshot F)
  unresolvedCommandIds : List CommandId
  deriving DecidableEq

inductive ReconciliationError where
  | invalidRequest (field reason : String)
  | invalidContext (field reason : String)
  | invalidResult (field reason : String)
  | invalidManualEscalation (field reason : String)
  | commandTransition (commandId : CommandId) (source : CommandTransitionError)
  deriving DecidableEq

abbrev ReconciliationCheck := Except ReconciliationError

/-- the text of the error -/
def transitionErrorText : CommandTransitionError → String
  | .invalidIdentity field => "invalid command lifecycle identity at " ++ field
  | .invalidTimestamp reason => "invalid command lifecycle timestamp: " ++ reason
  | .invalidEvidence reason => "invalid command evidence: " ++ reason
  | .invalidTransition source target =>
    "command transition " ++ source.asStr ++ " -> " ++ target.asStr ++ " is not allowed"
  | .versionOverflow => "command lifecycle version overflow"

/-! ## the request -/

def requireRequestText (field value : String) : ReconciliationCheck Unit :=
  reject (blank value) (.invalidRequest field "must not be empty")

def validateRequestContext (context : ReconciliationRequestContext) :
    ReconciliationCheck Unit := do
  requireRequestText "request_id" context.request.requestId
  requireRequestText "account_id" context.request.accountId
  each context.request.terminalId.toList (requireRequestText "terminal_id")
  each context.request.clientId.toList (requireRequestText "client_id")
  reject (context.requestedAt < 0)
    (.invalidRequest "requested_at" "must be a non-negative server-time timestamp")
  each context.request.sinceServerTime.toList fun since =>
    reject (since < 0 ∨ since > context.requestedAt)
      (.invalidRequest "since_server_time" "must be non-negative and not later than requested_at")
  each context.request.commandIds.toList fun commandIds => do
    reject (commandIds = []) (.invalidRequest "command_ids"
      "Some scope must not be empty; use None for account-wide scope")
    each commandIds (requireRequestText "command_ids[]")
    reject (¬ commandIds.IsChain (· < ·)) (.invalidRequest "command_ids"
      "must be unique and sorted in ascending command_id order")

structure ReconciliationRequestInput where
  requestId : RequestId
  accountId : AccountId
  terminalId : Option TerminalId
  clientId : Option ClientId
  reason : ReconciliationReason
  commandIds : Option (List CommandId)
  sinceServerTime : Option Int
  requestedAt : Int
  deriving DecidableEq

def buildReconciliationRequest (input : ReconciliationRequestInput) :
    ReconciliationCheck ReconciliationRequestContext := do
  each input.commandIds.toList fun commandIds => do
    reject (commandIds = []) (.invalidRequest "command_ids"
      "Some scope must not be empty; use None for account-wide scope")
    reject ((orderedSet commandIds).length ≠ commandIds.length)
      (.invalidRequest "command_ids" "must not contain duplicates")
  let context : ReconciliationRequestContext :=
    { request :=
        { requestId := input.requestId
          accountId := input.accountId
          terminalId := input.terminalId
          clientId := input.clientId
          reason := input.reason
          commandIds := input.commandIds.map orderedSet
          sinceServerTime := input.sinceServerTime }
      requestedAt := input.requestedAt }
  validateRequestContext context
  return context

/-! ## the commands in scope -/

section
variable {F : Type}

def validateRouteConstraint (field : String) (requested actual : Option String) :
    ReconciliationCheck Unit :=
  reject (requested.isSome ∧ requested ≠ actual)
    (.invalidContext field "does not match the constrained request route")

def validateScopedCommand (context : ReconciliationRequestContext) (upperTimeBound : Int)
    (item : ReconciliationCommand F) : ReconciliationCheck Unit := do
  (validateCommandState item.command item.state).mapError fun error =>
    .invalidContext "commands[].state"
      ("command " ++ item.commandId ++ " is invalid: " ++ transitionErrorText error)
  reject (item.command.accountId ≠ context.request.accountId)
    (.invalidContext "commands[].account_id" ("command " ++ item.commandId ++
      " is outside request account " ++ context.request.accountId))
  validateRouteConstraint "commands[].terminal_id" context.request.terminalId
    item.command.terminalId
  validateRouteConstraint "commands[].client_id" context.request.clientId item.command.clientId
  reject (item.state.updatedAt > upperTimeBound) (.invalidContext "commands[].state.updated_at"
    ("command " ++ item.commandId ++ " state is newer than the evaluation boundary"))

/-- the commands, indexed by their ids -/
def validateCommandScope (context : ReconciliationRequestContext)
    (commands : List (ReconciliationCommand F)) (upperTimeBound : Int) :
    ReconciliationCheck (List (ReconciliationCommand F)) := do
  validateRequestContext context
  reject (upperTimeBound < context.requestedAt)
    (.invalidContext "upper_time_bound" "must not predate requested_at")
  eachApart (fun x y => decide (x.commandId = y.commandId))
    (validateScopedCommand context upperTimeBound)
    (fun item => .invalidContext "commands[].command_id" ("duplicate command " ++ item.commandId))
    (fun _ => .ok ()) [] commands
  let indexed := sortBy ReconciliationCommand.commandId commands
  each context.request.commandIds.toList fun scopedIds =>
    reject (indexed.map ReconciliationCommand.commandId ≠ scopedIds)
      (.invalidContext "commands" "must contain exactly the targeted request command_ids")
  return indexed

/-- the value of the index at the id -/
def commandAt (indexed : List (ReconciliationCommand F)) (commandId : CommandId) :
    Option (ReconciliationCommand F) :=
  indexed.find? fun item => item.commandId == commandId

/-! ## the result -/

variable [F64 F]

def requireResultText (field value : String) : ReconciliationCheck Unit :=
  reject (blank value) (.invalidResult field "must not be empty")

def requireResultFinite (field : String) (value : F) : ReconciliationCheck Unit :=
  reject (!F64.isFinite value) (.invalidResult field "must be finite")

def requireResultNonNegative (field : String) (value : F) : ReconciliationCheck Unit :=
  reject (!(F64.isFinite value && F64.le F64.zero value))
    (.invalidResult field "must be finite and non-negative")

def requireResultPositive (field : String) (value : F) : ReconciliationCheck Unit :=
  reject (!(F64.isFinite value && F64.lt F64.zero value))
    (.invalidResult field "must be finite and positive")

def validateOptionalPositive (field : String) (value : Option F) : ReconciliationCheck Unit :=
  each value.toList (requireResultPositive field)

def validateAccount (result : ReconciliationResult F) (account : AccountSnapshot F) :
    ReconciliationCheck Unit := do
  reject (account.accountId ≠ result.accountId ∨ account.observedAt ≠ result.observedAt)
    (.invalidResult "account" "account_id and observed_at must match the result full-set identity")
  each [("account.balance", account.balance), ("account.equity", account.equity),
      ("account.margin", account.margin), ("account.free_margin", account.freeMargin)]
    fun fv => requireResultFinite fv.1 fv.2
  requireResultText "account.currency" account.currency

def validatePositions (result : ReconciliationResult F) : ReconciliationCheck Unit :=
  eachApart (fun x y => decide (x.positionId = y.positionId))
    (fun position => do
      reject (position.accountId ≠ result.accountId ∨ position.observedAt ≠ result.observedAt)
        (.invalidResult "positions[]"
          "account_id and observed_at must match the result full-set identity")
      requireResultText "positions[].position_id" position.positionId
      requireResultText "positions[].symbol" position.symbol)
    (fun position => .invalidResult "positions[].position_id"
      ("duplicate position " ++ position.positionId))
    (fun position => do
      requireResultPositive "positions[].lots" position.lots
      requireResultPositive "positions[].open_price" position.openPrice
      requireResultFinite "positions[].floating_pnl" position.floatingPnl
      validateOptionalPositive "positions[].sl" position.sl
      validateOptionalPositive "positions[].tp" position.tp)
    [] result.positions

def validateOrderTimes (order : OrderSnapshot F) (observedAt : Int) :
    ReconciliationCheck Unit := do
  each [("orders[].created_at", order.createdAt), ("orders[].updated_at", order.updatedAt)]
    fun fv => reject (fv.2.any fun value => value < 0 || value > observedAt)
      (.invalidResult fv.1 "must be a non-negative timestamp not later than observed_at")
  reject (order.createdAt.any fun created => order.updatedAt.any fun updated => updated < created)
    (.invalidResult "orders[].updated_at" "must not predate created_at")

/-- the optional texts of an order that must not be blank -/
def orderReferences (order : OrderSnapshot F) : List (String × Option String) :=
  [("orders[].command_id", order.commandId), ("orders[].plan_id", order.planId),
   ("orders[].leg_id", order.legId), ("orders[].idempotency_key", order.idempotencyKey)]

def validateOrders (result : ReconciliationResult F) : ReconciliationCheck Unit :=
  eachApart (fun x y => decide (x.brokerOrderId = y.brokerOrderId))
    (fun order => do
      reject (order.accountId ≠ result.accountId ∨ order.observedAt ≠ result.observedAt)
        (.invalidResult "orders[]"
          "account_id and observed_at must match the result full-set identity")
      requireResultText "orders[].broker_order_id" order.brokerOrderId
      requireResultText "orders[].symbol" order.symbol
      each order.brokerSymbol.toList (requireResultText "orders[].broker_symbol")
      each (orderReferences order) fun fv => each fv.2.toList (requireResultText fv.1))
    (fun order => .invalidResult "orders[].broker_order_id"
      ("duplicate broker order " ++ order.brokerOrderId))
    (fun order => do
      requireResultPositive "orders[].requested_lots" order.requestedLots
      requireResultNonNegative "orders[].filled_lots" order.filledLots
      requireResultNonNegative "orders[].remaining_lots" order.remainingLots
      reject (F64.lt order.requestedLots order.filledLots ||
          F64.lt order.requestedLots order.remainingLots)
        (.invalidResult "orders[].lots"
          "filled_lots and remaining_lots must not exceed requested_lots")
      validateOptionalPositive "orders[].price" order.price
      validateOptionalPositive "orders[].sl" order.sl
      validateOptionalPositive "orders[].tp" order.tp
      validateOrderTimes order result.observedAt)
    [] result.orders

def validateMetadataNumbers (metadata : SymbolMetadataSnapshot F) : ReconciliationCheck Unit := do
  each [("symbol_metadata[].point", metadata.point),
      ("symbol_metadata[].tick_size", metadata.tickSize),
      ("symbol_metadata[].tick_value_loss", metadata.tickValueLoss),
      ("symbol_metadata[].contract_size", metadata.contractSize),
      ("symbol_metadata[].volume_min", metadata.volumeMin),
      ("symbol_metadata[].volume_max", metadata.volumeMax),
      ("symbol_metadata[].volume_step", metadata.volumeStep)]
    fun fv => requireResultPositive fv.1 fv.2
  reject (F64.lt metadata.volumeMax metadata.volumeMin)
    (.invalidResult "symbol_metadata[].volume_min" "must not exceed volume_max")
  validateOptionalPositive "symbol_metadata[].margin_initial" metadata.marginInitial
  validateOptionalPositive "symbol_metadata[].margin_maintenance" metadata.marginMaintenance

def validateSymbolMetadata (result : ReconciliationResult F) : ReconciliationCheck Unit :=
  eachApart (fun x y => decide (x.brokerSymbol = y.brokerSymbol))
    (fun metadata => do
      reject (metadata.accountId ≠ result.accountId ∨ metadata.observedAt ≠ result.observedAt)
        (.invalidResult "symbol_metadata[]"
          "account_id and observed_at must match the result full-set identity")
      requireResultText "symbol_metadata[].symbol" metadata.symbol
      requireResultText "symbol_metadata[].broker_symbol" metadata.brokerSymbol)
    (fun metadata => .invalidResult "symbol_metadata[].broker_symbol"
      ("duplicate broker symbol " ++ metadata.brokerSymbol))
    validateMetadataNumbers [] result.symbolMetadata

def validateResult (context : ReconciliationRequestContext) (result : ReconciliationResult F)
    (receivedAt : Int) : ReconciliationCheck Unit := do
  validateRequestContext context
  reject (result.requestId ≠ context.request.requestId)
    (.invalidResult "request_id" "does not match the reconciliation request")
  reject (result.accountId ≠ context.request.accountId)
    (.invalidResult "account_id" "does not match the reconciliation request")
  reject (result.terminalId ≠ context.request.terminalId)
    (.invalidResult "terminal_id" "must exactly match the reconciliation request route")
  reject (result.clientId ≠ context.request.clientId)
    (.invalidResult "client_id" "must exactly match the reconciliation request route")
  reject (result.observedAt < context.requestedAt ∨ result.observedAt > receivedAt)
    (.invalidResult "observed_at" "must be between requested_at and server received_at")
  each result.account.toList (validateAccount result)
  validatePositions result
  validateOrders result
  validateSymbolMetadata result
  eachApart (fun x y => decide (x = y)) (requireResultText "unresolved_command_ids[]")
    (fun commandId => .invalidResult "unresolved_command_ids"
      ("contains duplicate command " ++ commandId))
    (fun _ => .ok ()) [] result.unresolvedCommandIds
  each context.request.commandIds.toList fun scopedIds =>
    reject (∃ commandId ∈ result.unresolvedCommandIds, commandId ∉ scopedIds)
      (.invalidResult "unresolved_command_ids"
        "contains a command outside the targeted request scope")

/-! ## the events -/

def validateScopedEvent (commands : List (ReconciliationCommand F)) (receivedAt : Int)
    (event : ExecutionEvent F) : ReconciliationCheck Unit := do
  let item ← need (commandAt commands event.commandId)
    (.invalidContext "execution_events[].command_id"
      ("event references unknown command " ++ event.commandId))
  (validateExecutionEvent item.command event).mapError fun error =>
    .invalidContext "execution_events[]"
      ("event is invalid for command " ++ item.commandId ++ ": " ++ transitionErrorText error)
  reject (event.eventAt < item.state.createdAt ∨ event.eventAt > receivedAt)
    (.invalidContext "execution_events[].event_at"
      ("event time is invalid for command " ++ item.commandId))
  reject (event.filledAt.any fun filledAt => filledAt < item.state.createdAt)
    (.invalidContext "execution_events[].filled_at"
      ("fill timing is invalid for command " ++ item.commandId))

/-- events are ordered by their time, then by their id -/
def eventKey (event : ExecutionEvent F) : Int ×ₗ ExecutionId :=
  toLex (event.eventAt, event.executionId)

/-- The events of each command, in their order; a command without events has none in the map. -/
def validateExecutionEvents (commands : List (ReconciliationCommand F))
    (events : List (ExecutionEvent F)) (receivedAt : Int) :
    ReconciliationCheck (CommandId → List (ExecutionEvent F)) := do
  eachApart (fun x y => decide (x.executionId = y.executionId))
    (fun event => reject (blank event.executionId)
      (.invalidContext "execution_events[].execution_id" "must be non-empty and unique"))
    (fun _ => .invalidContext "execution_events[].execution_id" "must be non-empty and unique")
    (validateScopedEvent commands receivedAt) [] events
  return fun commandId =>
    sortBy eventKey (events.filter fun event => event.commandId == commandId)

/-- the fields in which an order differs from the command it names -/
def orderIdentityConflicts (order : OrderSnapshot F) (command : ExecutionCommand F) : List String :=
  ([("symbol", order.symbol != command.symbol),
    ("broker_symbol", order.brokerSymbol.any fun value => some value != command.brokerSymbol),
    ("plan_id", order.planId.any fun value => some value != command.planId),
    ("leg_id", order.legId.any fun value => some value != command.legId),
    ("idempotency_key", order.idempotencyKey.any fun value => value != command.idempotencyKey),
    ("terminal_id", order.terminalId.any fun value => some value != command.terminalId),
    ("client_id", order.clientId.any fun value => some value != command.clientId),
    ("requested_lots", command.lots.any fun lots => !F64.sameBits lots order.requestedLots),
    ("side", match command.action, order.side with
      | .buy, .sell | .sell, .buy => true
      | _, _ => false)].filter Prod.snd).map Prod.fst

end

end Sinan.Reconciliation
