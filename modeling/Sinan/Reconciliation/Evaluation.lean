import Sinan.Reconciliation.Model

/-!
# Reconciliation: the evaluation of a result and its escalation

`evaluateReconciliationResult` says which commands still need attention after a result, and why.  An
order that the broker reports is a finding, never a proof: a command is settled by the receipt, the
status or the execution events that the store holds.  The two escalations turn what still needs
attention into transitions of the command state machine.
-/

namespace Sinan.Reconciliation

open Lib Execution

inductive ReconciliationDisposition where
  | completed
  | pendingEvidence
  | manualRequired
  deriving DecidableEq

inductive ReconciliationFinding where
  | clientReportedUnresolved (commandId : CommandId)
  | clientReportedUnresolvedDespiteAuthoritativeState (commandId : CommandId)
      (status : ExecutionCommandStatus)
  | commandAlreadyRequiresManualReconciliation (commandId : CommandId)
  | unknownCommandReportedUnresolved (commandId : CommandId)
  | unknownCommandObservedInOrderSnapshot (commandId : CommandId)
      (brokerOrderIds : List BrokerOrderId)
  | missingAuthoritativeExecutionEvidence (commandId : CommandId)
      (observedBrokerOrderIds : List BrokerOrderId)
  | executionProjectionPending (commandId : CommandId) (eventStatus : ExecutionEventStatus)
  | multipleOrderSnapshotsForCommand (commandId : CommandId)
      (brokerOrderIds : List BrokerOrderId)
  | orderIdentityConflict (commandId : CommandId) (brokerOrderId : BrokerOrderId) (field : String)
  | snapshotConflictsWithExecutionEvent (commandId : CommandId) (brokerOrderId : BrokerOrderId)
      (eventStatus : ExecutionEventStatus) (snapshotStatus : OrderSnapshotStatus)
  | reconciliationResultMissing (escalatedAt : Int)
  deriving DecidableEq

structure ReconciliationEvaluation where
  requestId : RequestId
  accountId : AccountId
  observedAt : Option Int
  disposition : ReconciliationDisposition
  commandIds : List CommandId
  findings : List ReconciliationFinding
  deriving DecidableEq

structure EvaluatedReconciliationResult (F : Type) where
  result : ReconciliationResult F
  evaluation : ReconciliationEvaluation
  deriving DecidableEq

/-! ## evidence -/

def eventSupportsStatus : ExecutionEventStatus → ExecutionCommandStatus → Bool
  | .accepted, .accepted | .orderSent, .orderSent | .rejected, .rejected
  | .partiallyFilled, .partiallyFilled | .filled, .filled | .failed, .failed
  | .expired, .expired | .cancelled, .cancelled => true
  | _, _ => false

def snapshotConflictsWithEvent (eventStatus : ExecutionEventStatus)
    (snapshotStatus : OrderSnapshotStatus) : Bool :=
  match eventStatus with
  | .filled => decide (snapshotStatus ≠ .filled)
  | .rejected => decide (snapshotStatus ≠ .rejected)
  | .expired => decide (snapshotStatus ≠ .expired)
  | .cancelled => decide (snapshotStatus ≠ .cancelled)
  | .accepted | .orderSent | .partiallyFilled | .failed => false

section
variable {F : Type}

def hasAuthoritativeDeliveryEvidence (item : ReconciliationCommand F)
    (events : List (ExecutionEvent F)) : Bool :=
  if item.state.commandReceivedAt.isSome then true
  else
    let supported := events.any fun event => eventSupportsStatus event.status item.state.status
    match item.state.status with
    | .created | .deliveryFailed => true
    | .expired | .cancelled => item.state.dispatchedAt.isNone || supported
    | .dispatched | .deliveryUnconfirmed | .reconciling | .manualReconciliationRequired
    | .commandReceived | .accepted | .rejected | .orderSent | .partiallyFilled | .filled
    | .failed => supported

/-! ## orders -/

/-- the orders of the command in the order of their broker ids -/
def ordersOf (orders : List (OrderSnapshot F)) (commandId : CommandId) : List (OrderSnapshot F) :=
  sortBy OrderSnapshot.brokerOrderId (orders.filter fun order => order.commandId == some commandId)

def routeComponentMayMatch (requested observed : Option String) : Bool :=
  requested.isNone || observed.isNone || requested == observed

def orderMayBelongToRequestRoute (context : ReconciliationRequestContext)
    (order : OrderSnapshot F) : Bool :=
  routeComponentMayMatch context.request.terminalId order.terminalId &&
  routeComponentMayMatch context.request.clientId order.clientId

def canonicalizeResultSets (result : ReconciliationResult F) : ReconciliationResult F :=
  { result with
    positions := sortBy PositionSnapshot.positionId result.positions
    orders := sortBy OrderSnapshot.brokerOrderId result.orders
    symbolMetadata := sortBy (fun metadata => toLex (metadata.brokerSymbol, metadata.symbol))
      result.symbolMetadata
    unresolvedCommandIds := sortBy id result.unresolvedCommandIds }

variable [F64 F]

def inspectOrderObservations (commandId : CommandId) (command : ExecutionCommand F)
    (orders : List (OrderSnapshot F)) (events : List (ExecutionEvent F)) (observedAt : Int) :
    List ReconciliationFinding :=
  let latestEventAtObservation := events.reverse.find? fun event => event.eventAt ≤ observedAt
  (if 1 < orders.length then
    [.multipleOrderSnapshotsForCommand commandId (orders.map OrderSnapshot.brokerOrderId)]
  else []) ++
  orders.flatMap fun order =>
    (orderIdentityConflicts order command).map
      (.orderIdentityConflict commandId order.brokerOrderId) ++
    match latestEventAtObservation with
    | some event =>
      if snapshotConflictsWithEvent event.status order.status then
        [.snapshotConflictsWithExecutionEvent commandId order.brokerOrderId event.status
          order.status]
      else []
    | none => []

/-! ## the evaluation -/

/-- one round of the loop over the commands: whether the command is pending, and its findings -/
def inspectCommand (item : ReconciliationCommand F) (orders : List (OrderSnapshot F))
    (events : List (ExecutionEvent F)) (observedAt : Int) (unresolved : Bool) :
    Bool × List ReconciliationFinding :=
  let commandId := item.commandId
  let observed := inspectOrderObservations commandId item.command orders events observedAt
  let reported := if unresolved then [.clientReportedUnresolved commandId] else []
  if item.state.status = .manualReconciliationRequired then
    (true, observed ++ .commandAlreadyRequiresManualReconciliation commandId :: reported)
  else if hasAuthoritativeDeliveryEvidence item events then
    if unresolved then
      (true, observed ++ [.clientReportedUnresolvedDespiteAuthoritativeState commandId
        item.state.status])
    else (false, observed)
  else
    (true, observed ++ reported ++
      .missingAuthoritativeExecutionEvidence commandId
        (sortBy id (orders.map OrderSnapshot.brokerOrderId)) ::
      match events.getLast? with
      | some latest => [.executionProjectionPending commandId latest.status]
      | none => [])

/-- the ids that the orders name, each once and in order -/
def orderCommandIds (orders : List (OrderSnapshot F)) : List CommandId :=
  orderedSet (orders.filterMap OrderSnapshot.commandId)

/-- the command is not in scope, but an order on the route of the request names it -/
def observedUnknown (context : ReconciliationRequestContext)
    (indexed : List (ReconciliationCommand F)) (orders : List (OrderSnapshot F)) :
    List CommandId :=
  (orderCommandIds orders).filter fun commandId =>
    (commandAt indexed commandId).isNone &&
    (ordersOf orders commandId).any (orderMayBelongToRequestRoute context)

/-- the commands out of scope that the client reports unresolved, in order -/
def reportedUnknown (indexed : List (ReconciliationCommand F))
    (unresolvedCommandIds : List CommandId) : List CommandId :=
  (orderedSet unresolvedCommandIds).filter fun commandId => (commandAt indexed commandId).isNone

def evaluateReconciliationResult (context : ReconciliationRequestContext)
    (result : ReconciliationResult F) (commands : List (ReconciliationCommand F))
    (executionEvents : List (ExecutionEvent F)) (receivedAt : Int) :
    ReconciliationCheck (EvaluatedReconciliationResult F) := do
  validateResult context result receivedAt
  let result := canonicalizeResultSets result
  let indexed ← validateCommandScope context commands receivedAt
  let eventsByCommand ← validateExecutionEvents indexed executionEvents receivedAt
  let inspected := indexed.map fun item =>
    (item.commandId, inspectCommand item (ordersOf result.orders item.commandId)
      (eventsByCommand item.commandId) result.observedAt
      (result.unresolvedCommandIds.contains item.commandId))
  -- an account-wide request also answers for what the store does not know
  let observed := if context.request.commandIds.isNone then
    observedUnknown context indexed result.orders else []
  let reported := if context.request.commandIds.isNone then
    reportedUnknown indexed result.unresolvedCommandIds else []
  let pending := orderedSet ((inspected.filter fun entry => entry.2.1).map Prod.fst ++
    observed ++ reported)
  return {
    evaluation :=
      { requestId := result.requestId
        accountId := result.accountId
        observedAt := some result.observedAt
        disposition := if pending ≠ [] then .pendingEvidence else .completed
        commandIds := pending
        findings := inspected.flatMap (fun entry => entry.2.2) ++
          observed.map (fun commandId => .unknownCommandObservedInOrderSnapshot commandId
            (((ordersOf result.orders commandId).filter
              (orderMayBelongToRequestRoute context)).map OrderSnapshot.brokerOrderId)) ++
          reported.map .unknownCommandReportedUnresolved }
    result := result }

/-! ## escalation -/

structure ManualEscalationEvidence where
  requestId : RequestId
  escalatedAt : Int
  reason : String
  deriving DecidableEq

structure ReconciliationCommandTransition where
  commandId : CommandId
  expectedStatus : ExecutionCommandStatus
  expectedUpdatedAt : Int
  outcome : CommandTransitionOutcome
  deriving DecidableEq

structure ManualReconciliationEscalation where
  evidence : ManualEscalationEvidence
  evaluation : ReconciliationEvaluation
  commandTransitions : List ReconciliationCommandTransition
  deriving DecidableEq

/-- the statuses from which a command is handed to an operator -/
def awaitsManual : ExecutionCommandStatus → Bool
  | .deliveryUnconfirmed | .reconciling | .manualReconciliationRequired => true
  | _ => false

/-- the transition of one command, its version read before -/
def planTransition (item : ReconciliationCommand F) (evidence : CommandEvidence F) :
    ReconciliationCheck ReconciliationCommandTransition := do
  let outcome ← (transitionCommand item.command item.state evidence).mapError
    (.commandTransition item.commandId)
  return {
    commandId := item.commandId
    expectedStatus := item.state.status
    expectedUpdatedAt := item.state.updatedAt
    outcome := outcome }

def manualTransitions (items : List (ReconciliationCommand F)) (escalatedAt : Int) :
    ReconciliationCheck (List ReconciliationCommandTransition) :=
  collect (fun item => planTransition item (.requireManualReconciliation escalatedAt))
    (items.filter fun item => awaitsManual item.state.status)

def unknownFindingCommand : ReconciliationFinding → Option CommandId
  | .unknownCommandReportedUnresolved commandId
  | .unknownCommandObservedInOrderSnapshot commandId _ => some commandId
  | _ => none

def escalateManualReconciliation (context : ReconciliationRequestContext)
    (evaluation : ReconciliationEvaluation) (commands : List (ReconciliationCommand F))
    (evidence : ManualEscalationEvidence) :
    ReconciliationCheck ManualReconciliationEscalation := do
  validateRequestContext context
  reject (evidence.requestId ≠ context.request.requestId ∨
      evaluation.requestId ≠ context.request.requestId ∨
      evaluation.accountId ≠ context.request.accountId)
    (.invalidManualEscalation "request_id"
      "evidence and evaluation must belong to the request context")
  reject (blank evidence.reason) (.invalidManualEscalation "reason" "must not be empty")
  reject (evidence.escalatedAt < context.requestedAt ∨
      evaluation.observedAt.any fun observedAt => evidence.escalatedAt < observedAt)
    (.invalidManualEscalation "escalated_at" "must not predate the request or evaluated result")
  reject (evaluation.disposition ≠ .pendingEvidence)
    (.invalidManualEscalation "evaluation.disposition"
      "only a pending result evaluation can be escalated")
  reject evaluation.observedAt.isNone (.invalidManualEscalation "evaluation.observed_at"
    "result escalation requires an observed result; use missing-result escalation otherwise")
  reject (evaluation.commandIds = [] ∨ ¬ evaluation.commandIds.IsChain (· < ·))
    (.invalidManualEscalation "evaluation.command_ids"
      "must be a non-empty unique sorted attention scope")
  let indexed ← validateCommandScope context commands evidence.escalatedAt
  each context.request.commandIds.toList fun targeted =>
    reject (∃ commandId ∈ evaluation.commandIds, commandId ∉ targeted)
      (.invalidManualEscalation "evaluation.command_ids"
        "contains a command outside the targeted request scope")
  let unknownAttention := evaluation.commandIds.filter fun commandId =>
    (commandAt indexed commandId).isNone
  let unknownFindings := orderedSet (evaluation.findings.filterMap unknownFindingCommand)
  reject (orderedSet unknownAttention ≠ unknownFindings)
    (.invalidManualEscalation "evaluation.findings"
      "unknown attention commands must have matching unknown-command findings")
  let transitions ← manualTransitions
    (evaluation.commandIds.filterMap (commandAt indexed)) evidence.escalatedAt
  return {
    evidence := evidence
    evaluation := { evaluation with disposition := .manualRequired }
    commandTransitions := transitions }

def escalateMissingReconciliationResult (context : ReconciliationRequestContext)
    (commands : List (ReconciliationCommand F)) (evidence : ManualEscalationEvidence) :
    ReconciliationCheck ManualReconciliationEscalation := do
  validateRequestContext context
  reject (evidence.requestId ≠ context.request.requestId)
    (.invalidManualEscalation "request_id" "evidence must belong to the request context")
  reject (blank evidence.reason) (.invalidManualEscalation "reason" "must not be empty")
  reject (evidence.escalatedAt < context.requestedAt)
    (.invalidManualEscalation "escalated_at" "must not predate the request")
  let indexed ← validateCommandScope context commands evidence.escalatedAt
  let transitions ← manualTransitions indexed evidence.escalatedAt
  return {
    evidence := evidence
    evaluation :=
      { requestId := context.request.requestId
        accountId := context.request.accountId
        observedAt := none
        disposition := .manualRequired
        commandIds := indexed.map ReconciliationCommand.commandId
        findings := [.reconciliationResultMissing evidence.escalatedAt] }
    commandTransitions := transitions }

end

end Sinan.Reconciliation
