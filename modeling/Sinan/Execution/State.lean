import Sinan.Lib.Check
import Sinan.Types.Dto

/-!
# Command lifecycle: the state machine of a command

`transitionCommand` applies one piece of business evidence to the state of a command.  A receipt has
its own path (`applyReceiptEvidence`), which may also record a late receipt without moving the status;
every other evidence follows the table `transitionIsAllowed`.  Both paths validate the state before
and after.
-/

namespace Sinan.Execution

open Lib

/-- business evidence accepted by the command lifecycle; a transport acknowledgement is none -/
inductive CommandEvidence (F : Type) where
  | dispatched (time : Int)
  | deliveryUnconfirmed (time : Int) (error : String)
  | beginReconciliation (time : Int)
  | requireManualReconciliation (time : Int)
  | receivedRecorded (received : CommandReceived)
  | receivedDuplicateKnownSamePayload (received : CommandReceived)
  | executionEvent (event : ExecutionEvent F)
  | expire (time : Int)
  | cancel (time : Int)
  deriving DecidableEq

inductive CommandTransitionOutcome where
  | applied (state : ExecutionCommandState)
  | duplicate (state : ExecutionCommandState)
  deriving DecidableEq

def CommandTransitionOutcome.state : CommandTransitionOutcome → ExecutionCommandState
  | .applied state => state
  | .duplicate state => state

inductive CommandTransitionError where
  | invalidIdentity (field : String)
  | invalidTimestamp (reason : String)
  | invalidEvidence (reason : String)
  | invalidTransition (source target : ExecutionCommandStatus)
  | versionOverflow
  deriving DecidableEq

abbrev CommandCheck := Except CommandTransitionError

/-! ## the table -/

def commandStatusIsTerminal : ExecutionCommandStatus → Bool
  | .deliveryFailed | .rejected | .filled | .failed | .expired | .cancelled => true
  | _ => false

def transitionIsAllowed : ExecutionCommandStatus → ExecutionCommandStatus → Bool
  | .created, .dispatched | .created, .expired | .created, .cancelled => true
  | .dispatched, .commandReceived | .dispatched, .deliveryUnconfirmed
  | .dispatched, .expired | .dispatched, .cancelled => true
  | .deliveryUnconfirmed, .reconciling | .deliveryUnconfirmed, .commandReceived
  | .deliveryUnconfirmed, .manualReconciliationRequired
  | .deliveryUnconfirmed, .expired | .deliveryUnconfirmed, .failed => true
  | .reconciling, .commandReceived | .reconciling, .orderSent | .reconciling, .partiallyFilled
  | .reconciling, .filled | .reconciling, .manualReconciliationRequired
  | .reconciling, .failed | .reconciling, .expired => true
  | .manualReconciliationRequired, .commandReceived | .manualReconciliationRequired, .orderSent
  | .manualReconciliationRequired, .partiallyFilled | .manualReconciliationRequired, .filled
  | .manualReconciliationRequired, .failed | .manualReconciliationRequired, .expired
  | .manualReconciliationRequired, .cancelled => true
  | .commandReceived, .accepted | .commandReceived, .rejected
  | .commandReceived, .cancelled | .commandReceived, .expired => true
  | .accepted, .orderSent | .accepted, .rejected | .accepted, .failed
  | .accepted, .cancelled | .accepted, .expired => true
  | .orderSent, .partiallyFilled | .orderSent, .filled | .orderSent, .cancelled
  | .orderSent, .failed => true
  | .partiallyFilled, .filled | .partiallyFilled, .failed | .partiallyFilled, .cancelled => true
  | _, _ => false

def eventStatus : ExecutionEventStatus → ExecutionCommandStatus
  | .accepted => .accepted
  | .orderSent => .orderSent
  | .rejected => .rejected
  | .filled => .filled
  | .partiallyFilled => .partiallyFilled
  | .failed => .failed
  | .expired => .expired
  | .cancelled => .cancelled

/-- the statuses under which a late receipt is recorded without a transition -/
def acceptsLateReceipt : ExecutionCommandStatus → Bool
  | .reconciling | .manualReconciliationRequired | .accepted | .rejected | .orderSent
  | .partiallyFilled | .filled | .failed => true
  | _ => false

/-! ## validation -/

section
variable {F : Type} (command : ExecutionCommand F)

def identityFields (c : ExecutionCommand F) : List (String × String) :=
  [("command_id", c.commandId), ("strategy_id", c.strategyId), ("account_id", c.accountId),
   ("symbol", c.symbol), ("idempotency_key", c.idempotencyKey), ("hmac", c.hmac)]

def validateCommandIdentity : CommandCheck Unit := do
  each (identityFields command) fun fv =>
    reject (blank fv.2) (.invalidIdentity fv.1)
  reject (command.legId.isSome ∧ command.planId.isNone)
    (.invalidIdentity "leg_id requires plan_id")

/-- the four optional lifecycle timestamps -/
def lifecycleTimestamps (s : ExecutionCommandState) : List Int :=
  [s.dispatchedAt, s.commandReceivedAt, s.reconcilingAt, s.completedAt].reduceOption

def requiresDispatch : ExecutionCommandStatus → Bool
  | .dispatched | .deliveryUnconfirmed | .reconciling | .manualReconciliationRequired
  | .commandReceived | .accepted | .rejected | .orderSent | .partiallyFilled | .filled
  | .failed => true
  | _ => false

def requiresReconciliation : ExecutionCommandStatus → Bool
  | .reconciling | .manualReconciliationRequired => true
  | _ => false

def requiresReceipt : ExecutionCommandStatus → Bool
  | .commandReceived | .accepted | .rejected => true
  | _ => false

/-- `error.is_none_or(|error| error.trim().is_empty())` -/
def missingText : Option String → Bool
  | none => true
  | some text => blank text

def validateCommandState (s : ExecutionCommandState) : CommandCheck Unit := do
  validateCommandIdentity command
  reject (s.commandId ≠ command.commandId ∨ s.accountId ≠ command.accountId ∨
      s.planId ≠ command.planId ∨ s.legId ≠ command.legId)
    (.invalidIdentity "state does not belong to command")
  reject (s.createdAt < 0 ∨ s.updatedAt < s.createdAt)
    (.invalidTimestamp "created_at/updated_at are inconsistent")
  reject (command.expiresAt ≤ s.createdAt)
    (.invalidTimestamp "command expiry must follow state creation")
  reject (commandStatusIsTerminal s.status ≠ s.completedAt.isSome)
    (.invalidTimestamp "completed_at must exactly match terminal status")
  each (lifecycleTimestamps s) fun t =>
    reject (t < s.createdAt ∨ t > s.updatedAt)
      (.invalidTimestamp "lifecycle timestamp is outside state version bounds")
  reject (s.status = .created ∧ (s.deliveryAttempts ≠ 0 ∨ s.dispatchedAt.isSome ∨
      s.commandReceivedAt.isSome ∨ s.reconcilingAt.isSome))
    (.invalidTimestamp "CREATED state cannot contain later lifecycle evidence")
  reject (s.dispatchedAt.isSome ≠ decide (s.deliveryAttempts > 0))
    (.invalidTimestamp "delivery_attempts and dispatched_at must be present together")
  reject (requiresDispatch s.status ∧ s.dispatchedAt.isNone)
    (.invalidTimestamp "command status requires dispatch evidence")
  reject (s.status = .deliveryUnconfirmed ∧ missingText s.lastDeliveryError)
    (.invalidEvidence "DELIVERY_UNCONFIRMED requires a delivery error")
  reject (requiresReconciliation s.status ∧ s.reconcilingAt.isNone)
    (.invalidTimestamp "reconciliation status requires reconciling_at")
  reject (requiresReceipt s.status ∧ s.commandReceivedAt.isNone)
    (.invalidTimestamp "command status requires command_received_at")

def initialCommandState (createdAt : Int) : CommandCheck ExecutionCommandState := do
  validateCommandIdentity command
  reject (createdAt < 0 ∨ command.expiresAt ≤ createdAt)
    (.invalidTimestamp "created_at must precede expires_at")
  let state : ExecutionCommandState :=
    { commandId := command.commandId
      accountId := command.accountId
      planId := command.planId
      legId := command.legId
      status := .created
      deliveryAttempts := 0
      lastDeliveryError := none
      createdAt := createdAt
      dispatchedAt := none
      commandReceivedAt := none
      reconcilingAt := none
      completedAt := none
      updatedAt := createdAt }
  validateCommandState command state
  return state

/-! ## evidence -/

def validateReceipt (received : CommandReceived) (expected : CommandInboxStatus) :
    CommandCheck Unit := do
  reject (received.inboxStatus ≠ expected)
    (.invalidEvidence "command receipt has the wrong inbox status")
  reject (received.commandId ≠ command.commandId ∨
      received.idempotencyKey ≠ command.idempotencyKey ∨
      received.accountId ≠ command.accountId ∨ received.terminalId ≠ command.terminalId ∨
      received.clientId ≠ command.clientId)
    (.invalidIdentity "command receipt identity differs from command")

def validateBeforeExpiry (time : Int) (reason : String) : CommandCheck Unit :=
  reject (time ≥ command.expiresAt) (.invalidTimestamp reason)

def eventIsFill : ExecutionEventStatus → Bool
  | .filled | .partiallyFilled => true
  | _ => false

variable [F64 F]

/-- the lots of the event are given and differ from those of the command -/
def lotsDiffer (requestedLots : Option F) : Bool :=
  requestedLots.any fun lots => command.lots.all fun commandLots => !F64.sameBits lots commandLots

def validateExecutionEvent (event : ExecutionEvent F) : CommandCheck Unit := do
  reject (blank event.executionId ∨ event.eventAt < 0 ∨ event.commandId ≠ command.commandId ∨
      event.planId ≠ command.planId ∨ event.legId ≠ command.legId ∨
      event.accountId ≠ command.accountId ∨ event.terminalId ≠ command.terminalId ∨
      event.clientId ≠ command.clientId ∨ event.symbol ≠ command.symbol ∨
      (event.brokerSymbol.isSome ∧ event.brokerSymbol ≠ command.brokerSymbol) ∨
      (event.idempotencyKey.any fun key => key != command.idempotencyKey) ∨
      lotsDiffer command event.requestedLots)
    (.invalidIdentity "execution event identity differs from command")
  let isFill := eventIsFill event.status
  reject (isFill ≠ event.filledAt.isSome)
    (.invalidEvidence "filled_at must exactly match a fill status")
  reject (isFill ∧ (event.filledLots.all fun lots => !F64.isFinite lots || F64.le lots F64.zero))
    (.invalidEvidence "fill events require a positive filled_lots value")
  reject (event.filledAt.any fun filledAt => filledAt < 0 || filledAt > event.eventAt)
    (.invalidTimestamp "filled_at must not follow event_at")
  each [event.requestedLots, event.fillPrice, event.filledLots, event.remainingLots].reduceOption
    fun value => reject (!F64.isFinite value || F64.lt value F64.zero)
      (.invalidEvidence "execution quantities and prices must be finite and non-negative")

/-- the status a piece of evidence leads to and its time, before the sign of the time is checked -/
def evidenceClaim : CommandEvidence F → CommandCheck (ExecutionCommandStatus × Int)
  | .dispatched time => do
    validateBeforeExpiry command time "dispatch cannot occur at or after expires_at"
    return (.dispatched, time)
  | .deliveryUnconfirmed time _ => return (.deliveryUnconfirmed, time)
  | .beginReconciliation time => return (.reconciling, time)
  | .requireManualReconciliation time => return (.manualReconciliationRequired, time)
  | .receivedRecorded received => do
    validateReceipt command received .recorded
    validateBeforeExpiry command received.receivedAt
      "new command receipt cannot occur at or after expires_at"
    return (.commandReceived, received.receivedAt)
  | .receivedDuplicateKnownSamePayload received => do
    validateReceipt command received .duplicate
    return (.commandReceived, received.receivedAt)
  | .executionEvent event => do
    validateExecutionEvent command event
    return (eventStatus event.status, event.eventAt)
  | .expire time => do
    reject (time < command.expiresAt)
      (.invalidTimestamp "expiry evidence predates command.expires_at")
    return (.expired, time)
  | .cancel time => return (.cancelled, time)

def evidenceTarget (evidence : CommandEvidence F) :
    CommandCheck (ExecutionCommandStatus × Int) := do
  let result ← evidenceClaim command evidence
  reject (result.2 < 0) (.invalidTimestamp "evidence timestamp must be non-negative")
  return result

omit [F64 F] in
def receiptEvidence : CommandEvidence F → Option CommandReceived
  | .receivedRecorded received | .receivedDuplicateKnownSamePayload received => some received
  | _ => none

/-- an execution event that was filled before `createdAt` -/
def filledBefore (evidence : CommandEvidence F) (createdAt : Int) : Bool :=
  match evidence with
  | .executionEvent event => event.filledAt.any fun filledAt => filledAt < createdAt
  | _ => false

/-- local expiry or cancellation -/
def localEnd : CommandEvidence F → Bool
  | .expire _ | .cancel _ => true
  | _ => false

/-! ## transitions -/

def latestLifecycleEvidenceAt (s : ExecutionCommandState) : Int :=
  ((s.createdAt :: lifecycleTimestamps s).max?).getD s.createdAt

/-- `updated_at + 1`, or the time of the evidence if that is later -/
def nextVersion (s : ExecutionCommandState) (evidenceAt : Int) : CommandCheck Int := do
  let version ← need (checkedAdd s.updatedAt 1) .versionOverflow
  return max version evidenceAt

def applyReceiptEvidence (s : ExecutionCommandState) (received : CommandReceived)
    (target : ExecutionCommandStatus) : CommandCheck CommandTransitionOutcome := do
  reject (s.dispatchedAt.any fun dispatchedAt => received.receivedAt < dispatchedAt)
    (.invalidTimestamp "command receipt predates dispatch")
  match s.commandReceivedAt with
  | some recordedAt => do
    reject (recordedAt ≠ received.receivedAt)
      (.invalidEvidence "command receipt timestamp differs from the recorded receipt")
    return .duplicate s
  | none =>
    if transitionIsAllowed s.status target then do
      let version ← nextVersion s received.receivedAt
      let next := { s with status := target, commandReceivedAt := some received.receivedAt,
                           updatedAt := version }
      validateCommandState command next
      return .applied next
    -- an execution event may overtake the receipt: keep the stronger lifecycle
    else if acceptsLateReceipt s.status then do
      let version ← nextVersion s received.receivedAt
      let next := { s with commandReceivedAt := some received.receivedAt, updatedAt := version }
      validateCommandState command next
      return .applied next
    else .error (.invalidTransition s.status target)

/-- the fields a piece of evidence writes besides status and version -/
def recordEvidence (s : ExecutionCommandState) :
    CommandEvidence F → CommandCheck ExecutionCommandState
  | .dispatched time => do
    let attempts ← need (checkedSuccU32 s.deliveryAttempts) .versionOverflow
    return { s with deliveryAttempts := attempts, dispatchedAt := some time,
                    lastDeliveryError := none }
  | .deliveryUnconfirmed _ error => do
    reject (blank error) (.invalidEvidence "delivery error must not be empty")
    return { s with lastDeliveryError := some error }
  | .beginReconciliation time | .requireManualReconciliation time =>
    return { s with reconcilingAt := some (s.reconcilingAt.getD time) }
  | .receivedRecorded received | .receivedDuplicateKnownSamePayload received =>
    return { s with commandReceivedAt := some (s.commandReceivedAt.getD received.receivedAt) }
  | .executionEvent _ | .expire _ | .cancel _ => return s

def completeAt (s : ExecutionCommandState) (evidenceAt : Int) : ExecutionCommandState :=
  if commandStatusIsTerminal s.status then { s with completedAt := some evidenceAt } else s

/-- the part of `transition_command` behind the receipts -/
def advanceCommand (s : ExecutionCommandState) (evidence : CommandEvidence F)
    (target : ExecutionCommandStatus) (evidenceAt : Int) :
    CommandCheck CommandTransitionOutcome := do
  reject (evidenceAt < latestLifecycleEvidenceAt s)
    (.invalidTimestamp "advancing evidence predates existing lifecycle evidence")
  if target = s.status then return .duplicate s
  else do
    reject (localEnd evidence ∧ s.status ≠ .created)
      (.invalidEvidence "local expiry/cancellation is only valid before dispatch")
    reject (transitionIsAllowed s.status target = false) (.invalidTransition s.status target)
    let version ← nextVersion s evidenceAt
    let recorded ← recordEvidence { s with status := target, updatedAt := version } evidence
    let next := completeAt recorded evidenceAt
    validateCommandState command next
    return .applied next

def transitionCommand (s : ExecutionCommandState) (evidence : CommandEvidence F) :
    CommandCheck CommandTransitionOutcome := do
  validateCommandState command s
  let claim ← evidenceTarget command evidence
  reject (filledBefore evidence s.createdAt)
    (.invalidTimestamp "filled_at predates command creation")
  reject (claim.2 < s.createdAt) (.invalidTimestamp "evidence predates command creation")
  match receiptEvidence evidence with
  | some received => applyReceiptEvidence command s received claim.1
  | none => advanceCommand command s evidence claim.1 claim.2

end

/-! ## the store's view -/

/-- a command as the store keeps it, as far as the lifecycle reads it -/
structure StoredExecutionCommand (F : Type) where
  command : ExecutionCommand F
  createdAt : Int
  deriving DecidableEq

def persistedTimestamps (s : ExecutionCommandState) : List (String × Option Int) :=
  [("dispatched_at", s.dispatchedAt), ("command_received_at", s.commandReceivedAt),
   ("reconciling_at", s.reconcilingAt), ("completed_at", s.completedAt)]

def validatePersistedCommandState {F : Type} (s : ExecutionCommandState)
    (stored : StoredExecutionCommand F) : Except String Unit := do
  reject (s.commandId ≠ stored.command.commandId ∨ s.accountId ≠ stored.command.accountId ∨
      s.planId ≠ stored.command.planId ∨ s.legId ≠ stored.command.legId ∨
      s.createdAt ≠ stored.createdAt)
    "state identity differs from its command"
  reject (s.createdAt < 0 ∨ s.updatedAt < s.createdAt) "created_at/updated_at lifecycle is invalid"
  each (persistedTimestamps s) fun ft =>
    reject (ft.2.any fun t => t < s.createdAt || t > s.updatedAt)
      (ft.1 ++ " is outside the persisted lifecycle window")

end Sinan.Execution
