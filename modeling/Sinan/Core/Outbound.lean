import Sinan.Execution.Delivery
import Sinan.Store.Commands
import Sinan.Store.Work

/-!
# The durable outbound processor

One pass of `process_next` claims a piece of work, has the gateway deliver it, and finishes it in one
more transaction.  The claim and the finish are here, as functions of the tables; what the delivery
answered is an argument of the finish.  A transaction that fails leaves the tables as they were, so a
result carries them only on success.

The reconciliation runs are reached through an interface (`RunStore`): the processor reads the status
of a run and asks for a new one.
-/

namespace Sinan.Core

open Lib Execution Store

inductive ReconciliationRunStatus where
  | requested
  | pendingEvidence
  | completed
  | manualReconciliationRequired
  deriving DecidableEq

/-- `{:?}` of a status -/
def ReconciliationRunStatus.debug : ReconciliationRunStatus → String
  | .requested => "Requested"
  | .pendingEvidence => "PendingEvidence"
  | .completed => "Completed"
  | .manualReconciliationRequired => "ManualReconciliationRequired"

/-- what the processor reads of a run, with the context of its request event -/
structure StoredReconciliationRun where
  request : ReconciliationRequest
  status : ReconciliationRunStatus
  correlationId : Option CorrelationId
  causationId : Option CausationId
  deriving DecidableEq

/-- The event of the request is derived from these fields. -/
structure NewReconciliationRun where
  request : ReconciliationRequest
  requestedAt : Int
  messageId : MessageId
  deriving DecidableEq

structure RunStore (R : Type) where
  run : R → RequestId → StoreCheck (Option StoredReconciliationRun)
  requested : R → List (RequestId × Int)
  create : R → NewReconciliationRun → StoreCheck R

structure OutboundTables (P F R : Type) extends CommandTables P F where
  runs : R
  works : WorkTable

structure DurableOutboundConfig where
  workerId : String
  leaseDurationMs : Int
  retryBaseDelayMs : Int
  retryMaxDelayMs : Int
  deriving DecidableEq

inductive DurableDeliveryDisposition where
  | sent
  | unconfirmed
  deriving DecidableEq

inductive DurableOutboundProcessOutcome where
  | noWork
  | executionCommandDelivered (commandId : CommandId) (messageId : MessageId)
      (disposition : DurableDeliveryDisposition)
  | reconciliationRequestDelivered (requestId : RequestId) (messageId : MessageId)
      (disposition : DurableDeliveryDisposition)
  | retryScheduled (subject : OutboundDeliveryWorkSubject) (failedMessageId : MessageId)
      (nextMessageId : MessageId) (retryAt : Int) (reason : String)
  | deliveryStopped (subject : OutboundDeliveryWorkSubject) (messageId : MessageId)
      (outcome : OutboundDeliveryWorkOutcome) (reason : String)
  deriving DecidableEq

inductive CommandDeliveryCommitOutcome where
  | applied
  | superseded (reason : String)
  deriving DecidableEq

inductive OutboundWorkflowError where
  | store (error : StoreError)
  | commandTransition (error : CommandTransitionError)
  | projection (error : ProjectionError)
  | invalidConfiguration (reason : String)
  | invalidClock (reason : String)
  | invariant (reason : String)
  deriving DecidableEq

abbrev Outbound := Except OutboundWorkflowError

def ofStore {α : Type} (r : StoreCheck α) : Outbound α :=
  match r with
  | .ok a => .ok a
  | .error e => .error (.store e)

def ofCommand {α : Type} (r : CommandCheck α) : Outbound α :=
  match r with
  | .ok a => .ok a
  | .error e => .error (.commandTransition e)

def ofPersist {α : Type} (r : Persist α) : Outbound α :=
  match r with
  | .ok a => .ok a
  | .error (.projection e) => .error (.projection e)
  | .error (.terminal reason) => .error (.invariant reason)
  | .error (.store e) => .error (.store e)

def DurableOutboundConfig.validate (config : DurableOutboundConfig) : Outbound Unit := do
  reject (blank config.workerId = true) (.invalidConfiguration "worker_id must not be empty")
  reject (config.leaseDurationMs ≤ 0)
    (.invalidConfiguration "lease_duration_ms must be positive")
  reject (config.retryBaseDelayMs ≤ 0 ∨ config.retryMaxDelayMs < config.retryBaseDelayMs)
    (.invalidConfiguration "retry delays must be positive and max must not be less than base")

def nowMs (now : Int) : Outbound Int := do
  reject (now < 0) (.invalidClock "timestamp must be non-negative")
  return now

/-- `base * 2 ^ min(attempts - 1, 62)`, saturating, and at most the maximal delay -/
def retryDelay (config : DurableOutboundConfig) (deliveryAttempts : Nat) : Int :=
  let delay := config.retryBaseDelayMs * 2 ^ min (deliveryAttempts - 1) 62
  min (if delay ≤ i64Max then delay else i64Max) config.retryMaxDelayMs

section
variable {P F R : Type} [DecidableEq P] [DecidableEq F] [F64 F] (codec : PayloadCodec P F)
  (runStore : RunStore R) (config : DurableOutboundConfig) (t : OutboundTables P F R)

/-! ## the claim -/

inductive ClaimedOutboundDelivery (F : Type) where
  | executionCommand (work : StoredOutboundDeliveryWork) (command : CommandRow F)
      (state : ExecutionCommandState) (correlationId : Option CorrelationId)
      (causationId : Option CausationId)
  | reconciliationRequest (work : StoredOutboundDeliveryWork) (run : StoredReconciliationRun)

def ClaimedOutboundDelivery.work : ClaimedOutboundDelivery F → StoredOutboundDeliveryWork
  | .executionCommand work _ _ _ _ => work
  | .reconciliationRequest work _ => work

def ClaimedOutboundDelivery.expiresAt : ClaimedOutboundDelivery F → Option Int
  | .executionCommand _ command _ _ _ => some command.command.expiresAt
  | .reconciliationRequest _ _ => none

/-- CREATED commands and REQUESTED runs -/
def unscheduledSubjects : UnscheduledSubjects where
  created := (t.commands.rows.filter fun row =>
    (t.states.get row.command.commandId).any fun s => s.status == .created).map fun row =>
      (row.command.commandId, row.createdAt)
  requested := runStore.requested t.runs

def commandEnvelopeContext (command : ExecutionCommand F) :
    StoreCheck (Option CorrelationId × Option CausationId) :=
  match command.planId with
  | none => .ok (none, none)
  | some planId => do
    let row ← need (t.plans.plans.find? fun row => row.planId == planId)
      (.corruptData "execution_command" command.commandId
        ("parent plan " ++ planId ++ " has no trade intent"))
    let found ← t.plans.intent row.intentId
    let intent ← need found (.corruptData "execution_command" command.commandId
      ("parent plan " ++ planId ++ " references missing intent " ++ row.intentId))
    return (some intent.intent.correlationId, some intent.intent.intentId)

def loadClaimed (work : StoredOutboundDeliveryWork) : StoreCheck (ClaimedOutboundDelivery F) :=
  match work.subject with
  | .executionCommand commandId => do
    let command ← need (t.commands.get commandId) (.notFound "execution_command" commandId)
    let state ← need (t.states.get commandId) (.notFound "execution_command_state" commandId)
    let context ← commandEnvelopeContext t command.command
    return .executionCommand work command state context.1 context.2
  | .reconciliationRequest requestId => do
    let found ← runStore.run t.runs requestId
    let run ← need found (.notFound "reconciliation_run" requestId)
    return .reconciliationRequest work run

/-- the subject of the claimed work, with the tables after the claim -/
def loadNext : Option StoredOutboundDeliveryWork → StoreCheck (Option (ClaimedOutboundDelivery F))
  | none => .ok none
  | some work => do
    let claimed ← loadClaimed runStore t work
    return some claimed

/-- The work table is written before the subject is loaded; a failed load rolls the claim back. -/
def claimNext (claim : ClaimOutboundDeliveryWork) :
    StoreCheck (Option (ClaimedOutboundDelivery F) × OutboundTables P F R) := do
  let found ← claimNextOutboundDelivery t.works (unscheduledSubjects runStore t)
    (fun _ => .ok ()) claim
  let claimed ← loadNext runStore t found.1
  return (claimed, { t with works := found.2 })

/-- the first half of `process_next` -/
def claimDelivery (now : Int) :
    Outbound (Option (ClaimedOutboundDelivery F) × OutboundTables P F R) := do
  let claimedAt ← nowMs now
  let leaseExpiresAt ← need (checkedAdd claimedAt config.leaseDurationMs)
    (.invalidClock "lease timestamp overflow")
  ofStore (claimNext runStore t ⟨config.workerId, claimedAt, leaseExpiresAt⟩)

/-! ## requests -/

def commandRequest (work : StoredOutboundDeliveryWork) (command : ExecutionCommand F)
    (correlationId : Option CorrelationId) (causationId : Option CausationId) :
    DeliveryRequest (ExecutionCommand F) where
  accountId := command.accountId
  clientId := command.clientId
  terminalId := command.terminalId
  commandId := some command.commandId
  message :=
    { messageId := work.messageId
      messageType := .executionCommand
      schemaVersion := supportedSchemaVersion
      clientId := command.clientId
      sessionId := none
      correlationId := correlationId
      causationId := causationId
      sentAt := none
      sequence := none
      payload := command }
  expiresAt := some command.expiresAt

def reconciliationDeliveryRequest (work : StoredOutboundDeliveryWork)
    (run : StoredReconciliationRun) : DeliveryRequest ReconciliationRequest where
  accountId := run.request.accountId
  clientId := run.request.clientId
  terminalId := run.request.terminalId
  commandId := none
  message :=
    { messageId := work.messageId
      messageType := .reconciliationRequest
      schemaVersion := supportedSchemaVersion
      clientId := run.request.clientId
      sessionId := none
      correlationId := run.correlationId
      causationId := run.causationId
      sentAt := none
      sequence := none
      payload := run.request }
  expiresAt := none

/-! ## evidence -/

/-- a failed check of the evidence is the text of the retry -/
abbrev EvidenceCheck := Except String Unit

def validateDeliveryEvidence (work : StoredOutboundDeliveryWork) (messageId : MessageId)
    (evidenceAt finishedAt : Int) (expiresAt : Option Int) : EvidenceCheck := do
  reject (messageId ≠ work.messageId)
    "delivery port returned evidence for a different message_id"
  reject (evidenceAt < work.createdAt ∨ evidenceAt > finishedAt)
    "delivery evidence timestamp is outside durable work bounds"
  reject (expiresAt.any (fun t => evidenceAt ≥ t) = true)
    "delivery port reported a send at or after command expiry"

def validateUnconfirmedEvidenceWithoutExpiry (work : StoredOutboundDeliveryWork)
    (messageId : MessageId) (writeStartedAt observedAt finishedAt : Int) : EvidenceCheck := do
  reject (messageId ≠ work.messageId)
    "delivery port returned evidence for a different message_id"
  reject (writeStartedAt < work.createdAt ∨ observedAt < writeStartedAt ∨ observedAt > finishedAt)
    "uncertain delivery timestamps are outside durable work bounds"

def validateUnconfirmedEvidence (work : StoredOutboundDeliveryWork) (messageId : MessageId)
    (writeStartedAt observedAt finishedAt expiresAt : Int) : EvidenceCheck := do
  validateUnconfirmedEvidenceWithoutExpiry work messageId writeStartedAt observedAt finishedAt
  reject (writeStartedAt ≥ expiresAt) "delivery write began at or after command expiry"

/-! ## the transactions of a finish -/

def complete (work : StoredOutboundDeliveryWork) (completedAt : Int)
    (outcome : OutboundDeliveryWorkOutcome) (error : Option String) :
    CompleteOutboundDeliveryWork :=
  ⟨work.workId, work.revision, config.workerId, completedAt, outcome, error⟩

def completeWork (completion : CompleteOutboundDeliveryWork) : Outbound (OutboundTables P F R) := do
  let completed ← ofStore (completeOutboundDeliveryWork t.works completion)
  return { t with works := completed.2 }

def stopDelivery (work : StoredOutboundDeliveryWork) (completedAt : Int)
    (outcome : OutboundDeliveryWorkOutcome) (error : Option String) (reason : String) :
    Outbound (DurableOutboundProcessOutcome × OutboundTables P F R) := do
  let written ← completeWork t (complete config work completedAt outcome error)
  return (.deliveryStopped work.subject work.messageId outcome reason, written)

def retryReason (reason : String) : String :=
  if blank reason then "outbound delivery failed without detail" else reason

/-- the business side of the work went on: there is nothing left to retry -/
def superseded : OutboundDeliveryWorkSubject → Outbound Bool
  | .executionCommand commandId =>
    .ok ((t.states.get commandId).any fun s => s.status != .created)
  | .reconciliationRequest requestId => do
    let found ← ofStore (runStore.run t.runs requestId)
    return found.any fun run => run.status != .requested

def scheduleRetry (work : StoredOutboundDeliveryWork) (failedAt : Int)
    (outcome : OutboundDeliveryWorkOutcome) (reason : String) (advanceGeneration : Bool) :
    Outbound (DurableOutboundProcessOutcome × OutboundTables P F R) := do
  let retryAt ← need (checkedAdd failedAt (retryDelay config work.deliveryAttempts))
    (.invalidClock "retry timestamp overflow")
  let stop ← superseded runStore t work.subject
  if stop then do
    let stopped := "stronger business evidence superseded retry: " ++ retryReason reason
    let written ← completeWork t (complete config work failedAt .superseded (some stopped))
    return (.deliveryStopped work.subject work.messageId .superseded stopped, written)
  else do
    let pending ← ofStore (retryOutboundDeliveryWork t.works
      ⟨work.workId, work.revision, config.workerId, failedAt, retryAt, outcome, retryReason reason,
        advanceGeneration⟩)
    return (.retryScheduled work.subject work.messageId pending.1.messageId retryAt
      (retryReason reason), { t with works := pending.2 })

/-! ## the lifecycle of the command -/

/-- `transition_command(..)?.into_state()` -/
def transitionState (command : ExecutionCommand F) (current : ExecutionCommandState)
    (evidence : CommandEvidence F) : Outbound ExecutionCommandState :=
  ofCommand ((transitionCommand command current evidence).map CommandTransitionOutcome.state)

def dispatchState (command : ExecutionCommand F) (current : ExecutionCommandState)
    (dispatchedAt : Int) : Outbound ExecutionCommandState :=
  if current.status = .created then transitionState command current (.dispatched dispatchedAt)
  else .ok current

def doubtState (command : ExecutionCommand F) (dispatched : ExecutionCommandState) :
    Option (Int × String) → Outbound ExecutionCommandState
  | none => .ok dispatched
  | some (observedAt, error) =>
    if dispatched.status = .dispatched then
      transitionState command dispatched (.deliveryUnconfirmed observedAt error)
    else .ok dispatched

/-- the state after the dispatch, then after the doubt about it -/
def nextDeliveryState (command : ExecutionCommand F) (current : ExecutionCommandState)
    (dispatchedAt : Int) (uncertainty : Option (Int × String)) :
    Outbound (Option ExecutionCommandState) := do
  let dispatched ← dispatchState command current dispatchedAt
  let next ← doubtState command dispatched uncertainty
  return if next = current then none else some next

/-- `update_execution_command_state` with the version that was read -/
def writeState (current next : ExecutionCommandState) : Outbound (OutboundTables P F R) := do
  let states ← ofStore (updateExecutionCommandState t.states
    ⟨current.status, current.updatedAt, next⟩)
  return { t with states := states }

def loadedProjection (commandId : CommandId) : Outbound (ExecutionProjectionSnapshot P F) := do
  let found ← ofStore (loadExecutionProjection codec t.toCommandTables commandId)
  need found (.invariant ("command " ++ commandId ++ " has no execution projection"))

def snapshotState (snapshot : ExecutionProjectionSnapshot P F) (commandId : CommandId) :
    Outbound ExecutionCommandState :=
  need (snapshot.workflow.commandStates.find? fun s => s.commandId == commandId)
    (.invariant ("execution projection omitted command " ++ commandId))

/-- `iter_mut().find(..)` and an assignment -/
def replaceState (next : ExecutionCommandState) :
    List ExecutionCommandState → List ExecutionCommandState
  | [] => []
  | s :: rest =>
    if s.commandId = next.commandId then next :: rest else s :: replaceState next rest

/-- The state is written first; the projection of its plan follows from the snapshot with it. -/
def writeProjected (snapshot : ExecutionProjectionSnapshot P F)
    (current next : ExecutionCommandState) (projectionAt : Int) :
    Outbound (OutboundTables P F R) := do
  let written ← writeState t current next
  let plans ← ofPersist (persistPlanProjection codec written.plans snapshot.workflow.plan
    (replaceState next snapshot.workflow.commandStates) snapshot.events projectionAt)
  return { written with plans := plans }

def writeNext (snapshot : ExecutionProjectionSnapshot P F) (current : ExecutionCommandState)
    (projectionAt : Int) : Option ExecutionCommandState → Outbound (OutboundTables P F R)
  | none => .ok t
  | some next => writeProjected codec t snapshot current next projectionAt

def applyCommandDeliveryTransition (snapshot : ExecutionProjectionSnapshot P F)
    (command : ExecutionCommand F) (dispatchedAt : Int) (uncertainty : Option (Int × String)) :
    Outbound (OutboundTables P F R) := do
  let current ← snapshotState snapshot command.commandId
  let next ← nextDeliveryState command current dispatchedAt uncertainty
  writeNext codec t snapshot current ((uncertainty.map Prod.fst).getD dispatchedAt) next

/-- a command without a plan has nothing to project -/
def writeUnplanned (current : ExecutionCommandState) :
    Option ExecutionCommandState → Outbound (OutboundTables P F R)
  | none => .ok t
  | some next => writeState t current next

def applyDelivery (command : ExecutionCommand F) (current : ExecutionCommandState)
    (dispatchedAt : Int) (uncertainty : Option (Int × String)) : Outbound (OutboundTables P F R) :=
  if command.planId.isSome then do
    let snapshot ← loadedProjection codec t command.commandId
    applyCommandDeliveryTransition codec t snapshot command dispatchedAt uncertainty
  else do
    let next ← nextDeliveryState command current dispatchedAt uncertainty
    writeUnplanned t current next

def requiredState (commandId : CommandId) (missing : String) : Outbound ExecutionCommandState :=
  need (t.states.get commandId) (.invariant ("command " ++ commandId ++ missing))

def deliveryReconciliation (work : StoredOutboundDeliveryWork) (command : ExecutionCommand F)
    (observedAt requestedAt : Int) : NewReconciliationRun where
  request :=
    { requestId := "reconciliation:delivery-unconfirmed:" ++ command.commandId
      accountId := command.accountId
      terminalId := command.terminalId
      clientId := command.clientId
      reason := .deliveryUnconfirmed
      commandIds := some [command.commandId]
      sinceServerTime := some observedAt }
  requestedAt := requestedAt
  messageId := work.messageId

/-- an unconfirmed delivery asks for a reconciliation -/
def ensureDeliveryReconciliation (work : StoredOutboundDeliveryWork) (command : ExecutionCommand F)
    (completedAt : Int) : Option (Int × String) → Outbound (OutboundTables P F R)
  | none => .ok t
  | some (observedAt, _) => do
    let current ← requiredState t command.commandId " lost its lifecycle state"
    if current.status = .deliveryUnconfirmed then do
      let runs ← ofStore (runStore.create t.runs
        (deliveryReconciliation work command observedAt completedAt))
      return { t with runs := runs }
    else return t

def advancedReason (status : ExecutionCommandStatus) : String :=
  "stronger command lifecycle evidence advanced state to " ++ status.asStr ++ " during delivery"

def commitCommandDelivery (work : StoredOutboundDeliveryWork) (command : ExecutionCommand F)
    (dispatchedAt : Int) (uncertainty : Option (Int × String)) (completedAt : Int)
    (outcome : OutboundDeliveryWorkOutcome) :
    Outbound (CommandDeliveryCommitOutcome × OutboundTables P F R) := do
  let current ← requiredState t command.commandId " has no lifecycle state"
  if current.status ≠ .created then do
    let written ← completeWork t
      (complete config work completedAt .superseded (some (advancedReason current.status)))
    return (.superseded (advancedReason current.status), written)
  else do
    let delivered ← applyDelivery codec t command current dispatchedAt uncertainty
    let reconciled ← ensureDeliveryReconciliation runStore delivered work command completedAt
      uncertainty
    let written ← completeWork reconciled
      (complete config work completedAt outcome (uncertainty.map Prod.snd))
    return (.applied, written)

/-- the state after the expiry, unless the command has left CREATED -/
def expireState (command : ExecutionCommand F) (current : ExecutionCommandState) (expiredAt : Int)
    (write : ExecutionCommandState → Outbound (OutboundTables P F R)) :
    Outbound (Bool × OutboundTables P F R) :=
  if current.status ≠ .created then .ok (false, t)
  else do
    let next ← transitionState command current (.expire expiredAt)
    let written ← write next
    return (true, written)

def applyExpiry (command : ExecutionCommand F) (expiredAt : Int) :
    Outbound (Bool × OutboundTables P F R) :=
  if command.planId.isSome then do
    let snapshot ← loadedProjection codec t command.commandId
    let current ← snapshotState snapshot command.commandId
    expireState t command current expiredAt fun next =>
      writeProjected codec t snapshot current next expiredAt
  else do
    let current ← requiredState t command.commandId " has no lifecycle state"
    expireState t command current expiredAt (writeState t current)

def expiryOutcome (expired : Bool) : OutboundDeliveryWorkOutcome :=
  if expired then .expired else .superseded

def expiryReason (expired : Bool) : String :=
  if expired then "command expired before dispatch"
  else "stronger command lifecycle evidence superseded expiry"

def expireCommand (work : StoredOutboundDeliveryWork) (command : ExecutionCommand F)
    (rejectedAt completedAt : Int) :
    Outbound (DurableOutboundProcessOutcome × OutboundTables P F R) :=
  let expiredAt := max rejectedAt command.expiresAt
  if rejectedAt < work.createdAt ∨ expiredAt > completedAt then
    scheduleRetry runStore config t work completedAt .infrastructureError
      "expired rejection timestamp is outside durable delivery bounds" false
  else do
    let expired ← applyExpiry codec t command expiredAt
    let written ← completeWork expired.2 (complete config work completedAt
      (expiryOutcome expired.1) (some (expiryReason expired.1)))
    return (.deliveryStopped work.subject work.messageId (expiryOutcome expired.1)
      (expiryReason expired.1), written)

/-! ## the finish of a command -/

def commandDeliveryProcessOutcome (work : StoredOutboundDeliveryWork) (commandId : CommandId)
    (disposition : DurableDeliveryDisposition) :
    CommandDeliveryCommitOutcome → DurableOutboundProcessOutcome
  | .applied => .executionCommandDelivered commandId work.messageId disposition
  | .superseded reason => .deliveryStopped work.subject work.messageId .superseded reason

/-- evidence that fails its check is retried as an infrastructure error of the same generation -/
def orRetry (work : StoredOutboundDeliveryWork) (finishedAt : Int) (check : EvidenceCheck)
    (accepted : Outbound (DurableOutboundProcessOutcome × OutboundTables P F R)) :
    Outbound (DurableOutboundProcessOutcome × OutboundTables P F R) :=
  match check with
  | .error reason =>
    scheduleRetry runStore config t work finishedAt .infrastructureError reason false
  | .ok _ => accepted

def sameMessage (messageId workMessageId : MessageId) (reason : String) : EvidenceCheck :=
  reject (messageId ≠ workMessageId) reason

def uncertaintyText (error : String) : EvidenceCheck :=
  reject (blank error = true) "delivery port returned empty uncertainty evidence"

def deliverCommand (work : StoredOutboundDeliveryWork) (command : ExecutionCommand F)
    (dispatchedAt : Int) (uncertainty : Option (Int × String)) (finishedAt : Int)
    (outcome : OutboundDeliveryWorkOutcome) (disposition : DurableDeliveryDisposition) :
    Outbound (DurableOutboundProcessOutcome × OutboundTables P F R) := do
  let committed ← commitCommandDelivery codec runStore config t work command dispatchedAt
    uncertainty finishedAt outcome
  return (commandDeliveryProcessOutcome work command.commandId disposition committed.1, committed.2)

/-- a rejection of this message, by its reason -/
def finishRejection (work : StoredOutboundDeliveryWork) (command : ExecutionCommand F)
    (rejectedAt finishedAt : Int) :
    DeliveryRejectionReason → Outbound (DurableOutboundProcessOutcome × OutboundTables P F R)
  | .expired => expireCommand codec runStore config t work command rejectedAt finishedAt
  | .identityMismatch field =>
    stopDelivery config t work finishedAt .permanentRejection
      (some ("identity mismatch: " ++ field))
      ("permanent delivery identity mismatch: " ++ field)
  | .transportRejected reason =>
    stopDelivery config t work finishedAt .permanentRejection (some reason)
      ("peer permanently rejected the transport message: " ++ reason)
  | reason =>
    scheduleRetry runStore config t work finishedAt .rejected reason.debug true

def finishCommand (work : StoredOutboundDeliveryWork) (command : ExecutionCommand F)
    (finishedAt : Int) :
    Delivery DeliveryOutcome → Outbound (DurableOutboundProcessOutcome × OutboundTables P F R)
  | .ok (.sent receipt) =>
    orRetry runStore config t work finishedAt
      (validateDeliveryEvidence work receipt.messageId receipt.sentAt finishedAt
        (some command.expiresAt))
      (deliverCommand codec runStore config t work command receipt.sentAt none finishedAt .sent
        .sent)
  | .ok (.unconfirmed u) =>
    orRetry runStore config t work finishedAt
      (validateUnconfirmedEvidence work u.messageId u.writeStartedAt u.observedAt finishedAt
        command.expiresAt)
      (orRetry runStore config t work finishedAt (uncertaintyText u.error)
        (deliverCommand codec runStore config t work command u.writeStartedAt
          (some (u.observedAt, u.error)) finishedAt .unconfirmed .unconfirmed))
  | .ok (.rejected rejection) =>
    orRetry runStore config t work finishedAt
      (sameMessage rejection.messageId work.messageId
        "delivery port returned a rejection for a different message_id")
      (finishRejection codec runStore config t work command rejection.rejectedAt finishedAt
        rejection.reason)
  | .ok (.definitelyNotWritten failure) =>
    orRetry runStore config t work finishedAt
      (sameMessage failure.messageId work.messageId
        "delivery port returned failure for a different message_id")
      (scheduleRetry runStore config t work finishedAt .definitelyNotWritten failure.error true)
  | .error error =>
    scheduleRetry runStore config t work finishedAt .infrastructureError error.text false

/-! ## the finish of a reconciliation request -/

def finishRunRejection (work : StoredOutboundDeliveryWork) (finishedAt : Int)
    (reason : DeliveryRejectionReason) :
    Outbound (DurableOutboundProcessOutcome × OutboundTables P F R) :=
  match reason with
  | .noActiveSession | .ambiguousRoute _ | .clockUnhealthy | .backpressure _ | .inflightLimit _ =>
    scheduleRetry runStore config t work finishedAt .rejected reason.debug true
  | _ =>
    let detail := "permanent reconciliation rejection: " ++ reason.debug
    stopDelivery config t work finishedAt .permanentRejection (some detail) detail

def deliverRun (work : StoredOutboundDeliveryWork) (requestId : RequestId) (finishedAt : Int)
    (outcome : OutboundDeliveryWorkOutcome) (error : Option String)
    (disposition : DurableDeliveryDisposition) :
    Outbound (DurableOutboundProcessOutcome × OutboundTables P F R) := do
  let written ← completeWork t (complete config work finishedAt outcome error)
  return (.reconciliationRequestDelivered requestId work.messageId disposition, written)

def finishRun (work : StoredOutboundDeliveryWork) (requestId : RequestId) (finishedAt : Int) :
    Delivery DeliveryOutcome → Outbound (DurableOutboundProcessOutcome × OutboundTables P F R)
  | .ok (.sent receipt) =>
    orRetry runStore config t work finishedAt
      (validateDeliveryEvidence work receipt.messageId receipt.sentAt finishedAt none)
      (deliverRun config t work requestId finishedAt .sent none .sent)
  | .ok (.unconfirmed u) =>
    orRetry runStore config t work finishedAt
      (validateUnconfirmedEvidenceWithoutExpiry work u.messageId u.writeStartedAt u.observedAt
        finishedAt)
      (orRetry runStore config t work finishedAt (uncertaintyText u.error)
        (deliverRun config t work requestId finishedAt .unconfirmed (some u.error) .unconfirmed))
  | .ok (.rejected rejection) =>
    orRetry runStore config t work finishedAt
      (sameMessage rejection.messageId work.messageId
        "delivery port returned a rejection for a different message_id")
      (finishRunRejection runStore config t work finishedAt rejection.reason)
  | .ok (.definitelyNotWritten failure) =>
    orRetry runStore config t work finishedAt
      (sameMessage failure.messageId work.messageId
        "delivery port returned failure for a different message_id")
      (scheduleRetry runStore config t work finishedAt .definitelyNotWritten failure.error true)
  | .error error =>
    scheduleRetry runStore config t work finishedAt .infrastructureError error.text false

def finishReconciliation (work : StoredOutboundDeliveryWork) (outcome : Delivery DeliveryOutcome)
    (finishedAt : Int) : Outbound (DurableOutboundProcessOutcome × OutboundTables P F R) :=
  match work.subject with
  | .reconciliationRequest requestId =>
    finishRun runStore config t work requestId finishedAt outcome
  | .executionCommand _ => .error (.invariant "reconciliation completion owns command work")

/-- the second half of `process_next`: a claim whose subject has gone on is stopped, any other is
finished with the answer of the delivery -/
def finishDelivery (claimed : ClaimedOutboundDelivery F) (outcome : Delivery DeliveryOutcome)
    (now : Int) : Outbound (DurableOutboundProcessOutcome × OutboundTables P F R) := do
  let finishedAt ← nowMs now
  match claimed with
  | .executionCommand work command state _ _ =>
    if state.status ≠ .created then
      stopDelivery config t work finishedAt .superseded none
        ("command lifecycle already advanced to " ++ state.status.asStr)
    else finishCommand codec runStore config t work command.command finishedAt outcome
  | .reconciliationRequest work run =>
    if run.status ≠ .requested then
      stopDelivery config t work finishedAt .superseded none
        ("reconciliation run already advanced to " ++ run.status.debug)
    else finishReconciliation runStore config t work outcome finishedAt

end

end Sinan.Core
