import Sinan.Store.Delivery

/-!
# The outbox and its attempts

The operations on one message: it is enqueued with its attempt, claimed for one write, the write is
finished with what the sink reported, and an acknowledgement, a receipt or a timeout may come before
or after that.  Every operation is one transaction: it returns its outcome with the tables it leaves,
and an error leaves them as they were.
-/

namespace Sinan.Store

open Lib

section
variable {P : Type} [DecidableEq P] (codec : WireCodec P) (tables : DeliveryTables P)

/-- `error.starts_with(TRANSPORT_ACK_REJECTED_PREFIX)` -/
def hasRejectedPrefix (error : Option String) : Bool :=
  error.any fun e => transportAckRejectedPrefix.toList.isPrefixOf e.toList

def transportRejected (o : StoredWireOutbox P) : Bool :=
  o.status == .failed && hasRejectedPrefix o.lastError

def requireMonotonicTransitionTime (outbox : StoredWireOutbox P) (attempt : StoredDeliveryAttempt P)
    (time : Int) : StoreCheck Unit :=
  reject (time < outbox.updatedAt ∨ time < attempt.updatedAt) (staleOutbound outbox.messageId)

/-! ## new messages -/

/-- the error of a message that is not stored yet is one of the caller's record -/
def asInvalidRecord (messageId : MessageId) : StoreCheck Unit → StoreCheck Unit
  | .error (.corruptData _ _ reason) => .error (.invalidRecord "wire_outbox" messageId reason)
  | other => other

def sameWireOutboxFact (existing : StoredWireOutbox P) (incoming : NewWireOutbox P) : Bool :=
  existing.messageId == incoming.messageId && existing.sessionId == incoming.sessionId &&
  existing.messageType == incoming.messageType && existing.sequence == incoming.sequence &&
  existing.commandId == incoming.commandId && existing.requestId == incoming.requestId &&
  existing.payload == incoming.payload

def fetchWireOutboxConflicts (message : NewWireOutbox P) : StoreCheck (List (StoredWireOutbox P)) :=
  collect (wireOutboxFromRow codec) (tables.outboxes.rows.filter fun o =>
    o.messageId == message.messageId || message.sessionId.isSome && message.sequence.isSome &&
      o.sessionId == message.sessionId && o.sequence == message.sequence)

/-- what an insert that hit a conflict returns -/
def outboxDuplicate (message : NewWireOutbox P) (existing : List (StoredWireOutbox P)) :
    StoreCheck (WriteOutcome (StoredWireOutbox P) × DeliveryTables P) :=
  match existing with
  | [stored] =>
    if sameWireOutboxFact stored message then .ok (.duplicate stored, tables)
    else .error (.identityConflict "wire_outbox" ("message_id=" ++ message.messageId))
  | _ => .error (.identityConflict "wire_outbox" ("message_id=" ++ message.messageId))

def enqueueWireOutbox (message : NewWireOutbox P) :
    StoreCheck (WriteOutcome (StoredWireOutbox P) × DeliveryTables P) := do
  asInvalidRecord message.messageId (validateStoredWireOutbox codec message)
  each message.sequence.toList (positiveU64ToI64 "wire_outbox.sequence")
  let inserted ← insertOutbox tables message
  match inserted with
  | some written => return (.inserted { message with revision := 0 }, written)
  | none =>
    let existing ← fetchWireOutboxConflicts codec tables message
    outboxDuplicate tables message existing

def validateNewAttempt (attempt : NewDeliveryAttempt P) : StoreCheck Unit := do
  requireNonEmpty "delivery attempt_id" attempt.attemptId
  reject (attempt.updatedAt < attempt.attemptedAt ∨
      (attempt.status == .acked) ≠ attempt.ackedAt.isSome)
    (.invalidRecord "command_delivery_attempt" attempt.attemptId
      "attempt timestamps do not match status")
  reject (attempt.status = .acked ∧ attempt.subject.commandId = none)
    (.invalidRecord "command_delivery_attempt" attempt.attemptId
      "ACKED is only valid for execution command receipt")
  reject (attempt.status = .unconfirmed ∧ attempt.error.all blank = true)
    (.invalidRecord "command_delivery_attempt" attempt.attemptId
      "UNCONFIRMED requires a non-empty error")
  reject (attempt.messageId.isSome ∧ attempt.sessionId = none)
    (.invalidRecord "command_delivery_attempt" attempt.attemptId
      "session_id and message_id must be present together")
  reject (attempt.messageId.isSome ∧ attempt.requestPayload.isSome)
    (.invalidRecord "command_delivery_attempt" attempt.attemptId
      "outbox-bound attempts must not duplicate the request payload")
  reject (attempt.messageId = none ∧ attempt.requestPayload = none)
    (.invalidRecord "command_delivery_attempt" attempt.attemptId
      "unbound delivery attempts require the rejected request payload")
  reject (attempt.messageId = none ∧ CommandDeliveryAttemptStatus.bound attempt.status = true)
    (.invalidRecord "command_delivery_attempt" attempt.attemptId
      "delivery status requires an outbox binding")

def sameAttempt (existing : StoredDeliveryAttempt P) (incoming : NewDeliveryAttempt P) : Bool :=
  existing.toNewDeliveryAttempt == incoming

def fetchAttemptConflicts (attempt : NewDeliveryAttempt P) :
    StoreCheck (List (StoredDeliveryAttempt P)) :=
  collect (parseAndValidateAttempt codec tables) (tables.attempts.rows.filter fun a =>
    a.attemptId == attempt.attemptId || attempt.messageId.isSome &&
      a.messageId == attempt.messageId)

def attemptDuplicate (attempt : NewDeliveryAttempt P) (existing : List (StoredDeliveryAttempt P)) :
    StoreCheck (WriteOutcome (StoredDeliveryAttempt P) × DeliveryTables P) :=
  match existing with
  | [stored] =>
    if sameAttempt stored attempt then .ok (.duplicate stored, tables)
    else .error (.identityConflict "command_delivery_attempt" ("attempt_id=" ++ attempt.attemptId))
  | _ => .error (.identityConflict "command_delivery_attempt" ("attempt_id=" ++ attempt.attemptId))

def recordDeliveryAttempt (attempt : NewDeliveryAttempt P) :
    StoreCheck (WriteOutcome (StoredDeliveryAttempt P) × DeliveryTables P) := do
  validateNewAttempt attempt
  let inserted ← insertAttempt tables attempt
  match inserted with
  | some written =>
    let found ← fetchDeliveryAttemptById codec written attempt.attemptId
    let stored ← need found (.corruptData "command_delivery_attempt" attempt.attemptId
      "attempt disappeared after insert")
    return (.inserted stored, written)
  | none =>
    let existing ← fetchAttemptConflicts codec tables attempt
    attemptDuplicate tables attempt existing

def subjectMessageType : DeliverySubject → String
  | .executionCommand _ => "execution.command"
  | .reconciliationRequest _ => "reconciliation.request"

def reservedOutbox (delivery : NewReservedDelivery P) : NewWireOutbox P where
  messageId := delivery.messageId
  sessionId := some delivery.reservation.sessionId
  messageType := delivery.messageType
  sequence := some delivery.reservation.sequence
  commandId := delivery.reservation.subject.commandId
  requestId := delivery.reservation.subject.requestId
  payload := delivery.envelope
  status := .pending
  createdAt := delivery.createdAt
  updatedAt := delivery.createdAt
  sentAt := none
  ackedAt := none
  lastError := none

def reservedAttempt (delivery : NewReservedDelivery P) : NewDeliveryAttempt P where
  attemptId := delivery.attemptId
  subject := delivery.reservation.subject
  sessionId := some delivery.reservation.sessionId
  messageId := some delivery.messageId
  requestPayload := none
  status := .pending
  attemptedAt := delivery.createdAt
  ackedAt := none
  error := none
  updatedAt := delivery.createdAt

def enqueueReservedDelivery (delivery : NewReservedDelivery P) :
    StoreCheck (StoredOutboundDelivery P × DeliveryTables P) := do
  requireNonEmpty "delivery attempt_id" delivery.attemptId
  let session ← requiredSession tables delivery.reservation.sessionId
  reject (session.status ≠ .active ∨ session.revision ≠ delivery.reservation.sessionRevision ∨
      session.lastOutboundSequence ≠ delivery.reservation.sequence ∨
      delivery.createdAt < session.updatedAt)
    (.staleWrite "outbound_reservation" delivery.reservation.sessionId)
  reject (session.clientId ≠ delivery.reservation.clientId ∨
      session.accountId ≠ delivery.reservation.accountId ∨
      session.terminalId ≠ delivery.reservation.terminalId)
    (.identityConflict "outbound_reservation" delivery.reservation.sessionId)
  reject (delivery.messageType ≠ subjectMessageType delivery.reservation.subject)
    (.invalidRecord "outbound_delivery" delivery.messageId
      ("message_type \"" ++ delivery.messageType ++ "\" does not match delivery subject"))
  validateOutboxParentPayload codec tables (reservedOutbox delivery)
  let outbox ← enqueueWireOutbox codec tables (reservedOutbox delivery)
  let attempt ← recordDeliveryAttempt codec outbox.2 (reservedAttempt delivery)
  reject (outbox.1.wasInserted ≠ attempt.1.wasInserted)
    (.identityConflict "outbound_delivery" outbox.1.record.messageId)
  return (⟨outbox.1.record, attempt.1.record⟩, attempt.2)

/-! ## the write -/

def cancelClaimedDelivery (outbox : StoredWireOutbox P) (attempt : StoredDeliveryAttempt P)
    (cancelledAt : Int) (status : CommandDeliveryAttemptStatus) (reason : String) :
    StoreCheck (StoredOutboundDelivery P × DeliveryTables P) := do
  let tables ← updateOutboxState tables outbox .cancelled cancelledAt none none (some reason)
  let tables ← updateAttemptState tables attempt status cancelledAt none (some reason)
  let delivery ← requiredOutboundDelivery codec tables outbox.messageId
  return (delivery, tables)

/-- the command is past its expiry at the claim; a reconciliation request has none -/
def claimExpired (subject : DeliverySubject) (claimedAt : Int) : StoreCheck Bool :=
  match subject with
  | .executionCommand commandId => do
    let parent ← need (tables.parents.command commandId) (.notFound "execution_command" commandId)
    return decide (parent.expiresAt ≤ claimedAt)
  | .reconciliationRequest _ => .ok false

/-- the claim of a message whose session is active and fresh -/
def claimOnSession (claim : ClaimWireOutbox) (outbox : StoredWireOutbox P)
    (attempt : StoredDeliveryAttempt P) (session : StoredSessionRecord P) :
    StoreCheck (OutboxClaimOutcome P × DeliveryTables P) := do
  reject (attempt.subject.commandId.isSome ∧ claim.requireSyncedClock = false)
    (invalidOutbound claim.messageId "execution command claim must require a synced clock")
  if claim.requireSyncedClock = true ∧ session.clockSyncStatus ≠ some .synced then
    let cancelled ← cancelClaimedDelivery codec tables outbox attempt claim.claimedAt
      .noActiveSession deliveryErrorClockUnhealthy
    return (.clockUnhealthy cancelled.1, cancelled.2)
  else
    let expired ← claimExpired tables attempt.subject claim.claimedAt
    if expired then
      let cancelled ← cancelClaimedDelivery codec tables outbox attempt claim.claimedAt
        .cancelled deliveryErrorCommandExpired
      return (.expired cancelled.1, cancelled.2)
    else
      let tables ← updateOutboxState tables outbox .writeStarted claim.claimedAt none none none
      let tables ← updateAttemptState tables attempt .pending claim.claimedAt none none
      let delivery ← requiredOutboundDelivery codec tables claim.messageId
      return (.claimed delivery, tables)

def claimOutbox (claim : ClaimWireOutbox) :
    StoreCheck (OutboxClaimOutcome P × DeliveryTables P) := do
  let outbox ← requiredOutbox codec tables claim.messageId
  let attempt ← requiredAttemptByMessage codec tables claim.messageId
  let sessionId ← need outbox.sessionId
    (.corruptData "outbound_delivery" claim.messageId "delivery outbox has no session")
  let session ← requiredSession tables sessionId
  reject (outbox.status ≠ .pending ∨ attempt.status ≠ .pending ∨
      outbox.revision ≠ claim.expectedOutboxRevision ∨
      attempt.revision ≠ claim.expectedAttemptRevision) (staleOutbound claim.messageId)
  requireMonotonicTransitionTime outbox attempt claim.claimedAt
  if session.status ≠ .active ∨
      session.lastHeartbeatAt.getD session.connectedAt < claim.freshAfter then
    let cancelled ← cancelClaimedDelivery codec tables outbox attempt claim.claimedAt
      .noActiveSession deliveryErrorSessionUnavailable
    return (.sessionUnavailable cancelled.1, cancelled.2)
  else
    claimOnSession codec tables claim outbox attempt session

def validateCompletionError (completion : CompleteTransportWrite) :
    TransportWriteResult → StoreCheck Unit
  | .sent => reject completion.error.isSome
      (invalidOutbound completion.messageId "sent write must not include error")
  | _ => requireNonEmpty "transport write error" (completion.error.getD "")

/-- a completion that finds the transport rejection already recorded -/
def finishRejected (completion : CompleteTransportWrite) (attempt : StoredDeliveryAttempt P) :
    StoreCheck (StoredOutboundDelivery P × DeliveryTables P) := do
  reject (attempt.revision ≠ completion.expectedAttemptRevision)
    (staleOutbound completion.messageId)
  let tables ← updateAttemptState tables attempt .sent
    (max completion.completedAt attempt.updatedAt) none none
  let delivery ← requiredOutboundDelivery codec tables completion.messageId
  return (delivery, tables)

/-- the write of a received command is sent, whatever the sink said -/
def markReceivedSent (completion : CompleteTransportWrite) (outbox : StoredWireOutbox P) :
    StoreCheck (DeliveryTables P) :=
  if outbox.status = .writeStarted ∧ outbox.status ≠ .acked then
    updateOutboxState tables outbox .sent (max completion.completedAt outbox.updatedAt)
      (some completion.completedAt) none none
  else .ok tables

def settleConfirmedAttempt (completion : CompleteTransportWrite) (outbox : StoredWireOutbox P)
    (attempt : StoredDeliveryAttempt P) : StoreCheck (DeliveryTables P) :=
  if attempt.status = .pending ∨
      (outbox.status = .acked ∧ (attempt.status = .failed ∨ attempt.status = .backpressure)) then do
    reject (attempt.status = .pending ∧ attempt.revision ≠ completion.expectedAttemptRevision)
      (staleOutbound completion.messageId)
    updateAttemptState tables attempt .sent (max completion.completedAt attempt.updatedAt) none none
  else .ok tables

/-- a completion that an acknowledgement or a receipt has overtaken -/
def finishConfirmed (completion : CompleteTransportWrite) (outbox : StoredWireOutbox P)
    (attempt : StoredDeliveryAttempt P) :
    StoreCheck (StoredOutboundDelivery P × DeliveryTables P) := do
  reject (outbox.status = .pending ∨ outbox.status = .cancelled)
    (staleOutbound completion.messageId)
  let tables ← markReceivedSent tables completion outbox
  let tables ← settleConfirmedAttempt tables completion outbox attempt
  let delivery ← requiredOutboundDelivery codec tables completion.messageId
  return (delivery, tables)

/-- the two statuses and `sent_at` of a completed write -/
def completedStates (completedAt : Int) :
    TransportWriteResult → WireOutboxStatus × CommandDeliveryAttemptStatus × Option Int
  | .sent => (.sent, .sent, some completedAt)
  | .backpressure => (.failed, .backpressure, none)
  | .failed => (.failed, .failed, none)
  | .unconfirmed => (.writeStarted, .unconfirmed, none)

def finishStarted (completion : CompleteTransportWrite) (result : TransportWriteResult)
    (outbox : StoredWireOutbox P) (attempt : StoredDeliveryAttempt P) :
    StoreCheck (StoredOutboundDelivery P × DeliveryTables P) := do
  reject (outbox.status ≠ .writeStarted ∨ attempt.status ≠ .pending ∨
      outbox.revision ≠ completion.expectedOutboxRevision ∨
      attempt.revision ≠ completion.expectedAttemptRevision) (staleOutbound completion.messageId)
  requireMonotonicTransitionTime outbox attempt completion.completedAt
  let tables ← updateOutboxState tables outbox (completedStates completion.completedAt result).1
    completion.completedAt (completedStates completion.completedAt result).2.2 none completion.error
  let tables ← updateAttemptState tables attempt
    (completedStates completion.completedAt result).2.1 completion.completedAt none completion.error
  let delivery ← requiredOutboundDelivery codec tables completion.messageId
  return (delivery, tables)

/-- the attempt is settled: the completion changes nothing -/
def completionSettled (outbox : StoredWireOutbox P) (attempt : StoredDeliveryAttempt P) : Bool :=
  attempt.status == .unconfirmed || (outbox.status == .failed && attempt.status == .failed) ||
  (transportRejected outbox && (attempt.status == .sent || attempt.status == .acked))

def finishTransportWrite (completion : CompleteTransportWrite) (result : TransportWriteResult) :
    StoreCheck (StoredOutboundDelivery P × DeliveryTables P) := do
  let outbox ← requiredOutbox codec tables completion.messageId
  let attempt ← requiredAttemptByMessage codec tables completion.messageId
  validateCompletionError completion result
  if transportRejected outbox = true ∧ attempt.status = .pending then
    finishRejected codec tables completion attempt
  else if completionSettled outbox attempt = true then
    return (⟨outbox, attempt⟩, tables)
  else if outbox.status = .acked ∨ attempt.status = .acked then
    finishConfirmed codec tables completion outbox attempt
  else
    finishStarted codec tables completion result outbox attempt

/-! ## acknowledgements, receipts and timeouts -/

/-- the statuses an acknowledgement may settle -/
def WireOutboxStatus.awaitsAck : WireOutboxStatus → Bool
  | .writeStarted | .sent | .failed => true
  | _ => false

def acceptAck (update : TransportAckUpdate) (outbox : StoredWireOutbox P) :
    StoreCheck (DeliveryTables P) :=
  if outbox.status = .acked then .ok tables
  else do
    reject (hasRejectedPrefix outbox.lastError = true)
      (.identityConflict "transport_ack" update.messageId)
    reject (WireOutboxStatus.awaitsAck outbox.status = false) (staleOutbound update.messageId)
    let sentAt := outbox.sentAt.getD update.ackedAt
    let ackedAt := max update.ackedAt sentAt
    updateOutboxState tables outbox .acked (max (max update.ackedAt outbox.updatedAt) ackedAt)
      (some sentAt) (some ackedAt) none

def rejectAck (update : TransportAckUpdate) (outbox : StoredWireOutbox P) :
    StoreCheck (DeliveryTables P) := do
  let reason ← need update.reason
    (invalidOutbound update.messageId "rejected transport ack requires reason")
  requireNonEmpty "transport ack rejection reason" reason
  reject (outbox.status = .acked) (.identityConflict "transport_ack" update.messageId)
  if hasRejectedPrefix outbox.lastError = true then
    reject (outbox.lastError ≠ some (transportAckRejectedPrefix ++ reason))
      (.identityConflict "transport_ack" update.messageId)
    return tables
  else
    reject (WireOutboxStatus.awaitsAck outbox.status = false) (staleOutbound update.messageId)
    updateOutboxState tables outbox .failed (max update.ackedAt outbox.updatedAt)
      (some (outbox.sentAt.getD update.ackedAt)) none (some (transportAckRejectedPrefix ++ reason))

def applyAck (update : TransportAckUpdate) (outbox : StoredWireOutbox P) :
    StoreCheck (DeliveryTables P) :=
  match update.status with
  | .accepted | .duplicate => acceptAck tables update outbox
  | .rejected => rejectAck tables update outbox

def recordTransportAck (update : TransportAckUpdate) :
    StoreCheck (StoredWireOutbox P × DeliveryTables P) := do
  let outbox ← requiredOutbox codec tables update.messageId
  reject (outbox.sessionId ≠ some update.sessionId ∨ outbox.messageType ≠ update.messageType)
    (.identityConflict "transport_ack" update.messageId)
  let tables ← applyAck tables update outbox
  let outbox ← requiredOutbox codec tables update.messageId
  return (outbox, tables)

/-- the statuses a receipt may settle -/
def CommandDeliveryAttemptStatus.awaitsReceipt : CommandDeliveryAttemptStatus → Bool
  | .pending | .sent | .unconfirmed | .failed | .backpressure => true
  | _ => false

def recordCommandReceivedAttempt (update : CommandReceivedAttemptUpdate) :
    StoreCheck (StoredDeliveryAttempt P × DeliveryTables P) := do
  let attempt ← requiredAttemptByMessage codec tables update.sourceMessageId
  reject (attempt.sessionId ≠ some update.sessionId ∨
      attempt.subject ≠ .executionCommand update.commandId)
    (.identityConflict "command_received_attempt" update.sourceMessageId)
  if attempt.status = .acked then
    return (attempt, tables)
  else
    reject (CommandDeliveryAttemptStatus.awaitsReceipt attempt.status = false)
      (.staleWrite "command_delivery_attempt" attempt.attemptId)
    reject (update.receivedAt < attempt.attemptedAt)
      (.invalidRecord "command_received_attempt" update.sourceMessageId
        "received_at precedes attempted_at")
    let tables ← updateAttemptState tables attempt .acked
      (max update.receivedAt attempt.updatedAt) (some update.receivedAt) none
    let attempt ← requiredAttemptByMessage codec tables update.sourceMessageId
    return (attempt, tables)

/-- the attempt was sent and the transport rejected it -/
def timeoutRejected (attempt : StoredDeliveryAttempt P) : StoreCheck Bool :=
  if attempt.status = .sent then do
    let messageId ← need attempt.messageId
      (.corruptData "command_delivery_attempt" attempt.attemptId "SENT attempt has no message_id")
    let outbox ← requiredOutbox codec tables messageId
    return transportRejected outbox
  else .ok false

def requiredAttempt (attemptId : String) (missing : StoreError) :
    StoreCheck (StoredDeliveryAttempt P) := do
  let attempt ← fetchDeliveryAttemptById codec tables attemptId
  need attempt missing

def timeoutDeliveryAttempt (timeout : DeliveryAttemptTimeout) :
    StoreCheck (StoredDeliveryAttempt P × DeliveryTables P) := do
  requireNonEmpty "delivery timeout error" timeout.error
  let attempt ← requiredAttempt codec tables timeout.attemptId
    (.notFound "command_delivery_attempt" timeout.attemptId)
  reject (attempt.subject.commandId = none)
    (.invalidRecord "command_delivery_attempt" timeout.attemptId
      "command.received timeout only applies to execution commands")
  if attempt.status = .unconfirmed ∨ attempt.status = .acked then
    return (attempt, tables)
  else
    let rejected ← timeoutRejected codec tables attempt
    if rejected then
      return (attempt, tables)
    else
      reject (attempt.status ≠ .sent ∨ attempt.revision ≠ timeout.expectedRevision ∨
          timeout.timedOutAt < attempt.updatedAt)
        (.staleWrite "command_delivery_attempt" attempt.attemptId)
      let tables ← updateAttemptState tables attempt .unconfirmed timeout.timedOutAt none
        (some timeout.error)
      let attempt ← requiredAttempt codec tables timeout.attemptId
        (.corruptData "command_delivery_attempt" timeout.attemptId "attempt disappeared")
      return (attempt, tables)

end

end Sinan.Store
