import Sinan.Gateway.Validation
import Sinan.Store.Sessions

/-!
# Outbound delivery at the gateway

A delivery is three transactions with a write between the last two: the request is prepared (bound to
a session and enqueued, or rejected, or an earlier delivery of the message resumed), the message is
claimed for its one write, and the write is completed with what the sink reported.  Each transaction
is a function of the tables here; a worker may stop between any two of them.
-/

namespace Sinan.Gateway

open Lib Execution Store

structure GatewayOutboundConfig where
  confirmationTimeoutMs : Nat
  positive : 0 < confirmationTimeoutMs
  fits : (confirmationTimeoutMs : Int) ≤ i64Max

/-- `driverText` is what the database driver says of a statement that it refuses -/
structure GatewayOutboundAdapter where
  config : GatewayOutboundConfig
  maxTimeSyncAgeMs : Nat
  driverText : String

/-- the JSON of a request, of an envelope and back -/
structure RequestCodec (P T : Type) where
  rejected : DeliveryRequest T → Except String P
  envelope : WireMessage T → Except String P
  stored : P → Except String (WireMessage T)

inductive SinkWriteOutcome where
  | written
  | backpressure (queueDepth : Nat)
  | definitelyNotWritten (error : String)
  | unconfirmed (error : String)
  deriving DecidableEq

/-! ## errors -/

def storeText (driverText : String) : StoreError → String
  | .identityConflict entity key => entity ++ " identity conflict for " ++ key
  | .notFound entity key => entity ++ " not found for " ++ key
  | .staleWrite entity key => "stale " ++ entity ++ " write for " ++ key
  | .invalidRecord entity key reason => "invalid " ++ entity ++ " record " ++ key ++ ": " ++ reason
  | .corruptData entity key reason => entity ++ " record " ++ key ++ " is corrupt: " ++ reason
  | .invalidInteger field value =>
    field ++ " value " ++ value.repr ++ " does not fit in a SQLite INTEGER"
  | .invalidSequence field => field ++ " must be greater than zero"
  | .database => driverText

def GatewayOutboundAdapter.fromStore {α : Type} (a : GatewayOutboundAdapter)
    (r : StoreCheck α) : Delivery α :=
  match r with
  | .ok x => .ok x
  | .error e => .error ⟨storeText a.driverText e⟩

def fromText {α : Type} (r : Except String α) : Delivery α :=
  match r with
  | .ok x => .ok x
  | .error e => .error ⟨e⟩

def isStaleOutbound : StoreError → Bool
  | .staleWrite entity _ => entity == "outbound_delivery"
  | _ => false

def serverNow (now : Int) : Delivery Int := do
  reject (now < 0) ⟨"invalid heartbeat evidence: server_clock"⟩
  return now

def nextProjectionTime (now previous : Int) : Int := max now previous

/-- `now.saturating_sub(max_time_sync_age_ms)`; a server time is not negative, so nothing saturates -/
def GatewayOutboundAdapter.freshAfter (a : GatewayOutboundAdapter) (now : Int) : Int :=
  now - a.maxTimeSyncAgeMs

/-! ## rejections -/

def attemptId (messageId : MessageId) : String := "attempt:" ++ messageId

def rejectionAttemptStatus : DeliveryRejectionReason → CommandDeliveryAttemptStatus
  | .backpressure _ | .inflightLimit _ => .backpressure
  | .expired => .cancelled
  | .identityMismatch _ | .transportRejected _ => .failed
  | .noActiveSession | .ambiguousRoute _ | .clockUnhealthy => .noActiveSession

def rejectionLabel : DeliveryRejectionReason → String
  | .noActiveSession => "NO_ACTIVE_SESSION"
  | .ambiguousRoute candidateCount => "AMBIGUOUS_ROUTE:" ++ candidateCount.repr
  | .clockUnhealthy => "TIME_SYNC_UNHEALTHY"
  | .expired => "COMMAND_EXPIRED"
  | .identityMismatch field => "SESSION_IDENTITY_MISMATCH:" ++ field
  | .backpressure queueDepth => "COMMAND_DISPATCH_BACKPRESSURE:" ++ queueDepth.repr
  | .inflightLimit limit => "COMMAND_INFLIGHT_LIMIT_REACHED:" ++ limit.repr
  | .transportRejected reason => transportAckRejectedPrefix ++ reason

def identityFields : List String :=
  ["message_id", "message_type", "session_id", "sequence", "sent_at", "envelope.client_id",
    "correlation_id", "causation_id", "schema_version", "account_id", "client_id", "terminal_id",
    "command_id", "expires_at"]

def identityField (field : String) : Option String :=
  if field ∈ identityFields then some field else none

/-- `label.strip_prefix(..).and_then(|value| value.parse().ok())` -/
def labelledCount (label text : String) : Option Nat :=
  (stripLabel label text).bind (parseUnsigned u64Max)

section
variable {P : Type} [DecidableEq P]

def routeRejection (label : String) : Delivery DeliveryRejectionReason :=
  if label = "NO_ACTIVE_SESSION" ∨ label = deliveryErrorSessionUnavailable then
    .ok .noActiveSession
  else if label = "TIME_SYNC_UNHEALTHY" ∨ label = deliveryErrorClockUnhealthy then
    .ok .clockUnhealthy
  else do
    let count ← need (labelledCount "AMBIGUOUS_ROUTE:" label)
      ⟨"unknown durable route rejection reason"⟩
    return .ambiguousRoute count

def notUnbound : DeliveryInfrastructureError :=
  ⟨"durable attempt is not an unbound delivery rejection"⟩

def rejectionReasonFromAttempt (attempt : StoredDeliveryAttempt P) :
    Delivery DeliveryRejectionReason :=
  let label := attempt.error.getD ""
  match attempt.status with
  | .noActiveSession => routeRejection label
  | .cancelled => if label = deliveryErrorCommandExpired then .ok .expired else .error notUnbound
  | .failed => do
    let field ← need ((stripLabel "SESSION_IDENTITY_MISMATCH:" label).bind identityField)
      ⟨"unknown durable identity rejection reason"⟩
    return .identityMismatch field
  | .backpressure => do
    let limit ← need (labelledCount "COMMAND_INFLIGHT_LIMIT_REACHED:" label)
      ⟨"unknown durable inflight rejection reason"⟩
    return .inflightLimit limit
  | _ => .error notUnbound

def isIdentityMismatch : RequestCheck → Bool
  | .error (.identityMismatch _) => true
  | _ => false

/-- the request was rejected before and is rejected again, for the recorded reason -/
def replayRejection (existing : StoredDeliveryAttempt P) (subject : DeliverySubject)
    (messageId : MessageId) (requestPayload : P) (validation : RequestCheck) :
    Delivery DeliveryOutcome := do
  reject (existing.subject ≠ subject ∨ existing.attemptId ≠ attemptId messageId ∨
      existing.messageId.isSome = true ∨ existing.requestPayload ≠ some requestPayload)
    ⟨"message_id replay conflicts with its durable rejection subject or payload"⟩
  let reason ← rejectionReasonFromAttempt existing
  reject (isIdentityMismatch validation = true ∧ validation ≠ .error reason)
    ⟨"replayed rejected request contains drifting identity"⟩
  return .rejected
    { attemptId := existing.attemptId
      messageId := messageId
      sessionId := existing.sessionId
      rejectedAt := existing.attemptedAt
      reason := reason }

/-! ## what a stored delivery says -/

def transportRejectionReason (existing : StoredOutboundDelivery P) : Option String :=
  (existing.outbox.lastError.bind (stripLabel transportAckRejectedPrefix)).filter
    fun reason => !blank reason

/-- `error.rsplit_once(' ')?.1.parse().ok()` -/
def parseQueueDepth (error : String) : Option Nat :=
  if ' ' ∈ error.toList then
    parseUnsigned u64Max
      (String.ofList (error.toList.reverse.takeWhile (fun c => c != ' ')).reverse)
  else none

/-- A receipt may come before the sink completes the write; the time of `WRITE_STARTED` is then the
durable lower bound. -/
def sentOutcome (existing : StoredOutboundDelivery P) (confirmationTimeoutMs : Nat) :
    Delivery DeliveryOutcome := do
  let sessionId ← need existing.outbox.sessionId ⟨"sent replay has no session_id"⟩
  let sequence ← need existing.outbox.sequence ⟨"sent replay has no sequence"⟩
  let sentAt := existing.outbox.sentAt.getD existing.outbox.updatedAt
  let deadline ← need (checkedAdd sentAt confirmationTimeoutMs)
    ⟨"delivery confirmation deadline overflow"⟩
  return .sent
    { attemptId := existing.attempt.attemptId
      messageId := existing.outbox.messageId
      sessionId := sessionId
      sequence := sequence
      sentAt := sentAt
      confirmationDeadlineAt := deadline }

/-- the error of the attempt, or of the outbox row, or the default -/
def deliveryError (existing : StoredOutboundDelivery P) (default : String) : String :=
  (existing.attempt.error.or existing.outbox.lastError).getD default

def unconfirmedOutcome (existing : StoredOutboundDelivery P) (observedAt : Int) :
    DeliveryOutcome :=
  .unconfirmed
    { attemptId := existing.attempt.attemptId
      messageId := existing.outbox.messageId
      sessionId := existing.outbox.sessionId
      sequence := existing.outbox.sequence
      writeStartedAt := existing.outbox.createdAt
      observedAt := observedAt
      error := deliveryError existing "WRITE_STARTED_RECOVERY_REQUIRED" }

def rejectedOutcome (existing : StoredOutboundDelivery P) (rejectedAt : Int)
    (reason : DeliveryRejectionReason) : DeliveryOutcome :=
  .rejected
    { attemptId := existing.attempt.attemptId
      messageId := existing.outbox.messageId
      sessionId := existing.outbox.sessionId
      rejectedAt := rejectedAt
      reason := reason }

def failedOutcome (existing : StoredOutboundDelivery P) (error : String) : DeliveryOutcome :=
  .definitelyNotWritten
    { attemptId := existing.attempt.attemptId
      messageId := existing.outbox.messageId
      sessionId := existing.outbox.sessionId
      failedAt := existing.attempt.updatedAt
      error := error }

def cancelledOutcome (existing : StoredOutboundDelivery P) : DeliveryOutcome :=
  let error := deliveryError existing "DELIVERY_CANCELLED_BEFORE_WRITE"
  if error = deliveryErrorCommandExpired then
    rejectedOutcome existing existing.attempt.updatedAt .expired
  else failedOutcome existing error

def unavailableOutcome (existing : StoredOutboundDelivery P) : DeliveryOutcome :=
  if existing.attempt.error = some deliveryErrorClockUnhealthy ∨
      existing.outbox.lastError = some deliveryErrorClockUnhealthy then
    rejectedOutcome existing existing.attempt.updatedAt .clockUnhealthy
  else rejectedOutcome existing existing.attempt.updatedAt .noActiveSession

def backpressureOutcome (existing : StoredOutboundDelivery P) : DeliveryOutcome :=
  rejectedOutcome existing existing.attempt.updatedAt
    (.backpressure ((existing.attempt.error.bind parseQueueDepth).getD 0))

/-- the rejection of the peer's transport comes before what the attempt says -/
def orTransportRejected (existing : StoredOutboundDelivery P)
    (otherwise : Delivery DeliveryOutcome) : Delivery DeliveryOutcome :=
  match transportRejectionReason existing with
  | some reason => .ok (rejectedOutcome existing
      (max existing.outbox.updatedAt existing.attempt.updatedAt) (.transportRejected reason))
  | none => otherwise

def inconsistentReplay (existing : StoredOutboundDelivery P) : Delivery DeliveryOutcome :=
  .error ⟨"inconsistent replay state outbox=" ++ existing.outbox.status.asStr ++ " attempt=" ++
    existing.attempt.status.asStr⟩

def durableDeliveryOutcome (existing : StoredOutboundDelivery P) (observedAt : Int)
    (confirmationTimeoutMs : Nat) : Delivery DeliveryOutcome :=
  match existing.outbox.status, existing.attempt.status with
  | .writeStarted, .acked | .sent, .acked | .acked, .acked | .failed, .acked =>
    sentOutcome existing confirmationTimeoutMs
  | .failed, .pending | .failed, .sent => orTransportRejected existing (inconsistentReplay existing)
  | .failed, .failed => orTransportRejected existing
      (.ok (failedOutcome existing (deliveryError existing "TRANSPORT_WRITE_FAILED")))
  | .failed, .unconfirmed => orTransportRejected existing
      (.ok (unconfirmedOutcome existing observedAt))
  | .writeStarted, .pending | .writeStarted, .unconfirmed | .sent, .unconfirmed
  | .acked, .unconfirmed => .ok (unconfirmedOutcome existing observedAt)
  | .sent, .sent | .acked, .pending | .acked, .sent | .acked, .backpressure | .acked, .failed =>
    sentOutcome existing confirmationTimeoutMs
  | .failed, .backpressure => .ok (backpressureOutcome existing)
  | .cancelled, .cancelled => .ok (cancelledOutcome existing)
  | .cancelled, .noActiveSession => .ok (unavailableOutcome existing)
  | _, _ => inconsistentReplay existing

/-! ## the preparation -/

/-- the answer is known, or the message is to be written -/
inductive PreparedDelivery (P : Type) where
  | outcome (outcome : DeliveryOutcome)
  | write (delivery : StoredOutboundDelivery P)

variable (codec : WireCodec P) (a : GatewayOutboundAdapter)

def recordRejection (tables : DeliveryTables P) (subject : DeliverySubject)
    (messageId : MessageId) (sessionId : Option SessionId) (requestPayload : P)
    (rejectedAt : Int) (reason : DeliveryRejectionReason) :
    Delivery (PreparedDelivery P × DeliveryTables P) := do
  let stored ← a.fromStore (recordDeliveryAttempt codec tables
    { attemptId := attemptId messageId
      subject := subject
      sessionId := sessionId
      messageId := none
      requestPayload := some requestPayload
      status := rejectionAttemptStatus reason
      attemptedAt := rejectedAt
      ackedAt := none
      error := some (rejectionLabel reason)
      updatedAt := rejectedAt })
  return (.outcome (.rejected
    { attemptId := stored.1.record.attemptId
      messageId := messageId
      sessionId := sessionId
      rejectedAt := stored.1.record.attemptedAt
      reason := reason }), stored.2)

/-- a pending message is written, of any other its durable outcome is told -/
def resumeExisting (existing : StoredOutboundDelivery P) (observedAt : Int) :
    Delivery (PreparedDelivery P) :=
  if existing.outbox.status = .pending ∧ existing.attempt.status = .pending then
    .ok (.write existing)
  else do
    let outcome ← durableDeliveryOutcome existing observedAt a.config.confirmationTimeoutMs
    return .outcome outcome

variable {T : Type} [DecidableEq T] (requestCodec : RequestCodec P T)

/-- the stored envelope is the one of the request, but for what the gateway bound -/
def sameRequest (message stored : WireMessage T) (clientId : Option ClientId) : Bool :=
  stored.messageId == message.messageId && stored.messageType == message.messageType &&
  stored.schemaVersion == message.schemaVersion &&
  stored.correlationId == message.correlationId && stored.causationId == message.causationId &&
  stored.payload == message.payload && clientId.all fun id => stored.clientId == some id

def validateExistingDelivery (request : DeliveryRequest T) (subject : DeliverySubject)
    (existing : StoredOutboundDelivery P) : Delivery Unit :=
  match requestCodec.stored existing.outbox.payload with
  | .error error => .error ⟨"stored replay envelope is invalid: " ++ error⟩
  | .ok stored =>
    reject (existing.attempt.subject ≠ subject ∨ existing.outbox.commandId ≠ subject.commandId ∨
        existing.outbox.requestId ≠ subject.requestId ∨
        sameRequest request.message stored request.clientId = false ∨
        existing.attempt.attemptId ≠ attemptId request.message.messageId)
      ⟨"message_id replay conflicts with its durable subject or payload"⟩

def bindWireMessage (message : WireMessage T) (reservation : OutboundReservation) (sentAt : Int) :
    Delivery (WireMessage T) := do
  reject (blank reservation.accountId = true ∨ blank reservation.clientId = true ∨
      reservation.sequence < 2) ⟨"invalid outbound reservation identity"⟩
  return { message with
    clientId := some reservation.clientId, sessionId := some reservation.sessionId,
    sequence := some reservation.sequence, sentAt := some sentAt }

def validatedMessage (message : WireMessage T) : Delivery Unit :=
  match validateWireMessage message with
  | .ok _ => .ok ()
  | .error error => .error ⟨error.text⟩

/-- the message is bound to its session and enqueued with its attempt -/
def enqueueBound (tables : DeliveryTables P) (request : DeliveryRequest T)
    (reservation : OutboundReservation) (now : Int) :
    Delivery (PreparedDelivery P × DeliveryTables P) := do
  let message ← bindWireMessage request.message reservation now
  validatedMessage message
  let envelope ← fromText (requestCodec.envelope message)
  let prepared ← a.fromStore (enqueueReservedDelivery codec tables
    { reservation := reservation
      attemptId := attemptId request.message.messageId
      messageId := request.message.messageId
      messageType := message.messageType.asStr
      envelope := envelope
      createdAt := now })
  return (.write prepared.1, prepared.2)

/-- the reason of a reservation that was refused -/
def reservationRejection : SequenceReservation → Except OutboundReservation DeliveryRejectionReason
  | .reserved reservation => .error reservation
  | .sessionUnavailable => .ok .noActiveSession
  | .clockUnhealthy => .ok .clockUnhealthy
  | .expired => .ok .expired
  | .identityMismatch field => .ok (.identityMismatch field)
  | .inflightLimit _ _ limit => .ok (.inflightLimit limit)

/-- the request is enqueued on the session it was routed to, unless no sequence is reserved -/
def enqueueRouted (tables : DeliveryTables P) (request : DeliveryRequest T)
    (subject : DeliverySubject) (now : Int) (requestPayload : P)
    (session : StoredSessionRecord P) : Delivery (PreparedDelivery P × DeliveryTables P) := do
  let reserved ← a.fromStore (reserveOutboundSequence tables
    { sessionId := session.sessionId
      expectedRevision := session.revision
      subject := subject
      freshAfter := a.freshAfter now
      reservedAt := now })
  match reservationRejection reserved.1 with
  | .error reservation => enqueueBound codec a requestCodec reserved.2 request reservation now
  | .ok reason =>
    recordRejection codec a reserved.2 subject request.message.messageId (some session.sessionId)
      requestPayload now reason

def routeRequest (tables : DeliveryTables P) (request : DeliveryRequest T)
    (subject : DeliverySubject) (requireSyncedClock : Bool) (now : Int) (requestPayload : P) :
    Delivery (PreparedDelivery P × DeliveryTables P) := do
  let resolution ← a.fromStore (resolveSessionRoute tables
    { accountId := request.accountId
      clientId := request.clientId
      terminalId := request.terminalId
      freshAfter := a.freshAfter now
      requireSyncedClock := requireSyncedClock })
  let rejected := recordRejection codec a tables subject request.message.messageId none
    requestPayload now
  match resolution with
  | .ready session =>
    enqueueRouted codec a requestCodec tables request subject now requestPayload session
  | .noActiveSession => rejected .noActiveSession
  | .stale _ => rejected .noActiveSession
  | .clockUnhealthy _ => rejected .clockUnhealthy
  | .ambiguous candidateCount => rejected (.ambiguousRoute candidateCount)

/-- a message that is enqueued already -/
def prepareExisting (request : DeliveryRequest T) (subject : DeliverySubject) (now : Int)
    (validation : RequestCheck) (existing : StoredOutboundDelivery P) :
    Delivery (PreparedDelivery P) := do
  validateExistingDelivery requestCodec request subject existing
  reject (isIdentityMismatch validation = true)
    ⟨"replayed delivery request contains pre-bound or drifting identity"⟩
  resumeExisting a existing now

/-- a message that was not enqueued: it was rejected before, is rejected now, or is routed -/
def prepareNew (tables : DeliveryTables P) (request : DeliveryRequest T)
    (subject : DeliverySubject) (requireSyncedClock : Bool) (now : Int)
    (validation : RequestCheck) (requestPayload : P) :
    Option (StoredDeliveryAttempt P) → Delivery (PreparedDelivery P × DeliveryTables P)
  | some existing => do
    let outcome ← replayRejection existing subject request.message.messageId requestPayload
      validation
    return (.outcome outcome, tables)
  | none =>
    match validation with
    | .error reason => recordRejection codec a tables subject request.message.messageId none
        requestPayload now reason
    | .ok _ => routeRequest codec a requestCodec tables request subject requireSyncedClock now
        requestPayload

/-- the first transaction of `prepare_and_write` -/
def prepareDelivery (tables : DeliveryTables P) (request : DeliveryRequest T)
    (subject : DeliverySubject) (requireSyncedClock : Bool) (now : Int)
    (validation : RequestCheck) : Delivery (PreparedDelivery P × DeliveryTables P) := do
  let requestPayload ← fromText (requestCodec.rejected request)
  let enqueued ← a.fromStore (fetchOutboundDelivery codec tables request.message.messageId)
  match enqueued with
  | some existing => do
    let prepared ← prepareExisting a requestCodec request subject now validation existing
    return (prepared, tables)
  | none => do
    let attempt ← a.fromStore
      (fetchDeliveryAttemptById codec tables (attemptId request.message.messageId))
    prepareNew codec a requestCodec tables request subject requireSyncedClock now validation
      requestPayload attempt

end

section
variable {P F : Type} [DecidableEq P] [DecidableEq F] (codec : WireCodec P)
  (a : GatewayOutboundAdapter)

def deliverCommand (requestCodec : RequestCodec P (ExecutionCommand F)) (tables : DeliveryTables P)
    (request : DeliveryRequest (ExecutionCommand F)) (now : Int) :
    Delivery (PreparedDelivery P × DeliveryTables P) := do
  let now ← serverNow now
  prepareDelivery codec a requestCodec tables request
    (.executionCommand request.message.payload.commandId) true now
    (validateCommandRequest request now)

def deliverReconciliation (requestCodec : RequestCodec P ReconciliationRequest)
    (tables : DeliveryTables P) (request : DeliveryRequest ReconciliationRequest) (now : Int) :
    Delivery (PreparedDelivery P × DeliveryTables P) := do
  let now ← serverNow now
  prepareDelivery codec a requestCodec tables request
    (.reconciliationRequest request.message.payload.requestId) false now
    (validateReconciliationRequest request)

/-! ## the write -/

/-- what follows the claim of a prepared message -/
inductive AfterClaim (P : Type) where
  | offer (claimed : StoredOutboundDelivery P)
  | reload (observedAt : Int)
  | answered (answer : Delivery DeliveryOutcome)

/-- the second transaction; a claim that was refused is committed, whatever its outcome is -/
def claimPrepared (tables : DeliveryTables P) (prepared : StoredOutboundDelivery P) (now : Int) :
    AfterClaim P × DeliveryTables P :=
  match serverNow now with
  | .error error => (.answered (.error error), tables)
  | .ok now =>
    let claimAt := nextProjectionTime now (max prepared.outbox.updatedAt prepared.attempt.updatedAt)
    let claim : ClaimWireOutbox :=
      { messageId := prepared.outbox.messageId
        expectedOutboxRevision := prepared.outbox.revision
        expectedAttemptRevision := prepared.attempt.revision
        freshAfter := a.freshAfter claimAt
        requireSyncedClock := prepared.attempt.subject.commandId.isSome
        claimedAt := claimAt }
    match claimOutbox codec tables claim with
    | .ok (.claimed claimed, tables) => (.offer claimed, tables)
    | .ok (.expired rejected, tables) | .ok (.sessionUnavailable rejected, tables)
    | .ok (.clockUnhealthy rejected, tables) =>
      (.answered (durableDeliveryOutcome rejected claimAt a.config.confirmationTimeoutMs), tables)
    | .error error =>
      if isStaleOutbound error then (.reload claimAt, tables)
      else (.answered (a.fromStore (.error error)), tables)

structure OutboundFrame (P : Type) where
  sessionId : SessionId
  messageId : MessageId
  sequence : Nat
  wireBytes : P

/-- the frame of a claimed message -/
def outboundFrame (claimed : StoredOutboundDelivery P) : Delivery (OutboundFrame P) := do
  let sessionId ← need claimed.outbox.sessionId ⟨"prepared delivery has no session_id"⟩
  let sequence ← need claimed.outbox.sequence ⟨"prepared delivery has no sequence"⟩
  return ⟨sessionId, claimed.outbox.messageId, sequence, claimed.outbox.payload⟩

def noLiveSink : SinkWriteOutcome :=
  .definitelyNotWritten "active session has no live transport sink"

/-- the statement of the store and the error that a sink outcome completes a write with -/
def writeResult : SinkWriteOutcome → TransportWriteResult × Option String
  | .written => (.sent, none)
  | .backpressure queueDepth =>
    (.backpressure, some ("transport write backpressure at queue depth " ++ queueDepth.repr))
  | .definitelyNotWritten error => (.failed, some error)
  | .unconfirmed error => (.unconfirmed, some error)

/-- what follows the completion of a write -/
inductive AfterWrite where
  | reload (observedAt : Int)
  | answered (answer : Delivery DeliveryOutcome)

/-- the third transaction -/
def completeWrite (tables : DeliveryTables P) (claimed : StoredOutboundDelivery P)
    (outcome : SinkWriteOutcome) (now : Int) : AfterWrite × DeliveryTables P :=
  match serverNow now with
  | .error error => (.answered (.error error), tables)
  | .ok now =>
    let completedAt :=
      nextProjectionTime now (max claimed.outbox.updatedAt claimed.attempt.updatedAt)
    let completion : CompleteTransportWrite :=
      { messageId := claimed.outbox.messageId
        expectedOutboxRevision := claimed.outbox.revision
        expectedAttemptRevision := claimed.attempt.revision
        completedAt := completedAt
        error := (writeResult outcome).2 }
    match finishTransportWrite codec tables completion (writeResult outcome).1 with
    | .ok (completed, tables) =>
      (.answered (durableDeliveryOutcome completed completedAt a.config.confirmationTimeoutMs),
        tables)
    | .error error =>
      if isStaleOutbound error then (.reload completedAt, tables)
      else (.answered (a.fromStore (.error error)), tables)

/-- another worker has changed the message: its durable outcome is told -/
def reloadExisting (tables : DeliveryTables P) (messageId : MessageId) (observedAt : Int) :
    Delivery DeliveryOutcome := do
  let found ← a.fromStore (fetchOutboundDelivery codec tables messageId)
  let existing ← need found ⟨"raced outbound delivery disappeared"⟩
  durableDeliveryOutcome existing observedAt a.config.confirmationTimeoutMs

end

end Sinan.Gateway
