import Sinan.Types.Enums

/-!
# Records of the delivery tables

The rows of `wire_outbox`, `command_delivery_attempts` and `execution_client_sessions`, and the
requests and outcomes of the operations on them.  `P` is the type of canonical JSON values: a payload
and its hash are one value, and two payloads are equal when their canonical texts are.
-/

namespace Sinan

inductive WireOutboxStatus where
  | pending
  | writeStarted
  | sent
  | acked
  | failed
  | cancelled
  deriving DecidableEq

def WireOutboxStatus.asStr : WireOutboxStatus → String
  | .pending => "PENDING"
  | .writeStarted => "WRITE_STARTED"
  | .sent => "SENT"
  | .acked => "ACKED"
  | .failed => "FAILED"
  | .cancelled => "CANCELLED"

inductive CommandDeliveryAttemptStatus where
  | pending
  | sent
  | acked
  | backpressure
  | noActiveSession
  | failed
  | unconfirmed
  | cancelled
  deriving DecidableEq

def CommandDeliveryAttemptStatus.asStr : CommandDeliveryAttemptStatus → String
  | .pending => "PENDING"
  | .sent => "SENT"
  | .acked => "ACKED"
  | .backpressure => "BACKPRESSURE"
  | .noActiveSession => "NO_ACTIVE_SESSION"
  | .failed => "FAILED"
  | .unconfirmed => "UNCONFIRMED"
  | .cancelled => "CANCELLED"

inductive SessionStatus where
  | active
  | stale
  | disconnected
  | rejected
  deriving DecidableEq

inductive ClockSyncStatus where
  | synced
  | degraded
  | unsynced
  deriving DecidableEq

inductive TransportAckStatus where
  | accepted
  | duplicate
  | rejected
  deriving DecidableEq

def transportAckRejectedPrefix : String := "TRANSPORT_ACK_REJECTED:"
def deliveryErrorCommandExpired : String := "COMMAND_EXPIRED"
def deliveryErrorSessionUnavailable : String := "SESSION_UNAVAILABLE"
def deliveryErrorClockUnhealthy : String := "CLOCK_UNHEALTHY"

inductive DeliverySubject where
  | executionCommand (commandId : CommandId)
  | reconciliationRequest (requestId : RequestId)
  deriving DecidableEq

def DeliverySubject.commandId : DeliverySubject → Option CommandId
  | .executionCommand commandId => some commandId
  | .reconciliationRequest _ => none

def DeliverySubject.requestId : DeliverySubject → Option RequestId
  | .executionCommand _ => none
  | .reconciliationRequest requestId => some requestId

/-! ## rows -/

structure NewWireOutbox (P : Type) where
  messageId : MessageId
  sessionId : Option SessionId
  messageType : String
  sequence : Option Nat
  commandId : Option CommandId
  requestId : Option RequestId
  payload : P
  status : WireOutboxStatus
  createdAt : Int
  updatedAt : Int
  sentAt : Option Int
  ackedAt : Option Int
  lastError : Option String
  deriving DecidableEq

structure StoredWireOutbox (P : Type) extends NewWireOutbox P where
  revision : Nat
  deriving DecidableEq

structure NewDeliveryAttempt (P : Type) where
  attemptId : String
  subject : DeliverySubject
  sessionId : Option SessionId
  messageId : Option MessageId
  requestPayload : Option P
  status : CommandDeliveryAttemptStatus
  attemptedAt : Int
  ackedAt : Option Int
  error : Option String
  updatedAt : Int
  deriving DecidableEq

structure StoredDeliveryAttempt (P : Type) extends NewDeliveryAttempt P where
  revision : Nat
  deriving DecidableEq

structure NewSessionRecord (P : Type) where
  sessionId : SessionId
  clientId : ClientId
  accountId : AccountId
  terminalId : Option TerminalId
  platform : String
  status : SessionStatus
  capabilities : P
  remoteAddr : Option String
  connectedAt : Int
  lastHeartbeatAt : Option Int
  lastTimeSyncAt : Option Int
  clockSyncStatus : Option ClockSyncStatus
  disconnectedAt : Option Int
  maxInflightCommands : Nat
  updatedAt : Int
  deriving DecidableEq

structure StoredSessionRecord (P : Type) extends NewSessionRecord P where
  revision : Nat
  lastOutboundSequence : Nat
  deriving DecidableEq

structure StoredOutboundDelivery (P : Type) where
  outbox : StoredWireOutbox P
  attempt : StoredDeliveryAttempt P
  deriving DecidableEq

/-! ## requests -/

structure SessionHeartbeatUpdate where
  sessionId : SessionId
  expectedRevision : Nat
  heartbeatAt : Int
  clockSyncStatus : ClockSyncStatus
  lastTimeSyncAt : Option Int
  updatedAt : Int

structure SessionClockInvalidation where
  sessionId : SessionId
  expectedRevision : Nat
  updatedAt : Int

structure SessionStatusUpdate where
  sessionId : SessionId
  expectedRevision : Nat
  changedAt : Int
  deliveryError : String

structure ExactSessionClose where
  sessionId : SessionId
  changedAt : Int
  deliveryError : String

structure SessionRouteQuery where
  accountId : AccountId
  clientId : Option ClientId
  terminalId : Option TerminalId
  freshAfter : Int
  requireSyncedClock : Bool

structure ReserveOutboundSequence where
  sessionId : SessionId
  expectedRevision : Nat
  subject : DeliverySubject
  freshAfter : Int
  reservedAt : Int

structure ReserveControlOutboundSequence where
  sessionId : SessionId
  reservedAt : Int

structure ControlOutboundReservation where
  sessionId : SessionId
  clientId : ClientId
  accountId : AccountId
  terminalId : Option TerminalId
  sessionRevision : Nat
  sequence : Nat
  deriving DecidableEq

structure OutboundReservation extends ControlOutboundReservation where
  subject : DeliverySubject
  deriving DecidableEq

structure NewReservedDelivery (P : Type) where
  reservation : OutboundReservation
  attemptId : String
  messageId : MessageId
  messageType : String
  envelope : P
  createdAt : Int

structure ClaimWireOutbox where
  messageId : MessageId
  expectedOutboxRevision : Nat
  expectedAttemptRevision : Nat
  freshAfter : Int
  requireSyncedClock : Bool
  claimedAt : Int

structure CompleteTransportWrite where
  messageId : MessageId
  expectedOutboxRevision : Nat
  expectedAttemptRevision : Nat
  completedAt : Int
  error : Option String

structure TransportAckUpdate where
  messageId : MessageId
  sessionId : SessionId
  messageType : String
  status : TransportAckStatus
  reason : Option String
  ackedAt : Int

structure CommandReceivedAttemptUpdate where
  sourceMessageId : MessageId
  sessionId : SessionId
  commandId : CommandId
  receivedAt : Int

structure DeliveryAttemptTimeout where
  attemptId : String
  expectedRevision : Nat
  timedOutAt : Int
  error : String

/-! ## outcomes -/

inductive WriteOutcome (α : Type) where
  | inserted (record : α)
  | duplicate (record : α)
  deriving DecidableEq

def WriteOutcome.record {α : Type} : WriteOutcome α → α
  | .inserted record => record
  | .duplicate record => record

def WriteOutcome.wasInserted {α : Type} : WriteOutcome α → Bool
  | .inserted _ => true
  | .duplicate _ => false

inductive SessionRouteResolution (P : Type) where
  | ready (session : StoredSessionRecord P)
  | noActiveSession
  | stale (candidateCount : Nat)
  | clockUnhealthy (candidateCount : Nat)
  | ambiguous (candidateCount : Nat)
  deriving DecidableEq

inductive SequenceReservation where
  | reserved (reservation : OutboundReservation)
  | sessionUnavailable
  | clockUnhealthy
  | expired
  | identityMismatch (field : String)
  | inflightLimit (sessionId : SessionId) (inflight limit : Nat)
  deriving DecidableEq

inductive ControlSequenceReservation where
  | reserved (reservation : ControlOutboundReservation)
  | sessionUnavailable
  deriving DecidableEq

inductive OutboxClaimOutcome (P : Type) where
  | claimed (delivery : StoredOutboundDelivery P)
  | expired (delivery : StoredOutboundDelivery P)
  | sessionUnavailable (delivery : StoredOutboundDelivery P)
  | clockUnhealthy (delivery : StoredOutboundDelivery P)
  deriving DecidableEq

structure SessionReplacement (P : Type) where
  session : StoredSessionRecord P
  replacedSession : Option (StoredSessionRecord P)
  unconfirmedAttempts : List (StoredDeliveryAttempt P)
  deriving DecidableEq

structure SessionDisconnectOutcome (P : Type) where
  session : StoredSessionRecord P
  unconfirmedAttempts : List (StoredDeliveryAttempt P)
  deriving DecidableEq

structure DeliveryStartupFenceReport where
  sessionsStaled : Nat
  outboxesFenced : Nat
  attemptsUnconfirmed : Nat
  attemptsCancelled : Nat
  attemptsRejected : Nat
  deriving DecidableEq

inductive TransportWriteResult where
  | sent
  | backpressure
  | failed
  | unconfirmed
  deriving DecidableEq

end Sinan
