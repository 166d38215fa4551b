import Sinan.Types.Delivery
import Sinan.Types.Dto

/-!
# The delivery port

What the execution side asks of the gateway, and what the gateway answers.  A request leaves the
session fields of its message open; the answer is delivery evidence or an infrastructure failure.
-/

namespace Sinan

inductive ExecutionClientMessageType where
  | sessionHello
  | sessionAccepted
  | sessionRejected
  | timeSyncRequest
  | timeSyncResponse
  | heartbeat
  | transportAck
  | marketTick
  | marketBar
  | symbolMetadata
  | accountSnapshot
  | positionSnapshot
  | orderSnapshot
  | executionCommand
  | commandReceived
  | executionEvent
  | reconciliationRequest
  | reconciliationResult
  | protocolError
  deriving DecidableEq

def ExecutionClientMessageType.asStr : ExecutionClientMessageType → String
  | .sessionHello => "session.hello"
  | .sessionAccepted => "session.accepted"
  | .sessionRejected => "session.rejected"
  | .timeSyncRequest => "time.sync.request"
  | .timeSyncResponse => "time.sync.response"
  | .heartbeat => "heartbeat"
  | .transportAck => "transport.ack"
  | .marketTick => "market.tick"
  | .marketBar => "market.bar"
  | .symbolMetadata => "symbol.metadata"
  | .accountSnapshot => "account.snapshot"
  | .positionSnapshot => "position.snapshot"
  | .orderSnapshot => "order.snapshot"
  | .executionCommand => "execution.command"
  | .commandReceived => "command.received"
  | .executionEvent => "execution.event"
  | .reconciliationRequest => "reconciliation.request"
  | .reconciliationResult => "reconciliation.result"
  | .protocolError => "protocol.error"

def supportedSchemaVersion : String := "ecp.v1.0"

structure WireMessage (T : Type) where
  messageId : MessageId
  messageType : ExecutionClientMessageType
  schemaVersion : String
  clientId : Option ClientId
  sessionId : Option SessionId
  correlationId : Option CorrelationId
  causationId : Option CausationId
  sentAt : Option Int
  sequence : Option Nat
  payload : T
  deriving DecidableEq

inductive ReconciliationReason where
  | deliveryUnconfirmed
  | connectionRestored
  | manualRequest
  | stateStoreRestored
  deriving DecidableEq

structure ReconciliationRequest where
  requestId : RequestId
  accountId : AccountId
  terminalId : Option TerminalId
  clientId : Option ClientId
  reason : ReconciliationReason
  commandIds : Option (List CommandId)
  sinceServerTime : Option Int
  deriving DecidableEq

namespace Execution

structure DeliveryRequest (T : Type) where
  accountId : AccountId
  clientId : Option ClientId
  terminalId : Option TerminalId
  commandId : Option CommandId
  message : WireMessage T
  expiresAt : Option Int
  deriving DecidableEq

structure DeliveryReceipt where
  attemptId : String
  messageId : MessageId
  sessionId : SessionId
  sequence : Nat
  sentAt : Int
  confirmationDeadlineAt : Int
  deriving DecidableEq

inductive DeliveryRejectionReason where
  | noActiveSession
  | ambiguousRoute (candidateCount : Nat)
  | clockUnhealthy
  | expired
  | identityMismatch (field : String)
  | backpressure (queueDepth : Nat)
  | inflightLimit (limit : Nat)
  | transportRejected (reason : String)
  deriving DecidableEq

structure DeliveryRejection where
  attemptId : String
  messageId : MessageId
  sessionId : Option SessionId
  rejectedAt : Int
  reason : DeliveryRejectionReason
  deriving DecidableEq

structure DeliveryFailure where
  attemptId : String
  messageId : MessageId
  sessionId : Option SessionId
  failedAt : Int
  error : String
  deriving DecidableEq

/-- `writeStartedAt` is a lower bound for the time at which writing began. -/
structure DeliveryUncertainty where
  attemptId : String
  messageId : MessageId
  sessionId : Option SessionId
  sequence : Option Nat
  writeStartedAt : Int
  observedAt : Int
  error : String
  deriving DecidableEq

inductive DeliveryOutcome where
  | sent (receipt : DeliveryReceipt)
  | rejected (rejection : DeliveryRejection)
  | definitelyNotWritten (failure : DeliveryFailure)
  | unconfirmed (uncertainty : DeliveryUncertainty)
  deriving DecidableEq

structure DeliveryInfrastructureError where
  message : String
  deriving DecidableEq

def DeliveryInfrastructureError.text (e : DeliveryInfrastructureError) : String :=
  "outbound delivery infrastructure failed: " ++ e.message

abbrev Delivery := Except DeliveryInfrastructureError

/-- `{:?}` of a reason -/
def DeliveryRejectionReason.debug : DeliveryRejectionReason → String
  | .noActiveSession => "NoActiveSession"
  | .ambiguousRoute count => "AmbiguousRoute \x7b candidate_count: " ++ count.repr ++ " \x7d"
  | .clockUnhealthy => "ClockUnhealthy"
  | .expired => "Expired"
  | .identityMismatch field => "IdentityMismatch \x7b field: " ++ field.quote ++ " \x7d"
  | .backpressure depth => "Backpressure \x7b queue_depth: " ++ depth.repr ++ " \x7d"
  | .inflightLimit limit => "InflightLimit \x7b limit: " ++ limit.repr ++ " \x7d"
  | .transportRejected reason => "TransportRejected \x7b reason: " ++ reason.quote ++ " \x7d"

end Execution

end Sinan
