import Sinan.Inbound.Model
import Sinan.Lib.Run

/-!
# The recovery dispatcher

Workers claim admitted messages and hand each to a handler, which writes its business facts in a
transaction of its own; the same transaction sets the message HANDLED, or all of it is rolled back.
A refusal that no retry can heal, and a handler that ran out of time, are recorded by a second
transaction.  The system is a run of such transactions: any worker may call any of them at any time
with any clock, and a worker that crashes makes no further call.
-/

namespace Sinan.Inbound

open Lib Store

/-! ## dead letters -/

inductive DeadletterReason where
  | unknownType
  | schemaMajorMismatch
  | missingRequiredField
  | invalidFieldType
  | invalidHmac
  | decodeFailed
  | wireFrameTooLarge
  | wireProtocolViolation
  | schemaValidationFailed
  deriving DecidableEq

/-- a stored dead letter has the columns of a new one -/
structure NewDeadletterEvent where
  deadletterId : String
  messageId : Option MessageId
  messageType : Option String
  schemaVersion : Option String
  reason : DeadletterReason
  source : String
  rawPayload : Option String
  rawPayloadLength : Option Nat
  errorMessage : String
  receivedAt : Int
  createdAt : Int
  deriving DecidableEq

abbrev DeadletterTable :=
  Table (fun d : NewDeadletterEvent => d.deadletterId) (fun _ => (none : Option Unit))

def requireText (field value : String) : StoreCheck Unit :=
  reject (blank value = true) (.invalidRecord "transport_event" field "value must not be empty")

def invalidDeadletter (event : NewDeadletterEvent) (reason : String) : StoreError :=
  .invalidRecord "deadletter_event" event.deadletterId reason

def validateDeadletterEvent (event : NewDeadletterEvent) : StoreCheck Unit := do
  requireText "deadletter_id" event.deadletterId
  requireText "deadletter source" event.source
  requireText "deadletter error_message" event.errorMessage
  validateTime "deadletter_event" event.receivedAt
  validateTime "deadletter_event" event.createdAt
  each event.rawPayload.toList fun rawPayload => do
    let originalLength ← need event.rawPayloadLength
      (invalidDeadletter event "raw_payload_length is required when raw_payload is present")
    reject (originalLength < rawPayload.utf8ByteSize)
      (invalidDeadletter event "raw_payload_length is shorter than the retained payload")

/-- `INSERT INTO deadletter_events … ON CONFLICT DO NOTHING`, and the row found under the id -/
def appendDeadletterEvent (deadletters : DeadletterTable) (event : NewDeadletterEvent) :
    StoreCheck DeadletterTable := do
  validateDeadletterEvent event
  each event.rawPayloadLength.toList (u64ToI64 "deadletter_events.raw_payload_length")
  let deadletters := (deadletters.insert event).getD deadletters
  let stored ← need (deadletters.get event.deadletterId)
    (.notFound "deadletter_event" event.deadletterId)
  reject (stored ≠ event) (.identityConflict "deadletter_event" event.deadletterId)
  return deadletters

/-! ## handlers -/

inductive DurableRecoveryFailureClass where
  | terminalDeadletter (reason : DeadletterReason)
  | retryableInfrastructure
  deriving DecidableEq

structure DurableRecoveryHandlerError where
  failureClass : DurableRecoveryFailureClass
  message : String
  deriving DecidableEq

/-- how a handler's future ends: with the business state it wrote, with an error, or not before its
deadline -/
inductive HandlerOutcome (W : Type) where
  | completed (business : W)
  | refused (error : DurableRecoveryHandlerError)
  | timedOut

inductive DurableRecoveryError where
  | invalidServerTime (now : Int)
  | retryableHandler (message : String)
  | store (error : StoreError)
  deriving DecidableEq

abbrev RecoveryCheck := Except DurableRecoveryError

/-- the characters that end within so many bytes -/
def takeBytes : Nat → List Char → List Char
  | _, [] => []
  | budget, c :: cs => if c.utf8Size ≤ budget then c :: takeBytes (budget - c.utf8Size) cs else []

def boundedError (error : String) : String :=
  if error.utf8ByteSize ≤ 1024 then error else String.ofList (takeBytes 1024 error.toList)

def DurableRecoveryHandlerError.text (error : DurableRecoveryHandlerError) : String :=
  "durable recovery handler failed: " ++ error.message

def serverNow (now : Int) : RecoveryCheck Int := do
  reject (now < 0) (.invalidServerTime now)
  return now

/-! ## the world -/

section
variable {P : Type} {codec : EnvelopeCodec P} {W : Type}

structure RecoveryWorld (codec : EnvelopeCodec P) (W : Type) where
  tables : InboundTables codec
  deadletters : DeadletterTable
  /-- every table the handlers write -/
  business : W

variable (codec) in
/-- an empty store beside the business state the process finds -/
def RecoveryWorld.initial (business : W) : RecoveryWorld codec W :=
  { tables := .empty, deadletters := Table.empty, business := business }

variable [DecidableEq P]

/-- what the worker does after its first transaction on an item -/
inductive ItemOutcome (P : Type) where
  | handled (stored : StoredInboundAdmission P)
  | terminal (reason : DeadletterReason) (error : DurableRecoveryHandlerError)
  | timedOut

/-- the first transaction of `handle_item` -/
def handleInbound (world : RecoveryWorld codec W) (workerId : String)
    (item : StoredInboundAdmission P) (outcome : HandlerOutcome W) (now : Int) :
    RecoveryCheck (ItemOutcome P × RecoveryWorld codec W) :=
  match outcome with
  | .completed business => do
    let completedAt ← serverNow now
    let done ← (completeInbound world.tables
      { messageId := item.messageId, expectedRevision := item.revision, workerId := workerId,
        completedAt := completedAt }).mapError .store
    return (.handled done.1, { world with tables := done.2, business := business })
  | .refused error =>
    match error.failureClass with
    | .terminalDeadletter reason => .ok (.terminal reason error, world)
    | .retryableInfrastructure => .error (.retryableHandler (boundedError error.text))
  | .timedOut => .ok (.timedOut, world)

def durableInboundDeadletterId (item : StoredInboundAdmission P) : String :=
  "durable-inbound:" ++ item.messageId

/-- the dead letter of an item its handler refused for good -/
def itemDeadletter (item : StoredInboundAdmission P) (reason : DeadletterReason) (error : String)
    (failedAt : Int) : NewDeadletterEvent :=
  { deadletterId := durableInboundDeadletterId item, messageId := some item.messageId,
    messageType := some item.messageType, schemaVersion := some item.schemaVersion,
    reason := reason, source := "trading-core.durable-recovery", rawPayload := none,
    rawPayloadLength := item.rawPayloadLength, errorMessage := error,
    receivedAt := item.receivedAt, createdAt := failedAt }

def failTerminalInbound (world : RecoveryWorld codec W) (workerId : String)
    (item : StoredInboundAdmission P) (reason : DeadletterReason)
    (handlerError : DurableRecoveryHandlerError) (now : Int) :
    RecoveryCheck (StoredInboundAdmission P × RecoveryWorld codec W) := do
  let failedAt ← serverNow now
  let error := boundedError handlerError.text
  let deadletters ← (appendDeadletterEvent world.deadletters
    (itemDeadletter item reason error failedAt)).mapError .store
  let failed ← (failInbound world.tables
    { messageId := item.messageId, expectedRevision := item.revision, workerId := workerId,
      failedAt := failedAt, error := error }).mapError .store
  return (failed.1, { world with tables := failed.2, deadletters := deadletters })

def failTimedOut (world : RecoveryWorld codec W) (workerId : String)
    (item : StoredInboundAdmission P) (now : Int) :
    RecoveryCheck (StoredInboundAdmission P × RecoveryWorld codec W) := do
  let failedAt ← serverNow now
  let failed ← (failInbound world.tables
    { messageId := item.messageId, expectedRevision := item.revision, workerId := workerId,
      failedAt := failedAt, error := "durable recovery handler timed out" }).mapError .store
  return (failed.1, { world with tables := failed.2 })

/-! ## runs -/

/-- one transaction, asked for by any worker about any item -/
inductive InboundCall (P W : Type) where
  | openSession (sessionId : SessionId)
  | admitInbound (admission : NewInboundAdmission P)
  | claim (claim : ClaimDurableWork)
  | reclaim (reclaim : ReclaimDurableWork)
  | complete (completion : CompleteInboundAdmission)
  | fail (failure : FailInboundAdmission)
  | handle (workerId : String) (item : StoredInboundAdmission P)
      (handler : W → StoredInboundAdmission P → HandlerOutcome W) (now : Int)
  | failTerminal (workerId : String) (item : StoredInboundAdmission P)
      (reason : DeadletterReason) (error : DurableRecoveryHandlerError) (now : Int)
  | failTimedOut (workerId : String) (item : StoredInboundAdmission P) (now : Int)

inductive InboundAnswer (P : Type) where
  | opened
  | admission (outcome : DurableInboundAdmissionOutcome P)
  | claimed (admission : Option (StoredInboundAdmission P))
  | finished (admission : StoredInboundAdmission P)
  | item (outcome : ItemOutcome P)

def inboundCall (world : RecoveryWorld codec W) :
    InboundCall P W → RecoveryCheck (InboundAnswer P × RecoveryWorld codec W)
  | .openSession sessionId =>
    .ok (.opened,
      { world with tables := { world.tables with sessions := sessionId :: world.tables.sessions } })
  | .admitInbound admission => do
    let done ← (admitInbound world.tables admission).mapError .store
    return (.admission done.1, { world with tables := done.2 })
  | .claim claim => do
    let done ← (claimNextInbound world.tables claim).mapError .store
    return (.claimed done.1, { world with tables := done.2 })
  | .reclaim reclaim => do
    let done ← (reclaimExpiredInbound world.tables reclaim).mapError .store
    return (.claimed done.1, { world with tables := done.2 })
  | .complete completion => do
    let done ← (completeInbound world.tables completion).mapError .store
    return (.finished done.1, { world with tables := done.2 })
  | .fail failure => do
    let done ← (failInbound world.tables failure).mapError .store
    return (.finished done.1, { world with tables := done.2 })
  | .handle workerId item handler now => do
    let done ← handleInbound world workerId item (handler world.business item) now
    return (.item done.1, done.2)
  | .failTerminal workerId item reason error now => do
    let done ← failTerminalInbound world workerId item reason error now
    return (.finished done.1, done.2)
  | .failTimedOut workerId item now => do
    let done ← failTimedOut world workerId item now
    return (.finished done.1, done.2)

/-- a transaction that fails leaves the world as it was -/
def inboundStep (world : RecoveryWorld codec W) (call : InboundCall P W) : RecoveryWorld codec W :=
  match inboundCall world call with
  | .ok (_, world') => world'
  | .error _ => world

variable (codec) in
/-- the world in front of the `k`-th call of a run from an empty store -/
def inboundAt (business : W) (calls : List (InboundCall P W)) (k : Nat) : RecoveryWorld codec W :=
  before inboundStep (.initial codec business) calls k

end

end Sinan.Inbound
