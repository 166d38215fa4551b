import Mathlib.Data.Prod.Lex
import Mathlib.Data.String.Basic
import Sinan.Lib.Sorted
import Sinan.Store.Delivery

/-!
# The inbound tables

`inbound_admissions` and `inbound_rejections`, with the constraints and triggers of the schema, and
the operations on them: a message is admitted once, claimed under a lease, claimed again when the
lease has run out, and finished by the worker that holds it.  Every operation is one transaction: it
returns its outcome with the tables it leaves, and an error leaves them as they were.
-/

set_option linter.unusedSectionVars false

namespace Sinan.Inbound

open Lib Store

inductive DurableWorkStatus where
  | pending
  | processing
  | handled
  | failed
  deriving DecidableEq

structure NewInboundAdmission (P : Type) where
  messageId : MessageId
  sessionId : SessionId
  clientId : ClientId
  accountId : AccountId
  terminalId : Option TerminalId
  messageType : String
  schemaVersion : String
  sequence : Nat
  correlationId : Option CorrelationId
  causationId : Option CausationId
  envelope : P
  rawPayloadLength : Option Nat
  receivedAt : Int
  createdAt : Int
  deriving DecidableEq

structure StoredInboundAdmission (P : Type) extends NewInboundAdmission P where
  status : DurableWorkStatus
  leaseOwner : Option String
  leaseExpiresAt : Option Int
  revision : Nat
  finishedAt : Option Int
  lastError : Option String
  updatedAt : Int
  deriving DecidableEq

structure StoredInboundRejection (P : Type) where
  rejectionId : String
  messageId : MessageId
  sessionId : SessionId
  clientId : ClientId
  accountId : AccountId
  terminalId : Option TerminalId
  messageType : String
  schemaVersion : String
  sequence : Nat
  correlationId : Option CorrelationId
  causationId : Option CausationId
  envelope : P
  reason : ErrorCode
  receivedAt : Int
  createdAt : Int
  deriving DecidableEq

inductive DurableInboundAdmissionOutcome (P : Type) where
  | accepted (admission : StoredInboundAdmission P)
  | duplicate (admission : StoredInboundAdmission P)
  | rejected (rejection : StoredInboundRejection P)
  deriving DecidableEq

structure ClaimDurableWork where
  workerId : String
  claimedAt : Int
  leaseExpiresAt : Int

structure ReclaimDurableWork where
  workerId : String
  reclaimedAt : Int
  leaseExpiresAt : Int

structure CompleteInboundAdmission where
  messageId : MessageId
  expectedRevision : Nat
  workerId : String
  completedAt : Int

structure FailInboundAdmission where
  messageId : MessageId
  expectedRevision : Nat
  workerId : String
  failedAt : Int
  error : String

/-- the members of an envelope's JSON object the store looks at, as the strings and the number
they are -/
structure EnvelopeFields where
  messageId : Option String
  messageType : Option String
  schemaVersion : Option String
  sessionId : Option String
  sequence : Option Nat
  clientId : Option String
  correlationId : Option String
  causationId : Option String

/-- JSON and SHA-256 as the store uses them: the members of a canonical text (`none` is not an
object), the hash kept beside it and the digest behind a rejection's id -/
structure EnvelopeCodec (P : Type) where
  fields : P → Option EnvelopeFields
  sha256Hex : P → String
  digest : String → String

structure InboundTables {P : Type} (codec : EnvelopeCodec P) where
  admissions : Table (fun a : StoredInboundAdmission P => a.messageId)
    (fun a => some (a.sessionId, a.sequence))
  rejections : Table (fun r : StoredInboundRejection P => r.rejectionId)
    (fun r => some (r.messageId, codec.sha256Hex r.envelope, r.reason))
  /-- the keys of `execution_client_sessions`, which is never deleted from -/
  sessions : List SessionId

section
variable {P : Type} {codec : EnvelopeCodec P}

def InboundTables.empty : InboundTables codec := ⟨Table.empty, Table.empty, []⟩

/-! ## what a record must look like -/

def requireNonEmpty (field value : String) : StoreCheck Unit :=
  reject (blank value = true)
    (.invalidRecord "inbound_durability" field (field ++ " must not be empty"))

def validateTime (entity : String) (value : Int) : StoreCheck Unit :=
  reject (value < 0) (.invalidRecord entity (toString value) "timestamp must be non-negative")

def envelopeMatches (a : NewInboundAdmission P) (object : EnvelopeFields) : Bool :=
  object.messageId == some a.messageId && object.messageType == some a.messageType &&
  object.schemaVersion == some a.schemaVersion && object.sessionId == some a.sessionId &&
  object.sequence == some a.sequence && object.clientId.all (fun clientId => clientId == a.clientId) &&
  object.correlationId == a.correlationId && object.causationId == a.causationId

variable (codec) in
def validateEnvelopeIdentity (a : NewInboundAdmission P) : StoreCheck Unit := do
  let object ← need (codec.fields a.envelope)
    (.invalidRecord "inbound_admission" a.messageId "canonical envelope must be a JSON object")
  reject (envelopeMatches a object = false)
    (.invalidRecord "inbound_admission" a.messageId
      "canonical envelope identity differs from indexed columns")

variable (codec) in
def validateNewInbound (a : NewInboundAdmission P) : StoreCheck Unit := do
  requireNonEmpty "message_id" a.messageId
  requireNonEmpty "session_id" a.sessionId
  requireNonEmpty "client_id" a.clientId
  requireNonEmpty "account_id" a.accountId
  requireNonEmpty "message_type" a.messageType
  requireNonEmpty "schema_version" a.schemaVersion
  reject (a.sequence = 0) (.invalidSequence "inbound_admissions.sequence")
  each a.rawPayloadLength.toList (u64ToI64 "inbound_admissions.raw_payload_length")
  validateTime "inbound admission" a.receivedAt
  validateTime "inbound admission" a.createdAt
  validateEnvelopeIdentity codec a

def validateClaim (workerId : String) (at_ leaseExpiresAt : Int) : StoreCheck Unit := do
  requireNonEmpty "worker_id" workerId
  validateTime "durable work claim" at_
  reject (leaseExpiresAt ≤ at_)
    (.invalidRecord "durable_work_claim" workerId
      "lease_expires_at must be later than the claim time")

/-! ## conditions of the schema -/

/-- `length(text) > 0`: the length stops at the first NUL, and that of NULL is no number -/
def sqlNonEmpty (text : Option String) : Bool :=
  text.any fun t => t.toList.head?.any fun c => c.toNat != 0

/-- the columns a status leaves empty or demands -/
def workStatusCheck (a : StoredInboundAdmission P) : Bool :=
  match a.status with
  | .pending =>
    a.leaseOwner.isNone && a.leaseExpiresAt.isNone && a.finishedAt.isNone && a.lastError.isNone
  | .processing =>
    sqlNonEmpty a.leaseOwner && a.leaseExpiresAt.isSome && a.finishedAt.isNone &&
    a.lastError.isNone
  | .handled =>
    a.leaseOwner.isNone && a.leaseExpiresAt.isNone && a.finishedAt.isSome && a.lastError.isNone
  | .failed =>
    a.leaseOwner.isNone && a.leaseExpiresAt.isNone && a.finishedAt.isSome &&
    sqlNonEmpty a.lastError

/-- the `CHECK` constraints of `inbound_admissions` -/
def inboundCheck (a : StoredInboundAdmission P) : Bool :=
  decide (0 < a.sequence) && decide (0 ≤ a.receivedAt) && decide (0 ≤ a.createdAt) &&
  decide (a.createdAt ≤ a.updatedAt) && workStatusCheck a

/-- `trg_inbound_admissions_transition_guard` -/
def workTransition : DurableWorkStatus → DurableWorkStatus → Bool
  | .pending, .processing => true
  | .processing, .processing => true
  | .processing, .handled => true
  | .processing, .failed => true
  | _, _ => false

/-- the guard with the constraints on the new row; a revision beyond `i64` is stored as a float,
which no later read accepts, so the transaction that wrote it fails -/
def inboundMayChange (old new : StoredInboundAdmission P) : Bool :=
  workTransition old.status new.status && inboundCheck new &&
  decide ((new.revision : Int) ≤ i64Max)

/-! ## statements -/

variable [DecidableEq P] (tables : InboundTables codec)

def staleInbound (messageId : MessageId) : StoreError := .staleWrite "inbound_admission" messageId

/-- a row as `INSERT INTO inbound_admissions` leaves it -/
def pendingRow (a : NewInboundAdmission P) : StoredInboundAdmission P :=
  { a with
    status := .pending, leaseOwner := none, leaseExpiresAt := none, revision := 0,
    finishedAt := none, lastError := none, updatedAt := a.createdAt }

@[simp] theorem pendingRow_messageId (a : NewInboundAdmission P) :
    (pendingRow a).messageId = a.messageId := rfl

def insertInbound (a : NewInboundAdmission P) : StoreCheck (InboundTables codec) := do
  u64ToI64 "inbound_admissions.sequence" a.sequence
  each a.rawPayloadLength.toList (u64ToI64 "inbound_admissions.raw_payload_length")
  sqlGuard (inboundCheck (pendingRow a))
  let admissions ← need (tables.admissions.insert (pendingRow a)) .database
  sqlGuard (decide (a.sessionId ∈ tables.sessions))
  return { tables with admissions := admissions }

/-- `UPDATE inbound_admissions` on a row its `WHERE` clause selected -/
def updateInbound (row changed : StoredInboundAdmission P) : StoreCheck (InboundTables codec) := do
  sqlGuard (inboundMayChange row changed)
  let admissions ← need (tables.admissions.put changed) .database
  return { tables with admissions := admissions }

def requiredInbound (messageId : MessageId) : StoreCheck (StoredInboundAdmission P) :=
  need (tables.admissions.get messageId) (.notFound "inbound_admission" messageId)

/-- `WHERE message_id = ? OR (session_id = ? AND sequence = ?) ORDER BY message_id` -/
def fetchInboundConflicts (a : NewInboundAdmission P) :
    StoreCheck (List (StoredInboundAdmission P)) := do
  u64ToI64 "inbound_admissions.sequence" a.sequence
  return sortBy (fun x => x.messageId) (tables.admissions.rows.filter fun x =>
    x.messageId == a.messageId || x.sessionId == a.sessionId && x.sequence == a.sequence)

def sameInboundIdentity (stored : StoredInboundAdmission P) (incoming : NewInboundAdmission P) :
    Bool :=
  stored.messageId == incoming.messageId && stored.sessionId == incoming.sessionId &&
  stored.clientId == incoming.clientId && stored.accountId == incoming.accountId &&
  stored.terminalId == incoming.terminalId && stored.messageType == incoming.messageType &&
  stored.schemaVersion == incoming.schemaVersion && stored.sequence == incoming.sequence &&
  stored.correlationId == incoming.correlationId && stored.causationId == incoming.causationId &&
  stored.envelope == incoming.envelope

/-! ## rejections -/

variable (codec) in
def rejectionId (a : NewInboundAdmission P) (reason : ErrorCode) : String :=
  "inbound-rejection-" ++ codec.digest
    (a.messageId ++ "\u001f" ++ a.sessionId ++ "\u001f" ++ toString a.sequence ++ "\u001f" ++
      codec.sha256Hex a.envelope ++ "\u001f" ++ reason.asStr)

def sameRejectionIdentity (stored : StoredInboundRejection P) (incoming : NewInboundAdmission P)
    (reason : ErrorCode) : Bool :=
  stored.messageId == incoming.messageId && stored.sessionId == incoming.sessionId &&
  stored.clientId == incoming.clientId && stored.accountId == incoming.accountId &&
  stored.terminalId == incoming.terminalId && stored.messageType == incoming.messageType &&
  stored.schemaVersion == incoming.schemaVersion && stored.sequence == incoming.sequence &&
  stored.correlationId == incoming.correlationId && stored.causationId == incoming.causationId &&
  stored.envelope == incoming.envelope && stored.reason == reason

variable (codec) in
/-- the row a rejection is stored as -/
def rejectionRow (a : NewInboundAdmission P) (reason : ErrorCode) : StoredInboundRejection P :=
  { rejectionId := rejectionId codec a reason, messageId := a.messageId, sessionId := a.sessionId,
    clientId := a.clientId, accountId := a.accountId, terminalId := a.terminalId,
    messageType := a.messageType, schemaVersion := a.schemaVersion, sequence := a.sequence,
    correlationId := a.correlationId, causationId := a.causationId, envelope := a.envelope,
    reason := reason, receivedAt := a.receivedAt, createdAt := a.createdAt }

/-- `INSERT INTO inbound_rejections … ON CONFLICT DO NOTHING` -/
def insertRejection (row : StoredInboundRejection P) : StoreCheck (InboundTables codec) := do
  sqlGuard (decide (0 < row.sequence) && decide (0 ≤ row.receivedAt) && decide (0 ≤ row.createdAt))
  match tables.rejections.insert row with
  | none => return tables
  | some rejections =>
    sqlGuard (decide (row.sessionId ∈ tables.sessions))
    return { tables with rejections := rejections }

def recordInboundRejection (a : NewInboundAdmission P) (reason : ErrorCode) :
    StoreCheck (StoredInboundRejection P × InboundTables codec) := do
  u64ToI64 "inbound_rejections.sequence" a.sequence
  let tables ← insertRejection tables (rejectionRow codec a reason)
  let stored ← need (tables.rejections.get (rejectionId codec a reason))
    (.notFound "inbound_rejection" (rejectionId codec a reason))
  reject (sameRejectionIdentity stored a reason = false)
    (.identityConflict "inbound_rejection" (rejectionId codec a reason))
  return (stored, tables)

/-! ## operations -/

def rejectInbound (a : NewInboundAdmission P) :
    StoreCheck (DurableInboundAdmissionOutcome P × InboundTables codec) := do
  let recorded ← recordInboundRejection tables a .duplicateIdempotencyConflict
  return (.rejected recorded.1, recorded.2)

/-- what is done with an admission and the rows it conflicts with -/
def settleAdmission (a : NewInboundAdmission P) : List (StoredInboundAdmission P) →
      StoreCheck (DurableInboundAdmissionOutcome P × InboundTables codec)
  | [] => do
    let tables ← insertInbound tables a
    let stored ← requiredInbound tables a.messageId
    return (.accepted stored, tables)
  | [stored] =>
    if sameInboundIdentity stored a then return (.duplicate stored, tables)
    else rejectInbound tables a
  | _ => rejectInbound tables a

def admitInbound (a : NewInboundAdmission P) :
    StoreCheck (DurableInboundAdmissionOutcome P × InboundTables codec) := do
  validateNewInbound codec a
  let conflicts ← fetchInboundConflicts tables a
  settleAdmission tables a conflicts

/-- `WHERE status = 'PENDING' ORDER BY received_at, message_id LIMIT 1` -/
def fetchNextInboundPending : Option (StoredInboundAdmission P) :=
  (sortBy (fun a => toLex (a.receivedAt, a.messageId))
    (tables.admissions.rows.filter fun a => a.status == .pending)).head?

/-- `WHERE status = 'PROCESSING' AND lease_expires_at <= ?
ORDER BY lease_expires_at, received_at, message_id LIMIT 1` -/
def fetchNextExpiredInbound (reclaimedAt : Int) : Option (StoredInboundAdmission P) :=
  (sortBy (fun a => toLex (a.leaseExpiresAt.getD 0, toLex (a.receivedAt, a.messageId)))
    (tables.admissions.rows.filter fun a =>
      a.status == .processing && a.leaseExpiresAt.any fun t => t ≤ reclaimedAt)).head?

/-- a row as a claim leaves it -/
def claimedRow (row : StoredInboundAdmission P) (workerId : String)
    (claimedAt leaseExpiresAt : Int) : StoredInboundAdmission P :=
  { row with
    status := .processing, leaseOwner := some workerId, leaseExpiresAt := some leaseExpiresAt,
    revision := row.revision + 1, updatedAt := claimedAt }

@[simp] theorem claimedRow_messageId (row : StoredInboundAdmission P) (workerId : String)
    (claimedAt leaseExpiresAt : Int) :
    (claimedRow row workerId claimedAt leaseExpiresAt).messageId = row.messageId := rfl

def claimInboundOn (candidate : StoredInboundAdmission P) (workerId : String)
    (claimedAt leaseExpiresAt : Int) (reclaim : Bool) :
    StoreCheck (StoredInboundAdmission P × InboundTables codec) := do
  reject (claimedAt < candidate.updatedAt)
    (.invalidRecord "inbound_admission" candidate.messageId
      "claim time predates the current revision")
  u64ToI64 "inbound_admissions.revision" candidate.revision
  let row ← need ((tables.admissions.get candidate.messageId).filter fun row =>
    row.status == (if reclaim then .processing else .pending) &&
      row.revision == candidate.revision) (staleInbound candidate.messageId)
  let tables ← updateInbound tables row (claimedRow row workerId claimedAt leaseExpiresAt)
  let stored ← requiredInbound tables candidate.messageId
  return (stored, tables)

/-- a claim of the row found, if one was -/
def claimFound (workerId : String) (claimedAt leaseExpiresAt : Int) (reclaim : Bool) :
    Option (StoredInboundAdmission P) →
      StoreCheck (Option (StoredInboundAdmission P) × InboundTables codec)
  | none => .ok (none, tables)
  | some candidate => do
    let claimed ← claimInboundOn tables candidate workerId claimedAt leaseExpiresAt reclaim
    return (some claimed.1, claimed.2)

def claimNextInbound (claim : ClaimDurableWork) :
    StoreCheck (Option (StoredInboundAdmission P) × InboundTables codec) := do
  validateClaim claim.workerId claim.claimedAt claim.leaseExpiresAt
  claimFound tables claim.workerId claim.claimedAt claim.leaseExpiresAt false
    (fetchNextInboundPending tables)

def reclaimExpiredInbound (reclaim : ReclaimDurableWork) :
    StoreCheck (Option (StoredInboundAdmission P) × InboundTables codec) := do
  validateClaim reclaim.workerId reclaim.reclaimedAt reclaim.leaseExpiresAt
  claimFound tables reclaim.workerId reclaim.reclaimedAt reclaim.leaseExpiresAt true
    (fetchNextExpiredInbound tables reclaim.reclaimedAt)

/-- a row as a finish leaves it -/
def finishedRow (row : StoredInboundAdmission P) (finishedAt : Int) (error : Option String) :
    StoredInboundAdmission P :=
  { row with
    status := if error.isSome then .failed else .handled, leaseOwner := none,
    leaseExpiresAt := none, revision := row.revision + 1, finishedAt := some finishedAt,
    lastError := error, updatedAt := finishedAt }

def finishInboundOn (messageId : MessageId) (expectedRevision : Nat) (workerId : String)
    (finishedAt : Int) (error : Option String) : StoreCheck (InboundTables codec) := do
  requireNonEmpty "worker_id" workerId
  validateTime "inbound completion" finishedAt
  let current ← requiredInbound tables messageId
  reject (current.status ≠ .processing ∨ current.revision ≠ expectedRevision ∨
      current.leaseOwner ≠ some workerId ∨ finishedAt < current.updatedAt ∨
      current.leaseExpiresAt.all (fun leaseExpiresAt => leaseExpiresAt ≤ finishedAt) = true)
    (staleInbound messageId)
  u64ToI64 "inbound_admissions.revision" expectedRevision
  let row ← need ((tables.admissions.get messageId).filter fun row =>
    row.status == .processing && row.revision == expectedRevision &&
      row.leaseOwner == some workerId && row.leaseExpiresAt.any fun t => finishedAt < t)
    (staleInbound messageId)
  updateInbound tables row (finishedRow row finishedAt error)

def completeInbound (completion : CompleteInboundAdmission) :
    StoreCheck (StoredInboundAdmission P × InboundTables codec) := do
  let tables ← finishInboundOn tables completion.messageId completion.expectedRevision
    completion.workerId completion.completedAt none
  let stored ← requiredInbound tables completion.messageId
  return (stored, tables)

def failInbound (failure : FailInboundAdmission) :
    StoreCheck (StoredInboundAdmission P × InboundTables codec) := do
  requireNonEmpty "inbound failure error" failure.error
  let tables ← finishInboundOn tables failure.messageId failure.expectedRevision failure.workerId
    failure.failedAt (some failure.error)
  let stored ← requiredInbound tables failure.messageId
  return (stored, tables)

end

end Sinan.Inbound
