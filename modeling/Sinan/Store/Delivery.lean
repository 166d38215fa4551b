import Sinan.Lib.Table
import Sinan.Store.Graph
import Sinan.Types.Delivery
import Mathlib.Data.List.Sort

/-!
# The delivery tables

`wire_outbox`, `command_delivery_attempts` and `execution_client_sessions`, with the constraints and
triggers of the schema, and the statements and readers every operation is made of.  A statement that
a constraint, a trigger or a foreign key refuses is a `database` error.  The columns of
`execution_commands` and `reconciliation_runs` that delivery reads are lookups (`Parents`): no
operation here writes them.
-/

namespace Sinan.Store

open Lib

structure CommandParent (P : Type) where
  accountId : AccountId
  clientId : Option ClientId
  terminalId : Option TerminalId
  expiresAt : Int
  payload : P

structure RunParent (P : Type) where
  accountId : AccountId
  clientId : Option ClientId
  terminalId : Option TerminalId
  payload : P

structure Parents (P : Type) where
  command : CommandId → Option (CommandParent P)
  run : RequestId → Option (RunParent P)

/-- what the store reads of a decoded envelope -/
structure WireEnvelope (P : Type) where
  messageId : MessageId
  messageType : String
  sessionId : Option SessionId
  sequence : Option Nat
  payload : P

/-- `decode_wire_message`, and the subject of the two payloads that have one -/
structure WireCodec (P : Type) where
  decode : P → Except String (WireEnvelope P)
  commandId : P → Except String CommandId
  requestId : P → Except String RequestId

section
variable {P : Type}

/-- `idx_wire_outbox_session_sequence` -/
def outboxIndex (o : StoredWireOutbox P) : Option (SessionId × Nat) :=
  o.sessionId.bind fun sessionId => o.sequence.map fun sequence => (sessionId, sequence)

/-- `idx_active_session_identity` -/
def sessionIndex (s : StoredSessionRecord P) : Option (ClientId × AccountId × String) :=
  if s.status = .active then some (s.clientId, s.accountId, s.terminalId.getD "") else none

end

structure DeliveryTables (P : Type) where
  outboxes : Table (fun o : StoredWireOutbox P => o.messageId) outboxIndex
  attempts : Table (fun a : StoredDeliveryAttempt P => a.attemptId) (fun a => a.messageId)
  sessions : Table (fun s : StoredSessionRecord P => s.sessionId) sessionIndex
  parents : Parents P

/-! ## errors -/

def staleSession (sessionId : SessionId) : StoreError :=
  .staleWrite "execution_client_session" sessionId

def staleOutbound (messageId : MessageId) : StoreError := .staleWrite "outbound_delivery" messageId

def invalidOutbound (messageId : MessageId) (reason : String) : StoreError :=
  .invalidRecord "outbound_delivery" messageId reason

def requireNonEmpty (field value : String) : StoreCheck Unit :=
  reject (blank value = true)
    (.invalidRecord "gateway_delivery" field (field ++ " must not be empty"))

def u64ToI64 (field : String) (value : Nat) : StoreCheck Unit :=
  reject ((value : Int) > i64Max) (.invalidInteger field value)

def positiveU64ToI64 (field : String) (value : Nat) : StoreCheck Unit := do
  reject (value = 0) (.invalidSequence field)
  u64ToI64 field value

def checkedIncrement (field : String) (value : Nat) : StoreCheck Nat := do
  let next ← need (checkedSucc value) (.invalidInteger field value)
  u64ToI64 field next
  return next

/-- a condition of the schema: where it fails the statement is aborted -/
def sqlGuard (condition : Bool) : StoreCheck Unit := reject (condition = false) .database

/-! ## conditions of the schema -/

/-- `MAX(base, COALESCE(time, base), …)` -/
def latestOf (base : Int) (times : List (Option Int)) : Int :=
  times.foldl (fun latest time => max latest (time.getD base)) base

/-- `length(trim(text)) = 0`: blanks go from both ends, and a length stops at the first NUL -/
def sqlBlank (text : String) : Bool :=
  match text.toList.dropWhile (· == ' ') with
  | [] => true
  | c :: _ => c.toNat == 0

/-- one character of a `LIKE` pattern: `_` is any character, letters match in either case -/
def likeChar (pattern c : Char) : Bool := pattern == '_' || pattern.toLower == c.toLower

/-- `text LIKE pattern || '%'` -/
def likePattern : List Char → List Char → Bool
  | [], _ => true
  | _ :: _, [] => false
  | pattern :: patterns, c :: cs => likeChar pattern c && likePattern patterns cs

def likeRejected (error : Option String) : Bool :=
  likePattern transportAckRejectedPrefix.toList (error.getD "").toList

def wireMessageTypes : List String :=
  ["session.hello", "session.accepted", "session.rejected", "time.sync.request",
    "time.sync.response", "heartbeat", "transport.ack", "market.tick", "market.bar",
    "symbol.metadata", "account.snapshot", "position.snapshot", "order.snapshot",
    "execution.command", "command.received", "execution.event", "reconciliation.request",
    "reconciliation.result", "protocol.error"]

section
variable {P : Type} (tables : DeliveryTables P)

def outboxSubjectCheck (o : StoredWireOutbox P) : Bool :=
  if o.messageType = "execution.command" then o.commandId.isSome && o.requestId.isNone
  else if o.messageType = "reconciliation.request" then o.commandId.isNone && o.requestId.isSome
  else o.commandId.isNone && o.requestId.isNone

def outboxLatest (o : StoredWireOutbox P) : Int := latestOf o.createdAt [o.sentAt, o.ackedAt]

/-- the `CHECK` constraints of `wire_outbox` -/
def outboxCheck (o : StoredWireOutbox P) : Bool :=
  wireMessageTypes.contains o.messageType && o.sequence.all (fun sequence => 0 < sequence) &&
  (o.updatedAt == 0 || decide (o.createdAt ≤ o.updatedAt) &&
    o.sentAt.all (fun t => t ≤ o.updatedAt) && o.ackedAt.all (fun t => t ≤ o.updatedAt)) &&
  o.sentAt.all (fun t => o.createdAt ≤ t) &&
  o.ackedAt.all (fun acked => o.sentAt.any fun t => t ≤ acked) &&
  (o.sentAt.isSome || !(o.status == .sent || o.status == .acked)) &&
  ((o.status == .acked) == o.ackedAt.isSome) && outboxSubjectCheck o &&
  (!(o.messageType == "execution.command" || o.messageType == "reconciliation.request") ||
    o.sessionId.isSome && o.sequence.isSome)

/-- `trg_wire_outbox_cas` with the constraints on the new row -/
def outboxMayChange (old new : StoredWireOutbox P) : Bool :=
  new.revision == old.revision + 1 && decide (old.updatedAt ≤ new.updatedAt) &&
  decide (outboxLatest new ≤ new.updatedAt) && outboxCheck new

def attemptLatest (a : StoredDeliveryAttempt P) : Int := latestOf a.attemptedAt [a.ackedAt]

def CommandDeliveryAttemptStatus.bound : CommandDeliveryAttemptStatus → Bool
  | .pending | .sent | .acked | .unconfirmed => true
  | _ => false

/-- the `CHECK` constraints of `command_delivery_attempts` -/
def attemptCheck (a : StoredDeliveryAttempt P) : Bool :=
  (a.updatedAt == 0 || decide (a.attemptedAt ≤ a.updatedAt) &&
    a.ackedAt.all (fun t => t ≤ a.updatedAt)) &&
  (a.messageId.isNone || a.sessionId.isSome) &&
  (!CommandDeliveryAttemptStatus.bound a.status || a.sessionId.isSome && a.messageId.isSome) &&
  ((a.status == .acked) == a.ackedAt.isSome) &&
  (!(a.status == .acked) || a.subject.commandId.isSome) &&
  (!(a.status == .unconfirmed) || a.error.any fun e => !sqlBlank e)

/-- `trg_command_delivery_attempts_cas` with the constraints on the new row -/
def attemptMayChange (old new : StoredDeliveryAttempt P) : Bool :=
  new.revision == old.revision + 1 && decide (old.updatedAt ≤ new.updatedAt) &&
  decide (attemptLatest new ≤ new.updatedAt) && attemptCheck new

def sessionLatest (s : StoredSessionRecord P) : Int :=
  latestOf s.connectedAt [s.lastHeartbeatAt, s.lastTimeSyncAt, s.disconnectedAt]

def sessionPlatforms : List String :=
  ["MT5", "BINANCE", "OKX", "IBKR", "PAPER", "BACKTEST", "EXCHANGE"]

/-- the `CHECK` constraints of `execution_client_sessions` -/
def sessionCheck (s : StoredSessionRecord P) : Bool :=
  sessionPlatforms.contains s.platform &&
  (s.updatedAt == 0 || decide (s.connectedAt ≤ s.updatedAt) &&
    s.lastHeartbeatAt.all (fun t => t ≤ s.updatedAt) &&
    s.lastTimeSyncAt.all (fun t => t ≤ s.updatedAt) &&
    s.disconnectedAt.all (fun t => t ≤ s.updatedAt)) &&
  decide (0 < s.lastOutboundSequence) && (s.revision != 0 || s.lastOutboundSequence == 1) &&
  decide (0 < s.maxInflightCommands)

/-- `trg_execution_client_sessions_cas` with the constraints on the new row -/
def sessionMayChange (old new : StoredSessionRecord P) : Bool :=
  new.revision == old.revision + 1 && decide (old.updatedAt ≤ new.updatedAt) &&
  decide (sessionLatest new ≤ new.updatedAt) &&
  decide (old.lastOutboundSequence ≤ new.lastOutboundSequence) && sessionCheck new

/-! ## statements -/

/-- `UPDATE wire_outbox … WHERE message_id = ? AND revision = ?` -/
def updateOutboxState (current : StoredWireOutbox P) (status : WireOutboxStatus) (updatedAt : Int)
    (sentAt ackedAt : Option Int) (error : Option String) : StoreCheck (DeliveryTables P) := do
  let next ← checkedIncrement "wire_outbox.revision" current.revision
  let row ← need ((tables.outboxes.get current.messageId).filter
    fun row => row.revision == current.revision) (staleOutbound current.messageId)
  let changed : StoredWireOutbox P := { row with
    status := status, revision := next, updatedAt := updatedAt, sentAt := sentAt,
    ackedAt := ackedAt, lastError := error }
  sqlGuard (outboxMayChange row changed)
  let outboxes ← need (tables.outboxes.put changed) .database
  return { tables with outboxes := outboxes }

/-- `UPDATE command_delivery_attempts … WHERE attempt_id = ? AND revision = ?` -/
def updateAttemptState (current : StoredDeliveryAttempt P) (status : CommandDeliveryAttemptStatus)
    (updatedAt : Int) (ackedAt : Option Int) (error : Option String) :
    StoreCheck (DeliveryTables P) := do
  let next ← checkedIncrement "command_delivery_attempts.revision" current.revision
  let row ← need ((tables.attempts.get current.attemptId).filter
    fun row => row.revision == current.revision)
    (.staleWrite "command_delivery_attempt" current.attemptId)
  let changed : StoredDeliveryAttempt P := { row with
    status := status, revision := next, updatedAt := updatedAt, ackedAt := ackedAt,
    error := error }
  sqlGuard (attemptMayChange row changed)
  let attempts ← need (tables.attempts.put changed) .database
  return { tables with attempts := attempts }

/-- `UPDATE execution_client_sessions … WHERE session_id = ? AND status = 'ACTIVE' AND revision = ?`
with the columns `change` sets -/
def updateActiveSession (sessionId : SessionId) (expectedRevision : Nat)
    (change : StoredSessionRecord P → StoredSessionRecord P) : StoreCheck (DeliveryTables P) := do
  let row ← need ((tables.sessions.get sessionId).filter
    fun row => row.status == .active && row.revision == expectedRevision) (staleSession sessionId)
  let changed := { change row with sessionId := row.sessionId }
  sqlGuard (sessionMayChange row changed)
  let sessions ← need (tables.sessions.put changed) .database
  return { tables with sessions := sessions }

/-- the foreign keys of a row that names a session, a command or a run -/
def referencesExist (sessionId : Option SessionId) (commandId : Option CommandId)
    (requestId : Option RequestId) : Bool :=
  sessionId.all (fun id => (tables.sessions.get id).isSome) &&
  commandId.all (fun id => (tables.parents.command id).isSome) &&
  requestId.all (fun id => (tables.parents.run id).isSome)

/-- `INSERT INTO wire_outbox … ON CONFLICT DO NOTHING`; `none` is a conflict -/
def insertOutbox (message : NewWireOutbox P) : StoreCheck (Option (DeliveryTables P)) := do
  let row : StoredWireOutbox P := { message with revision := 0 }
  sqlGuard (row.updatedAt == 0 || decide (outboxLatest row ≤ row.updatedAt))
  sqlGuard (outboxCheck row)
  -- `trg_wire_outbox_default_time`
  let stored := if row.updatedAt = 0 then { row with updatedAt := outboxLatest row } else row
  match tables.outboxes.insert stored with
  | none => return none
  | some outboxes =>
    sqlGuard (referencesExist tables row.sessionId row.commandId row.requestId)
    return some { tables with outboxes := outboxes }

/-- `trg_command_delivery_attempts_outbox_binding_insert` -/
def attemptBinds (attempt : NewDeliveryAttempt P) : Bool :=
  attempt.messageId.all fun messageId =>
    (tables.outboxes.get messageId).any fun o =>
      o.sessionId.isSome && o.sessionId == attempt.sessionId &&
      o.commandId == attempt.subject.commandId && o.requestId == attempt.subject.requestId

/-- `INSERT INTO command_delivery_attempts … ON CONFLICT DO NOTHING`; `none` is a conflict -/
def insertAttempt (attempt : NewDeliveryAttempt P) : StoreCheck (Option (DeliveryTables P)) := do
  let row : StoredDeliveryAttempt P := { attempt with revision := 0 }
  sqlGuard (row.updatedAt == 0 || decide (attemptLatest row ≤ row.updatedAt))
  sqlGuard (attemptBinds tables attempt)
  sqlGuard (attemptCheck row)
  -- `trg_command_delivery_attempts_default_time`
  let stored := if row.updatedAt = 0 then { row with updatedAt := attemptLatest row } else row
  match tables.attempts.insert stored with
  | none => return none
  | some attempts =>
    sqlGuard (referencesExist tables row.sessionId row.subject.commandId row.subject.requestId)
    return some { tables with attempts := attempts }

/-- `INSERT INTO execution_client_sessions … ON CONFLICT DO NOTHING`; `none` is a conflict -/
def insertSession (session : NewSessionRecord P) : StoreCheck (Option (DeliveryTables P)) := do
  let row : StoredSessionRecord P := { session with revision := 0, lastOutboundSequence := 1 }
  sqlGuard (row.updatedAt == 0 || decide (sessionLatest row ≤ row.updatedAt))
  sqlGuard (sessionCheck row)
  -- `trg_execution_client_sessions_default_time`
  let stored := if row.updatedAt = 0 then { row with updatedAt := sessionLatest row } else row
  match tables.sessions.insert stored with
  | none => return none
  | some sessions => return some { tables with sessions := sessions }

end

/-! ## readers -/

section
variable {P : Type} [DecidableEq P] (codec : WireCodec P) (tables : DeliveryTables P)

def corruptReason {α : Type} (entity key : String) (describe : String → String) :
    Except String α → StoreCheck α
  | .ok a => .ok a
  | .error e => .error (.corruptData entity key (describe e))

/-- the delivery subject of the columns is that of the payload -/
def validateOutboxSubject (o : NewWireOutbox P) (wire : WireEnvelope P) : StoreCheck Unit :=
  if wire.messageType = "execution.command" then do
    let commandId ← corruptReason "wire_outbox" o.messageId
      (fun e => "invalid execution.command payload: " ++ e) (codec.commandId wire.payload)
    reject (o.commandId ≠ some commandId ∨ o.requestId.isSome)
      (.corruptData "wire_outbox" o.messageId "execution.command subject does not match payload")
  else if wire.messageType = "reconciliation.request" then do
    let requestId ← corruptReason "wire_outbox" o.messageId
      (fun e => "invalid reconciliation.request payload: " ++ e) (codec.requestId wire.payload)
    reject (o.requestId ≠ some requestId ∨ o.commandId.isSome)
      (.corruptData "wire_outbox" o.messageId
        "reconciliation.request subject does not match payload")
  else
    reject (o.commandId.isSome ∨ o.requestId.isSome)
      (.corruptData "wire_outbox" o.messageId "message type must not carry a delivery subject")

def validateStoredWireOutbox (o : NewWireOutbox P) : StoreCheck Unit := do
  let wire ← corruptReason "wire_outbox" o.messageId id (codec.decode o.payload)
  reject (wire.messageId ≠ o.messageId ∨ wire.messageType ≠ o.messageType ∨
      wire.sessionId ≠ o.sessionId ∨ wire.sequence ≠ o.sequence)
    (.corruptData "wire_outbox" o.messageId
      "wire envelope identity does not match denormalized columns")
  validateOutboxSubject codec o wire
  reject (o.updatedAt < o.createdAt)
    (.corruptData "wire_outbox" o.messageId "updated_at precedes created_at")

def wireOutboxFromRow (o : StoredWireOutbox P) : StoreCheck (StoredWireOutbox P) := do
  validateStoredWireOutbox codec o.toNewWireOutbox
  return o

/-- `row.map(from_row).transpose()` -/
def readRow {ρ : Type} (fromRow : ρ → StoreCheck ρ) : Option ρ → StoreCheck (Option ρ)
  | none => .ok none
  | some row => do
    let read ← fromRow row
    return some read

def fetchWireOutboxById (messageId : MessageId) : StoreCheck (Option (StoredWireOutbox P)) :=
  readRow (wireOutboxFromRow codec) (tables.outboxes.get messageId)

def requiredOutbox (messageId : MessageId) : StoreCheck (StoredWireOutbox P) := do
  let outbox ← fetchWireOutboxById codec tables messageId
  need outbox (.notFound "wire_outbox" messageId)

/-- the payload of the parent row, where the outbox names one -/
def parentPayload (o : NewWireOutbox P) : StoreCheck (Option P) :=
  match o.commandId, o.requestId with
  | some commandId, none => do
    let parent ← need (tables.parents.command commandId) (.notFound "execution_command" commandId)
    return some parent.payload
  | none, some requestId => do
    let parent ← need (tables.parents.run requestId) (.notFound "reconciliation_run" requestId)
    return some parent.payload
  | _, _ => .ok none

def validateOutboxParentPayload (o : NewWireOutbox P) : StoreCheck Unit := do
  let wire ← corruptReason "wire_outbox" o.messageId id (codec.decode o.payload)
  let durable ← parentPayload tables o
  reject (durable.any fun payload => decide (payload ≠ wire.payload))
    (.identityConflict "outbound_delivery_payload" o.messageId)

def deliveryAttemptFromRow (a : StoredDeliveryAttempt P) : StoreCheck (StoredDeliveryAttempt P) := do
  reject (a.updatedAt < a.attemptedAt ∨ (a.status == .acked) ≠ a.ackedAt.isSome)
    (.corruptData "command_delivery_attempt" a.attemptId "attempt timestamps do not match status")
  reject (a.status = .acked ∧ a.subject.commandId = none)
    (.corruptData "command_delivery_attempt" a.attemptId
      "ACKED is only valid for execution command receipt")
  reject (a.status = .unconfirmed ∧ a.error.all blank = true)
    (.corruptData "command_delivery_attempt" a.attemptId "UNCONFIRMED requires a non-empty error")
  return a

def validateStoredAttempt (a : StoredDeliveryAttempt P) : StoreCheck Unit :=
  match a.sessionId, a.messageId with
  | some sessionId, some messageId => do
    let found ← fetchWireOutboxById codec tables messageId
    let outbox ← need found
      (.corruptData "command_delivery_attempt" a.attemptId "referenced outbox is missing")
    validateOutboxParentPayload codec tables outbox.toNewWireOutbox
    reject (outbox.sessionId ≠ some sessionId ∨ outbox.commandId ≠ a.subject.commandId ∨
        outbox.requestId ≠ a.subject.requestId)
      (.corruptData "command_delivery_attempt" a.attemptId
        "outbox session or subject binding does not match")
  | none, some _ =>
    .error (.corruptData "command_delivery_attempt" a.attemptId
      "session_id and message_id must be present together")
  | _, none =>
    reject (CommandDeliveryAttemptStatus.bound a.status = true)
      (.corruptData "command_delivery_attempt" a.attemptId
        "delivery status requires an outbox binding")

/-- decode a row and validate it against its outbox -/
def parseAndValidateAttempt (row : StoredDeliveryAttempt P) :
    StoreCheck (StoredDeliveryAttempt P) := do
  let attempt ← deliveryAttemptFromRow row
  validateStoredAttempt codec tables attempt
  return attempt

def fetchDeliveryAttemptById (attemptId : String) : StoreCheck (Option (StoredDeliveryAttempt P)) :=
  readRow (parseAndValidateAttempt codec tables) (tables.attempts.get attemptId)

def fetchDeliveryAttemptByMessage (messageId : MessageId) :
    StoreCheck (Option (StoredDeliveryAttempt P)) :=
  readRow (parseAndValidateAttempt codec tables) (tables.attempts.seek messageId)

def requiredAttemptByMessage (messageId : MessageId) : StoreCheck (StoredDeliveryAttempt P) := do
  let attempt ← fetchDeliveryAttemptByMessage codec tables messageId
  need attempt (.notFound "command_delivery_attempt" ("message_id=" ++ messageId))

def requiredOutboundDelivery (messageId : MessageId) : StoreCheck (StoredOutboundDelivery P) := do
  let outbox ← requiredOutbox codec tables messageId
  let attempt ← requiredAttemptByMessage codec tables messageId
  return ⟨outbox, attempt⟩

def fetchOutboundDelivery (messageId : MessageId) :
    StoreCheck (Option (StoredOutboundDelivery P)) := do
  let found ← fetchWireOutboxById codec tables messageId
  match found with
  | none => return none
  | some outbox =>
    validateOutboxParentPayload codec tables outbox.toNewWireOutbox
    let attempt ← fetchDeliveryAttemptByMessage codec tables messageId
    let attempt ← need attempt
      (.corruptData "outbound_delivery" messageId "delivery outbox has no matching attempt")
    return some ⟨outbox, attempt⟩

/-- the time lies between the connection and the last update -/
def withinSession (s : NewSessionRecord P) (time : Option Int) : Bool :=
  time.all fun t => decide (s.connectedAt ≤ t ∧ t ≤ s.updatedAt)

/-- the evidence of a time sync and the status it gives go together -/
def clockEvidenceFits (s : NewSessionRecord P) : Bool :=
  !(s.clockSyncStatus == some .synced && s.lastTimeSyncAt.isNone) &&
  !(s.lastTimeSyncAt.isSome && s.clockSyncStatus.isNone)

def sessionFromRow (s : StoredSessionRecord P) : StoreCheck (StoredSessionRecord P) := do
  reject (s.lastOutboundSequence = 0)
    (.corruptData "execution_client_session" s.sessionId
      "last_outbound_sequence must be greater than zero")
  reject (s.maxInflightCommands = 0)
    (.corruptData "execution_client_session" s.sessionId
      "max_inflight_commands must be greater than zero")
  reject (s.updatedAt < s.connectedAt ∨ withinSession s.toNewSessionRecord s.lastHeartbeatAt = false ∨
      withinSession s.toNewSessionRecord s.lastTimeSyncAt = false ∨
      (s.status = .active ∧ s.disconnectedAt.isSome) ∨
      clockEvidenceFits s.toNewSessionRecord = false)
    (.corruptData "execution_client_session" s.sessionId
      "session timestamps, status, or clock-sync evidence are inconsistent")
  return s

def fetchSessionById (sessionId : SessionId) : StoreCheck (Option (StoredSessionRecord P)) :=
  readRow sessionFromRow (tables.sessions.get sessionId)

def requiredSession (sessionId : SessionId) : StoreCheck (StoredSessionRecord P) := do
  let session ← fetchSessionById tables sessionId
  need session (.notFound "execution_client_session" sessionId)

end

end Sinan.Store
