import Sinan.Store.Outbox

/-!
# Sessions, sequences and the startup fence

A session owns the messages routed over it.  When it ends (replaced, stale, disconnected or fenced at
startup) its pending messages are cancelled, its written ones become unconfirmed and an attempt whose
message the transport rejected is settled as sent.
-/

namespace Sinan.Store

open Lib

section
variable {P : Type} [DecidableEq P] (codec : WireCodec P) (tables : DeliveryTables P)

/-! ## the messages of a session -/

/-- `ORDER BY time, id` -/
def inOrder {ρ : Type} (time : ρ → Int) (id : ρ → String) (rows : List ρ) : List ρ :=
  rows.insertionSort fun x y => time x < time y ∨ (time x = time y ∧ id x ≤ id y)

/-- an attempt that was, or may have been, written -/
def attemptWritten (sessionId : SessionId) (a : StoredDeliveryAttempt P) : Bool :=
  let outbox := a.messageId.bind tables.outboxes.get
  a.sessionId == some sessionId &&
  (a.status == .sent && outbox.any (fun o => o.status != .failed) ||
    a.status == .pending && outbox.any fun o =>
      o.status == .writeStarted || o.status == .sent || o.status == .acked)

def unconfirmAttempt (changedAt : Int) (error : String)
    (acc : List (StoredDeliveryAttempt P) × DeliveryTables P) (attempt : StoredDeliveryAttempt P) :
    StoreCheck (List (StoredDeliveryAttempt P) × DeliveryTables P) := do
  reject (changedAt < attempt.updatedAt)
    (.staleWrite "command_delivery_attempt" attempt.attemptId)
  let tables ← updateAttemptState acc.2 attempt .unconfirmed changedAt none (some error)
  let updated ← requiredAttempt codec tables attempt.attemptId
    (.corruptData "command_delivery_attempt" attempt.attemptId "attempt disappeared")
  return (acc.1 ++ [updated], tables)

def unconfirmSessionAttempts (sessionId : SessionId) (changedAt : Int) (error : String) :
    StoreCheck (List (StoredDeliveryAttempt P) × DeliveryTables P) := do
  let attempts ← collect (parseAndValidateAttempt codec tables)
    (inOrder (fun a => a.attemptedAt) (fun a => a.attemptId)
      (tables.attempts.rows.filter (attemptWritten tables sessionId)))
  attempts.foldlM (unconfirmAttempt codec changedAt error) ([], tables)

/-- the messages of the session in the given states, `ORDER BY o.sequence, o.message_id`; a NULL
sequence comes first -/
def sessionMessages (sessionId : SessionId) (outboxFits : StoredWireOutbox P → Bool) :
    List MessageId :=
  (inOrder (fun o => (o.sequence.getD 0 : Int)) (fun o => o.messageId)
    (tables.outboxes.rows.filter fun o => o.sessionId == some sessionId && outboxFits o &&
      (tables.attempts.seek o.messageId).any fun a => a.status == .pending)).map
    fun o => o.messageId

def cancelPendingDelivery (changedAt : Int) (error : String) (tables : DeliveryTables P)
    (messageId : MessageId) : StoreCheck (DeliveryTables P) := do
  let outbox ← requiredOutbox codec tables messageId
  let attempt ← requiredAttemptByMessage codec tables messageId
  requireMonotonicTransitionTime outbox attempt changedAt
  let tables ← updateOutboxState tables outbox .cancelled changedAt none none (some error)
  updateAttemptState tables attempt .cancelled changedAt none (some error)

def cancelSessionPendingDeliveries (sessionId : SessionId) (changedAt : Int) (error : String) :
    StoreCheck (Nat × DeliveryTables P) := do
  let messageIds := sessionMessages tables sessionId fun o => o.status == .pending
  let tables ← messageIds.foldlM (cancelPendingDelivery codec changedAt error) tables
  return (messageIds.length, tables)

def settleRejectedAttempt (changedAt : Int) (tables : DeliveryTables P) (messageId : MessageId) :
    StoreCheck (DeliveryTables P) := do
  let outbox ← requiredOutbox codec tables messageId
  let attempt ← requiredAttemptByMessage codec tables messageId
  let reason ← need outbox.lastError (.corruptData "outbound_delivery" messageId
    "transport-rejected outbox has no rejection reason")
  reject (hasRejectedPrefix (some reason) = false) (.corruptData "outbound_delivery" messageId
    "transport-rejected outbox has an invalid rejection reason")
  updateAttemptState tables attempt .sent (max changedAt attempt.updatedAt) none none

def settleRejectedPendingAttempts (sessionId : SessionId) (changedAt : Int) :
    StoreCheck (Nat × DeliveryTables P) := do
  let messageIds := sessionMessages tables sessionId
    fun o => o.status == .failed && likeRejected o.lastError
  let tables ← messageIds.foldlM (settleRejectedAttempt codec changedAt) tables
  return (messageIds.length, tables)

/-! ## the session row -/

def validateNewActiveSession (session : NewSessionRecord P) : StoreCheck Unit := do
  reject (session.status ≠ .active ∨ session.disconnectedAt.isSome ∨
      session.maxInflightCommands = 0 ∨ session.updatedAt < session.connectedAt ∨
      withinSession session session.lastHeartbeatAt = false ∨
      withinSession session session.lastTimeSyncAt = false)
    (.invalidRecord "execution_client_session" session.sessionId
      "invalid active session status, limit, or timestamps")
  reject (clockEvidenceFits session = false)
    (.invalidRecord "execution_client_session" session.sessionId
      "time-sync evidence is inconsistent with clock_sync_status")

def sameRegistration (existing : StoredSessionRecord P) (incoming : NewSessionRecord P) : Bool :=
  existing.sessionId == incoming.sessionId && existing.clientId == incoming.clientId &&
  existing.accountId == incoming.accountId && existing.terminalId == incoming.terminalId &&
  existing.platform == incoming.platform && existing.capabilities == incoming.capabilities &&
  existing.remoteAddr == incoming.remoteAddr && existing.connectedAt == incoming.connectedAt &&
  existing.maxInflightCommands == incoming.maxInflightCommands

def sameSessionIdentity (existing : StoredSessionRecord P) (incoming : NewSessionRecord P) : Bool :=
  existing.toNewSessionRecord == incoming

def requireActiveSessionRevision (session : StoredSessionRecord P) (expectedRevision : Nat) :
    StoreCheck Unit :=
  reject (¬ (session.status = .active ∧ session.revision = expectedRevision))
    (staleSession session.sessionId)

/-- what an insert that hit a conflict returns -/
def sessionDuplicate (session : NewSessionRecord P) : Option (StoredSessionRecord P) →
      StoreCheck (WriteOutcome (StoredSessionRecord P) × DeliveryTables P)
  | some existing =>
    if sameSessionIdentity existing session then .ok (.duplicate existing, tables)
    else .error (.identityConflict "execution_client_session" ("session_id=" ++ session.sessionId))
  | none => .error (.identityConflict "execution_client_session"
      ("active identity client_id=" ++ session.clientId ++ ",account_id=" ++ session.accountId ++
        ",terminal_id=" ++ session.terminalId.getD ""))

def insertSessionRecord (session : NewSessionRecord P) :
    StoreCheck (WriteOutcome (StoredSessionRecord P) × DeliveryTables P) := do
  positiveU64ToI64 "execution_client_sessions.max_inflight_commands" session.maxInflightCommands
  let inserted ← insertSession tables session
  match inserted with
  | some written =>
    return (.inserted { session with revision := 0, lastOutboundSequence := 1 }, written)
  | none =>
    let existing ← fetchSessionById tables session.sessionId
    sessionDuplicate tables session existing

def transitionSessionStatus (current : StoredSessionRecord P) (status : SessionStatus)
    (changedAt : Int) : StoreCheck (DeliveryTables P) := do
  let next ← checkedIncrement "execution_client_sessions.revision" current.revision
  updateActiveSession tables current.sessionId current.revision fun row =>
    { row with
      status := status, disconnectedAt := some changedAt, revision := next, updatedAt := changedAt }

def heartbeatTimeSync (current : StoredSessionRecord P) (update : SessionHeartbeatUpdate) :
    StoreCheck (Option Int) :=
  match update.lastTimeSyncAt with
  | some syncedAt => do
    reject (syncedAt < current.connectedAt ∨ current.lastTimeSyncAt.any (fun t => syncedAt < t))
      (staleSession update.sessionId)
    return some syncedAt
  | none => .ok current.lastTimeSyncAt

def updateSessionHeartbeat (update : SessionHeartbeatUpdate) :
    StoreCheck (StoredSessionRecord P × DeliveryTables P) := do
  let current ← requiredSession tables update.sessionId
  requireActiveSessionRevision current update.expectedRevision
  reject (update.updatedAt < current.updatedAt ∨ update.heartbeatAt < current.connectedAt ∨
      current.lastHeartbeatAt.any (fun t => update.heartbeatAt < t))
    (staleSession update.sessionId)
  let lastTimeSyncAt ← heartbeatTimeSync current update
  reject (update.clockSyncStatus = .synced ∧ lastTimeSyncAt = none)
    (.invalidRecord "execution_client_session" update.sessionId
      "SYNCED heartbeat requires time-sync evidence")
  let next ← checkedIncrement "execution_client_sessions.revision" current.revision
  let tables ← updateActiveSession tables update.sessionId update.expectedRevision fun row =>
    { row with
      lastHeartbeatAt := some update.heartbeatAt, lastTimeSyncAt := lastTimeSyncAt,
      clockSyncStatus := some update.clockSyncStatus, revision := next,
      updatedAt := update.updatedAt }
  let session ← requiredSession tables update.sessionId
  return (session, tables)

def invalidateSessionClock (update : SessionClockInvalidation) :
    StoreCheck (StoredSessionRecord P × DeliveryTables P) := do
  let current ← requiredSession tables update.sessionId
  requireActiveSessionRevision current update.expectedRevision
  reject (update.updatedAt < current.updatedAt) (staleSession update.sessionId)
  let next ← checkedIncrement "execution_client_sessions.revision" current.revision
  let tables ← updateActiveSession tables update.sessionId update.expectedRevision fun row =>
    { row with
      clockSyncStatus := some .unsynced, revision := next, updatedAt := update.updatedAt }
  let session ← requiredSession tables update.sessionId
  return (session, tables)

/-! ## the end of a session -/

/-- rejected attempts are settled, written ones unconfirmed and pending messages cancelled -/
def releaseSession (current : StoredSessionRecord P) (status : SessionStatus) (changedAt : Int)
    (deliveryError : String) : StoreCheck (SessionDisconnectOutcome P × DeliveryTables P) := do
  let settled ← settleRejectedPendingAttempts codec tables current.sessionId changedAt
  let unconfirmed ← unconfirmSessionAttempts codec settled.2 current.sessionId changedAt
    deliveryError
  let cancelled ← cancelSessionPendingDeliveries codec unconfirmed.2 current.sessionId changedAt
    deliveryError
  let tables ← transitionSessionStatus cancelled.2 current status changedAt
  let session ← requiredSession tables current.sessionId
  return (⟨session, unconfirmed.1⟩, tables)

def closeSession (update : SessionStatusUpdate) (status : SessionStatus) :
    StoreCheck (SessionDisconnectOutcome P × DeliveryTables P) := do
  requireNonEmpty "session status delivery_error" update.deliveryError
  let current ← requiredSession tables update.sessionId
  requireActiveSessionRevision current update.expectedRevision
  reject (update.changedAt < current.updatedAt) (staleSession update.sessionId)
  releaseSession codec tables current status update.changedAt update.deliveryError

def closeExactSession (update : ExactSessionClose) (status : SessionStatus) :
    StoreCheck (SessionDisconnectOutcome P × DeliveryTables P) := do
  requireNonEmpty "session status delivery_error" update.deliveryError
  let current ← requiredSession tables update.sessionId
  if current.status ≠ .active then
    return (⟨current, []⟩, tables)
  else
    releaseSession codec tables current status (max update.changedAt current.updatedAt)
      update.deliveryError

def insertReplacement (session : NewSessionRecord P) (replaced : Option (StoredSessionRecord P))
    (unconfirmed : List (StoredDeliveryAttempt P)) :
    StoreCheck (SessionReplacement P × DeliveryTables P) := do
  let inserted ← insertSessionRecord tables session
  return (⟨inserted.1.record, replaced, unconfirmed⟩, inserted.2)

/-- the registration of a session whose identity another session holds -/
def replaceExisting (session : NewSessionRecord P) (existing : StoredSessionRecord P) :
    StoreCheck (SessionReplacement P × DeliveryTables P) := do
  reject (session.updatedAt < existing.updatedAt) (staleSession existing.sessionId)
  let settled ← settleRejectedPendingAttempts codec tables existing.sessionId session.updatedAt
  let cancelled ← cancelSessionPendingDeliveries codec settled.2 existing.sessionId
    session.updatedAt "SESSION_REPLACED"
  let unconfirmed ← unconfirmSessionAttempts codec cancelled.2 existing.sessionId
    session.updatedAt "SESSION_REPLACED"
  let tables ← transitionSessionStatus unconfirmed.2 existing .stale session.updatedAt
  let found ← fetchSessionById tables existing.sessionId
  let replaced ← need found
    (.corruptData "execution_client_session" existing.sessionId "session disappeared")
  insertReplacement tables session (some replaced) unconfirmed.1

def replaceActive (session : NewSessionRecord P) :
    List (StoredSessionRecord P) → StoreCheck (SessionReplacement P × DeliveryTables P)
  | [] => insertReplacement tables session none []
  | [existing] =>
    if existing.sessionId = session.sessionId then
      if sameRegistration existing session then .ok (⟨existing, none, []⟩, tables)
      else .error (.identityConflict "execution_client_session"
        ("session_id=" ++ session.sessionId))
    else replaceExisting codec tables session existing
  | _ :: _ :: _ => .error (.corruptData "execution_client_session" session.accountId
      "more than one active session has the same identity")

def replaceActiveSession (session : NewSessionRecord P) :
    StoreCheck (SessionReplacement P × DeliveryTables P) := do
  validateNewActiveSession session
  let active ← collect sessionFromRow (tables.sessions.rows.filter fun s =>
    s.clientId == session.clientId && s.accountId == session.accountId &&
      s.terminalId == session.terminalId && s.status == .active)
  replaceActive codec tables session active

/-! ## the startup fence -/

def fenceSession (fencedAt : Int) (error : String)
    (acc : DeliveryStartupFenceReport × DeliveryTables P) (session : StoredSessionRecord P) :
    StoreCheck (DeliveryStartupFenceReport × DeliveryTables P) := do
  reject (fencedAt < session.updatedAt) (staleSession session.sessionId)
  let settled ← settleRejectedPendingAttempts codec acc.2 session.sessionId fencedAt
  let cancelled ← cancelSessionPendingDeliveries codec settled.2 session.sessionId fencedAt error
  let unconfirmed ← unconfirmSessionAttempts codec cancelled.2 session.sessionId fencedAt error
  let tables ← transitionSessionStatus unconfirmed.2 session .stale fencedAt
  return ({ acc.1 with
    attemptsRejected := acc.1.attemptsRejected + settled.1
    attemptsCancelled := acc.1.attemptsCancelled + cancelled.1
    attemptsUnconfirmed := acc.1.attemptsUnconfirmed + unconfirmed.1.length }, tables)

/-- the attempt of a fenced message becomes unconfirmed -/
def fenceAttempt (fencedAt : Int) (error : String)
    (acc : DeliveryStartupFenceReport × DeliveryTables P) :
    Option (StoredDeliveryAttempt P) → StoreCheck (DeliveryStartupFenceReport × DeliveryTables P)
  | none => .ok acc
  | some attempt =>
    if attempt.status = .pending ∨ attempt.status = .sent then do
      let tables ← updateAttemptState acc.2 attempt .unconfirmed fencedAt none (some error)
      return ({ acc.1 with attemptsUnconfirmed := acc.1.attemptsUnconfirmed + 1 }, tables)
    else .ok acc

def fenceOutbox (fencedAt : Int) (error : String)
    (acc : DeliveryStartupFenceReport × DeliveryTables P) (messageId : MessageId) :
    StoreCheck (DeliveryStartupFenceReport × DeliveryTables P) := do
  let outbox ← requiredOutbox codec acc.2 messageId
  reject (fencedAt < outbox.updatedAt) (staleOutbound messageId)
  let tables ← updateOutboxState acc.2 outbox .writeStarted fencedAt outbox.sentAt outbox.ackedAt
    (some error)
  let attempt ← fetchDeliveryAttemptByMessage codec tables messageId
  fenceAttempt fencedAt error (acc.1, tables) attempt

def startedMessages : List MessageId :=
  (inOrder (fun o => o.createdAt) (fun o => o.messageId)
    (tables.outboxes.rows.filter fun o => o.status == .writeStarted)).map fun o => o.messageId

def fenceInterruptedWrites (fencedAt : Int) (error : String) :
    StoreCheck (DeliveryStartupFenceReport × DeliveryTables P) := do
  requireNonEmpty "startup fence error" error
  let active ← collect sessionFromRow
    (inOrder (fun s => s.connectedAt) (fun s => s.sessionId)
      (tables.sessions.rows.filter fun s => s.status == .active))
  let fenced ← active.foldlM (fenceSession codec fencedAt error)
    (⟨active.length, 0, 0, 0, 0⟩, tables)
  let messageIds := startedMessages fenced.2
  messageIds.foldlM (fenceOutbox codec fencedAt error)
    ({ fenced.1 with outboxesFenced := messageIds.length }, fenced.2)

/-! ## routes and sequences -/

def sessionFresh (session : StoredSessionRecord P) (freshAfter : Int) : Bool :=
  decide (freshAfter ≤ session.lastHeartbeatAt.getD session.connectedAt)

def routeOf (query : SessionRouteQuery) : List (StoredSessionRecord P) → SessionRouteResolution P
  | [] => .noActiveSession
  | [session] =>
    if sessionFresh session query.freshAfter = false then .stale 1
    else if query.requireSyncedClock = true ∧ session.clockSyncStatus ≠ some .synced then
      .clockUnhealthy 1
    else .ready session
  | candidates => .ambiguous candidates.length

def resolveSessionRoute (query : SessionRouteQuery) : StoreCheck (SessionRouteResolution P) := do
  let candidates ← collect sessionFromRow
    (inOrder (fun s => -s.connectedAt) (fun s => s.sessionId)
      (tables.sessions.rows.filter fun s =>
        s.accountId == query.accountId && query.clientId.all (fun id => s.clientId == id) &&
        query.terminalId.all (fun id => s.terminalId == some id) && s.status == .active))
  return routeOf query candidates

/-- the first column of the subject's row that the session does not match -/
def routeMismatch (session : StoredSessionRecord P) (accountId : AccountId)
    (clientId : Option ClientId) (terminalId : Option TerminalId) : Option String :=
  if accountId ≠ session.accountId then some "account_id"
  else if clientId.any (fun id => id != session.clientId) then some "client_id"
  else if terminalId.any (fun id => session.terminalId != some id) then some "terminal_id"
  else none

def validateSubjectRoute (session : StoredSessionRecord P) (request : ReserveOutboundSequence) :
    StoreCheck (Option SequenceReservation) :=
  match request.subject with
  | .executionCommand commandId =>
    if session.clockSyncStatus ≠ some .synced then .ok (some .clockUnhealthy)
    else do
      let parent ← need (tables.parents.command commandId)
        (.notFound "execution_command" commandId)
      match routeMismatch session parent.accountId parent.clientId parent.terminalId with
      | some field => return some (.identityMismatch field)
      | none => return if parent.expiresAt ≤ request.reservedAt then some .expired else none
  | .reconciliationRequest requestId => do
    let parent ← need (tables.parents.run requestId) (.notFound "reconciliation_run" requestId)
    return (routeMismatch session parent.accountId parent.clientId parent.terminalId).map
      .identityMismatch

/-- commands of the session whose delivery is not settled -/
def inflightCommands (sessionId : SessionId) : Nat :=
  (tables.attempts.rows.filter fun a =>
    a.sessionId == some sessionId && a.subject.commandId.isSome &&
    (a.status == .pending || a.status == .sent || a.status == .unconfirmed) &&
    !((a.messageId.bind tables.outboxes.get).any fun o =>
      o.status == .failed && likeRejected o.lastError)).length

/-- the next sequence of an active session, and the session row that holds it -/
def advanceSequence (session : StoredSessionRecord P) (reservedAt : Int) :
    StoreCheck (ControlOutboundReservation × DeliveryTables P) := do
  let sequence ← checkedIncrement "execution_client_sessions.last_outbound_sequence"
    session.lastOutboundSequence
  let next ← checkedIncrement "execution_client_sessions.revision" session.revision
  let tables ← updateActiveSession tables session.sessionId session.revision fun row =>
    { row with lastOutboundSequence := sequence, revision := next, updatedAt := reservedAt }
  return (⟨session.sessionId, session.clientId, session.accountId, session.terminalId, next,
    sequence⟩, tables)

/-- the reservation of a session that may carry the subject -/
def reserveOnSession (session : StoredSessionRecord P) (request : ReserveOutboundSequence) :
    StoreCheck (SequenceReservation × DeliveryTables P) :=
  if request.subject.commandId.isSome = true ∧
      session.maxInflightCommands ≤ inflightCommands tables session.sessionId then
    .ok (.inflightLimit session.sessionId (inflightCommands tables session.sessionId)
      session.maxInflightCommands, tables)
  else do
    let advanced ← advanceSequence tables session request.reservedAt
    return (.reserved { advanced.1 with subject := request.subject }, advanced.2)

def reserveRouted (session : StoredSessionRecord P) (request : ReserveOutboundSequence) :
    Option SequenceReservation → StoreCheck (SequenceReservation × DeliveryTables P)
  | some rejection => .ok (rejection, tables)
  | none => reserveOnSession tables session request

def reserveOutboundSequence (request : ReserveOutboundSequence) :
    StoreCheck (SequenceReservation × DeliveryTables P) := do
  let session ← requiredSession tables request.sessionId
  if session.status ≠ .active ∨ session.revision ≠ request.expectedRevision then
    return (.sessionUnavailable, tables)
  else if sessionFresh session request.freshAfter = false then
    return (.sessionUnavailable, tables)
  else
    reject (request.reservedAt < session.updatedAt) (staleSession request.sessionId)
    let rejection ← validateSubjectRoute tables session request
    reserveRouted tables session request rejection

def reserveControl (request : ReserveControlOutboundSequence) :
    Option (StoredSessionRecord P) → StoreCheck (ControlSequenceReservation × DeliveryTables P)
  | none => .ok (.sessionUnavailable, tables)
  | some session =>
    if session.status ≠ .active then .ok (.sessionUnavailable, tables)
    else do
      reject (request.reservedAt < session.updatedAt) (staleSession request.sessionId)
      let advanced ← advanceSequence tables session request.reservedAt
      return (.reserved advanced.1, advanced.2)

def reserveControlOutboundSequence (request : ReserveControlOutboundSequence) :
    StoreCheck (ControlSequenceReservation × DeliveryTables P) := do
  let session ← fetchSessionById tables request.sessionId
  reserveControl tables request session

end

end Sinan.Store
