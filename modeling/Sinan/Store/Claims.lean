import Sinan.Lib.Run
import Sinan.Store.Released

/-!
# The outbox claim protocol

Any number of tasks call the store; each call is one transaction, so a run is a list of calls.  Over
every run and from every state of the tables a message is claimed at most once, settled rows stay as
they are, and every change of a row raises its revision and does not lower its time.
-/

set_option linter.unusedSectionVars false

namespace Sinan.Store

open Lib Relation

/-- a transaction on the delivery tables; `parents` is any transaction on the commands and the
reconciliation runs -/
inductive StoreCall (P : Type) where
  | enqueueWireOutbox (message : NewWireOutbox P)
  | enqueueReservedDelivery (delivery : NewReservedDelivery P)
  | recordDeliveryAttempt (attempt : NewDeliveryAttempt P)
  | claimOutbox (claim : ClaimWireOutbox)
  | finishTransportWrite (completion : CompleteTransportWrite) (result : TransportWriteResult)
  | recordTransportAck (update : TransportAckUpdate)
  | recordCommandReceivedAttempt (update : CommandReceivedAttemptUpdate)
  | timeoutDeliveryAttempt (timeout : DeliveryAttemptTimeout)
  | insertSession (session : NewSessionRecord P)
  | replaceActiveSession (session : NewSessionRecord P)
  | updateSessionHeartbeat (update : SessionHeartbeatUpdate)
  | invalidateSessionClock (update : SessionClockInvalidation)
  | reserveOutboundSequence (request : ReserveOutboundSequence)
  | reserveControlOutboundSequence (request : ReserveControlOutboundSequence)
  | markSessionStale (update : SessionStatusUpdate)
  | disconnectSession (update : SessionStatusUpdate)
  | markExactSessionStale (update : ExactSessionClose)
  | disconnectExactSession (update : ExactSessionClose)
  | fenceInterruptedWrites (fencedAt : Int) (error : String)
  | parents (rows : Parents P)

section
variable {P : Type} [DecidableEq P] (codec : WireCodec P)

def runCall (t : DeliveryTables P) : StoreCall P → StoreCheck (DeliveryTables P)
  | .enqueueWireOutbox message => (enqueueWireOutbox codec t message).map Prod.snd
  | .enqueueReservedDelivery delivery => (enqueueReservedDelivery codec t delivery).map Prod.snd
  | .recordDeliveryAttempt attempt => (recordDeliveryAttempt codec t attempt).map Prod.snd
  | .claimOutbox claim => (claimOutbox codec t claim).map Prod.snd
  | .finishTransportWrite completion result =>
    (finishTransportWrite codec t completion result).map Prod.snd
  | .recordTransportAck update => (recordTransportAck codec t update).map Prod.snd
  | .recordCommandReceivedAttempt update =>
    (recordCommandReceivedAttempt codec t update).map Prod.snd
  | .timeoutDeliveryAttempt timeout => (timeoutDeliveryAttempt codec t timeout).map Prod.snd
  | .insertSession session => (insertSessionRecord t session).map Prod.snd
  | .replaceActiveSession session => (replaceActiveSession codec t session).map Prod.snd
  | .updateSessionHeartbeat update => (updateSessionHeartbeat t update).map Prod.snd
  | .invalidateSessionClock update => (invalidateSessionClock t update).map Prod.snd
  | .reserveOutboundSequence request => (reserveOutboundSequence t request).map Prod.snd
  | .reserveControlOutboundSequence request =>
    (reserveControlOutboundSequence t request).map Prod.snd
  | .markSessionStale update => (closeSession codec t update .stale).map Prod.snd
  | .disconnectSession update => (closeSession codec t update .disconnected).map Prod.snd
  | .markExactSessionStale update => (closeExactSession codec t update .stale).map Prod.snd
  | .disconnectExactSession update => (closeExactSession codec t update .disconnected).map Prod.snd
  | .fenceInterruptedWrites fencedAt error =>
    (fenceInterruptedWrites codec t fencedAt error).map Prod.snd
  | .parents rows => .ok { t with parents := rows }

/-- a failed transaction leaves the tables as they were -/
def storeStep (t : DeliveryTables P) (call : StoreCall P) : DeliveryTables P :=
  match runCall codec t call with
  | .ok t' => t'
  | .error _ => t

def callLicence : StoreCall P → Licence
  | .enqueueWireOutbox _ => createLicence
  | .enqueueReservedDelivery _ => createLicence
  | .recordDeliveryAttempt _ => createLicence
  | .claimOutbox claim => claimLicence claim
  | .finishTransportWrite completion result => finishLicence completion result
  | .recordTransportAck update => ackLicence update
  | .recordCommandReceivedAttempt update => receiptLicence update
  | .timeoutDeliveryAttempt _ => .none
  | .fenceInterruptedWrites fencedAt _ => fenceLicence fencedAt
  | .parents _ => .none
  | _ => sessionLicence

theorem map_snd_ok {ε α β : Type} {x : Except ε (α × β)} {b : β}
    (h : x.map Prod.snd = .ok b) : ∃ a, x = .ok (a, b) := by
  cases x with
  | error e => cases h
  | ok p =>
    cases h
    exact ⟨p.1, rfl⟩

variable {t t' : DeliveryTables P}

theorem runCall_writes {call : StoreCall P} (h : runCall codec t call = .ok t') :
    Writes (callLicence call) t t' ∨ ∃ rows, t' = { t with parents := rows } := by
  cases call with
  | parents rows =>
    cases h
    exact .inr ⟨rows, rfl⟩
  | claimOutbox claim =>
    obtain ⟨outcome, h⟩ := map_snd_ok h
    obtain ⟨o, a, d, hclaimed, -⟩ := claimOutbox_ok h
    exact .inl (.single (.message hclaimed.write))
  | enqueueWireOutbox _ => exact .inl (enqueueWireOutbox_writes (map_snd_ok h).choose_spec)
  | enqueueReservedDelivery _ =>
    exact .inl (enqueueReservedDelivery_writes (map_snd_ok h).choose_spec)
  | recordDeliveryAttempt _ => exact .inl (recordDeliveryAttempt_writes (map_snd_ok h).choose_spec)
  | finishTransportWrite _ _ => exact .inl (finishTransportWrite_writes (map_snd_ok h).choose_spec)
  | recordTransportAck _ => exact .inl (recordTransportAck_writes (map_snd_ok h).choose_spec)
  | recordCommandReceivedAttempt _ =>
    exact .inl (recordCommandReceivedAttempt_writes (map_snd_ok h).choose_spec)
  | timeoutDeliveryAttempt _ =>
    exact .inl (timeoutDeliveryAttempt_writes (map_snd_ok h).choose_spec)
  | insertSession _ => exact .inl (insertSessionRecord_writes trivial (map_snd_ok h).choose_spec)
  | replaceActiveSession _ => exact .inl (replaceActiveSession_writes trivial (map_snd_ok h).choose_spec)
  | updateSessionHeartbeat _ =>
    exact .inl (updateSessionHeartbeat_writes trivial (map_snd_ok h).choose_spec)
  | invalidateSessionClock _ =>
    exact .inl (invalidateSessionClock_writes trivial (map_snd_ok h).choose_spec)
  | reserveOutboundSequence _ =>
    exact .inl (reserveOutboundSequence_writes trivial (map_snd_ok h).choose_spec)
  | reserveControlOutboundSequence _ =>
    exact .inl (reserveControlOutboundSequence_writes trivial (map_snd_ok h).choose_spec)
  | markSessionStale _ => exact .inl (closeSession_writes trivial (map_snd_ok h).choose_spec)
  | disconnectSession _ => exact .inl (closeSession_writes trivial (map_snd_ok h).choose_spec)
  | markExactSessionStale _ => exact .inl (closeExactSession_writes trivial (map_snd_ok h).choose_spec)
  | disconnectExactSession _ => exact .inl (closeExactSession_writes trivial (map_snd_ok h).choose_spec)
  | fenceInterruptedWrites _ _ =>
    exact .inl (fenceInterruptedWrites_writes (map_snd_ok h).choose_spec)

/-! ## the history of a row -/

/-- what a later state `o'` of an outbox row says about the earlier state `o` -/
structure OutboxHistory (o o' : StoredWireOutbox P) : Prop where
  pending : o'.status = .pending → o.status = .pending
  acked : o.status = .acked → o' = o
  cancelled : o.status = .cancelled → o' = o
  rejected : transportRejected o = true → o' = o
  revision : o' = o ∨ o.revision < o'.revision
  updatedAt : o.updatedAt ≤ o'.updatedAt

structure AttemptHistory (a a' : StoredDeliveryAttempt P) : Prop where
  acked : a.status = .acked → a' = a
  revision : a' = a ∨ a.revision < a'.revision
  updatedAt : a.updatedAt ≤ a'.updatedAt

structure SessionHistory (s s' : StoredSessionRecord P) : Prop where
  revision : s' = s ∨ s.revision < s'.revision
  updatedAt : s.updatedAt ≤ s'.updatedAt

/-- no row is lost, and each row has the history of its kind -/
structure TablesHistory (t t' : DeliveryTables P) : Prop where
  outbox : ∀ m o, t.outboxes.get m = some o →
    ∃ o', t'.outboxes.get m = some o' ∧ OutboxHistory o o'
  attempt : ∀ id a, t.attempts.get id = some a →
    ∃ a', t'.attempts.get id = some a' ∧ AttemptHistory a a'
  session : ∀ id s, t.sessions.get id = some s →
    ∃ s', t'.sessions.get id = some s' ∧ SessionHistory s s'

omit [DecidableEq P] in
theorem raised_trans {ρ : Type} {revision : ρ → Nat} {x y z : ρ}
    (h₁ : y = x ∨ revision x < revision y) (h₂ : z = y ∨ revision y < revision z) :
    z = x ∨ revision x < revision z := by
  rcases h₁ with rfl | h₁
  · exact h₂
  · rcases h₂ with rfl | h₂
    · exact .inr h₁
    · exact .inr (Nat.lt_trans h₁ h₂)

theorem OutboxHistory.refl (o : StoredWireOutbox P) : OutboxHistory o o :=
  ⟨fun h => h, fun _ => rfl, fun _ => rfl, fun _ => rfl, .inl rfl, le_refl _⟩

theorem OutboxHistory.trans {o₁ o₂ o₃ : StoredWireOutbox P} (h₁ : OutboxHistory o₁ o₂)
    (h₂ : OutboxHistory o₂ o₃) : OutboxHistory o₁ o₃ where
  pending := fun h => h₁.pending (h₂.pending h)
  acked := fun h => by
    have hsame := h₁.acked h
    rw [h₂.acked (by rw [hsame]; exact h), hsame]
  cancelled := fun h => by
    have hsame := h₁.cancelled h
    rw [h₂.cancelled (by rw [hsame]; exact h), hsame]
  rejected := fun h => by
    have hsame := h₁.rejected h
    rw [h₂.rejected (by rw [hsame]; exact h), hsame]
  revision := raised_trans h₁.revision h₂.revision
  updatedAt := le_trans h₁.updatedAt h₂.updatedAt

theorem AttemptHistory.refl (a : StoredDeliveryAttempt P) : AttemptHistory a a :=
  ⟨fun _ => rfl, .inl rfl, le_refl _⟩

theorem AttemptHistory.trans {a₁ a₂ a₃ : StoredDeliveryAttempt P} (h₁ : AttemptHistory a₁ a₂)
    (h₂ : AttemptHistory a₂ a₃) : AttemptHistory a₁ a₃ where
  acked := fun h => by
    have hsame := h₁.acked h
    rw [h₂.acked (by rw [hsame]; exact h), hsame]
  revision := raised_trans h₁.revision h₂.revision
  updatedAt := le_trans h₁.updatedAt h₂.updatedAt

theorem SessionHistory.refl (s : StoredSessionRecord P) : SessionHistory s s :=
  ⟨.inl rfl, le_refl _⟩

theorem SessionHistory.trans {s₁ s₂ s₃ : StoredSessionRecord P} (h₁ : SessionHistory s₁ s₂)
    (h₂ : SessionHistory s₂ s₃) : SessionHistory s₁ s₃ :=
  ⟨raised_trans h₁.revision h₂.revision, le_trans h₁.updatedAt h₂.updatedAt⟩

theorem TablesHistory.refl (t : DeliveryTables P) : TablesHistory t t :=
  ⟨fun _ o h => ⟨o, h, .refl o⟩, fun _ a h => ⟨a, h, .refl a⟩, fun _ s h => ⟨s, h, .refl s⟩⟩

theorem TablesHistory.trans {t₁ t₂ t₃ : DeliveryTables P} (h₁ : TablesHistory t₁ t₂)
    (h₂ : TablesHistory t₂ t₃) : TablesHistory t₁ t₃ where
  outbox := fun m o ho => by
    obtain ⟨o₂, ho₂, hist₁⟩ := h₁.outbox m o ho
    obtain ⟨o₃, ho₃, hist₂⟩ := h₂.outbox m o₂ ho₂
    exact ⟨o₃, ho₃, hist₁.trans hist₂⟩
  attempt := fun id a ha => by
    obtain ⟨a₂, ha₂, hist₁⟩ := h₁.attempt id a ha
    obtain ⟨a₃, ha₃, hist₂⟩ := h₂.attempt id a₂ ha₂
    exact ⟨a₃, ha₃, hist₁.trans hist₂⟩
  session := fun id s hs => by
    obtain ⟨s₂, hs₂, hist₁⟩ := h₁.session id s hs
    obtain ⟨s₃, hs₃, hist₂⟩ := h₂.session id s₂ hs₂
    exact ⟨s₃, hs₃, hist₁.trans hist₂⟩

variable {l : Licence}

theorem Move.outboxHistory {o o' : StoredWireOutbox P} {a a' : Option (StoredDeliveryAttempt P)}
    (h : Move l o a o' a') : OutboxHistory o o' := by
  rcases h.outbox with rfl | ⟨hstep, ⟨hacked, hcancelled, hrejected⟩, hpending⟩
  · exact .refl _
  · have hrevision := hstep.revision
    refine ⟨fun h => absurd h hpending, fun h => absurd h hacked, fun h => absurd h hcancelled,
      fun h => ?_, .inr (by omega), hstep.updatedAt⟩
    rw [hrejected] at h
    cases h

theorem Move.attemptHistory {o o' : StoredWireOutbox P} {x x' : StoredDeliveryAttempt P}
    (h : Move l o (some x) o' (some x')) :
    AttemptHistory x x' := by
  rcases h.attempt with hsame | ⟨y, y', hy, hy', hstep, hacked⟩
  · cases hsame
    exact .refl _
  · cases hy
    cases hy'
    have hrevision := hstep.revision
    exact ⟨fun h => absurd h hacked, .inr (by omega), hstep.updatedAt⟩

theorem Write.history (h : Write l t t') :
    TablesHistory t t' := by
  cases h with
  | @message m o o' a a' h =>
    refine ⟨fun k ok hok => ?_, fun id x hx => ?_, fun id s hs => ?_⟩
    · rw [h.outboxes]
      by_cases hk : m = k
      · rw [if_pos hk]
        rw [← hk, h.outbox] at hok
        cases hok
        exact ⟨o', rfl, h.move.outboxHistory⟩
      · rw [if_neg hk]
        exact ⟨ok, hok, .refl ok⟩
    · obtain ⟨x', hx', hsame | ⟨ha, ha'⟩⟩ := h.attempts.kept id x hx
      · subst hsame
        exact ⟨x', hx', .refl x'⟩
      · subst ha ha'
        exact ⟨x', hx', h.move.attemptHistory⟩
    · rw [h.sessions]
      exact ⟨s, hs, .refl s⟩
  | session _ ho ha _ hs =>
    refine ⟨fun k o hk => ?_, fun id a hid => ?_, fun id s hid => ?_⟩
    · rw [ho]
      exact ⟨o, hk, .refl o⟩
    · rw [ha]
      exact ⟨a, hid, .refl a⟩
    · obtain ⟨s', hs', rfl | hstep⟩ := hs id s hid
      · exact ⟨s', hs', .refl s'⟩
      · have hrevision := hstep.revision
        exact ⟨s', hs', .inr (by omega), hstep.updatedAt⟩
  | created _ ho ha _ hs =>
    refine ⟨fun k o hk => ⟨o, ho k o hk, .refl o⟩, fun id a hid => ⟨a, ha id a hid, .refl a⟩,
      fun id s hid => ?_⟩
    rw [hs]
    exact ⟨s, hid, .refl s⟩

theorem Writes.history (h : Writes l t t') :
    TablesHistory t t' := by
  induction h with
  | refl => exact .refl t
  | tail _ hlast ih => exact ih.trans hlast.history

theorem storeStep_history (t : DeliveryTables P) (call : StoreCall P) :
    TablesHistory t (storeStep codec t call) := by
  unfold storeStep
  split
  · rename_i t' h
    rcases runCall_writes codec h with hwrites | ⟨rows, rfl⟩
    · exact hwrites.history
    · exact ⟨fun _ o h => ⟨o, h, .refl o⟩, fun _ a h => ⟨a, h, .refl a⟩,
        fun _ s h => ⟨s, h, .refl s⟩⟩
  · exact .refl t

/-! ## claims -/

/-- the call is a successful claim of the message -/
def claims (m : MessageId) (t : DeliveryTables P) : StoreCall P → Bool
  | .claimOutbox claim =>
    claim.messageId == m &&
      match claimOutbox codec t claim with
      | .ok (.claimed _, _) => true
      | _ => false
  | _ => false

/-- whether the message has left PENDING -/
def leftPending (m : MessageId) (t : DeliveryTables P) : Nat :=
  if (t.outboxes.get m).any (fun o => o.status != .pending) then 1 else 0

theorem leftPending_le (m : MessageId) (t : DeliveryTables P) : leftPending m t ≤ 1 := by
  unfold leftPending
  split <;> omega

theorem leftPending_mono {m : MessageId} (h : TablesHistory t t') :
    leftPending m t ≤ leftPending m t' := by
  have hle := leftPending_le m t
  unfold leftPending at hle ⊢
  by_cases hleft : (t.outboxes.get m).any (fun o => o.status != .pending) = true
  · rw [if_pos hleft]
    obtain ⟨o, ho, hstatus⟩ := (Option.any_eq_true _ _).mp hleft
    obtain ⟨o', ho', hist⟩ := h.outbox m o ho
    have hne : o'.status ≠ .pending := fun heq => bne_iff_ne.mp hstatus (hist.pending heq)
    rw [if_pos]
    exact (Option.any_eq_true _ _).mpr ⟨o', ho', bne_iff_ne.mpr hne⟩
  · rw [if_neg hleft]
    exact Nat.zero_le _

theorem leftPending_claim {m : MessageId} {call : StoreCall P} (h : claims codec m t call = true) :
    leftPending m t < leftPending m (storeStep codec t call) := by
  unfold claims at h
  split at h
  · rename_i claim
    rw [Bool.and_eq_true] at h
    obtain ⟨hm, h⟩ := h
    split at h
    · rename_i d t' hclaim
      obtain ⟨o, a, d', hclaimed, -⟩ := claimOutbox_ok hclaim
      have hstep : storeStep codec t (.claimOutbox claim) = t' := by
        simp only [storeStep, runCall, hclaim, Except.map]
      have hstarted : d'.outbox.status = .writeStarted := by
        rcases hclaimed.outcome with ⟨-, hs, -⟩ | ⟨hother | hother | hother, -⟩
        · exact hs
        all_goals cases hother
      have hbefore := hclaimed.write.outbox
      have hafter := hclaimed.write.outboxes claim.messageId
      rw [if_pos rfl] at hafter
      rw [hstep, ← eq_of_beq hm]
      unfold leftPending
      rw [hbefore, hafter, Option.any_some, Option.any_some, hclaimed.pending.1, hstarted]
      decide
    · cases h
  · cases h

theorem claims_le (t : DeliveryTables P) (calls : List (StoreCall P)) (m : MessageId) :
    countAlong (storeStep codec) (claims codec m) t calls ≤ 1 := by
  have h := countAlong_le (storeStep codec) (p := claims codec m) (P := fun _ => True)
    (leftPending m) 1 (fun _ _ _ => trivial)
    (fun t call _ => leftPending_mono (storeStep_history codec t call))
    (fun _ _ _ hclaim => leftPending_claim codec hclaim) (leftPending_le m) t calls trivial
  omega

/-- **The outbox claim protocol.**  Over every run of the store, from every state of its tables:
each message is claimed at most once, and between any two points of the run no row is lost, an outbox
does not return to pending, an acknowledged, cancelled or rejected outbox and an acknowledged attempt
stay as they are, and every other change of a row raises its revision and keeps its time. -/
theorem outbox_claim_protocol (t : DeliveryTables P) (calls : List (StoreCall P)) :
    (∀ m, countAlong (storeStep codec) (claims codec m) t calls ≤ 1) ∧
    ∀ i k, i ≤ k →
      TablesHistory (before (storeStep codec) t calls i) (before (storeStep codec) t calls k) := by
  constructor
  · intro m
    exact claims_le codec t calls m
  · intro i k hik
    exact before_related (storeStep codec) TablesHistory.refl TablesHistory.trans t calls hik
      fun j call _ _ => storeStep_history codec _ call

end

/-! ## one message from its session to its acknowledgement -/

/-- the one envelope and the one command payload of the run -/
def goldWireCodec : WireCodec String where
  decode := fun text =>
    if text = "envelope" then
      .ok ⟨"m1", "execution.command", some "s1", some 2, "command"⟩
    else .error "unknown envelope"
  commandId := fun text => if text = "command" then .ok "c1" else .error "unknown payload"
  requestId := fun _ => .error "unknown payload"

def goldParents : Parents String where
  command := fun id => if id = "c1" then some ⟨"a1", none, none, 1000, "command"⟩ else none
  run := fun _ => none

def goldDeliveryTables : DeliveryTables String := ⟨.empty, .empty, .empty, goldParents⟩

def goldSession : NewSessionRecord String where
  sessionId := "s1"
  clientId := "ea"
  accountId := "a1"
  terminalId := none
  platform := "MT5"
  status := .active
  capabilities := "capabilities"
  remoteAddr := none
  connectedAt := 10
  lastHeartbeatAt := some 10
  lastTimeSyncAt := some 10
  clockSyncStatus := some .synced
  disconnectedAt := none
  maxInflightCommands := 1
  updatedAt := 10

def goldReservation : OutboundReservation where
  sessionId := "s1"
  clientId := "ea"
  accountId := "a1"
  terminalId := none
  sessionRevision := 1
  sequence := 2
  subject := .executionCommand "c1"

/-- the message is registered, routed, claimed twice, written and acknowledged -/
def goldCalls : List (StoreCall String) :=
  [.replaceActiveSession goldSession,
    .reserveOutboundSequence ⟨"s1", 0, .executionCommand "c1", 0, 20⟩,
    .enqueueReservedDelivery
      ⟨goldReservation, "attempt:m1", "m1", "execution.command", "envelope", 20⟩,
    .claimOutbox ⟨"m1", 0, 0, 0, true, 30⟩,
    .claimOutbox ⟨"m1", 1, 1, 0, true, 31⟩,
    .finishTransportWrite ⟨"m1", 1, 1, 40, none⟩ .sent,
    .recordTransportAck ⟨"m1", "s1", "execution.command", .accepted, none, 50⟩]

theorem gold_message_claimed_once :
    countAlong (storeStep goldWireCodec) (claims goldWireCodec "m1") goldDeliveryTables goldCalls
      = 1 ∧
    ((before (storeStep goldWireCodec) goldDeliveryTables goldCalls 7).outboxes.get "m1").map
      (fun o => o.status) = some .acked ∧
    TablesHistory (before (storeStep goldWireCodec) goldDeliveryTables goldCalls 3)
      (before (storeStep goldWireCodec) goldDeliveryTables goldCalls 7) :=
  ⟨by decide +kernel, by decide +kernel,
    (outbox_claim_protocol goldWireCodec goldDeliveryTables goldCalls).2 3 7 (by decide)⟩

end Sinan.Store
