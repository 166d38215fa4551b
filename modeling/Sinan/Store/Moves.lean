import Sinan.Store.Sessions

/-!
# What a call can do to a message

A message is an outbox row with, usually, an attempt.  `Move` lists every way in which one call can
change the pair: the claim, the end of a write, an acknowledgement, a receipt, a timeout or the end of
the session.  Every operation is a chain of moves and of changes to sessions and new rows, so an
invariant of messages has to be checked against `Move` only.

What a call is entitled to is its `Licence`: the sink may have reported that nothing was written, the
transport may have refused the message, the client may have received it, the call may complete the
write, it brings a time at which the message was written or seen, and it may change sessions.
-/

namespace Sinan.Store

open Lib

structure Licence where
  unsent : MessageId → Prop
  refusal : MessageId → Prop
  receipt : MessageId → Prop
  completes : MessageId → Prop
  evidence : MessageId → Int → Prop
  creates : Prop
  sessions : Prop

/-- a call that claims, ends or acknowledges nothing -/
def Licence.none : Licence :=
  ⟨fun _ => False, fun _ => False, fun _ => False, fun _ => False, fun _ _ => False, False,
    False⟩

section
variable {P : Type}

/-- one update of an outbox row: the definition of the message stays -/
structure OutboxStep (o o' : StoredWireOutbox P) : Prop where
  definition : o' = { o with
    status := o'.status, revision := o.revision + 1, updatedAt := o'.updatedAt,
    sentAt := o'.sentAt, ackedAt := o'.ackedAt, lastError := o'.lastError }
  updatedAt : o.updatedAt ≤ o'.updatedAt
  check : outboxCheck o' = true

/-- one update of an attempt row -/
structure AttemptStep (a a' : StoredDeliveryAttempt P) : Prop where
  definition : a' = { a with
    status := a'.status, revision := a.revision + 1, updatedAt := a'.updatedAt,
    ackedAt := a'.ackedAt, error := a'.error }
  updatedAt : a.updatedAt ≤ a'.updatedAt

/-- one update of a session row -/
structure SessionStep (s s' : StoredSessionRecord P) : Prop where
  revision : s'.revision = s.revision + 1
  updatedAt : s.updatedAt ≤ s'.updatedAt

theorem OutboxStep.messageId {o o' : StoredWireOutbox P} (h : OutboxStep o o') :
    o'.messageId = o.messageId := by rw [h.definition]

theorem OutboxStep.revision {o o' : StoredWireOutbox P} (h : OutboxStep o o') :
    o'.revision = o.revision + 1 := by rw [h.definition]

theorem AttemptStep.attemptId {a a' : StoredDeliveryAttempt P} (h : AttemptStep a a') :
    a'.attemptId = a.attemptId := by rw [h.definition]

theorem AttemptStep.messageId {a a' : StoredDeliveryAttempt P} (h : AttemptStep a a') :
    a'.messageId = a.messageId := by rw [h.definition]

theorem AttemptStep.revision {a a' : StoredDeliveryAttempt P} (h : AttemptStep a a') :
    a'.revision = a.revision + 1 := by rw [h.definition]

inductive Move (l : Licence) : StoredWireOutbox P → Option (StoredDeliveryAttempt P) →
    StoredWireOutbox P → Option (StoredDeliveryAttempt P) → Prop
  | claim {o o' : StoredWireOutbox P} {a a' : StoredDeliveryAttempt P} (ho : OutboxStep o o')
      (ha : AttemptStep a a') (hpending : o.status = .pending ∧ a.status = .pending)
      (hstatus : o'.status = .writeStarted ∧ a'.status = .pending) (hsent : o'.sentAt = none)
      (hevidence : l.evidence o.messageId o'.updatedAt) : Move l o (some a) o' (some a')
  | cancel {o o' : StoredWireOutbox P} {a a' : StoredDeliveryAttempt P} (ho : OutboxStep o o')
      (ha : AttemptStep a a') (hpending : o.status = .pending ∧ a.status = .pending)
      (hstatus : o'.status = .cancelled ∧ (a'.status = .cancelled ∨ a'.status = .noActiveSession)) :
      Move l o (some a) o' (some a')
  | sent {o o' : StoredWireOutbox P} {a a' : StoredDeliveryAttempt P} (ho : OutboxStep o o')
      (ha : AttemptStep a a') (hstarted : o.status = .writeStarted ∧ a.status = .pending)
      (hstatus : o'.status = .sent ∧ a'.status = .sent) {time : Int} (hsent : o'.sentAt = some time)
      (hevidence : l.evidence o.messageId time) : Move l o (some a) o' (some a')
  | unsent {o o' : StoredWireOutbox P} {a a' : StoredDeliveryAttempt P} (ho : OutboxStep o o')
      (ha : AttemptStep a a') (hstarted : o.status = .writeStarted ∧ a.status = .pending)
      (hstatus : o'.status = .failed ∧ (a'.status = .backpressure ∨ a'.status = .failed))
      (hunsent : l.unsent o.messageId) : Move l o (some a) o' (some a')
  | uncertain {o o' : StoredWireOutbox P} {a a' : StoredDeliveryAttempt P} (ho : OutboxStep o o')
      (ha : AttemptStep a a') (hstarted : o.status = .writeStarted ∧ a.status = .pending)
      (hstatus : o'.status = .writeStarted ∧ a'.status = .unconfirmed) (hsent : o'.sentAt = none)
      (hevidence : l.evidence o.messageId o'.updatedAt) : Move l o (some a) o' (some a')
  | acked {o o' : StoredWireOutbox P} {a : Option (StoredDeliveryAttempt P)}
      (ho : OutboxStep o o') (hawaits : WireOutboxStatus.awaitsAck o.status = true)
      (hlabel : hasRejectedPrefix o.lastError = false) (hstatus : o'.status = .acked) {time : Int}
      (hsent : o'.sentAt = some time)
      (hevidence : o.sentAt = some time ∨ l.evidence o.messageId time) : Move l o a o' a
  | refused {o o' : StoredWireOutbox P} {a : Option (StoredDeliveryAttempt P)}
      (ho : OutboxStep o o') (hawaits : WireOutboxStatus.awaitsAck o.status = true)
      (hlabel : hasRejectedPrefix o.lastError = false) (hrejected : transportRejected o' = true)
      (hreason : ∃ reason, blank reason = false ∧
        o'.lastError = some (transportAckRejectedPrefix ++ reason))
      (hrefusal : l.refusal o.messageId) : Move l o a o' a
  | fenced {o o' : StoredWireOutbox P} {a : Option (StoredDeliveryAttempt P)}
      (ho : OutboxStep o o') (hstarted : o.status = .writeStarted)
      (hstatus : o'.status = .writeStarted) (hsent : o'.sentAt = o.sentAt)
      (hevidence : l.evidence o.messageId o'.updatedAt) : Move l o a o' a
  | receivedSent {o o' : StoredWireOutbox P} {a : StoredDeliveryAttempt P} (ho : OutboxStep o o')
      (hstarted : o.status = .writeStarted ∧ a.status = .acked) (hstatus : o'.status = .sent)
      {time : Int} (hsent : o'.sentAt = some time) (hevidence : l.evidence o.messageId time) :
      Move l o (some a) o' (some a)
  | settled {o : StoredWireOutbox P} {a a' : StoredDeliveryAttempt P} (ha : AttemptStep a a')
      (hrejected : transportRejected o = true) (hpending : a.status = .pending)
      (hstatus : a'.status = .sent) : Move l o (some a) o (some a')
  | confirmed {o : StoredWireOutbox P} {a a' : StoredDeliveryAttempt P} (ha : AttemptStep a a')
      (hacked : o.status = .acked)
      (hopen : a.status = .pending ∨ a.status = .failed ∨ a.status = .backpressure)
      (hstatus : a'.status = .sent) (hcompletes : l.completes o.messageId) :
      Move l o (some a) o (some a')
  | unconfirmed {o : StoredWireOutbox P} {a a' : StoredDeliveryAttempt P} (ha : AttemptStep a a')
      (hopen : a.status = .sent ∨
        (a.status = .pending ∧ o.status ≠ .pending ∧ o.status ≠ .cancelled))
      (hstatus : a'.status = .unconfirmed) : Move l o (some a) o (some a')
  | received {o : StoredWireOutbox P} {a a' : StoredDeliveryAttempt P} (ha : AttemptStep a a')
      (hawaits : CommandDeliveryAttemptStatus.awaitsReceipt a.status = true)
      (hstatus : a'.status = .acked) (hreceipt : l.receipt o.messageId) :
      Move l o (some a) o (some a')

variable {l l' : Licence} {o o' : StoredWireOutbox P} {a a' : Option (StoredDeliveryAttempt P)}

theorem not_rejected_of_status (h : o.status ≠ .failed) : transportRejected o = false := by
  unfold transportRejected
  rw [beq_eq_false_iff_ne.mpr h]
  rfl

theorem not_rejected_of_label (h : hasRejectedPrefix o.lastError = false) :
    transportRejected o = false := by
  unfold transportRejected
  rw [h, Bool.and_false]

theorem awaitsAck_cases {s : WireOutboxStatus} (h : WireOutboxStatus.awaitsAck s = true) :
    s = .writeStarted ∨ s = .sent ∨ s = .failed := by
  cases s <;> simp_all [WireOutboxStatus.awaitsAck]

/-- an outbox row that can still change -/
def outboxOpen (o : StoredWireOutbox P) : Prop :=
  o.status ≠ .acked ∧ o.status ≠ .cancelled ∧ transportRejected o = false

theorem outboxOpen_of_started (h : o.status = .pending ∨ o.status = .writeStarted) :
    outboxOpen o := by
  refine ⟨?_, ?_, not_rejected_of_status ?_⟩ <;> rcases h with h | h <;> rw [h] <;> decide

theorem outboxOpen_of_awaits (h : WireOutboxStatus.awaitsAck o.status = true)
    (hlabel : hasRejectedPrefix o.lastError = false) : outboxOpen o := by
  refine ⟨?_, ?_, not_rejected_of_label hlabel⟩ <;> rcases awaitsAck_cases h with h | h | h <;>
    rw [h] <;> decide

theorem failed_of_rejected (h : transportRejected o = true) : o.status = .failed := by
  unfold transportRejected at h
  rw [Bool.and_eq_true] at h
  exact eq_of_beq h.1

theorem Move.outbox (h : Move l o a o' a') :
    o' = o ∨ (OutboxStep o o' ∧ outboxOpen o ∧ o'.status ≠ .pending) := by
  cases h with
  | claim ho _ hp hs =>
    exact .inr ⟨ho, outboxOpen_of_started (.inl hp.1), by rw [hs.1]; decide⟩
  | cancel ho _ hp hs =>
    exact .inr ⟨ho, outboxOpen_of_started (.inl hp.1), by rw [hs.1]; decide⟩
  | sent ho _ hp hs =>
    exact .inr ⟨ho, outboxOpen_of_started (.inr hp.1), by rw [hs.1]; decide⟩
  | unsent ho _ hp hs =>
    exact .inr ⟨ho, outboxOpen_of_started (.inr hp.1), by rw [hs.1]; decide⟩
  | uncertain ho _ hp hs =>
    exact .inr ⟨ho, outboxOpen_of_started (.inr hp.1), by rw [hs.1]; decide⟩
  | acked ho hw hp hs => exact .inr ⟨ho, outboxOpen_of_awaits hw hp, by rw [hs]; decide⟩
  | refused ho hw hp hr =>
    exact .inr ⟨ho, outboxOpen_of_awaits hw hp, by rw [failed_of_rejected hr]; decide⟩
  | fenced ho hw hs => exact .inr ⟨ho, outboxOpen_of_started (.inr hw), by rw [hs]; decide⟩
  | receivedSent ho hw hs => exact .inr ⟨ho, outboxOpen_of_started (.inr hw.1), by rw [hs]; decide⟩
  | settled => exact .inl rfl
  | confirmed => exact .inl rfl
  | unconfirmed => exact .inl rfl
  | received => exact .inl rfl

theorem Move.attempt (h : Move l o a o' a') :
    a' = a ∨ ∃ x x', a = some x ∧ a' = some x' ∧ AttemptStep x x' ∧ x.status ≠ .acked := by
  cases h with
  | claim _ ha hp => exact .inr ⟨_, _, rfl, rfl, ha, by rw [hp.2]; decide⟩
  | cancel _ ha hp => exact .inr ⟨_, _, rfl, rfl, ha, by rw [hp.2]; decide⟩
  | sent _ ha hp => exact .inr ⟨_, _, rfl, rfl, ha, by rw [hp.2]; decide⟩
  | unsent _ ha hp => exact .inr ⟨_, _, rfl, rfl, ha, by rw [hp.2]; decide⟩
  | uncertain _ ha hp => exact .inr ⟨_, _, rfl, rfl, ha, by rw [hp.2]; decide⟩
  | acked => exact .inl rfl
  | refused => exact .inl rfl
  | fenced => exact .inl rfl
  | receivedSent => exact .inl rfl
  | settled ha _ hp => exact .inr ⟨_, _, rfl, rfl, ha, by rw [hp]; decide⟩
  | confirmed ha _ hp =>
    exact .inr ⟨_, _, rfl, rfl, ha, by rcases hp with hp | hp | hp <;> rw [hp] <;> decide⟩
  | unconfirmed ha hp =>
    exact .inr ⟨_, _, rfl, rfl, ha, by rcases hp with hp | ⟨hp, -⟩ <;> rw [hp] <;> decide⟩
  | received ha hw =>
    refine .inr ⟨_, _, rfl, rfl, ha, fun hacked => ?_⟩
    rw [hacked] at hw
    cases hw

end

end Sinan.Store
