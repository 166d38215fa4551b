import Sinan.Store.Writes

/-!
# The operations on one message as moves

For each operation of the outbox: its licence, and the proof that it is a chain of writes under it.
The claim and the end of a write are a single move of their message, so the lemmas also say which.
-/

set_option linter.unusedSectionVars false

namespace Sinan.Store

open Lib Relation

/-- the licence of a call that brings `time` as evidence for `m` -/
def Licence.seen (m : MessageId) (time : Int) : Licence :=
  { Licence.none with evidence := fun m' time' => m' = m ∧ time' = time }

def claimLicence (claim : ClaimWireOutbox) : Licence := .seen claim.messageId claim.claimedAt

def finishLicence (completion : CompleteTransportWrite) (result : TransportWriteResult) : Licence :=
  { Licence.seen completion.messageId completion.completedAt with
    unsent := fun m =>
      m = completion.messageId ∧ (result = .backpressure ∨ result = .failed)
    completes := fun m => m = completion.messageId }

def ackLicence (update : TransportAckUpdate) : Licence :=
  { Licence.seen update.messageId update.ackedAt with
    refusal := fun m => m = update.messageId ∧ update.status = .rejected }

def receiptLicence (update : CommandReceivedAttemptUpdate) : Licence :=
  { Licence.none with receipt := fun m => m = update.sourceMessageId }

/-- new rows and nothing else -/
def createLicence : Licence := { Licence.none with creates := True }

section
variable {P : Type} [DecidableEq P] {codec : WireCodec P} {t t' : DeliveryTables P}

/-! ## the claim -/

variable {m : MessageId} {o : StoredWireOutbox P} {a : StoredDeliveryAttempt P} {d :
  StoredOutboundDelivery P}

theorem cancelClaimedDelivery_ok {l : Licence} {time : Int} {status : CommandDeliveryAttemptStatus}
    {reason : String} (hget : t.outboxes.get m = some o) (hseek : t.attempts.seek m = some a)
    (hpending : o.status = .pending ∧ a.status = .pending)
    (hstatus : status = .cancelled ∨ status = .noActiveSession)
    (h : cancelClaimedDelivery codec t o a time status reason = .ok (d, t')) :
    MessageWrite l t t' m o (some a) d.outbox (some d.attempt) ∧ d.outbox.status = .cancelled := by
  simp only [cancelClaimedDelivery, bind_ok, pure_ok, Prod.mk.injEq] at h
  obtain ⟨t₁, h₁, t₂, h₂, d', hd, rfl, rfl⟩ := h
  have hwrite := pair_write (l := l) hget hseek h₁ h₂ fun ho ha =>
    .cancel ho ha hpending ⟨rfl, hstatus⟩
  rw [messageId_of_get hget] at hd
  rw [hwrite.delivery hd]
  exact ⟨hwrite, rfl⟩

theorem claimExpired_ok {subject : DeliverySubject} {claimedAt : Int}
    (h : claimExpired t subject claimedAt = .ok false) :
    ∀ c, subject = .executionCommand c →
      ∃ parent, t.parents.command c = some parent ∧ claimedAt < parent.expiresAt := by
  intro c hc
  subst hc
  simp only [claimExpired, bind_ok, need_ok, pure_ok, decide_eq_false_iff_not] at h
  obtain ⟨parent, hparent, hlt⟩ := h
  exact ⟨parent, hparent, by omega⟩

/-- what a claim does: the pending message is either started, before its expiry, or cancelled -/
structure Claimed (t t' : DeliveryTables P) (claim : ClaimWireOutbox) (o : StoredWireOutbox P)
    (a : StoredDeliveryAttempt P) (outcome : OutboxClaimOutcome P) (d : StoredOutboundDelivery P) :
    Prop where
  pending : o.status = .pending ∧ a.status = .pending
  write : MessageWrite (claimLicence claim) t t' claim.messageId o (some a) d.outbox
    (some d.attempt)
  outcome : (outcome = .claimed d ∧ d.outbox.status = .writeStarted ∧ d.attempt.status = .pending ∧
      d.outbox.updatedAt = claim.claimedAt ∧
      ∀ c, a.subject = .executionCommand c →
        ∃ parent, t.parents.command c = some parent ∧ claim.claimedAt < parent.expiresAt) ∨
    ((outcome = .expired d ∨ outcome = .sessionUnavailable d ∨ outcome = .clockUnhealthy d) ∧
      d.outbox.status = .cancelled)

variable {outcome : OutboxClaimOutcome P}

theorem claimOnSession_ok {claim : ClaimWireOutbox} {s : StoredSessionRecord P}
    (hget : t.outboxes.get claim.messageId = some o)
    (hseek : t.attempts.seek claim.messageId = some a)
    (hpending : o.status = .pending ∧ a.status = .pending)
    (h : claimOnSession codec t claim o a s = .ok (outcome, t')) :
    ∃ d, Claimed t t' claim o a outcome d := by
  simp only [claimOnSession, bind_ok, exists_unit] at h
  obtain ⟨-, h⟩ := h
  split at h
  · simp only [bind_ok, pure_ok, Prod.mk.injEq] at h
    obtain ⟨⟨d, t₁⟩, hcancel, rfl, rfl⟩ := h
    have hc := cancelClaimedDelivery_ok (l := claimLicence claim) hget hseek hpending (.inr rfl) hcancel
    exact ⟨d, hpending, hc.1, .inr ⟨.inr (.inr rfl), hc.2⟩⟩
  · simp only [bind_ok] at h
    obtain ⟨expired, hexpired, h⟩ := h
    split at h
    · simp only [bind_ok, pure_ok, Prod.mk.injEq] at h
      obtain ⟨⟨d, t₁⟩, hcancel, rfl, rfl⟩ := h
      have hc := cancelClaimedDelivery_ok (l := claimLicence claim) hget hseek hpending (.inl rfl) hcancel
      exact ⟨d, hpending, hc.1, .inr ⟨.inl rfl, hc.2⟩⟩
    · rename_i hnot
      rw [Bool.not_eq_true] at hnot
      subst hnot
      simp only [bind_ok, pure_ok, Prod.mk.injEq] at h
      obtain ⟨t₁, h₁, t₂, h₂, d, hd, rfl, rfl⟩ := h
      have hm : o.messageId = claim.messageId := messageId_of_get hget
      have hwrite := pair_write (l := claimLicence claim) hget hseek h₁ h₂ fun ho ha =>
        .claim ho ha hpending ⟨rfl, rfl⟩ rfl ⟨hm, rfl⟩
      rw [hwrite.delivery hd]
      exact ⟨_, hpending, hwrite, .inl ⟨rfl, rfl, rfl, rfl, claimExpired_ok hexpired⟩⟩

theorem claimOutbox_ok {claim : ClaimWireOutbox} (h : claimOutbox codec t claim = .ok (outcome, t')) :
    ∃ o a d, Claimed t t' claim o a outcome d ∧ o.revision = claim.expectedOutboxRevision ∧
      a.revision = claim.expectedAttemptRevision := by
  simp only [claimOutbox, bind_ok, need_ok, exists_unit, reject_ok] at h
  obtain ⟨o, ho, a, ha, sessionId, -, s, -, hguard, -, h⟩ := h
  have hget := requiredOutbox_ok ho
  have hseek := requiredAttemptByMessage_ok ha
  have hpending : o.status = .pending ∧ a.status = .pending := by
    constructor <;> by_contra hne <;> exact hguard (by simp [hne])
  have hrevision : o.revision = claim.expectedOutboxRevision ∧
      a.revision = claim.expectedAttemptRevision := by
    constructor <;> by_contra hne <;> exact hguard (by simp [hne])
  split at h
  · simp only [bind_ok, pure_ok, Prod.mk.injEq] at h
    obtain ⟨⟨d, t₁⟩, hcancel, rfl, rfl⟩ := h
    have hc := cancelClaimedDelivery_ok (l := claimLicence claim) hget hseek hpending (.inr rfl) hcancel
    exact ⟨o, a, d, ⟨hpending, hc.1, .inr ⟨.inr (.inl rfl), hc.2⟩⟩, hrevision⟩
  · obtain ⟨d, hd⟩ := claimOnSession_ok hget hseek hpending h
    exact ⟨o, a, d, hd, hrevision⟩

/-! ## the end of a write -/

variable {completion : CompleteTransportWrite} {result : TransportWriteResult}

theorem finishStarted_ok (hget : t.outboxes.get completion.messageId = some o)
    (hseek : t.attempts.seek completion.messageId = some a)
    (h : finishStarted codec t completion result o a = .ok (d, t')) :
    Write (finishLicence completion result) t t' := by
  simp only [finishStarted, bind_ok, exists_unit, reject_ok, pure_ok, Prod.mk.injEq] at h
  obtain ⟨hguard, -, t₁, h₁, t₂, h₂, -, -, -, rfl⟩ := h
  have hstarted : o.status = .writeStarted ∧ a.status = .pending := by
    constructor <;> by_contra hne <;> exact hguard (by simp [hne])
  have hm : o.messageId = completion.messageId := messageId_of_get hget
  refine .message (pair_write hget hseek h₁ h₂ fun ho ha => ?_)
  cases result with
  | sent => exact .sent ho ha hstarted ⟨rfl, rfl⟩ rfl ⟨hm, rfl⟩
  | backpressure => exact .unsent ho ha hstarted ⟨rfl, .inl rfl⟩ ⟨hm, .inl rfl⟩
  | failed => exact .unsent ho ha hstarted ⟨rfl, .inr rfl⟩ ⟨hm, .inr rfl⟩
  | unconfirmed => exact .uncertain ho ha hstarted ⟨rfl, rfl⟩ rfl ⟨hm, rfl⟩

theorem settleConfirmedAttempt_writes {l : Licence} (hcompletes : l.completes o.messageId)
    (hget : t.outboxes.get completion.messageId = some o) (hacked : o.status = .acked)
    (hseek : t.attempts.seek completion.messageId = some a)
    (h : settleConfirmedAttempt t completion o a = .ok t') : Writes l t t' := by
  unfold settleConfirmedAttempt at h
  split at h
  · rename_i hopen
    simp only [bind_ok, exists_unit] at h
    obtain ⟨-, h⟩ := h
    refine .single (.message (attempt_write hget hseek h fun ha => .confirmed ha hacked ?_ rfl hcompletes))
    rcases hopen with hopen | ⟨-, hopen | hopen⟩
    · exact .inl hopen
    · exact .inr (.inl hopen)
    · exact .inr (.inr hopen)
  · cases h
    exact .refl

theorem settleConfirmedAttempt_received (hreceived : a.status = .acked)
    (h : settleConfirmedAttempt t completion o a = .ok t') : t' = t := by
  unfold settleConfirmedAttempt at h
  rw [if_neg] at h
  · cases h
    rfl
  · rw [hreceived]
    rintro (h | ⟨-, h | h⟩) <;> cases h

theorem finishConfirmed_writes (hget : t.outboxes.get completion.messageId = some o)
    (hseek : t.attempts.seek completion.messageId = some a)
    (hconfirmed : o.status = .acked ∨ a.status = .acked)
    (h : finishConfirmed codec t completion o a = .ok (d, t')) :
    Writes (finishLicence completion result) t t' := by
  simp only [finishConfirmed, bind_ok, exists_unit, reject_ok, pure_ok, Prod.mk.injEq] at h
  obtain ⟨-, t₁, h₁, t₂, h₂, -, -, -, rfl⟩ := h
  have hm : o.messageId = completion.messageId := messageId_of_get hget
  unfold markReceivedSent at h₁
  split at h₁
  · rename_i hstarted
    -- the write was started, so it is the receipt that came first
    have hreceived : a.status = .acked := hconfirmed.resolve_left hstarted.2
    have hwrite := outbox_write (l := finishLicence completion result) hget h₁ fun ho => by
      rw [hseek]
      exact .receivedSent ho ⟨hstarted.1, hreceived⟩ rfl rfl ⟨hm, rfl⟩
    rw [settleConfirmedAttempt_received hreceived h₂]
    exact .single (.message hwrite)
  · cases h₁
    by_cases hacked : o.status = .acked
    · exact settleConfirmedAttempt_writes hm hget hacked hseek h₂
    · rw [settleConfirmedAttempt_received (hconfirmed.resolve_left hacked) h₂]

theorem finishTransportWrite_writes
    (h : finishTransportWrite codec t completion result = .ok (d, t')) :
    Writes (finishLicence completion result) t t' := by
  simp only [finishTransportWrite, bind_ok, exists_unit] at h
  obtain ⟨o, ho, a, ha, -, h⟩ := h
  have hget := requiredOutbox_ok ho
  have hseek := requiredAttemptByMessage_ok ha
  split at h
  · rename_i hrejected
    simp only [finishRejected, bind_ok, exists_unit, reject_ok, pure_ok, Prod.mk.injEq] at h
    obtain ⟨-, t₁, h₁, -, -, -, rfl⟩ := h
    exact .single (.message (attempt_write hget hseek h₁ fun ha =>
      .settled ha hrejected.1 hrejected.2 rfl))
  · split at h
    · simp only [pure_ok, Prod.mk.injEq] at h
      rw [← h.2]
    · split at h
      · rename_i hconfirmed
        exact finishConfirmed_writes hget hseek hconfirmed h
      · exact .single (finishStarted_ok hget hseek h)

/-! ## acknowledgements, receipts and timeouts -/

variable {update : TransportAckUpdate} {a' : StoredDeliveryAttempt P}

theorem append_hasRejectedPrefix (reason : String) :
    hasRejectedPrefix (some (transportAckRejectedPrefix ++ reason)) = true := by
  show transportAckRejectedPrefix.toList.isPrefixOf
    (transportAckRejectedPrefix ++ reason).toList = true
  rw [String.toList_append, List.isPrefixOf_iff_prefix]
  exact List.prefix_append _ _

theorem acceptAck_writes (hget : t.outboxes.get update.messageId = some o)
    (h : acceptAck t update o = .ok t') :
    Writes (ackLicence update) t t' := by
  unfold acceptAck at h
  split at h
  · cases h
    exact .refl
  · simp only [bind_ok, exists_unit, reject_ok, Bool.not_eq_true, Bool.not_eq_false] at h
    obtain ⟨hlabel, hawaits, h⟩ := h
    have hm : o.messageId = update.messageId := messageId_of_get hget
    refine .single (.message (outbox_write hget h fun ho => .acked ho hawaits hlabel rfl rfl ?_))
    cases hsent : o.sentAt with
    | some time => exact .inl rfl
    | none => exact .inr ⟨hm, rfl⟩

theorem rejectAck_writes (hget : t.outboxes.get update.messageId = some o)
    (hstatus : update.status = .rejected) (h : rejectAck t update o = .ok t') :
    Writes (ackLicence update) t t' := by
  simp only [rejectAck, bind_ok, need_ok, exists_unit, reject_ok] at h
  obtain ⟨reason, -, hblank, -, h⟩ := h
  split at h
  · simp only [bind_ok, exists_unit, reject_ok, pure_ok] at h
    rw [← h.2]
  · rename_i hlabel
    simp only [bind_ok, exists_unit, reject_ok, Bool.not_eq_false] at h
    obtain ⟨hawaits, h⟩ := h
    have hm : o.messageId = update.messageId := messageId_of_get hget
    refine .single (.message (outbox_write hget h fun ho =>
      .refused ho hawaits (by simpa using hlabel) ?_
        ⟨reason, by simpa [requireNonEmpty, reject_ok] using hblank, rfl⟩ ⟨hm, hstatus⟩))
    exact append_hasRejectedPrefix reason

theorem recordTransportAck_writes {o' : StoredWireOutbox P}
    (h : recordTransportAck codec t update = .ok (o', t')) : Writes (ackLicence update) t t' := by
  simp only [recordTransportAck, bind_ok, exists_unit, reject_ok, pure_ok, Prod.mk.injEq] at h
  obtain ⟨o, ho, -, t₁, happly, -, -, -, rfl⟩ := h
  have hget := requiredOutbox_ok ho
  unfold applyAck at happly
  split at happly
  · exact acceptAck_writes hget happly
  · exact acceptAck_writes hget happly
  · rename_i hstatus
    exact rejectAck_writes hget hstatus happly

theorem parsed_outbox (hm : a.messageId = some m) (h : parseAndValidateAttempt codec t a = .ok a) :
    ∃ o, t.outboxes.get m = some o := by
  simp only [parseAndValidateAttempt, bind_ok, exists_unit, pure_ok] at h
  obtain ⟨b, -, hvalid, rfl⟩ := h
  unfold validateStoredAttempt at hvalid
  rw [hm] at hvalid
  cases hs : b.sessionId with
  | none =>
    rw [hs] at hvalid
    cases hvalid
  | some sessionId =>
    rw [hs] at hvalid
    simp only [bind_ok, need_ok] at hvalid
    obtain ⟨found, hfound, o, rfl, -⟩ := hvalid
    exact ⟨o, (fetchWireOutboxById_ok hfound).symm⟩

theorem requiredAttemptByMessage_outbox (h : requiredAttemptByMessage codec t m = .ok a) :
    ∃ o, t.outboxes.get m = some o := by
  have hseek := requiredAttemptByMessage_ok h
  have hm := Table.index_of_seek hseek
  simp only [requiredAttemptByMessage, fetchDeliveryAttemptByMessage, bind_ok, need_ok] at h
  obtain ⟨found, hfound, rfl⟩ := h
  rw [hseek] at hfound
  simp only [readRow, bind_ok, pure_ok, Option.some.injEq] at hfound
  obtain ⟨b, hparse, rfl⟩ := hfound
  exact parsed_outbox hm (by rw [← parseAndValidateAttempt_self hparse] at hparse ⊢; exact hparse)

theorem recordCommandReceivedAttempt_writes {update : CommandReceivedAttemptUpdate}
    (h : recordCommandReceivedAttempt codec t update = .ok (a', t')) :
    Writes (receiptLicence update) t t' := by
  simp only [recordCommandReceivedAttempt, bind_ok, exists_unit, reject_ok] at h
  obtain ⟨a, ha, -, h⟩ := h
  have hseek := requiredAttemptByMessage_ok ha
  obtain ⟨o, hget⟩ := requiredAttemptByMessage_outbox ha
  split at h
  · simp only [pure_ok, Prod.mk.injEq] at h
    rw [← h.2]
  · simp only [bind_ok, exists_unit, reject_ok, pure_ok, Prod.mk.injEq, Bool.not_eq_false] at h
    obtain ⟨hawaits, -, t₁, h₁, -, -, -, rfl⟩ := h
    have hm : o.messageId = update.sourceMessageId := messageId_of_get hget
    exact .single (.message (attempt_write hget hseek h₁ fun ha => .received ha hawaits rfl hm))

theorem timeoutDeliveryAttempt_writes {timeout : DeliveryAttemptTimeout}
    (h : timeoutDeliveryAttempt codec t timeout = .ok (a', t')) : Writes .none t t' := by
  simp only [timeoutDeliveryAttempt, bind_ok, exists_unit, reject_ok] at h
  obtain ⟨-, a, ha, -, h⟩ := h
  have hgot := requiredAttempt_ok ha
  split at h
  · simp only [pure_ok, Prod.mk.injEq] at h
    rw [← h.2]
  · simp only [bind_ok] at h
    obtain ⟨rejected, hrejected, h⟩ := h
    split at h
    · simp only [pure_ok, Prod.mk.injEq] at h
      rw [← h.2]
    · simp only [bind_ok, exists_unit, reject_ok, pure_ok, Prod.mk.injEq] at h
      obtain ⟨hguard, t₁, h₁, -, -, -, rfl⟩ := h
      have hsent : a.status = .sent := by
        by_contra hne
        exact hguard (.inl hne)
      -- a sent attempt has read its outbox for the rejection
      rw [timeoutRejected, if_pos hsent] at hrejected
      simp only [bind_ok, need_ok] at hrejected
      obtain ⟨m, hm, o, ho, -⟩ := hrejected
      exact .single (.message (attempt_write (requiredOutbox_ok ho) (Table.seek_of_get hgot hm) h₁
        fun ha => .unconfirmed ha (.inl hsent) rfl))

end

end Sinan.Store
