import Sinan.Core.Generations

/-!
# The evidence of a write

What becomes of a command whose frame a sink reported as written, or as possibly written.  The answer
of the delivery is then evidence of a write, dated not before the creation of its work; the finish
checks the dates again, and an answer that passes takes the command out of CREATED.  An answer that
does not is retried under the same message.  In no case is the message given up or the command expired.

The dates are carried by the rows of the outbox: a row is not older than its work, and it was created
before its command expired.
-/

set_option linter.unusedSectionVars false

namespace Sinan.Core

open Lib Execution Store Gateway

/-! ## the answers -/

/-- the answer is about the message of the work, and its dates are those of a row of the outbox -/
inductive Reports (work : StoredOutboundDeliveryWork) (expiresAt : Option Int) :
    Delivery DeliveryOutcome → Prop
  | sent {receipt : DeliveryReceipt} (hm : receipt.messageId = work.messageId)
      (hcreated : work.createdAt ≤ receipt.sentAt) : Reports work expiresAt (.ok (.sent receipt))
  | unconfirmed {u : DeliveryUncertainty} (hm : u.messageId = work.messageId)
      (hcreated : work.createdAt ≤ u.writeStartedAt)
      (hexpires : ∀ t, expiresAt = some t → u.writeStartedAt < t) :
      Reports work expiresAt (.ok (.unconfirmed u))
  | rejected {rejection : DeliveryRejection} (hm : rejection.messageId = work.messageId) :
      Reports work expiresAt (.ok (.rejected rejection))
  | definitelyNotWritten {failure : DeliveryFailure} (hm : failure.messageId = work.messageId) :
      Reports work expiresAt (.ok (.definitelyNotWritten failure))
  | failed {error : DeliveryInfrastructureError} : Reports work expiresAt (.error error)

/-- The answers to a written message that leave its command as it is: the transport of the peer refused
the message, the delivery failed, or the evidence is later than the clock of the worker or than the
expiry of the command, or says nothing. -/
inductive Excused (m : MessageId) (expiresAt finishedAt : Int) : Delivery DeliveryOutcome → Prop
  | refused {rejection : DeliveryRejection} {reason : String} (hm : rejection.messageId = m)
      (hreason : rejection.reason = .transportRejected reason) :
      Excused m expiresAt finishedAt (.ok (.rejected rejection))
  | failed {error : DeliveryInfrastructureError} : Excused m expiresAt finishedAt (.error error)
  | ahead {receipt : DeliveryReceipt} (hat : finishedAt < receipt.sentAt) :
      Excused m expiresAt finishedAt (.ok (.sent receipt))
  | late {receipt : DeliveryReceipt} (hat : expiresAt ≤ receipt.sentAt) :
      Excused m expiresAt finishedAt (.ok (.sent receipt))
  | doubtAhead {u : DeliveryUncertainty}
      (hat : finishedAt < u.observedAt ∨ u.observedAt < u.writeStartedAt) :
      Excused m expiresAt finishedAt (.ok (.unconfirmed u))
  | blank {u : DeliveryUncertainty} (hblank : blank u.error = true) :
      Excused m expiresAt finishedAt (.ok (.unconfirmed u))

section
variable {P F R : Type} [DecidableEq P] [DecidableEq F] [F64 F]

/-! ## what a finish makes of them -/

section
variable {codec : PayloadCodec P F} {runStore : RunStore R} {config : DurableOutboundConfig}
  {t t' : OutboundTables P F R} {work : StoredOutboundDeliveryWork} {finishedAt : Int}
  {answer : Delivery DeliveryOutcome} {result : DurableOutboundProcessOutcome}
  {command : ExecutionCommand F} {outcome : OutboundDeliveryWorkOutcome}
  {uncertainty : Option (Int × String)}

theorem commitCommandDelivery_left {dispatchedAt : Int} {committed : CommandDeliveryCommitOutcome}
    (h : commitCommandDelivery codec runStore config t work command dispatchedAt uncertainty
      finishedAt outcome = .ok (committed, t')) : LeftCreated t'.states command.commandId := by
  simp only [commitCommandDelivery, requiredState, bind_ok, need_ok] at h
  obtain ⟨current, hget, h⟩ := h
  split at h
  · rename_i hleft
    simp only [bind_ok, pure_ok, Prod.mk.injEq] at h
    obtain ⟨written, hwritten, -, rfl⟩ := h
    obtain ⟨-, hstates, -⟩ := completeWork_ok hwritten
    rw [hstates]
    exact ⟨current, hget, hleft⟩
  · rename_i hcreated
    simp only [bind_ok, pure_ok, Prod.mk.injEq] at h
    obtain ⟨delivered, hdelivered, reconciled, hreconciled, written, hwritten, -, rfl⟩ := h
    rw [not_not] at hcreated
    obtain ⟨s', hafter, hadvance, hstatus, -⟩ := applyDelivery_ok hget hcreated hdelivered
    obtain ⟨hstates₂, -⟩ := ensureDeliveryReconciliation_ok hreconciled
    obtain ⟨-, hstates₃, -⟩ := completeWork_ok hwritten
    have hid : s'.commandId = command.commandId :=
      hadvance.commandId.trans (stateId_of_get hget)
    refine ⟨s', ?_, ?_⟩
    · rw [hstates₃, hstates₂, hafter, if_pos hid]
    · rcases hstatus with hs | hs <;> rw [hs] <;> decide

theorem deliverCommand_left {dispatchedAt : Int} {disposition : DurableDeliveryDisposition}
    (h : Core.deliverCommand codec runStore config t work command dispatchedAt uncertainty finishedAt
      outcome disposition = .ok (result, t')) : LeftCreated t'.states command.commandId := by
  simp only [Core.deliverCommand, bind_ok, pure_ok, Prod.mk.injEq] at h
  obtain ⟨⟨committed, written⟩, hcommit, -, rfl⟩ := h
  exact commitCommandDelivery_left hcommit

theorem orRetry_cases {check : EvidenceCheck}
    {accepted : Outbound (DurableOutboundProcessOutcome × OutboundTables P F R)}
    (h : orRetry runStore config t work finishedAt check accepted = .ok (result, t')) :
    (check = .ok () ∧ accepted = .ok (result, t')) ∨ check ≠ .ok () := by
  cases check with
  | error reason => exact .inr fun hok => (nomatch hok)
  | ok u => exact .inl ⟨rfl, h⟩

theorem deliveryEvidence_fails {m : MessageId} {evidenceAt expiresAt : Int}
    (hm : m = work.messageId) (hcreated : work.createdAt ≤ evidenceAt)
    (h : validateDeliveryEvidence work m evidenceAt finishedAt (some expiresAt) ≠ .ok ()) :
    finishedAt < evidenceAt ∨ expiresAt ≤ evidenceAt := by
  by_contra hneither
  obtain ⟨hfinished, hexpires⟩ := not_or.mp hneither
  refine h ?_
  simp only [validateDeliveryEvidence, bind_ok, exists_unit, reject_ok, not_not, not_or, not_lt,
    Option.any_some, decide_eq_true_eq]
  exact ⟨hm, ⟨hcreated, not_lt.mp hfinished⟩, hexpires⟩

theorem unconfirmedEvidence_fails {m : MessageId} {writeStartedAt observedAt expiresAt : Int}
    (hm : m = work.messageId) (hcreated : work.createdAt ≤ writeStartedAt)
    (hexpires : writeStartedAt < expiresAt)
    (h : validateUnconfirmedEvidence work m writeStartedAt observedAt finishedAt expiresAt
      ≠ .ok ()) : finishedAt < observedAt ∨ observedAt < writeStartedAt := by
  by_contra hneither
  obtain ⟨hfinished, hobserved⟩ := not_or.mp hneither
  refine h ?_
  simp only [validateUnconfirmedEvidence, validateUnconfirmedEvidenceWithoutExpiry, bind_ok,
    exists_unit, reject_ok, not_not, not_or, not_lt]
  exact ⟨⟨hm, hcreated, not_lt.mp hobserved, not_lt.mp hfinished⟩, not_le.mpr hexpires⟩

/-- An answer that does not disclaim its message takes the command out of CREATED, unless it is
excused. -/
theorem finishCommand_left (hreports : Reports work (some command.expiresAt) answer)
    (hclaims : ¬ Disclaims work.messageId answer)
    (h : finishCommand codec runStore config t work command finishedAt answer = .ok (result, t')) :
    LeftCreated t'.states command.commandId ∨
      Excused work.messageId command.expiresAt finishedAt answer := by
  cases hreports with
  | sent hm hcreated =>
    rcases orRetry_cases h with ⟨-, hdelivered⟩ | hfails
    · exact .inl (deliverCommand_left hdelivered)
    · rcases deliveryEvidence_fails hm hcreated hfails with hahead | hlate
      · exact .inr (.ahead hahead)
      · exact .inr (.late hlate)
  | unconfirmed hm hcreated hexpires =>
    rcases orRetry_cases h with ⟨-, h⟩ | hfails
    · rcases orRetry_cases h with ⟨-, hdelivered⟩ | hblank
      · exact .inl (deliverCommand_left hdelivered)
      · refine .inr (.blank ?_)
        by_contra htext
        exact hblank (by simpa [uncertaintyText, reject_ok] using htext)
    · exact .inr (.doubtAhead (unconfirmedEvidence_fails hm hcreated (hexpires _ rfl) hfails))
  | @rejected rejection hm =>
    by_cases hreason : ∃ reason, rejection.reason = .transportRejected reason
    · obtain ⟨reason, hreason⟩ := hreason
      exact .inr (.refused hm hreason)
    · exact absurd ⟨hm, fun reason hr => hreason ⟨reason, hr⟩⟩ hclaims
  | definitelyNotWritten hm => exact absurd hm hclaims
  | failed => exact .inr .failed

theorem stopDelivery_states {error : Option String} {reason : String}
    (h : stopDelivery config t work finishedAt outcome error reason = .ok (result, t')) :
    t'.states = t.states := by
  simp only [stopDelivery, bind_ok, pure_ok, Prod.mk.injEq] at h
  obtain ⟨written, hwritten, -, rfl⟩ := h
  exact (completeWork_ok hwritten).2.1

theorem finishDelivery_left {claimed : ClaimedOutboundDelivery F} {c : CommandId} {now : Int}
    (hfits : claimed.Fits) (hc : claimed.work.subject = .executionCommand c)
    (hlate : claimed.Late → LeftCreated t.states c)
    (hanswer : ¬ claimed.Late → Reports claimed.work claimed.expiresAt answer)
    (hclaims : ¬ Disclaims claimed.work.messageId answer)
    (h : finishDelivery codec runStore config t claimed answer now = .ok (result, t')) :
    LeftCreated t'.states c ∨
      ∃ expiresAt, claimed.expiresAt = some expiresAt ∧
        Excused claimed.work.messageId expiresAt now answer := by
  simp only [finishDelivery, nowMs, bind_ok, exists_unit, reject_ok, pure_ok] at h
  obtain ⟨now', ⟨-, rfl⟩, h⟩ := h
  cases claimed with
  | executionCommand work command state correlationId causationId =>
    have hid : command.command.commandId = c := by
      have hsame : DeliverySubject.executionCommand command.command.commandId
          = .executionCommand c := hfits.symm.trans hc
      cases hsame
      rfl
    dsimp only at h
    split at h
    · rename_i hleft
      rw [stopDelivery_states h]
      exact .inl (hlate hleft)
    · rename_i hleft
      rcases finishCommand_left (hanswer hleft) hclaims h with hout | hexcused
      · exact .inl (hid ▸ hout)
      · exact .inr ⟨_, rfl, hexcused⟩
  | reconciliationRequest work run =>
    obtain ⟨r, hr⟩ := hfits
    have hsame : DeliverySubject.reconciliationRequest r = .executionCommand c :=
      hr.symm.trans hc
    cases hsame

theorem Ending.never_expired (h : Ending t t' work finishedAt answer)
    (hnot : ¬ Expired work.messageId answer) {c : CommandId} {s s' : ExecutionCommandState}
    (hget : t.states.get c = some s) (hcreated : s.status = .created)
    (hget' : t'.states.get c = some s') : s'.status ≠ .expired := by
  have hsame : t'.states = t.states → s'.status ≠ .expired := by
    intro hstates
    rw [hstates, hget] at hget'
    cases hget'
    rw [hcreated]
    decide
  cases h with
  | retried _ _ hstates => exact hsame hstates
  | completed _ _ hend =>
    cases hend with
    | gone hstates | refused hstates | run hstates => exact hsame hstates
    | moved _ _ _ hafter _ _ hmoved =>
      rw [hafter] at hget'
      split at hget'
      · cases hget'
        rcases hmoved with ⟨-, hs | hs⟩ | ⟨hexpired, -⟩
        · rw [hs]
          decide
        · rw [hs]
          decide
        · exact absurd hexpired hnot
      · rw [hget] at hget'
        cases hget'
        rw [hcreated]
        decide

theorem Ending.keeps (h : Ending t t' work finishedAt answer) (hbehind : Behind t.works work)
    (hclaims : ¬ Unsent work.messageId answer) :
    ∃ row, t'.works.get work.workId = some row ∧ row.messageId = work.messageId := by
  have hkept : ∀ {finish : WorkFinish} {current row : StoredOutboundDeliveryWork},
      Finished t.works t'.works finish current row → finish.workId = work.workId →
      finish.expectedRevision = work.revision → row.generation = current.generation →
      ∃ row, t'.works.get work.workId = some row ∧ row.messageId = work.messageId := by
    intro finish current row hfinished hid hrevision hgeneration
    have hcurrent := hbehind.finished hfinished hid hrevision
    refine ⟨row, ?_, ?_⟩
    · rw [hfinished.after, if_pos (hfinished.workId.trans hid)]
    · rw [hfinished.message, hfinished.subject, hgeneration, hcurrent]
      exact hbehind.message.symm
  cases h with
  | retried hretry hwork hstates hopen hadvance =>
    obtain ⟨current, hfinished, -, hgeneration, -⟩ := retryOutboundDeliveryWork_ok hretry
    refine hkept hfinished hwork.1 hwork.2.1 ?_
    rw [hgeneration, if_neg fun hadv => hclaims (hadvance hadv), Nat.add_zero]
  | completed hcomplete hwork hend =>
    obtain ⟨current, hfinished, -, hgeneration, -⟩ := completeOutboundDeliveryWork_ok hcomplete
    exact hkept hfinished hwork.1 hwork.2.1 hgeneration

end

end

end Sinan.Core
