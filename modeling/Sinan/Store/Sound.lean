import Sinan.Store.Readable

/-!
# Every transaction leaves readable tables

The rows that a transaction inserts are validated before or read back after, and the rows it updates
keep their message.  Only a session that is inserted as it comes, and a write to the commands and runs,
could break it: the one must be a valid registration, the other must keep the payloads.
-/

set_option linter.unusedSectionVars false

namespace Sinan.Store

open Lib Relation

section
variable {P : Type} [DecidableEq P] {codec : WireCodec P} {t t₁ t' : DeliveryTables P}
  {m : MessageId} {o o' : StoredWireOutbox P} {a a' : StoredDeliveryAttempt P}
  {s : StoredSessionRecord P}

/-! ## new rows -/

variable {time : Int}

theorem outboxCheck_dated (h : outboxCheck o = true) (htime : outboxLatest o ≤ time) :
    outboxCheck { o with updatedAt := time } = true := by
  obtain ⟨hcreated, hsent, hacked⟩ := outboxLatest_le.mp htime
  simp only [outboxCheck, Bool.and_eq_true, Bool.or_eq_true, decide_eq_true_eq] at h ⊢
  obtain ⟨⟨⟨⟨⟨⟨⟨⟨htype, hsequence⟩, -⟩, hsentAt⟩, hackedAt⟩, hstatus⟩, hstatus'⟩, hsubject⟩, hroute⟩ := h
  exact ⟨⟨⟨⟨⟨⟨⟨⟨htype, hsequence⟩, .inr ⟨⟨hcreated, hsent⟩, hacked⟩⟩, hsentAt⟩, hackedAt⟩, hstatus⟩,
    hstatus'⟩, hsubject⟩, hroute⟩

theorem sessionCheck_dated (h : sessionCheck s = true) (htime : sessionLatest s ≤ time) :
    sessionCheck { s with updatedAt := time } = true := by
  obtain ⟨hconnected, hheartbeat, hsync, hdisconnected⟩ := sessionLatest_le.mp htime
  simp only [sessionCheck, Bool.and_eq_true, Bool.or_eq_true, decide_eq_true_eq] at h ⊢
  obtain ⟨⟨⟨⟨hplatform, -⟩, hsequence⟩, hfirst⟩, hlimit⟩ := h
  exact ⟨⟨⟨⟨hplatform, .inr ⟨⟨⟨hconnected, hheartbeat⟩, hsync⟩, hdisconnected⟩⟩, hsequence⟩, hfirst⟩,
    hlimit⟩

theorem OutboxSound.dated (h : OutboxSound codec o) :
    OutboxSound codec { o with updatedAt := outboxLatest o } := by
  have hsame : SameMessage o { o with updatedAt := outboxLatest o } := rfl
  exact h.restated hsame (createdAt_le_latest o) (outboxCheck_dated h.check (le_refl _))

theorem insertOutbox_readable {message : NewWireOutbox P} (hread : Readable codec t)
    (hvalid : validateStoredWireOutbox codec message = .ok ())
    (h : insertOutbox t message = .ok (some t')) : Readable codec t' := by
  simp only [insertOutbox, bind_ok, exists_unit, sqlGuard_ok] at h
  obtain ⟨htime, hcheck, h⟩ := h
  split at h
  · simp only [pure_ok] at h
    cases h
  · rename_i outboxes hinsert
    simp only [bind_ok, exists_unit, pure_ok, Option.some.injEq] at h
    obtain ⟨-, rfl⟩ := h
    have hfresh : OutboxSound codec { message with revision := 0 } := ⟨hvalid, hcheck⟩
    obtain ⟨stored, hinsert, hsound⟩ : ∃ stored, t.outboxes.insert stored = some outboxes ∧
        OutboxSound codec stored := by
      refine ⟨_, hinsert, ?_⟩
      split_ifs with hzero
      · exact hfresh.dated
      · exact hfresh
    have hkept : MessagesKept codec t { t with outboxes := outboxes } :=
      ⟨fun m o ho => ⟨o, Table.get_insert_of_some hinsert ho, .refl o, hread.outbox m o ho⟩,
        .refl t.parents⟩
    refine ⟨fun m o ho => ?_, fun id a ha => hkept.parses (hread.attempt id a ha), hread.session⟩
    dsimp only at ho
    rw [Table.get_insert hinsert] at ho
    split at ho
    · cases ho
      exact hsound
    · exact hread.outbox m o ho

variable {attempt : NewDeliveryAttempt P}

theorem insertAttempt_readable (hread : Readable codec t)
    (h : insertAttempt t attempt = .ok (some t'))
    (hback : ∀ a, t'.attempts.get attempt.attemptId = some a →
      parseAndValidateAttempt codec t' a = .ok a) : Readable codec t' := by
  obtain ⟨stored, attempts, hinsert, rfl, hstored⟩ := insertAttempt_ok h
  have hkept : MessagesKept codec t { t with attempts := attempts } := .same hread rfl rfl
  refine ⟨hread.outbox, fun id a ha => ?_, hread.session⟩
  have hid : stored.attemptId = attempt.attemptId := by rw [hstored]
  by_cases hnew : attempt.attemptId = id
  · exact hback a (hnew ▸ ha)
  · dsimp only at ha
    rw [Table.get_insert hinsert, hid, if_neg hnew] at ha
    exact hkept.parses (hread.attempt id a ha)

variable {session : NewSessionRecord P} {d : StoredOutboundDelivery P}

theorem registration_sound {row : StoredSessionRecord P}
    (hvalid : validateNewActiveSession session = .ok ())
    (hrow : row = { session with
      revision := 0, lastOutboundSequence := 1, updatedAt := row.updatedAt })
    (htime : sessionLatest row ≤ row.updatedAt) : sessionFromRow row = .ok row := by
  obtain ⟨hconnected, hheartbeat, hsync, -⟩ := sessionLatest_le.mp htime
  simp only [validateNewActiveSession, bind_ok, exists_unit, reject_ok, not_or, Bool.not_eq_false]
    at hvalid
  obtain ⟨⟨-, hopen, hlimit, -, hheartbeat', hsync'⟩, hclock⟩ := hvalid
  have hwithin : ∀ x : Option Int, withinSession session x = true →
      x.all (fun t => t ≤ row.updatedAt) = true →
      withinSession row.toNewSessionRecord x = true := by
    intro x hx hbefore
    have hstart : row.connectedAt = session.connectedAt := by rw [hrow]
    cases x with
    | none => rfl
    | some t =>
      simp only [withinSession, Option.all_some, decide_eq_true_eq] at hx hbefore ⊢
      exact ⟨hstart ▸ hx.1, hbefore⟩
  have hbeat : row.lastHeartbeatAt = session.lastHeartbeatAt := by rw [hrow]
  have hsynced : row.lastTimeSyncAt = session.lastTimeSyncAt := by rw [hrow]
  simp only [sessionFromRow, bind_ok, exists_unit, pure_ok, reject_ok, not_or, Bool.not_eq_false,
    and_true]
  refine ⟨?_, ?_, not_lt.mpr hconnected, ?_, ?_, ?_, ?_⟩
  · rw [hrow]
    exact Nat.one_ne_zero
  · rw [hrow]
    exact hlimit
  · exact hwithin _ (hbeat ▸ hheartbeat') hheartbeat
  · exact hwithin _ (hsynced ▸ hsync') hsync
  · rw [hrow]
    exact fun hactive => hopen hactive.2
  · rw [hrow]
    exact hclock

theorem insertSession_readable (hread : Readable codec t)
    (hvalid : validateNewActiveSession session = .ok ())
    (h : insertSession t session = .ok (some t')) : Readable codec t' := by
  simp only [insertSession, bind_ok, exists_unit, sqlGuard_ok] at h
  obtain ⟨htime, hcheck, h⟩ := h
  split at h
  · simp only [pure_ok] at h
    cases h
  · rename_i sessions hinsert
    simp only [pure_ok, Option.some.injEq] at h
    subst h
    obtain ⟨stored, hinsert, hsound⟩ : ∃ stored, t.sessions.insert stored = some sessions ∧
        SessionSound stored := by
      refine ⟨_, hinsert, ?_⟩
      split_ifs with hzero
      · have hdated := sessionCheck_dated hcheck (le_refl _)
        exact ⟨registration_sound hvalid rfl (le_refl _), hdated⟩
      · refine ⟨registration_sound hvalid rfl ?_, hcheck⟩
        rcases (Bool.or_eq_true _ _).mp htime with hzero' | hlatest
        · exact absurd (eq_of_beq hzero') hzero
        · exact of_decide_eq_true hlatest
    have hkept : MessagesKept codec t { t with sessions := sessions } := .same hread rfl rfl
    refine ⟨hread.outbox, fun id a ha => hkept.parses (hread.attempt id a ha), fun k s hs => ?_⟩
    dsimp only at hs
    rw [Table.get_insert hinsert] at hs
    split at hs
    · cases hs
      exact hsound
    · exact hread.session k s hs

theorem asInvalidRecord_ok {u : Unit} {check : StoreCheck Unit}
    (h : asInvalidRecord m check = .ok u) : check = .ok u := by
  unfold asInvalidRecord at h
  split at h
  · cases h
  · exact h

theorem enqueueWireOutbox_readable {message : NewWireOutbox P}
    {outcome : WriteOutcome (StoredWireOutbox P)} (hread : Readable codec t)
    (h : enqueueWireOutbox codec t message = .ok (outcome, t')) : Readable codec t' := by
  have hvalid : validateStoredWireOutbox codec message = .ok () := by
    simp only [enqueueWireOutbox, bind_ok, exists_unit] at h
    exact asInvalidRecord_ok h.1
  rcases enqueueWireOutbox_ok h with ⟨hinsert, -⟩ | ⟨rfl, -⟩
  · exact insertOutbox_readable hread hvalid hinsert
  · exact hread

theorem fetchDeliveryAttemptById_parses {id : String}
    (h : fetchDeliveryAttemptById codec t id = .ok (some a)) :
    parseAndValidateAttempt codec t a = .ok a := by
  have hrow := fetchDeliveryAttemptById_ok h
  unfold fetchDeliveryAttemptById at h
  rw [← hrow] at h
  simp only [readRow, bind_ok, pure_ok, Option.some.injEq] at h
  obtain ⟨a', ha', rfl⟩ := h
  exact ha'

theorem recordDeliveryAttempt_readable {outcome : WriteOutcome (StoredDeliveryAttempt P)}
    (hread : Readable codec t) (h : recordDeliveryAttempt codec t attempt = .ok (outcome, t')) :
    Readable codec t' := by
  simp only [recordDeliveryAttempt, bind_ok, exists_unit] at h
  obtain ⟨-, inserted, hinserted, h⟩ := h
  cases inserted with
  | some written =>
    simp only [bind_ok, need_ok, pure_ok, Prod.mk.injEq] at h
    obtain ⟨found, hfound, stored, rfl, -, rfl⟩ := h
    refine insertAttempt_readable hread hinserted fun a ha => ?_
    have hrow := fetchDeliveryAttemptById_ok hfound
    rw [ha] at hrow
    cases hrow
    exact fetchDeliveryAttemptById_parses hfound
  | none =>
    simp only [bind_ok] at h
    obtain ⟨existing, -, h⟩ := h
    rw [(attemptDuplicate_same h).1]
    exact hread

theorem enqueueReservedDelivery_readable {delivery : NewReservedDelivery P}
    (hread : Readable codec t) (h : enqueueReservedDelivery codec t delivery = .ok (d, t')) :
    Readable codec t' := by
  simp only [enqueueReservedDelivery, bind_ok, exists_unit, pure_ok, Prod.mk.injEq] at h
  obtain ⟨-, _, -, -, -, -, -, ⟨w, t₁⟩, h₁, ⟨w', t₂⟩, h₂, -, -, rfl⟩ := h
  exact recordDeliveryAttempt_readable (enqueueWireOutbox_readable hread h₁) h₂

/-! ## the write of a message -/

variable {completion : CompleteTransportWrite} {result : TransportWriteResult}

theorem requireNonEmpty_ok {field value : String} {u : Unit} :
    requireNonEmpty field value = .ok u ↔ blank value = false := by
  rw [requireNonEmpty, reject_ok, Bool.not_eq_true]

theorem both_readable {status : WireOutboxStatus} {status' : CommandDeliveryAttemptStatus}
    {sentAt : Option Int} {error error' : Option String} (hread : Readable codec t)
    (hstatus : status' ≠ .unconfirmed)
    (h₁ : updateOutboxState t o status time sentAt none error = .ok t₁)
    (h₂ : updateAttemptState t₁ a status' time none error' = .ok t') : Readable codec t' :=
  updateAttemptState_readable (updateOutboxState_readable hread h₁)
    (fun heq => absurd heq hstatus) h₂

theorem cancelClaimedDelivery_readable {status : CommandDeliveryAttemptStatus} {reason : String}
    (hread : Readable codec t) (hstatus : status ≠ .unconfirmed)
    (h : cancelClaimedDelivery codec t o a time status reason = .ok (d, t')) :
    Readable codec t' := by
  simp only [cancelClaimedDelivery, bind_ok, pure_ok, Prod.mk.injEq] at h
  obtain ⟨t₁, h₁, t₂, h₂, -, -, -, rfl⟩ := h
  exact both_readable hread hstatus h₁ h₂

theorem claimOutbox_readable {claim : ClaimWireOutbox} {outcome : OutboxClaimOutcome P}
    (hread : Readable codec t) (h : claimOutbox codec t claim = .ok (outcome, t')) :
    Readable codec t' := by
  simp only [claimOutbox, bind_ok, exists_unit] at h
  obtain ⟨outbox, -, attempt, -, -, -, session, -, -, -, h⟩ := h
  split at h
  · simp only [bind_ok, pure_ok, Prod.mk.injEq] at h
    obtain ⟨⟨d, t₁⟩, h₁, -, rfl⟩ := h
    exact cancelClaimedDelivery_readable hread (by decide) h₁
  · simp only [claimOnSession, bind_ok, exists_unit] at h
    obtain ⟨-, h⟩ := h
    split at h
    · simp only [bind_ok, pure_ok, Prod.mk.injEq] at h
      obtain ⟨⟨d, t₁⟩, h₁, -, rfl⟩ := h
      exact cancelClaimedDelivery_readable hread (by decide) h₁
    · simp only [bind_ok] at h
      obtain ⟨expired, -, h⟩ := h
      split at h
      · simp only [bind_ok, pure_ok, Prod.mk.injEq] at h
        obtain ⟨⟨d, t₁⟩, h₁, -, rfl⟩ := h
        exact cancelClaimedDelivery_readable hread (by decide) h₁
      · simp only [bind_ok, pure_ok, Prod.mk.injEq] at h
        obtain ⟨t₁, h₁, t₂, h₂, -, -, -, rfl⟩ := h
        exact both_readable hread (by decide) h₁ h₂

theorem validateCompletionError_reason {u : Unit}
    (h : validateCompletionError completion result = .ok u)
    (hstatus : (completedStates completion.completedAt result).2.1 = .unconfirmed) :
    completion.error.all blank = false := by
  cases result with
  | unconfirmed =>
    have hreason := requireNonEmpty_ok.mp h
    cases herror : completion.error with
    | none =>
      rw [herror] at hreason
      cases hreason
    | some reason =>
      rw [herror] at hreason
      exact hreason
  | sent | backpressure | failed => cases hstatus

theorem markReceivedSent_readable (hread : Readable codec t)
    (h : markReceivedSent t completion o = .ok t') : Readable codec t' := by
  unfold markReceivedSent at h
  split at h
  · exact updateOutboxState_readable hread h
  · cases h
    exact hread

theorem settleConfirmedAttempt_readable (hread : Readable codec t)
    (h : settleConfirmedAttempt t completion o a = .ok t') :
    Readable codec t' := by
  unfold settleConfirmedAttempt at h
  split at h
  · simp only [bind_ok, exists_unit] at h
    exact updateAttemptState_readable hread (fun hstatus => by cases hstatus) h.2
  · cases h
    exact hread

theorem finishTransportWrite_readable (hread : Readable codec t)
    (h : finishTransportWrite codec t completion result = .ok (d, t')) : Readable codec t' := by
  simp only [finishTransportWrite, bind_ok, exists_unit] at h
  obtain ⟨outbox, -, attempt, -, hvalid, h⟩ := h
  split at h
  · simp only [finishRejected, bind_ok, exists_unit, pure_ok, Prod.mk.injEq] at h
    obtain ⟨-, t₁, h₁, -, -, -, rfl⟩ := h
    exact updateAttemptState_readable hread (fun hstatus => by cases hstatus) h₁
  · split at h
    · simp only [pure_ok, Prod.mk.injEq] at h
      rw [← h.2]
      exact hread
    · split at h
      · simp only [finishConfirmed, bind_ok, exists_unit, pure_ok, Prod.mk.injEq] at h
        obtain ⟨-, t₁, h₁, t₂, h₂, -, -, -, rfl⟩ := h
        exact settleConfirmedAttempt_readable (markReceivedSent_readable hread h₁) h₂
      · simp only [finishStarted, bind_ok, exists_unit, pure_ok, Prod.mk.injEq] at h
        obtain ⟨-, -, t₁, h₁, t₂, h₂, -, -, -, rfl⟩ := h
        exact updateAttemptState_readable (updateOutboxState_readable hread h₁)
          (validateCompletionError_reason hvalid) h₂

/-! ## acknowledgements, receipts and timeouts -/

variable {row : StoredDeliveryAttempt P}

theorem applyAck_readable {update : TransportAckUpdate} (hread : Readable codec t)
    (h : applyAck t update o = .ok t') : Readable codec t' := by
  unfold applyAck at h
  split at h
  · unfold acceptAck at h
    split at h
    · cases h
      exact hread
    · simp only [bind_ok, exists_unit] at h
      exact updateOutboxState_readable hread h.2.2
  · unfold acceptAck at h
    split at h
    · cases h
      exact hread
    · simp only [bind_ok, exists_unit] at h
      exact updateOutboxState_readable hread h.2.2
  · simp only [rejectAck, bind_ok, exists_unit] at h
    obtain ⟨reason, -, -, -, h⟩ := h
    split at h
    · simp only [bind_ok, exists_unit, pure_ok] at h
      rw [← h.2]
      exact hread
    · simp only [bind_ok, exists_unit] at h
      exact updateOutboxState_readable hread h.2

theorem recordTransportAck_readable {update : TransportAckUpdate} {row : StoredWireOutbox P}
    (hread : Readable codec t) (h : recordTransportAck codec t update = .ok (row, t')) :
    Readable codec t' := by
  simp only [recordTransportAck, bind_ok, exists_unit, pure_ok, Prod.mk.injEq] at h
  obtain ⟨outbox, -, -, t₁, h₁, -, -, -, rfl⟩ := h
  exact applyAck_readable hread h₁

theorem recordCommandReceivedAttempt_readable {update : CommandReceivedAttemptUpdate}
    (hread : Readable codec t) (h : recordCommandReceivedAttempt codec t update = .ok (row, t')) :
    Readable codec t' := by
  simp only [recordCommandReceivedAttempt, bind_ok, exists_unit] at h
  obtain ⟨attempt, -, -, h⟩ := h
  split at h
  · simp only [pure_ok, Prod.mk.injEq] at h
    rw [← h.2]
    exact hread
  · simp only [bind_ok, exists_unit, pure_ok, Prod.mk.injEq] at h
    obtain ⟨-, -, t₁, h₁, -, -, -, rfl⟩ := h
    exact updateAttemptState_readable hread (fun hstatus => by cases hstatus) h₁

theorem timeoutDeliveryAttempt_readable {timeout : DeliveryAttemptTimeout}
    (hread : Readable codec t) (h : timeoutDeliveryAttempt codec t timeout = .ok (row, t')) :
    Readable codec t' := by
  simp only [timeoutDeliveryAttempt, bind_ok, exists_unit] at h
  obtain ⟨hreason, attempt, -, -, h⟩ := h
  split at h
  · simp only [pure_ok, Prod.mk.injEq] at h
    rw [← h.2]
    exact hread
  · simp only [bind_ok] at h
    obtain ⟨rejected, -, h⟩ := h
    split at h
    · simp only [pure_ok, Prod.mk.injEq] at h
      rw [← h.2]
      exact hread
    · simp only [bind_ok, exists_unit, pure_ok, Prod.mk.injEq] at h
      obtain ⟨-, t₁, h₁, -, -, -, rfl⟩ := h
      refine updateAttemptState_readable hread (fun _ => ?_) h₁
      exact requireNonEmpty_ok.mp hreason

/-! ## the messages of a session -/

variable {changedAt : Int} {error : String} {sessionId : SessionId}

theorem loop_readable {σ α : Type} (tables : σ → DeliveryTables P) {f : σ → α → StoreCheck σ}
    (hstep : ∀ b x b', f b x = .ok b' → Readable codec (tables b) → Readable codec (tables b'))
    {xs : List α} {b r : σ} (hread : Readable codec (tables b)) (h : xs.foldlM f b = .ok r) :
    Readable codec (tables r) :=
  foldlM_related (R := fun b b' => Readable codec (tables b) → Readable codec (tables b'))
    (fun _ => id) (fun h₁ h₂ hb => h₂ (h₁ hb)) hstep h hread

theorem unconfirmAttempt_readable {acc acc' : List (StoredDeliveryAttempt P) × DeliveryTables P}
    (hread : Readable codec acc.2) (herror : blank error = false)
    (h : unconfirmAttempt codec changedAt error acc a = .ok acc') :
    Readable codec acc'.2 := by
  simp only [unconfirmAttempt, bind_ok, exists_unit, pure_ok] at h
  obtain ⟨-, t₁, h₁, updated, -, rfl⟩ := h
  refine updateAttemptState_readable hread (fun _ => ?_) h₁
  exact herror

theorem unconfirmSessionAttempts_readable {attempts : List (StoredDeliveryAttempt P)}
    (hread : Readable codec t) (herror : blank error = false)
    (h : unconfirmSessionAttempts codec t sessionId changedAt error = .ok (attempts, t')) :
    Readable codec t' := by
  simp only [unconfirmSessionAttempts, bind_ok] at h
  obtain ⟨rows, -, hfold⟩ := h
  exact loop_readable Prod.snd
    (fun _ _ _ hstep hb => unconfirmAttempt_readable hb herror hstep) hread hfold

theorem cancelPendingDelivery_readable (hread : Readable codec t)
    (h : cancelPendingDelivery codec changedAt error t m = .ok t') : Readable codec t' := by
  simp only [cancelPendingDelivery, bind_ok, exists_unit] at h
  obtain ⟨outbox, -, attempt, -, -, t₁, h₁, h₂⟩ := h
  exact both_readable hread (by decide) h₁ h₂

theorem cancelSessionPendingDeliveries_readable {n : Nat} (hread : Readable codec t)
    (h : cancelSessionPendingDeliveries codec t sessionId changedAt error = .ok (n, t')) :
    Readable codec t' := by
  simp only [cancelSessionPendingDeliveries, bind_ok, pure_ok, Prod.mk.injEq] at h
  obtain ⟨t₁, hfold, -, rfl⟩ := h
  exact loop_readable id (fun _ _ _ hstep hb => cancelPendingDelivery_readable hb hstep) hread hfold

theorem settleRejectedAttempt_readable (hread : Readable codec t)
    (h : settleRejectedAttempt codec changedAt t m = .ok t') : Readable codec t' := by
  simp only [settleRejectedAttempt, bind_ok, exists_unit] at h
  obtain ⟨outbox, -, attempt, -, reason, -, -, h₁⟩ := h
  exact updateAttemptState_readable hread (fun hstatus => by cases hstatus) h₁

theorem settleRejectedPendingAttempts_readable {n : Nat} (hread : Readable codec t)
    (h : settleRejectedPendingAttempts codec t sessionId changedAt = .ok (n, t')) :
    Readable codec t' := by
  simp only [settleRejectedPendingAttempts, bind_ok, pure_ok, Prod.mk.injEq] at h
  obtain ⟨t₁, hfold, -, rfl⟩ := h
  exact loop_readable id (fun _ _ _ hstep hb => settleRejectedAttempt_readable hb hstep) hread hfold

/-! ## the session rows -/

theorem changeSession_readable {id : SessionId} {revision : Nat}
    {change : StoredSessionRecord P → StoredSessionRecord P} (hread : Readable codec t)
    (h : updateActiveSession t id revision change = .ok t')
    (hreads : ∀ row, sessionFromRow row = .ok row → row.status = .active →
      row.updatedAt ≤ (change row).updatedAt →
      sessionFromRow { change row with sessionId := row.sessionId } =
        .ok { change row with sessionId := row.sessionId }) : Readable codec t' := by
  refine updateActiveSession_readable hread h fun s' hs' => ?_
  obtain ⟨row, -, hupdated⟩ := updateActiveSession_updated h
  have hhistory := (Writes.history (updateActiveSession_writes (l := sessionLicence) trivial h)).session
  obtain ⟨s'', hs'', hlater⟩ := hhistory id row hupdated.found
  rw [hs'] at hs''
  cases hs''
  rw [hupdated.after, if_pos rfl] at hs'
  cases hs'
  exact hreads row (hread.session id row hupdated.found).reads hupdated.active hlater.updatedAt

theorem sessionFromRow_later {s' : StoredSessionRecord P} (hreads : sessionFromRow s = .ok s)
    (hsame : s' = { s with
      status := s'.status, disconnectedAt := s'.disconnectedAt, revision := s'.revision,
      lastOutboundSequence := s'.lastOutboundSequence, updatedAt := s'.updatedAt })
    (htime : s.updatedAt ≤ s'.updatedAt) (hsequence : s'.lastOutboundSequence ≠ 0)
    (hended : s'.status = .active → s'.disconnectedAt = none) : sessionFromRow s' = .ok s' := by
  have hwithin : ∀ x : Option Int, withinSession s.toNewSessionRecord x = true →
      withinSession s'.toNewSessionRecord x = true := by
    intro x hx
    have hstart : s'.connectedAt = s.connectedAt := by rw [hsame]
    cases x with
    | none => rfl
    | some t =>
      simp only [withinSession, Option.all_some, decide_eq_true_eq] at hx ⊢
      exact ⟨hstart ▸ hx.1, le_trans hx.2 htime⟩
  simp only [sessionFromRow, bind_ok, exists_unit, pure_ok, reject_ok, not_or, Bool.not_eq_false,
    and_true] at hreads ⊢
  obtain ⟨-, hlimit, hconnected, hheartbeat, hsync, -, hclock⟩ := hreads
  have hstart : s'.connectedAt = s.connectedAt := by rw [hsame]
  refine ⟨hsequence, ?_, ?_, ?_, ?_, ?_, ?_⟩
  · rw [hsame]
    exact hlimit
  · rw [hstart]
    exact not_lt.mpr (le_trans (not_lt.mp hconnected) htime)
  · have hsame' : s'.lastHeartbeatAt = s.lastHeartbeatAt := by rw [hsame]
    exact hsame' ▸ hwithin _ hheartbeat
  · have hsame' : s'.lastTimeSyncAt = s.lastTimeSyncAt := by rw [hsame]
    exact hsame' ▸ hwithin _ hsync
  · rintro ⟨hactive, hsome⟩
    rw [hended hactive] at hsome
    cases hsome
  · rw [hsame]
    exact hclock

variable {status : SessionStatus}

theorem transitionSessionStatus_readable (hread : Readable codec t) (hstatus : status ≠ .active)
    (h : transitionSessionStatus t s status changedAt = .ok t') : Readable codec t' := by
  simp only [transitionSessionStatus, bind_ok] at h
  obtain ⟨next, -, h⟩ := h
  refine changeSession_readable hread h fun row hreads _ htime => ?_
  refine sessionFromRow_later hreads rfl htime ?_ (fun hactive => absurd hactive hstatus)
  simp only [sessionFromRow, bind_ok, exists_unit, reject_ok] at hreads
  exact hreads.1

theorem advanceSequence_readable {reservedAt : Int} {r : ControlOutboundReservation}
    (hread : Readable codec t) (h : advanceSequence t s reservedAt = .ok (r, t')) :
    Readable codec t' := by
  simp only [advanceSequence, bind_ok, pure_ok, Prod.mk.injEq] at h
  obtain ⟨sequence, hsequence, next, -, t₁, h₁, -, rfl⟩ := h
  refine changeSession_readable hread h₁ fun row hreads _ htime => ?_
  refine sessionFromRow_later hreads rfl htime ?_ fun hactive => ?_
  · rw [checkedIncrement_ok hsequence]
    exact Nat.succ_ne_zero _
  · simp only [sessionFromRow, bind_ok, exists_unit, reject_ok, not_or] at hreads
    have hopen := hreads.2.2.1.2.2.2.1
    exact Option.not_isSome_iff_eq_none.mp fun hsome => hopen ⟨hactive, hsome⟩

theorem updateSessionHeartbeat_readable {update : SessionHeartbeatUpdate}
    (hread : Readable codec t) (h : updateSessionHeartbeat t update = .ok (s, t')) :
    Readable codec t' := by
  simp only [updateSessionHeartbeat, bind_ok, exists_unit, pure_ok, Prod.mk.injEq] at h
  obtain ⟨_, -, -, -, _, -, -, _, -, t₁, h₁, s', hs', rfl, rfl⟩ := h
  refine updateActiveSession_readable hread h₁ fun row hrow => ?_
  rw [requiredSession_ok hs'] at hrow
  cases hrow
  exact requiredSession_reads hs'

theorem invalidateSessionClock_readable {update : SessionClockInvalidation}
    (hread : Readable codec t) (h : invalidateSessionClock t update = .ok (s, t')) :
    Readable codec t' := by
  simp only [invalidateSessionClock, bind_ok, exists_unit, pure_ok, Prod.mk.injEq] at h
  obtain ⟨_, -, -, -, _, -, t₁, h₁, s', hs', rfl, rfl⟩ := h
  refine updateActiveSession_readable hread h₁ fun row hrow => ?_
  rw [requiredSession_ok hs'] at hrow
  cases hrow
  exact requiredSession_reads hs'

theorem reserveOutboundSequence_readable {request : ReserveOutboundSequence}
    {r : SequenceReservation} (hread : Readable codec t)
    (h : reserveOutboundSequence t request = .ok (r, t')) : Readable codec t' := by
  simp only [reserveOutboundSequence, bind_ok] at h
  obtain ⟨session, -, h⟩ := h
  split at h
  · simp only [pure_ok, Prod.mk.injEq] at h
    rw [← h.2]
    exact hread
  · split at h
    · simp only [pure_ok, Prod.mk.injEq] at h
      rw [← h.2]
      exact hread
    · simp only [bind_ok, exists_unit] at h
      obtain ⟨-, rejection, -, h⟩ := h
      unfold reserveRouted at h
      split at h
      · cases h
        exact hread
      · unfold reserveOnSession at h
        split at h
        · cases h
          exact hread
        · simp only [bind_ok, pure_ok, Prod.mk.injEq] at h
          obtain ⟨⟨r', t₁⟩, h₁, -, rfl⟩ := h
          exact advanceSequence_readable hread h₁

theorem reserveControlOutboundSequence_readable {request : ReserveControlOutboundSequence}
    {r : ControlSequenceReservation} (hread : Readable codec t)
    (h : reserveControlOutboundSequence t request = .ok (r, t')) : Readable codec t' := by
  simp only [reserveControlOutboundSequence, bind_ok] at h
  obtain ⟨session, -, h⟩ := h
  unfold reserveControl at h
  split at h
  · cases h
    exact hread
  · split at h
    · cases h
      exact hread
    · simp only [bind_ok, exists_unit, pure_ok, Prod.mk.injEq] at h
      obtain ⟨-, ⟨r', t₁⟩, h₁, -, rfl⟩ := h
      exact advanceSequence_readable hread h₁

/-! ## the end of a session -/

variable {outcome : SessionDisconnectOutcome P}

theorem releaseSession_readable (hread : Readable codec t) (hstatus : status ≠ .active)
    (herror : blank error = false)
    (h : releaseSession codec t s status changedAt error = .ok (outcome, t')) :
    Readable codec t' := by
  simp only [releaseSession, bind_ok, pure_ok, Prod.mk.injEq] at h
  obtain ⟨⟨n, t₁⟩, h₁, ⟨as, t₂⟩, h₂, ⟨n', t₃⟩, h₃, t₄, h₄, -, -, -, rfl⟩ := h
  have hread₁ := settleRejectedPendingAttempts_readable hread h₁
  have hread₂ := unconfirmSessionAttempts_readable hread₁ herror h₂
  have hread₃ := cancelSessionPendingDeliveries_readable hread₂ h₃
  exact transitionSessionStatus_readable hread₃ hstatus h₄

theorem closeSession_readable {update : SessionStatusUpdate} (hread : Readable codec t)
    (hstatus : status ≠ .active) (h : closeSession codec t update status = .ok (outcome, t')) :
    Readable codec t' := by
  simp only [closeSession, bind_ok, exists_unit] at h
  obtain ⟨herror, current, -, -, -, h⟩ := h
  exact releaseSession_readable hread hstatus (requireNonEmpty_ok.mp herror) h

theorem closeExactSession_readable {update : ExactSessionClose} (hread : Readable codec t)
    (hstatus : status ≠ .active) (h : closeExactSession codec t update status = .ok (outcome, t')) :
    Readable codec t' := by
  simp only [closeExactSession, bind_ok, exists_unit] at h
  obtain ⟨herror, current, -, h⟩ := h
  split at h
  · simp only [pure_ok, Prod.mk.injEq] at h
    rw [← h.2]
    exact hread
  · exact releaseSession_readable hread hstatus (requireNonEmpty_ok.mp herror) h

theorem insertSessionRecord_readable {outcome : WriteOutcome (StoredSessionRecord P)}
    (hread : Readable codec t) (hvalid : validateNewActiveSession session = .ok ())
    (h : insertSessionRecord t session = .ok (outcome, t')) : Readable codec t' := by
  simp only [insertSessionRecord, bind_ok, exists_unit] at h
  obtain ⟨-, inserted, hinserted, h⟩ := h
  split at h
  · simp only [pure_ok, Prod.mk.injEq] at h
    obtain ⟨-, rfl⟩ := h
    exact insertSession_readable hread hvalid hinserted
  · simp only [bind_ok] at h
    obtain ⟨existing, -, h⟩ := h
    unfold sessionDuplicate at h
    split at h
    · split at h
      · cases h
        exact hread
      · cases h
    · cases h

theorem insertReplacement_readable {replaced : Option (StoredSessionRecord P)}
    {unconfirmed : List (StoredDeliveryAttempt P)} {outcome : SessionReplacement P}
    (hread : Readable codec t) (hvalid : validateNewActiveSession session = .ok ())
    (h : insertReplacement t session replaced unconfirmed = .ok (outcome, t')) :
    Readable codec t' := by
  simp only [insertReplacement, bind_ok, pure_ok, Prod.mk.injEq] at h
  obtain ⟨⟨w, t₁⟩, h₁, -, rfl⟩ := h
  exact insertSessionRecord_readable hread hvalid h₁

theorem replaceActiveSession_readable {outcome : SessionReplacement P} (hread : Readable codec t)
    (h : replaceActiveSession codec t session = .ok (outcome, t')) : Readable codec t' := by
  simp only [replaceActiveSession, bind_ok, exists_unit] at h
  obtain ⟨hvalid, active, -, h⟩ := h
  unfold replaceActive at h
  split at h
  · exact insertReplacement_readable hread hvalid h
  · split at h
    · split at h
      · cases h
        exact hread
      · cases h
    · simp only [replaceExisting, bind_ok, exists_unit, need_ok] at h
      obtain ⟨-, ⟨n, t₁⟩, h₁, ⟨n', t₂⟩, h₂, ⟨as, t₃⟩, h₃, t₄, h₄, found, -, replaced, -, h⟩ := h
      have hread₁ := settleRejectedPendingAttempts_readable hread h₁
      have hread₂ := cancelSessionPendingDeliveries_readable hread₁ h₂
      have hread₃ := unconfirmSessionAttempts_readable hread₂ (by decide) h₃
      have hread₄ := transitionSessionStatus_readable hread₃ (by decide) h₄
      exact insertReplacement_readable hread₄ hvalid h
  · cases h

/-! ## the startup fence -/

variable {fencedAt : Int}

theorem fenceSession_readable {acc acc' : DeliveryStartupFenceReport × DeliveryTables P}
    (hread : Readable codec acc.2) (herror : blank error = false)
    (h : fenceSession codec fencedAt error acc s = .ok acc') :
    Readable codec acc'.2 := by
  simp only [fenceSession, bind_ok, exists_unit, pure_ok] at h
  obtain ⟨-, ⟨n, t₁⟩, h₁, ⟨n', t₂⟩, h₂, ⟨as, t₃⟩, h₃, t₄, h₄, rfl⟩ := h
  have hread₁ := settleRejectedPendingAttempts_readable hread h₁
  have hread₂ := cancelSessionPendingDeliveries_readable hread₁ h₂
  have hread₃ := unconfirmSessionAttempts_readable hread₂ herror h₃
  exact transitionSessionStatus_readable hread₃ (by decide) h₄

theorem fenceOutbox_readable {acc acc' : DeliveryStartupFenceReport × DeliveryTables P}
    (hread : Readable codec acc.2) (herror : blank error = false)
    (h : fenceOutbox codec fencedAt error acc m = .ok acc') :
    Readable codec acc'.2 := by
  simp only [fenceOutbox, bind_ok, exists_unit] at h
  obtain ⟨outbox, -, -, t₁, h₁, found, -, h₂⟩ := h
  have hread₁ := updateOutboxState_readable hread h₁
  unfold fenceAttempt at h₂
  split at h₂
  · cases h₂
    exact hread₁
  · split at h₂
    · simp only [bind_ok, pure_ok] at h₂
      obtain ⟨t₂, h₂, rfl⟩ := h₂
      refine updateAttemptState_readable hread₁ (fun _ => ?_) h₂
      exact herror
    · cases h₂
      exact hread₁

theorem fenceInterruptedWrites_readable {report : DeliveryStartupFenceReport}
    (hread : Readable codec t)
    (h : fenceInterruptedWrites codec t fencedAt error = .ok (report, t')) : Readable codec t' := by
  simp only [fenceInterruptedWrites, bind_ok, exists_unit] at h
  obtain ⟨hreason, active, -, ⟨report₁, t₁⟩, hsessions, houtboxes⟩ := h
  have herror := requireNonEmpty_ok.mp hreason
  have hread₁ : Readable codec t₁ := loop_readable Prod.snd
    (fun _ _ _ hstep hb => fenceSession_readable hb herror hstep) hread hsessions
  exact loop_readable Prod.snd
    (fun _ _ _ hstep hb => fenceOutbox_readable hb herror hstep) hread₁ houtboxes

/-! ## every call -/

/-- A session is inserted only as a registration of an active one, and no transaction on the commands
and the runs deletes one or rewrites its payload. -/
def Regular (t : DeliveryTables P) : StoreCall P → Prop
  | .insertSession session => validateNewActiveSession session = .ok ()
  | .parents rows => PayloadsKept t.parents rows
  | _ => True

theorem runCall_readable {call : StoreCall P} (hread : Readable codec t) (hregular : Regular t call)
    (h : runCall codec t call = .ok t') : Readable codec t' := by
  cases call with
  | enqueueWireOutbox _ => exact enqueueWireOutbox_readable hread (map_snd_ok h).choose_spec
  | enqueueReservedDelivery _ =>
    exact enqueueReservedDelivery_readable hread (map_snd_ok h).choose_spec
  | recordDeliveryAttempt _ => exact recordDeliveryAttempt_readable hread (map_snd_ok h).choose_spec
  | claimOutbox _ => exact claimOutbox_readable hread (map_snd_ok h).choose_spec
  | finishTransportWrite _ _ => exact finishTransportWrite_readable hread (map_snd_ok h).choose_spec
  | recordTransportAck _ => exact recordTransportAck_readable hread (map_snd_ok h).choose_spec
  | recordCommandReceivedAttempt _ =>
    exact recordCommandReceivedAttempt_readable hread (map_snd_ok h).choose_spec
  | timeoutDeliveryAttempt _ => exact timeoutDeliveryAttempt_readable hread (map_snd_ok h).choose_spec
  | insertSession _ =>
    exact insertSessionRecord_readable hread hregular (map_snd_ok h).choose_spec
  | replaceActiveSession _ => exact replaceActiveSession_readable hread (map_snd_ok h).choose_spec
  | updateSessionHeartbeat _ => exact updateSessionHeartbeat_readable hread (map_snd_ok h).choose_spec
  | invalidateSessionClock _ => exact invalidateSessionClock_readable hread (map_snd_ok h).choose_spec
  | reserveOutboundSequence _ =>
    exact reserveOutboundSequence_readable hread (map_snd_ok h).choose_spec
  | reserveControlOutboundSequence _ =>
    exact reserveControlOutboundSequence_readable hread (map_snd_ok h).choose_spec
  | markSessionStale _ | disconnectSession _ =>
    exact closeSession_readable hread (by decide) (map_snd_ok h).choose_spec
  | markExactSessionStale _ | disconnectExactSession _ =>
    exact closeExactSession_readable hread (by decide) (map_snd_ok h).choose_spec
  | fenceInterruptedWrites _ _ =>
    exact fenceInterruptedWrites_readable hread (map_snd_ok h).choose_spec
  | parents rows =>
    cases h
    have hkept : MessagesKept codec t { t with parents := rows } :=
      ⟨fun m o ho => ⟨o, ho, .refl o, hread.outbox m o ho⟩, hregular⟩
    exact ⟨hread.outbox, fun id a ha => hkept.parses (hread.attempt id a ha), hread.session⟩

theorem emptyTables_readable (parents : Parents P) : Readable codec (emptyTables parents) :=
  ⟨fun _ _ h => (nomatch h), fun _ _ h => (nomatch h), fun _ _ h => (nomatch h)⟩

end

end Sinan.Store
