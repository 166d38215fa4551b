import Sinan.Gateway.Outbound
import Sinan.Store.Pairs

/-!
# What a delivery does to its message

Each of the transactions of a delivery inverted once.  A preparation tells the durable outcome of the
message, resumes it, records its rejection or enqueues it; the claim and the completion change the
message and tell what they left.

A message is `Started` when its write was begun and nobody has said that nothing was written, and
`Settled` when it can no longer be claimed.  Both last: only a report of the sink ends the first, and
nothing ends the second.
-/

set_option linter.unusedSectionVars false

namespace Sinan.Gateway

open Lib Execution Store Relation

section
variable {P : Type} [DecidableEq P] {codec : WireCodec P} {a : GatewayOutboundAdapter}
  {t t' : DeliveryTables P} {m : MessageId}

theorem fromStore_ok {α : Type} {r : StoreCheck α} {x : α} :
    a.fromStore r = .ok x ↔ r = .ok x := by
  cases r with
  | ok y => exact ⟨fun h => by cases h; rfl, fun h => by cases h; rfl⟩
  | error e => exact ⟨fun h => (by cases h), fun h => (by cases h)⟩

/-- the rows of a delivery are those of the tables -/
structure Stored (t : DeliveryTables P) (m : MessageId) (d : StoredOutboundDelivery P) : Prop where
  outbox : t.outboxes.get m = some d.outbox
  attempt : t.attempts.seek m = some d.attempt

theorem Stored.messageId {d : StoredOutboundDelivery P} (h : Stored t m d) :
    d.outbox.messageId = m := messageId_of_get h.outbox

theorem fetchOutboundDelivery_ok {found : Option (StoredOutboundDelivery P)}
    (h : fetchOutboundDelivery codec t m = .ok found) :
    (∀ d, found = some d → Stored t m d) ∧ (found = none → t.outboxes.get m = none) := by
  simp only [fetchOutboundDelivery, bind_ok] at h
  obtain ⟨outbox, houtbox, h⟩ := h
  have hget := fetchWireOutboxById_ok houtbox
  cases outbox with
  | none =>
    cases h
    exact ⟨fun d hd => (by cases hd), fun _ => hget.symm⟩
  | some o =>
    simp only [bind_ok, exists_unit, need_ok, pure_ok] at h
    obtain ⟨-, attempt, hattempt, x, rfl, rfl⟩ := h
    refine ⟨fun d hd => ?_, fun hnone => (by cases hnone)⟩
    cases hd
    exact ⟨hget.symm, (fetchDeliveryAttemptByMessage_ok hattempt).symm⟩

/-! ## started messages -/

/-- a write was begun and it is not known to have failed -/
def Begun (o : StoredWireOutbox P) (x : StoredDeliveryAttempt P) : Prop :=
  (o.status = .writeStarted ∨ o.status = .sent ∨ o.status = .acked ∨ o.status = .failed) ∧
  (x.status = .pending ∨ x.status = .sent ∨ x.status = .acked ∨ x.status = .unconfirmed)

def Started (t : DeliveryTables P) (m : MessageId) : Prop :=
  ∃ o x, t.outboxes.get m = some o ∧ t.attempts.seek m = some x ∧ Begun o x

variable {l : Licence}

theorem move_begun {o o' : StoredWireOutbox P} {x : StoredDeliveryAttempt P}
    {x' : Option (StoredDeliveryAttempt P)} (h : Move l o (some x) o' x')
    (hsilent : ¬ l.unsent o.messageId) (hbegun : Begun o x) :
    ∃ y, x' = some y ∧ Begun o' y := by
  have hopen : o.status ≠ .pending := by
    rcases hbegun.1 with hs | hs | hs | hs <;> rw [hs] <;> decide
  cases h with
  | claim _ _ hpending => exact absurd hpending.1 hopen
  | cancel _ _ hpending => exact absurd hpending.1 hopen
  | sent _ _ _ hstatus => exact ⟨_, rfl, .inr (.inl hstatus.1), .inr (.inl hstatus.2)⟩
  | unsent _ _ _ _ hunsent => exact absurd hunsent hsilent
  | uncertain _ _ _ hstatus => exact ⟨_, rfl, .inl hstatus.1, .inr (.inr (.inr hstatus.2))⟩
  | acked _ _ _ hstatus => exact ⟨x, rfl, .inr (.inr (.inl hstatus)), hbegun.2⟩
  | refused _ _ _ hrejected =>
    exact ⟨x, rfl, .inr (.inr (.inr (failed_of_rejected hrejected))), hbegun.2⟩
  | fenced _ _ hstatus => exact ⟨x, rfl, .inl hstatus, hbegun.2⟩
  | receivedSent _ _ hstatus => exact ⟨x, rfl, .inr (.inl hstatus), hbegun.2⟩
  | settled _ _ _ hstatus => exact ⟨_, rfl, hbegun.1, .inr (.inl hstatus)⟩
  | confirmed _ _ _ hstatus => exact ⟨_, rfl, hbegun.1, .inr (.inl hstatus)⟩
  | unconfirmed _ _ hstatus => exact ⟨_, rfl, hbegun.1, .inr (.inr (.inr hstatus))⟩
  | received _ _ hstatus => exact ⟨_, rfl, hbegun.1, .inr (.inr (.inl hstatus))⟩

theorem write_started (h : Write l t t') (hsilent : ¬ l.unsent m) (hstarted : Started t m) :
    Started t' m := by
  obtain ⟨o, x, hget, hseek, hbegun⟩ := hstarted
  cases h with
  | @message k ok ok' ak ak' h =>
    by_cases hk : k = m
    · subst hk
      have ho := h.outbox
      have ha := h.attempt
      rw [hget] at ho
      rw [hseek] at ha
      cases ho
      subst ha
      have hm : o.messageId = k := messageId_of_get hget
      obtain ⟨y, rfl, hy⟩ := move_begun h.move (by rw [hm]; exact hsilent) hbegun
      refine ⟨ok', y, ?_, ?_, hy⟩
      · rw [h.outboxes, if_pos rfl]
      · rw [h.attempts.seek, if_pos rfl]
    · refine ⟨o, x, ?_, ?_, hbegun⟩
      · rw [h.outboxes, if_neg hk]
        exact hget
      · rw [h.attempts.seek, if_neg hk]
        exact hseek
  | session _ houtboxes hattempts =>
    refine ⟨o, x, ?_, ?_, hbegun⟩
    · rw [houtboxes]
      exact hget
    · rw [hattempts]
      exact hseek
  | created _ houtboxes _ hkept => exact ⟨o, x, houtboxes m o hget, hkept m x hseek, hbegun⟩

/-! ## settled messages -/

/-- the message was claimed or ended, or its rejection was recorded before it was enqueued -/
def Settled (t : DeliveryTables P) (m : MessageId) : Prop :=
  (∃ o, t.outboxes.get m = some o ∧ o.status ≠ .pending) ∨
  (t.outboxes.get m = none ∧ ∃ x, t.attempts.get (attemptId m) = some x)

theorem write_settled (h : Write l t t') (hcreates : ¬ l.creates) (hsettled : Settled t m) :
    Settled t' m := by
  cases h with
  | @message k ok ok' ak ak' h =>
    rcases hsettled with ⟨o, hget, hstatus⟩ | ⟨hnone, x, hx⟩
    · refine .inl ?_
      rw [h.outboxes]
      by_cases hk : k = m
      · rw [if_pos hk]
        have ho := h.outbox
        rw [hk, hget] at ho
        cases ho
        rcases h.move.outbox with hsame | ⟨-, -, hne⟩
        · exact ⟨ok', rfl, by rw [hsame]; exact hstatus⟩
        · exact ⟨ok', rfl, hne⟩
      · rw [if_neg hk]
        exact ⟨o, hget, hstatus⟩
    · refine .inr ⟨?_, ?_⟩
      · rw [h.outboxes, if_neg]
        · exact hnone
        · intro hk
          have ho := h.outbox
          rw [hk, hnone] at ho
          cases ho
      · obtain ⟨x', hx', -⟩ := h.attempts.kept _ x hx
        exact ⟨x', hx'⟩
  | session _ houtboxes hattempts =>
    unfold Settled
    rw [houtboxes, hattempts]
    exact hsettled
  | created hc => exact absurd hc hcreates

theorem write_known (h : Write l t t') (hcreates : ¬ l.creates) {o' : StoredWireOutbox P}
    (hget : t'.outboxes.get m = some o') :
    ∃ o, t.outboxes.get m = some o := by
  cases h with
  | @message k ok ok' ak ak' h =>
    rw [h.outboxes] at hget
    split at hget
    · rename_i hk
      exact ⟨ok, hk ▸ h.outbox⟩
    · exact ⟨o', hget⟩
  | session _ houtboxes =>
    rw [houtboxes] at hget
    exact ⟨o', hget⟩
  | created hc => exact absurd hc hcreates

/-! ## steady changes -/

/-- What a change of the tables leaves alone: messages of which no sink said that they were not
written stay started, settled messages stay settled, and only `created` messages are new. -/
structure Steady (t t' : DeliveryTables P) (unsent created : MessageId → Prop) : Prop where
  started : ∀ m, ¬ unsent m → Started t m → Started t' m
  settled : ∀ m, Settled t m → Settled t' m
  known : ∀ m o', t'.outboxes.get m = some o' → (∃ o, t.outboxes.get m = some o) ∨ created m

theorem Steady.refl (t : DeliveryTables P) (unsent created : MessageId → Prop) :
    Steady t t unsent created :=
  ⟨fun _ _ h => h, fun _ h => h, fun _ o' h => .inl ⟨o', h⟩⟩

theorem writes_steady (h : Writes l t t') (hcreates : ¬ l.creates) :
    Steady t t' l.unsent (fun _ => False) := by
  induction h with
  | refl => exact .refl t _ _
  | tail _ hlast ih =>
    refine ⟨fun m hm hs => write_started hlast hm (ih.started m hm hs),
      fun m hs => write_settled hlast hcreates (ih.settled m hs), fun m o' ho' => ?_⟩
    obtain ⟨o, ho⟩ := write_known hlast hcreates ho'
    exact ih.known m o ho

/-! ## the preparation -/

theorem reserveOutboundSequence_rows {request : ReserveOutboundSequence} {r : SequenceReservation}
    (h : reserveOutboundSequence t request = .ok (r, t')) :
    t'.outboxes = t.outboxes ∧ t'.attempts = t.attempts := by
  simp only [reserveOutboundSequence, bind_ok] at h
  obtain ⟨s, -, h⟩ := h
  split at h
  · cases h
    exact ⟨rfl, rfl⟩
  · split at h
    · cases h
      exact ⟨rfl, rfl⟩
    · simp only [bind_ok, exists_unit] at h
      obtain ⟨-, rejection, -, h⟩ := h
      cases rejection with
      | some rejection =>
        cases h
        exact ⟨rfl, rfl⟩
      | none =>
        simp only [Store.reserveRouted, reserveOnSession] at h
        split at h
        · cases h
          exact ⟨rfl, rfl⟩
        · simp only [advanceSequence, updateActiveSession, bind_ok, pure_ok, Prod.mk.injEq] at h
          obtain ⟨_, ⟨_, -, _, -, _, ⟨_, -, _, -, _, -, rfl⟩, rfl⟩, -, rfl⟩ := h
          exact ⟨rfl, rfl⟩

/-- attempts are added and none is changed -/
structure AttemptsGrow (as as' : AttemptTable P) : Prop where
  get : ∀ id x, as.get id = some x → as'.get id = some x
  seek : ∀ k x, as.seek k = some x → as'.seek k = some x

theorem AttemptsGrow.refl (as : AttemptTable P) : AttemptsGrow as as :=
  ⟨fun _ _ h => h, fun _ _ h => h⟩

theorem AttemptsGrow.insert {as as' : AttemptTable P} {x : StoredDeliveryAttempt P}
    (h : as.insert x = some as') : AttemptsGrow as as' :=
  ⟨fun _ _ hget => Table.get_insert_of_some h hget,
    fun _ _ hseek => Table.seek_insert_of_some h hseek⟩

theorem recordDeliveryAttempt_rows {attempt : NewDeliveryAttempt P}
    {outcome : WriteOutcome (StoredDeliveryAttempt P)}
    (h : recordDeliveryAttempt codec t attempt = .ok (outcome, t')) :
    t'.outboxes = t.outboxes ∧ AttemptsGrow t.attempts t'.attempts ∧
      (∃ x, t'.attempts.get attempt.attemptId = some x) ∧
      (outcome.wasInserted = true → t.attempts.get attempt.attemptId = none) := by
  rcases recordDeliveryAttempt_ok h with ⟨hinsert, stored, rfl, hget⟩ | ⟨rfl, hduplicate⟩
  · obtain ⟨row, attempts, hrow, rfl, hdefinition⟩ := insertAttempt_ok hinsert
    have hid : row.attemptId = attempt.attemptId := by rw [hdefinition]
    refine ⟨rfl, .insert hrow, ⟨stored, hget⟩, fun _ => ?_⟩
    rw [← hid]
    exact Table.insert_fresh hrow
  · refine ⟨rfl, .refl _, ?_, fun hyes => ?_⟩
    · simp only [recordDeliveryAttempt, bind_ok, exists_unit] at h
      obtain ⟨-, inserted, -, h⟩ := h
      cases inserted with
      | some written =>
        simp only [bind_ok, need_ok, pure_ok, Prod.mk.injEq] at h
        obtain ⟨found, -, stored, -, rfl, -⟩ := h
        cases hduplicate
      | none =>
        simp only [bind_ok] at h
        obtain ⟨existing, hexisting, h⟩ := h
        have hrows := collect_self (fun _ _ => parseAndValidateAttempt_self) hexisting
        unfold attemptDuplicate at h
        split at h
        · rename_i stored
          split at h
          · rename_i hsame
            have hmem : stored ∈ t'.attempts.rows :=
              (List.mem_filter.mp (hrows ▸ List.mem_singleton_self stored)).1
            have hfields : stored.toNewDeliveryAttempt = attempt := eq_of_beq hsame
            refine ⟨stored, Table.get_eq_some.mpr ⟨hmem, ?_⟩⟩
            rw [← hfields]
          · cases h
        · cases h
    · rw [hduplicate] at hyes
      cases hyes

/-- what the preparation of `m` did, and what it leads to -/
inductive Preparation (t t' : DeliveryTables P) (m : MessageId) (now : Int)
    (validation : RequestCheck) : PreparedDelivery P → Prop
  | told {d : StoredOutboundDelivery P} {timeout : Nat} {outcome : DeliveryOutcome}
      (hstored : Stored t m d) (hsame : t' = t)
      (houtcome : durableDeliveryOutcome d now timeout = .ok outcome) :
      Preparation t t' m now validation (.outcome outcome)
  | resumed {d : StoredOutboundDelivery P} (hstored : Stored t m d) (hsame : t' = t)
      (hpending : d.outbox.status = .pending ∧ d.attempt.status = .pending) :
      Preparation t t' m now validation (.write d)
  | rejected {r : DeliveryRejection} (hnew : t.outboxes.get m = none) (hm : r.messageId = m)
      (houtboxes : t'.outboxes = t.outboxes) (hgrow : AttemptsGrow t.attempts t'.attempts)
      (hattempt : ∃ x, t'.attempts.get (attemptId m) = some x) :
      Preparation t t' m now validation (.outcome (.rejected r))
  | enqueued {d : StoredOutboundDelivery P} {row : StoredWireOutbox P}
      (hnew : t.outboxes.get m = none) (hfree : t.attempts.get (attemptId m) = none)
      (hvalid : validation = .ok ()) (houtboxes : OutboxesAfter t.outboxes t'.outboxes m row)
      (hrow : row.status = .pending ∧ row.createdAt = now ∧ row.createdAt ≤ row.updatedAt ∧
        row.sentAt = none)
      (hd : d.outbox.messageId = m)
      (hgrow : AttemptsGrow t.attempts t'.attempts) :
      Preparation t t' m now validation (.write d)

theorem recordRejection_ok {subject : DeliverySubject} {sessionId : Option SessionId}
    {payload : P} {now : Int} {reason : DeliveryRejectionReason} {validation : RequestCheck}
    {prepared : PreparedDelivery P} (hnew : t.outboxes.get m = none)
    (h : recordRejection codec a t subject m sessionId payload now reason = .ok (prepared, t')) :
    Preparation t t' m now validation prepared := by
  simp only [recordRejection, bind_ok, fromStore_ok, pure_ok, Prod.mk.injEq] at h
  obtain ⟨⟨outcome, t₁⟩, hrecord, rfl, rfl⟩ := h
  obtain ⟨houtboxes, hgrow, hattempt, -⟩ := recordDeliveryAttempt_rows hrecord
  exact .rejected hnew rfl houtboxes hgrow hattempt

theorem enqueueReservedDelivery_new {delivery : NewReservedDelivery P}
    {d : StoredOutboundDelivery P} {validation : RequestCheck}
    (hattempt : delivery.attemptId = attemptId delivery.messageId)
    (hnew : t.outboxes.get delivery.messageId = none) (hvalid : validation = .ok ())
    (h : enqueueReservedDelivery codec t delivery = .ok (d, t')) :
    Preparation t t' delivery.messageId delivery.createdAt validation (.write d) := by
  simp only [enqueueReservedDelivery, bind_ok, exists_unit, pure_ok, reject_ok, Prod.mk.injEq,
    not_not] at h
  obtain ⟨-, _, -, -, -, -, -, ⟨w, t₁⟩, h₁, ⟨w', t₂⟩, h₂, hboth, rfl, rfl⟩ := h
  obtain ⟨hinsert, rfl⟩ := enqueueWireOutbox_new hnew h₁
  obtain ⟨row, outboxes, hrow, rfl, hdefinition, hlatest⟩ := insertOutbox_ok hinsert
  obtain ⟨houtboxes, hgrow, hstored, hfree⟩ := recordDeliveryAttempt_rows h₂
  have hinserted : w'.wasInserted = true := hboth.symm
  have hid : row.messageId = delivery.messageId := by rw [hdefinition]; rfl
  have hafter : OutboxesAfter t.outboxes t₂.outboxes delivery.messageId row := by
    intro k
    rw [houtboxes, Table.get_insert hrow k, hid]
  refine .enqueued hnew ?_ hvalid hafter ?_ rfl hgrow
  · rw [← hattempt]
    exact hfree hinserted
  · refine ⟨?_, ?_, hlatest, ?_⟩ <;> rw [hdefinition] <;> rfl

section
variable {T : Type} [DecidableEq T] {requestCodec : RequestCodec P T}
  {request : DeliveryRequest T} {subject : DeliverySubject} {requireSyncedClock : Bool} {now : Int}
  {validation : RequestCheck} {payload : P} {prepared : PreparedDelivery P}

theorem Preparation.reserved {t₁ : DeliveryTables P} (h : Preparation t₁ t' m now validation prepared)
    (hrows : t₁.outboxes = t.outboxes ∧ t₁.attempts = t.attempts)
    (hnew : t.outboxes.get m = none) : Preparation t t' m now validation prepared := by
  obtain ⟨houtboxes, hattempts⟩ := hrows
  cases h with
  | told hstored | resumed hstored =>
    have hget := hstored.outbox
    rw [houtboxes, hnew] at hget
    cases hget
  | rejected _ hm hsame hgrow hattempt =>
    exact .rejected hnew hm (hsame.trans houtboxes) (hattempts ▸ hgrow) hattempt
  | enqueued _ hfree hvalid hafter hrow hd hgrow =>
    exact .enqueued hnew (hattempts ▸ hfree) hvalid (houtboxes ▸ hafter) hrow hd (hattempts ▸ hgrow)

theorem enqueueRouted_ok {session : StoredSessionRecord P}
    (hnew : t.outboxes.get request.message.messageId = none) (hvalid : validation = .ok ())
    (h : enqueueRouted codec a requestCodec t request subject now payload session
      = .ok (prepared, t')) :
    Preparation t t' request.message.messageId now validation prepared := by
  simp only [enqueueRouted, bind_ok, fromStore_ok] at h
  obtain ⟨⟨r, t₁⟩, hreserve, h⟩ := h
  have hrows := reserveOutboundSequence_rows hreserve
  have hnew₁ : t₁.outboxes.get request.message.messageId = none := by rw [hrows.1]; exact hnew
  refine Preparation.reserved ?_ hrows hnew
  split at h
  · simp only [enqueueBound, bind_ok, exists_unit, fromStore_ok, pure_ok, Prod.mk.injEq] at h
    obtain ⟨message, -, -, envelope, -, ⟨d, t₂⟩, henqueue, rfl, rfl⟩ := h
    exact enqueueReservedDelivery_new rfl hnew₁ hvalid henqueue
  · exact recordRejection_ok hnew₁ h

theorem routeRequest_ok (hnew : t.outboxes.get request.message.messageId = none)
    (hvalid : validation = .ok ())
    (h : routeRequest codec a requestCodec t request subject requireSyncedClock now payload
      = .ok (prepared, t')) :
    Preparation t t' request.message.messageId now validation prepared := by
  simp only [routeRequest, bind_ok, fromStore_ok] at h
  obtain ⟨resolution, -, h⟩ := h
  cases resolution with
  | ready session => exact enqueueRouted_ok hnew hvalid h
  | noActiveSession | stale | clockUnhealthy | ambiguous => exact recordRejection_ok hnew h

theorem prepareExisting_ok {d : StoredOutboundDelivery P} (hstored : Stored t m d)
    (h : prepareExisting a requestCodec request subject now validation d = .ok prepared) :
    Preparation t t m now validation prepared := by
  simp only [prepareExisting, resumeExisting, bind_ok, exists_unit] at h
  obtain ⟨-, -, h⟩ := h
  split at h
  · rename_i hpending
    cases h
    exact .resumed hstored rfl hpending
  · simp only [bind_ok, pure_ok] at h
    obtain ⟨outcome, houtcome, rfl⟩ := h
    exact .told hstored rfl houtcome

theorem prepareNew_ok {attempt : Option (StoredDeliveryAttempt P)}
    (hnew : t.outboxes.get request.message.messageId = none)
    (hattempt : attempt = t.attempts.get (attemptId request.message.messageId))
    (h : prepareNew codec a requestCodec t request subject requireSyncedClock now validation payload
      attempt = .ok (prepared, t')) :
    Preparation t t' request.message.messageId now validation prepared := by
  cases attempt with
  | some existing =>
    simp only [prepareNew, replayRejection, bind_ok, exists_unit, pure_ok, Prod.mk.injEq] at h
    obtain ⟨outcome, ⟨-, reason, -, -, rfl⟩, rfl, rfl⟩ := h
    exact .rejected hnew rfl rfl (.refl _) ⟨existing, hattempt.symm⟩
  | none =>
    simp only [prepareNew] at h
    split at h
    · exact recordRejection_ok hnew h
    · exact routeRequest_ok hnew rfl h

theorem prepareDelivery_ok
    (h : prepareDelivery codec a requestCodec t request subject requireSyncedClock now validation
      = .ok (prepared, t')) :
    Preparation t t' request.message.messageId now validation prepared := by
  simp only [prepareDelivery, bind_ok, fromStore_ok] at h
  obtain ⟨payload, -, enqueued, henqueued, h⟩ := h
  obtain ⟨hsome, hnone⟩ := fetchOutboundDelivery_ok henqueued
  cases enqueued with
  | some existing =>
    simp only [bind_ok, pure_ok, Prod.mk.injEq] at h
    obtain ⟨prepared', hprepared, rfl, rfl⟩ := h
    exact prepareExisting_ok (hsome existing rfl) hprepared
  | none =>
    simp only [bind_ok, fromStore_ok] at h
    obtain ⟨attempt, hattempt, h⟩ := h
    exact prepareNew_ok (hnone rfl) (fetchDeliveryAttemptById_ok hattempt) h

end

theorem Preparation.steady {now : Int} {validation : RequestCheck} {prepared : PreparedDelivery P}
    (h : Preparation t t' m now validation prepared) :
    Steady t t' (fun _ => False) (fun k => k = m) := by
  cases h with
  | told _ hsame | resumed _ hsame =>
    rw [hsame]
    exact .refl t _ _
  | rejected hnew _ houtboxes hgrow =>
    refine ⟨fun k _ hstarted => ?_, fun k hsettled => ?_, fun k o' hget => ?_⟩
    · obtain ⟨o, x, hget, hseek, hbegun⟩ := hstarted
      exact ⟨o, x, by rw [houtboxes]; exact hget, hgrow.seek k x hseek, hbegun⟩
    · rcases hsettled with ⟨o, hget, hstatus⟩ | ⟨hnone, x, hx⟩
      · exact .inl ⟨o, by rw [houtboxes]; exact hget, hstatus⟩
      · exact .inr ⟨by rw [houtboxes]; exact hnone, x, hgrow.get _ x hx⟩
    · rw [houtboxes] at hget
      exact .inl ⟨o', hget⟩
  | enqueued hnew hfree _ houtboxes _ _ hgrow =>
    have hother : ∀ k, k ≠ m → t'.outboxes.get k = t.outboxes.get k := by
      intro k hk
      rw [houtboxes, if_neg (Ne.symm hk)]
    refine ⟨fun k _ hstarted => ?_, fun k hsettled => ?_, fun k o' hget => ?_⟩
    · obtain ⟨o, x, hget, hseek, hbegun⟩ := hstarted
      have hk : k ≠ m := by
        intro hk
        rw [hk, hnew] at hget
        cases hget
      exact ⟨o, x, by rw [hother k hk]; exact hget, hgrow.seek k x hseek, hbegun⟩
    · -- the message itself is not settled: neither its row nor its attempt exists
      have hk : k ≠ m := by
        intro hk
        rcases hsettled with ⟨o, hget, -⟩ | ⟨-, x, hx⟩
        · rw [hk, hnew] at hget
          cases hget
        · rw [hk, hfree] at hx
          cases hx
      rcases hsettled with ⟨o, hget, hstatus⟩ | ⟨hnone, x, hx⟩
      · exact .inl ⟨o, by rw [hother k hk]; exact hget, hstatus⟩
      · exact .inr ⟨by rw [hother k hk]; exact hnone, x, hgrow.get _ x hx⟩
    · by_cases hk : k = m
      · exact .inr hk
      · rw [hother k hk] at hget
        exact .inl ⟨o', hget⟩

/-! ## the durable outcome -/

def outcomeMessage : DeliveryOutcome → MessageId
  | .sent receipt => receipt.messageId
  | .rejected rejection => rejection.messageId
  | .definitelyNotWritten failure => failure.messageId
  | .unconfirmed uncertainty => uncertainty.messageId

/-- the outcome is evidence of a write -/
def evidential : DeliveryOutcome → Bool
  | .sent _ | .unconfirmed _ => true
  | .rejected _ | .definitelyNotWritten _ => false

/-- what the rows of a delivery let be told -/
inductive Tells (d : StoredOutboundDelivery P) (observedAt : Int) : DeliveryOutcome → Prop
  | sent {receipt : DeliveryReceipt} (hstatus : d.outbox.status ≠ .pending)
      (hm : receipt.messageId = d.outbox.messageId)
      (hsent : receipt.sentAt = d.outbox.sentAt.getD d.outbox.updatedAt) :
      Tells d observedAt (.sent receipt)
  | unconfirmed (hstatus : d.outbox.status ≠ .pending) :
      Tells d observedAt (unconfirmedOutcome d observedAt)
  | refused {reason : String} {time : Int} (hstatus : d.outbox.status = .failed)
      (hreason : transportRejectionReason d = some reason) :
      Tells d observedAt (rejectedOutcome d time (.transportRejected reason))
  | unwritten {outcome : DeliveryOutcome} (hm : outcomeMessage outcome = d.outbox.messageId)
      (hevidence : evidential outcome = false)
      (hstatus : d.outbox.status = .cancelled ∨ (d.outbox.status = .failed ∧
        (d.attempt.status = .failed ∨ d.attempt.status = .backpressure))) :
      Tells d observedAt outcome

variable {d : StoredOutboundDelivery P} {observedAt : Int} {timeout : Nat}
  {outcome : DeliveryOutcome}

theorem sentOutcome_ok (hstatus : d.outbox.status ≠ .pending)
    (h : sentOutcome d timeout = .ok outcome) : Tells d observedAt outcome := by
  simp only [sentOutcome, bind_ok, need_ok, pure_ok] at h
  obtain ⟨_, -, _, -, _, -, rfl⟩ := h
  exact .sent hstatus rfl rfl

theorem orTransportRejected_ok {otherwise : Delivery DeliveryOutcome}
    (hstatus : d.outbox.status = .failed) (h : orTransportRejected d otherwise = .ok outcome) :
    Tells d observedAt outcome ∨ otherwise = .ok outcome := by
  unfold orTransportRejected at h
  split at h
  · rename_i reason hreason
    cases h
    exact .inl (.refused hstatus hreason)
  · exact .inr h

theorem cancelledOutcome_message : outcomeMessage (cancelledOutcome d) = d.outbox.messageId ∧
    evidential (cancelledOutcome d) = false := by
  unfold cancelledOutcome
  dsimp only
  split <;> exact ⟨rfl, rfl⟩

theorem unavailableOutcome_message :
    outcomeMessage (unavailableOutcome d) = d.outbox.messageId ∧
      evidential (unavailableOutcome d) = false := by
  unfold unavailableOutcome
  split <;> exact ⟨rfl, rfl⟩

theorem durable_tells (h : durableDeliveryOutcome d observedAt timeout = .ok outcome) :
    Tells d observedAt outcome := by
  have hstatus : ∀ s, d.outbox.status = s → s ≠ .pending → d.outbox.status ≠ .pending :=
    fun s hs hne => hs ▸ hne
  unfold durableDeliveryOutcome at h
  split at h
  -- received, whatever else is recorded
  case h_1 ho _ | h_2 ho _ | h_3 ho _ | h_4 ho _ => exact sentOutcome_ok (hstatus _ ho (by decide)) h
  -- failed: a refusal of the peer comes first
  case h_5 ho _ | h_6 ho _ =>
    rcases orTransportRejected_ok ho h with htold | hother
    · exact htold
    · cases hother
  case h_7 ho hx =>
    rcases orTransportRejected_ok ho h with htold | hother
    · exact htold
    · cases hother
      exact .unwritten rfl rfl (.inr ⟨ho, .inl hx⟩)
  case h_8 ho _ =>
    rcases orTransportRejected_ok ho h with htold | hother
    · exact htold
    · cases hother
      exact .unconfirmed (hstatus _ ho (by decide))
  case h_9 ho _ | h_10 ho _ | h_11 ho _ | h_12 ho _ =>
    cases h
    exact .unconfirmed (hstatus _ ho (by decide))
  case h_13 ho _ | h_14 ho _ | h_15 ho _ | h_16 ho _ | h_17 ho _ =>
    exact sentOutcome_ok (hstatus _ ho (by decide)) h
  case h_18 ho hx =>
    cases h
    exact .unwritten rfl rfl (.inr ⟨ho, .inr hx⟩)
  case h_19 ho _ =>
    cases h
    exact .unwritten cancelledOutcome_message.1 cancelledOutcome_message.2 (.inl ho)
  case h_20 ho _ =>
    cases h
    exact .unwritten unavailableOutcome_message.1 unavailableOutcome_message.2 (.inl ho)
  case h_21 => cases h

/-! ## the write -/

theorem stored_after {o : StoredWireOutbox P} {x : Option (StoredDeliveryAttempt P)}
    (h : MessageWrite l t t' m o x d.outbox (some d.attempt)) : Stored t' m d :=
  ⟨by rw [h.outboxes, if_pos rfl], by rw [h.attempts.seek, if_pos rfl]⟩

/-- what the claim of a prepared message did -/
inductive ClaimEffect (t t' : DeliveryTables P) (m : MessageId) (now : Int) : AfterClaim P → Prop
  | offered {claim : ClaimWireOutbox} {o : StoredWireOutbox P} {x : StoredDeliveryAttempt P}
      {d : StoredOutboundDelivery P} (hm : claim.messageId = m) (hnow : now ≤ claim.claimedAt)
      (hclaimed : Claimed t t' claim o x (.claimed d) d) : ClaimEffect t t' m now (.offer d)
  | refused {claim : ClaimWireOutbox} {o : StoredWireOutbox P} {x : StoredDeliveryAttempt P}
      {d : StoredOutboundDelivery P} {outcome : OutboxClaimOutcome P} {timeout : Nat}
      (hm : claim.messageId = m) (hclaimed : Claimed t t' claim o x outcome d)
      (hcancelled : d.outbox.status = .cancelled) :
      ClaimEffect t t' m now
        (.answered (durableDeliveryOutcome d claim.claimedAt timeout))
  | raced {observedAt : Int} (hsame : t' = t) : ClaimEffect t t' m now (.reload observedAt)
  | failed {error : DeliveryInfrastructureError} (hsame : t' = t) :
      ClaimEffect t t' m now (.answered (.error error))

theorem claimOutbox_claimed {claim : ClaimWireOutbox}
    (h : claimOutbox codec t claim = .ok (.claimed d, t')) :
    ∃ o x, Claimed t t' claim o x (.claimed d) d := by
  obtain ⟨o, x, d', hclaimed, -⟩ := claimOutbox_ok h
  rcases hclaimed.outcome with ⟨hd, -⟩ | ⟨hother | hother | hother, -⟩
  · cases hd
    exact ⟨o, x, hclaimed⟩
  all_goals cases hother

theorem claimOutbox_refused {claim : ClaimWireOutbox} {outcome : OutboxClaimOutcome P}
    (h : claimOutbox codec t claim = .ok (outcome, t'))
    (hrefused : outcome = .expired d ∨ outcome = .sessionUnavailable d ∨
      outcome = .clockUnhealthy d) :
    ∃ o x, Claimed t t' claim o x outcome d ∧ d.outbox.status = .cancelled := by
  obtain ⟨o, x, d', hclaimed, -⟩ := claimOutbox_ok h
  have hcases := hclaimed.outcome
  rcases hcases with ⟨hd, -⟩ | ⟨hd, hcancelled⟩
  · rcases hrefused with hr | hr | hr <;> rw [hr] at hd <;> cases hd
  · have hsame : d' = d := by
      rcases hrefused with rfl | rfl | rfl <;> rcases hd with hd | hd | hd <;> cases hd <;> rfl
    subst hsame
    exact ⟨o, x, hclaimed, hcancelled⟩

theorem serverNow_ok {now now' : Int} (h : serverNow now = .ok now') : now' = now := by
  simp only [serverNow, bind_ok, exists_unit, pure_ok] at h
  exact h.2.symm

theorem claimPrepared_effect (now : Int) :
    ClaimEffect t (claimPrepared codec a t d now).2 d.outbox.messageId now
      (claimPrepared codec a t d now).1 := by
  unfold claimPrepared
  split
  · exact .failed rfl
  · rename_i now' hnow
    rw [serverNow_ok hnow]
    dsimp only
    split
    · rename_i d' t' hclaim
      obtain ⟨o, x, hclaimed⟩ := claimOutbox_claimed hclaim
      exact .offered rfl (le_max_left _ _) hclaimed
    · rename_i d' t' hclaim
      obtain ⟨o, x, hclaimed, hcancelled⟩ := claimOutbox_refused hclaim (.inl rfl)
      exact .refused rfl hclaimed hcancelled
    · rename_i d' t' hclaim
      obtain ⟨o, x, hclaimed, hcancelled⟩ := claimOutbox_refused hclaim (.inr (.inl rfl))
      exact .refused rfl hclaimed hcancelled
    · rename_i d' t' hclaim
      obtain ⟨o, x, hclaimed, hcancelled⟩ := claimOutbox_refused hclaim (.inr (.inr rfl))
      exact .refused rfl hclaimed hcancelled
    · split
      · exact .raced rfl
      · exact .failed rfl

/-- what the completion of a write did -/
inductive WriteEffect (t t' : DeliveryTables P) (m : MessageId) (now : Int)
    (reported : SinkWriteOutcome) : AfterWrite → Prop
  | told {completion : CompleteTransportWrite} {d : StoredOutboundDelivery P} {timeout : Nat}
      (hm : completion.messageId = m) (hnow : now ≤ completion.completedAt)
      (hwrites : Writes (finishLicence completion (writeResult reported).1) t t')
      (hstored : Stored t' m d) :
      WriteEffect t t' m now reported
        (.answered (durableDeliveryOutcome d completion.completedAt timeout))
  | raced {observedAt : Int} (hsame : t' = t) : WriteEffect t t' m now reported (.reload observedAt)
  | failed {error : DeliveryInfrastructureError} (hsame : t' = t) :
      WriteEffect t t' m now reported (.answered (.error error))

theorem finishTransportWrite_stored {completion : CompleteTransportWrite}
    {result : TransportWriteResult}
    (h : finishTransportWrite codec t completion result = .ok (d, t')) :
    Stored t' completion.messageId d := by
  have hread : ∀ {t₁ : DeliveryTables P}, requiredOutboundDelivery codec t₁ completion.messageId
      = .ok d → Stored t₁ completion.messageId d := fun hd =>
    ⟨(requiredOutboundDelivery_ok hd).1, (requiredOutboundDelivery_ok hd).2⟩
  simp only [finishTransportWrite, bind_ok, exists_unit] at h
  obtain ⟨o, ho, x, hx, -, h⟩ := h
  split at h
  · simp only [finishRejected, bind_ok, exists_unit, pure_ok, Prod.mk.injEq] at h
    obtain ⟨-, t₁, -, d', hd, rfl, rfl⟩ := h
    exact hread hd
  · split at h
    · cases h
      exact ⟨requiredOutbox_ok ho, requiredAttemptByMessage_ok hx⟩
    · split at h
      · simp only [finishConfirmed, bind_ok, exists_unit, pure_ok, Prod.mk.injEq] at h
        obtain ⟨-, t₁, -, t₂, -, d', hd, rfl, rfl⟩ := h
        exact hread hd
      · simp only [finishStarted, bind_ok, exists_unit, pure_ok, Prod.mk.injEq] at h
        obtain ⟨-, -, t₁, -, t₂, -, d', hd, rfl, rfl⟩ := h
        exact hread hd

theorem completeWrite_effect (reported : SinkWriteOutcome) (now : Int) :
    WriteEffect t (completeWrite codec a t d reported now).2 d.outbox.messageId now reported
      (completeWrite codec a t d reported now).1 := by
  unfold completeWrite
  split
  · exact .failed rfl
  · rename_i now' hnow
    rw [serverNow_ok hnow]
    dsimp only
    split
    · rename_i d' t' hfinish
      exact .told rfl (le_max_left _ _) (finishTransportWrite_writes hfinish)
        (finishTransportWrite_stored hfinish)
    · split
      · exact .raced rfl
      · exact .failed rfl

end

end Sinan.Gateway
