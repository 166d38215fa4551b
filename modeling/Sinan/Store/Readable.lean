import Sinan.Store.Stranded

/-!
# What is stored can be read

A reader validates the row it finds: an outbox row against its envelope, an attempt against its outbox
row and the payload of its parent, a session against its own times.  `Readable` says that no row is
refused.  It holds of an empty database, every statement keeps it, and so does every transaction that
rewrites no payload of a command or of a run.
-/

set_option linter.unusedSectionVars false

namespace Sinan.Store

open Lib Relation

section
variable {P : Type} [DecidableEq P] {codec : WireCodec P} {t t₁ t' : DeliveryTables P}
  {m : MessageId} {o o' : StoredWireOutbox P} {a a' : StoredDeliveryAttempt P}
  {s : StoredSessionRecord P}

/-- the reader accepts the row, and the schema did -/
structure OutboxSound (codec : WireCodec P) (o : StoredWireOutbox P) : Prop where
  reads : validateStoredWireOutbox codec o.toNewWireOutbox = .ok ()
  check : outboxCheck o = true

structure SessionSound (s : StoredSessionRecord P) : Prop where
  reads : sessionFromRow s = .ok s
  check : sessionCheck s = true

structure Readable (codec : WireCodec P) (t : DeliveryTables P) : Prop where
  outbox : ∀ m o, t.outboxes.get m = some o → OutboxSound codec o
  attempt : ∀ id a, t.attempts.get id = some a → parseAndValidateAttempt codec t a = .ok a
  session : ∀ id s, t.sessions.get id = some s → SessionSound s

/-! ## the readers of a readable table -/

variable {id : SessionId}

theorem requiredOutbox_of (hread : Readable codec t) (h : t.outboxes.get m = some o) :
    requiredOutbox codec t m = .ok o := by
  have hself : wireOutboxFromRow codec o = .ok o := by
    simp only [wireOutboxFromRow, bind_ok, exists_unit, pure_ok, and_true]
    exact (hread.outbox m o h).reads
  simp only [requiredOutbox, fetchWireOutboxById, bind_ok, need_ok]
  refine ⟨some o, ?_, rfl⟩
  rw [h]
  simp only [readRow, bind_ok, pure_ok]
  exact ⟨o, hself, rfl⟩

theorem readAttempt_of (hread : Readable codec t) {id : String}
    (h : t.attempts.get id = some a) :
    readRow (parseAndValidateAttempt codec t) (some a) = .ok (some a) := by
  simp only [readRow, bind_ok, pure_ok]
  exact ⟨a, hread.attempt id a h, rfl⟩

theorem requiredAttemptByMessage_of (hread : Readable codec t) (h : t.attempts.seek m = some a) :
    requiredAttemptByMessage codec t m = .ok a := by
  simp only [requiredAttemptByMessage, fetchDeliveryAttemptByMessage, bind_ok, need_ok]
  refine ⟨some a, ?_, rfl⟩
  rw [h]
  exact readAttempt_of hread (Table.get_of_seek h)

theorem requiredAttempt_of (hread : Readable codec t) {id : String} {missing : StoreError}
    (h : t.attempts.get id = some a) : requiredAttempt codec t id missing = .ok a := by
  simp only [requiredAttempt, fetchDeliveryAttemptById, bind_ok, need_ok]
  refine ⟨some a, ?_, rfl⟩
  rw [h]
  exact readAttempt_of hread h

theorem requiredSession_of (h : t.sessions.get id = some s) (hreads : sessionFromRow s = .ok s) :
    requiredSession t id = .ok s := by
  simp only [requiredSession, fetchSessionById, bind_ok, need_ok]
  refine ⟨some s, ?_, rfl⟩
  rw [h]
  simp only [readRow, bind_ok, pure_ok]
  exact ⟨s, hreads, rfl⟩

theorem requiredSession_reads (h : requiredSession t id = .ok s) :
    sessionFromRow s = .ok s := by
  simp only [requiredSession, fetchSessionById, bind_ok, need_ok] at h
  obtain ⟨found, hfound, rfl⟩ := h
  cases hrow : t.sessions.get id with
  | none =>
    rw [hrow] at hfound
    cases hfound
  | some row =>
    rw [hrow] at hfound
    simp only [readRow, bind_ok, pure_ok, Option.some.injEq] at hfound
    obtain ⟨s', hs', rfl⟩ := hfound
    have hsame := sessionFromRow_self hs'
    subst hsame
    exact hs'

/-! ## what a reader looks at outside of its row -/

/-- the message of the row; only the progress of its delivery may differ -/
def SameMessage (o o' : StoredWireOutbox P) : Prop :=
  o' = { o with
    status := o'.status, revision := o'.revision, updatedAt := o'.updatedAt, sentAt := o'.sentAt,
    ackedAt := o'.ackedAt, lastError := o'.lastError }

/-- no command and no run is deleted or gets another payload -/
structure PayloadsKept (p p' : Parents P) : Prop where
  command : ∀ id r, p.command id = some r → ∃ r', p'.command id = some r' ∧ r'.payload = r.payload
  run : ∀ id r, p.run id = some r → ∃ r', p'.run id = some r' ∧ r'.payload = r.payload

theorem PayloadsKept.refl (p : Parents P) : PayloadsKept p p :=
  ⟨fun _ r h => ⟨r, h, rfl⟩, fun _ r h => ⟨r, h, rfl⟩⟩

theorem SameMessage.refl (o : StoredWireOutbox P) : SameMessage o o := rfl

theorem parentPayload_kept (hparents : PayloadsKept t.parents t'.parents) {w : NewWireOutbox P}
    {payload : Option P} (h : parentPayload t w = .ok payload) : parentPayload t' w = .ok payload := by
  unfold parentPayload at h ⊢
  split at h
  · rename_i commandId _ _
    simp only [bind_ok, need_ok, pure_ok] at h ⊢
    obtain ⟨r, hr, rfl⟩ := h
    obtain ⟨r', hr', hsame⟩ := hparents.command commandId r hr
    exact ⟨r', hr', by rw [hsame]⟩
  · rename_i requestId _ _
    simp only [bind_ok, need_ok, pure_ok] at h ⊢
    obtain ⟨r, hr, rfl⟩ := h
    obtain ⟨r', hr', hsame⟩ := hparents.run requestId r hr
    exact ⟨r', hr', by rw [hsame]⟩
  · exact h

theorem validateOutboxParentPayload_kept (hparents : PayloadsKept t.parents t'.parents)
    (hsame : SameMessage o o') (h : validateOutboxParentPayload codec t o.toNewWireOutbox = .ok ()) :
    validateOutboxParentPayload codec t' o'.toNewWireOutbox = .ok () := by
  rw [hsame]
  simp only [validateOutboxParentPayload, bind_ok] at h ⊢
  obtain ⟨wire, hwire, durable, hdurable, hpayload⟩ := h
  exact ⟨wire, hwire, durable, parentPayload_kept hparents hdurable, hpayload⟩

theorem validateStoredAttempt_ok : validateStoredAttempt codec t a = .ok () ↔
    (a.messageId = none ∧ CommandDeliveryAttemptStatus.bound a.status = false) ∨
    ∃ sessionId m o, a.sessionId = some sessionId ∧ a.messageId = some m ∧
      fetchWireOutboxById codec t m = .ok (some o) ∧
      validateOutboxParentPayload codec t o.toNewWireOutbox = .ok () ∧
      o.sessionId = some sessionId ∧ o.commandId = a.subject.commandId ∧
      o.requestId = a.subject.requestId := by
  unfold validateStoredAttempt
  split
  · rename_i sessionId m hsession hm
    simp only [bind_ok, exists_unit, need_ok, reject_ok, not_or, not_not]
    constructor
    · rintro ⟨found, hfound, o, rfl, hpayload, hbound⟩
      exact .inr ⟨sessionId, m, o, hsession, hm, hfound, hpayload, hbound⟩
    · rintro (⟨hnone, -⟩ | ⟨sessionId', m', o, hsession', hm', hfound, hpayload, hbound⟩)
      · rw [hm] at hnone
        cases hnone
      · rw [hsession] at hsession'
        rw [hm] at hm'
        cases hsession'
        cases hm'
        exact ⟨some o, hfound, o, rfl, hpayload, hbound⟩
  · rename_i m hsession hm
    constructor
    · intro h
      cases h
    · rintro (⟨hnone, -⟩ | ⟨sessionId, -, -, hsession', -⟩)
      · rw [hm] at hnone
        cases hnone
      · rw [hsession] at hsession'
        cases hsession'
  · rename_i hm
    rw [reject_ok, Bool.not_eq_true]
    constructor
    · exact fun hbound => .inl ⟨hm, hbound⟩
    · rintro (⟨-, hbound⟩ | ⟨-, m, -, -, hm', -⟩)
      · exact hbound
      · rw [hm] at hm'
        cases hm'

theorem Readable.bound (hread : Readable codec t) {id : String} (h : t.attempts.get id = some a)
    (hm : a.messageId = some m) : ∃ o, t.outboxes.get m = some o := by
  have hparse := hread.attempt id a h
  simp only [parseAndValidateAttempt, bind_ok, exists_unit, pure_ok] at hparse
  obtain ⟨b, hb, hbinding, rfl⟩ := hparse
  rcases validateStoredAttempt_ok.mp hbinding with ⟨hnone, -⟩ | ⟨-, m', o, -, hm', hfound, -⟩
  · rw [hm] at hnone
    cases hnone
  · rw [hm] at hm'
    cases hm'
    exact ⟨o, (fetchWireOutboxById_ok hfound).symm⟩

/-- no message is lost and none becomes unreadable -/
structure MessagesKept (codec : WireCodec P) (t t' : DeliveryTables P) : Prop where
  outbox : ∀ m o, t.outboxes.get m = some o →
    ∃ o', t'.outboxes.get m = some o' ∧ SameMessage o o' ∧ OutboxSound codec o'
  parents : PayloadsKept t.parents t'.parents

theorem MessagesKept.found (h : MessagesKept codec t t')
    (hfound : fetchWireOutboxById codec t m = .ok (some o)) :
    ∃ o', fetchWireOutboxById codec t' m = .ok (some o') ∧ SameMessage o o' := by
  obtain ⟨o', ho', hsame, hsound⟩ := h.outbox m o (fetchWireOutboxById_ok hfound).symm
  refine ⟨o', ?_, hsame⟩
  simp only [fetchWireOutboxById, ho', readRow, wireOutboxFromRow, bind_ok, exists_unit, pure_ok]
  exact ⟨o', ⟨hsound.reads, rfl⟩, rfl⟩

theorem MessagesKept.binding (h : MessagesKept codec t t') (hsession : a'.sessionId = a.sessionId)
    (hm : a'.messageId = a.messageId) (hsubject : a'.subject = a.subject)
    (hstatus : a.messageId = none → CommandDeliveryAttemptStatus.bound a'.status = false)
    (hbinding : validateStoredAttempt codec t a = .ok ()) :
    validateStoredAttempt codec t' a' = .ok () := by
  rw [validateStoredAttempt_ok] at hbinding ⊢
  rcases hbinding with ⟨hnone, -⟩ | ⟨sessionId, m, o, hs, hm', hfound, hpayload, hroute⟩
  · exact .inl ⟨hm.trans hnone, hstatus hnone⟩
  · obtain ⟨o', hfound', hsame⟩ := h.found hfound
    refine .inr ⟨sessionId, m, o', hsession.trans hs, hm.trans hm', hfound',
      validateOutboxParentPayload_kept h.parents hsame hpayload, ?_⟩
    rw [hsame, hsubject]
    exact hroute

theorem MessagesKept.parses (h : MessagesKept codec t t')
    (hparse : parseAndValidateAttempt codec t a = .ok a) :
    parseAndValidateAttempt codec t' a = .ok a := by
  simp only [parseAndValidateAttempt, bind_ok, exists_unit, pure_ok] at hparse ⊢
  obtain ⟨b, hb, hbinding, rfl⟩ := hparse
  refine ⟨b, hb, h.binding rfl rfl rfl (fun hnone => ?_) hbinding, rfl⟩
  rcases validateStoredAttempt_ok.mp hbinding with ⟨-, hstatus⟩ | ⟨-, m, -, -, hm, -⟩
  · exact hstatus
  · rw [hnone] at hm
    cases hm

theorem MessagesKept.same (hread : Readable codec t) (houtboxes : t'.outboxes = t.outboxes)
    (hparents : t'.parents = t.parents) : MessagesKept codec t t' :=
  ⟨fun m o h => ⟨o, houtboxes ▸ h, .refl o, hread.outbox m o h⟩, hparents ▸ .refl t.parents⟩

/-! ## the times of a row -/

variable {time : Int}

theorem foldl_latest_le {base latest : Int} {times : List (Option Int)} :
    times.foldl (fun latest time => max latest (time.getD base)) latest ≤ time ↔
      latest ≤ time ∧ ∀ x ∈ times, x.getD base ≤ time := by
  induction times generalizing latest with
  | nil => exact ⟨fun h => ⟨h, fun _ hx => absurd hx List.not_mem_nil⟩, fun h => h.1⟩
  | cons x times ih =>
    rw [List.foldl_cons, ih, max_le_iff, List.forall_mem_cons, and_assoc]

theorem latestOf_le {base : Int} {times : List (Option Int)} :
    latestOf base times ≤ time ↔ base ≤ time ∧ ∀ x ∈ times, x.all (fun t => t ≤ time) = true := by
  unfold latestOf
  rw [foldl_latest_le]
  refine and_congr_right fun hbase => forall₂_congr fun x _ => ?_
  cases x with
  | none => exact ⟨fun _ => rfl, fun _ => hbase⟩
  | some t => rw [Option.getD_some, Option.all_some, decide_eq_true_eq]

theorem outboxLatest_le : outboxLatest o ≤ time ↔ o.createdAt ≤ time ∧
    o.sentAt.all (fun t => t ≤ time) = true ∧ o.ackedAt.all (fun t => t ≤ time) = true := by
  unfold outboxLatest
  rw [latestOf_le, List.forall_mem_cons, List.forall_mem_cons]
  simp only [List.not_mem_nil, false_imp_iff, implies_true, and_true]

theorem attemptLatest_le : attemptLatest a ≤ time ↔ a.attemptedAt ≤ time ∧
    a.ackedAt.all (fun t => t ≤ time) = true := by
  unfold attemptLatest
  rw [latestOf_le, List.forall_mem_cons]
  simp only [List.not_mem_nil, false_imp_iff, implies_true, and_true]

theorem sessionLatest_le : sessionLatest s ≤ time ↔ s.connectedAt ≤ time ∧
    s.lastHeartbeatAt.all (fun t => t ≤ time) = true ∧
    s.lastTimeSyncAt.all (fun t => t ≤ time) = true ∧
    s.disconnectedAt.all (fun t => t ≤ time) = true := by
  unfold sessionLatest
  rw [latestOf_le, List.forall_mem_cons, List.forall_mem_cons, List.forall_mem_cons]
  simp only [List.not_mem_nil, false_imp_iff, implies_true, and_true]

/-! ## statements keep the tables readable -/

theorem OutboxSound.restated (h : OutboxSound codec o) (hsame : SameMessage o o')
    (htime : o'.createdAt ≤ o'.updatedAt) (hcheck : outboxCheck o' = true) :
    OutboxSound codec o' := by
  refine ⟨?_, hcheck⟩
  have hreads := h.reads
  rw [hsame] at htime ⊢
  simp only [validateStoredWireOutbox, bind_ok, exists_unit, reject_ok] at hreads ⊢
  obtain ⟨wire, hwire, hidentity, hsubject, -⟩ := hreads
  exact ⟨wire, hwire, hidentity, hsubject, not_lt.mpr htime⟩

theorem updateOutboxState_readable {current : StoredWireOutbox P} {status : WireOutboxStatus}
    {updatedAt : Int} {sentAt ackedAt : Option Int} {error : Option String}
    (hread : Readable codec t)
    (h : updateOutboxState t current status updatedAt sentAt ackedAt error = .ok t') :
    Readable codec t' := by
  simp only [updateOutboxState, bind_ok, need_ok, exists_unit, pure_ok, sqlGuard_ok,
    Option.filter_eq_some_iff] at h
  obtain ⟨next, -, row, ⟨hrow, -⟩, hguard, outboxes, hput, rfl⟩ := h
  simp only [outboxMayChange, Bool.and_eq_true, decide_eq_true_eq] at hguard
  obtain ⟨⟨-, hlatest⟩, hcheck⟩ := hguard
  have hself : t.outboxes.get row.messageId = some row := Table.get_self hrow
  have hsame : SameMessage row { row with
      status := status, revision := next, updatedAt := updatedAt, sentAt := sentAt,
      ackedAt := ackedAt, lastError := error } := rfl
  have hsound := (hread.outbox _ row hrow).restated hsame
    (le_trans (createdAt_le_latest _) hlatest) hcheck
  have hget := Table.get_put hput hself
  have hkept : MessagesKept codec t { t with outboxes := outboxes } := by
    refine ⟨fun m o ho => ?_, .refl t.parents⟩
    dsimp only
    rw [hget]
    by_cases hm : row.messageId = m
    · rw [if_pos hm]
      rw [← hm, hself] at ho
      cases ho
      exact ⟨_, rfl, rfl, hsound⟩
    · rw [if_neg hm]
      exact ⟨o, ho, .refl o, hread.outbox m o ho⟩
  refine ⟨fun m o ho => ?_, fun id a ha => hkept.parses (hread.attempt id a ha), hread.session⟩
  dsimp only at ho
  rw [hget] at ho
  split at ho
  · cases ho
    exact hsound
  · exact hread.outbox m o ho

/-- what the schema accepts the reader accepts, but for a reason of blanks the schema does not know -/
theorem attempt_reads (hlatest : attemptLatest a ≤ a.updatedAt) (hcheck : attemptCheck a = true)
    (hreason : a.status = .unconfirmed → a.error.all blank = false) :
    deliveryAttemptFromRow a = .ok a := by
  simp only [attemptCheck, Bool.and_eq_true, beq_iff_eq, Bool.or_eq_true, Bool.not_eq_true'] at hcheck
  obtain ⟨⟨⟨-, hacked⟩, hcommand⟩, -⟩ := hcheck
  simp only [deliveryAttemptFromRow, bind_ok, exists_unit, pure_ok, reject_ok, and_true]
  refine ⟨?_, ?_, ?_⟩
  · rintro (hlt | hne)
    · exact absurd (attemptLatest_le.mp hlatest).1 (not_le.mpr hlt)
    · exact hne hacked
  · rintro ⟨hstatus, hnone⟩
    rcases hcommand with hother | hsome
    · rw [beq_eq_false_iff_ne] at hother
      exact hother hstatus
    · rw [hnone] at hsome
      cases hsome
  · rintro ⟨hstatus, hblank⟩
    rw [hreason hstatus] at hblank
    cases hblank

theorem updateAttemptState_readable {current : StoredDeliveryAttempt P}
    {status : CommandDeliveryAttemptStatus} {updatedAt : Int} {ackedAt : Option Int}
    {error : Option String} (hread : Readable codec t)
    (hreason : status = .unconfirmed → error.all blank = false)
    (h : updateAttemptState t current status updatedAt ackedAt error = .ok t') :
    Readable codec t' := by
  simp only [updateAttemptState, bind_ok, need_ok, exists_unit, pure_ok, sqlGuard_ok,
    Option.filter_eq_some_iff] at h
  obtain ⟨next, -, row, ⟨hrow, -⟩, hguard, attempts, hput, rfl⟩ := h
  simp only [attemptMayChange, Bool.and_eq_true, decide_eq_true_eq] at hguard
  obtain ⟨⟨-, hlatest⟩, hcheck⟩ := hguard
  have hself : t.attempts.get row.attemptId = some row := Table.get_self hrow
  have hkept : MessagesKept codec t { t with attempts := attempts } := .same hread rfl rfl
  refine ⟨hread.outbox, fun id a ha => ?_, hread.session⟩
  dsimp only at ha
  rw [Table.get_put hput hself] at ha
  split at ha
  · cases ha
    have hparse := hread.attempt _ row hself
    simp only [parseAndValidateAttempt, bind_ok, exists_unit, pure_ok] at hparse ⊢
    obtain ⟨b, hb, hbinding, rfl⟩ := hparse
    refine ⟨_, attempt_reads hlatest hcheck hreason, hkept.binding (a := b) rfl rfl rfl ?_ hbinding, rfl⟩
    intro hnone
    simp only [attemptCheck, Bool.and_eq_true, Bool.or_eq_true, Bool.not_eq_true'] at hcheck
    rcases hcheck.1.1.1.2 with hunbound | ⟨-, hsome⟩
    · exact hunbound
    · rw [hnone] at hsome
      cases hsome
  · exact hkept.parses (hread.attempt id a ha)

theorem updateActiveSession_readable {revision : Nat}
    {change : StoredSessionRecord P → StoredSessionRecord P} (hread : Readable codec t)
    (h : updateActiveSession t id revision change = .ok t')
    (hreads : ∀ s', t'.sessions.get id = some s' → sessionFromRow s' = .ok s') :
    Readable codec t' := by
  simp only [updateActiveSession, bind_ok, need_ok, exists_unit, pure_ok, sqlGuard_ok,
    Option.filter_eq_some_iff] at h
  obtain ⟨row, ⟨hrow, -⟩, hguard, sessions, hput, rfl⟩ := h
  simp only [sessionMayChange, Bool.and_eq_true] at hguard
  have hself : t.sessions.get row.sessionId = some row := Table.get_self hrow
  have hid : row.sessionId = id := by
    have hkey := Table.key_of_get hrow
    exact hkey
  have hkept : MessagesKept codec t { t with sessions := sessions } := .same hread rfl rfl
  refine ⟨hread.outbox, fun id a ha => hkept.parses (hread.attempt id a ha), fun k s hs => ?_⟩
  dsimp only at hs
  by_cases hk : id = k
  · subst hk
    refine ⟨hreads s hs, ?_⟩
    rw [Table.get_put hput hself, if_pos hid] at hs
    cases hs
    exact hguard.2
  · rw [Table.get_put hput hself, if_neg (hid ▸ hk)] at hs
    exact hread.session k s hs

end

end Sinan.Store
