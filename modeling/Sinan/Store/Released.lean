import Sinan.Store.Chains

/-!
# Sessions, the fence and new rows as moves

The loops over the messages of a session read their list first and then update row after row.  An
element is still in the state it was selected in when its turn comes, because a step touches one
message only and the list has no duplicates.
-/

set_option linter.unusedSectionVars false

namespace Sinan.Store

open Lib Relation

/-- the licence of the startup fence -/
def fenceLicence (fencedAt : Int) : Licence :=
  { Licence.none with evidence := fun _ time => time = fencedAt, sessions := True }

/-- the licence of a call that registers, changes or ends sessions -/
def sessionLicence : Licence := { Licence.none with sessions := True }

section
variable {P : Type} [DecidableEq P] {codec : WireCodec P} {t t' : DeliveryTables P} {l : Licence}
  {m : MessageId} {o : StoredWireOutbox P} {k : MessageId} {o' : StoredWireOutbox P}

theorem MessageWrite.outbox_ne {a a' : Option (StoredDeliveryAttempt P)}
    (h : MessageWrite l t t' m o a o' a') (hk : k ≠ m) :
    t'.outboxes.get k = t.outboxes.get k := by
  rw [h.outboxes, if_neg (Ne.symm hk)]

theorem MessageWrite.attempt_ne {a a' : Option (StoredDeliveryAttempt P)}
    (h : MessageWrite l t t' m o a o' a') (hk : k ≠ m) :
    t'.attempts.seek k = t.attempts.seek k := by
  rw [h.attempts.seek, if_neg (Ne.symm hk)]

theorem mem_inOrder {ρ : Type} {time : ρ → Int} {id : ρ → String} {rows : List ρ} {r : ρ} :
    r ∈ inOrder time id rows ↔ r ∈ rows :=
  (List.perm_insertionSort _ rows).mem_iff

theorem nodup_inOrder_map {ρ : Type} {time : ρ → Int} {id key : ρ → String} {rows : List ρ}
    {keep : ρ → Bool} (h : (rows.map key).Nodup) :
    ((inOrder time id (rows.filter keep)).map key).Nodup := by
  have hperm := (List.perm_insertionSort
    (fun x y => time x < time y ∨ (time x = time y ∧ id x ≤ id y)) (rows.filter keep)).map key
  refine hperm.nodup_iff.mpr (h.sublist ?_)
  exact (List.filter_sublist).map key

theorem foldlM_writes {σ α : Type} (tables : σ → DeliveryTables P) (Ready : σ → α → Prop)
    {f : σ → α → StoreCheck σ}
    (hstep : ∀ b x b', Ready b x → f b x = .ok b' →
      Writes l (tables b) (tables b') ∧ ∀ y, y ≠ x → Ready b y → Ready b' y) {xs : List α}
    (hnodup : xs.Nodup) {b r : σ} (hready : ∀ x ∈ xs, Ready b x) (h : xs.foldlM f b = .ok r) :
    Writes l (tables b) (tables r) := by
  have hrefl : ∀ b, Writes l (tables b) (tables b) := fun _ => .refl
  have htrans : ∀ {b c d}, Writes l (tables b) (tables c) → Writes l (tables c) (tables d) →
      Writes l (tables b) (tables d) := fun h₁ h₂ => ReflTransGen.trans h₁ h₂
  exact foldlM_chain (R := fun b r => Writes l (tables b) (tables r)) hrefl htrans hstep hnodup
    hready h

/-! ## pending messages -/

/-- the message of this outbox status has a pending attempt -/
def PendingIn (outboxFits : WireOutboxStatus → Prop) (t : DeliveryTables P) (m : MessageId) :
    Prop :=
  ∃ o a, t.outboxes.get m = some o ∧ outboxFits o.status ∧ t.attempts.seek m = some a ∧
    a.status = .pending

theorem PendingIn.kept {outboxFits : WireOutboxStatus → Prop}
    {a a' : Option (StoredDeliveryAttempt P)} (h : MessageWrite l t t' m o a o' a') (hk : k ≠ m)
    (hready : PendingIn outboxFits t k) :
    PendingIn outboxFits t' k := by
  obtain ⟨ok, ak, hget, hfits, hseek, hstatus⟩ := hready
  exact ⟨ok, ak, by rw [h.outbox_ne hk]; exact hget, hfits, by rw [h.attempt_ne hk]; exact hseek,
    hstatus⟩

variable {sessionId : SessionId} {fits : StoredWireOutbox P → Bool} {changedAt : Int}
  {error : String}

theorem sessionMessages_pending (outboxFits : WireOutboxStatus → Prop)
    (hfits : ∀ o, fits o = true → outboxFits o.status) :
    ∀ m ∈ sessionMessages t sessionId fits, PendingIn outboxFits t m := by
  intro m hm
  obtain ⟨o, ho, rfl⟩ := List.mem_map.mp hm
  obtain ⟨hmem, hkeep⟩ := List.mem_filter.mp (mem_inOrder.mp ho)
  simp only [Bool.and_eq_true, Option.any_eq_true] at hkeep
  obtain ⟨⟨-, hfit⟩, a, ha, hstatus⟩ := hkeep
  exact ⟨o, a, Table.get_eq_some.mpr ⟨hmem, rfl⟩, hfits o hfit, ha, eq_of_beq hstatus⟩

theorem sessionMessages_nodup :
    (sessionMessages t sessionId fits).Nodup :=
  nodup_inOrder_map t.outboxes.keyed

theorem cancelPendingDelivery_ok (hready : PendingIn (· = .pending) t m)
    (h : cancelPendingDelivery codec changedAt error t m = .ok t') :
    ∃ o a o' a', MessageWrite l t t' m o (some a) o' (some a') ∧
      (o.status = .pending ∧ a.status = .pending) ∧ a'.status = .cancelled := by
  obtain ⟨o, a, hget, hpending, hseek, hstatus⟩ := hready
  simp only [cancelPendingDelivery, bind_ok, exists_unit] at h
  obtain ⟨o₁, ho, a₁, ha, -, t₁, h₁, h₂⟩ := h
  have ho' := requiredOutbox_ok ho
  have ha' := requiredAttemptByMessage_ok ha
  rw [hget] at ho'
  rw [hseek] at ha'
  cases ho'
  cases ha'
  exact ⟨_, _, _, _, pair_write hget hseek h₁ h₂ fun ho ha =>
    .cancel ho ha ⟨hpending, hstatus⟩ ⟨rfl, .inl rfl⟩, ⟨hpending, hstatus⟩, rfl⟩

theorem cancelSessionPendingDeliveries_writes {n : Nat}
    (h : cancelSessionPendingDeliveries codec t sessionId changedAt error = .ok (n, t')) :
    Writes l t t' := by
  simp only [cancelSessionPendingDeliveries, bind_ok, pure_ok, Prod.mk.injEq] at h
  obtain ⟨t₁, hfold, -, rfl⟩ := h
  refine foldlM_writes id (PendingIn (· = .pending)) ?_ sessionMessages_nodup
    (sessionMessages_pending (· = .pending) fun _ h => eq_of_beq h) hfold
  intro s m s' hready hstep
  obtain ⟨o, a, o', a', hwrite, -⟩ := cancelPendingDelivery_ok hready hstep
  exact ⟨.single (.message hwrite), fun k hk => PendingIn.kept hwrite hk⟩

theorem settleRejectedAttempt_ok (hready : PendingIn (· = .failed) t m)
    (h : settleRejectedAttempt codec changedAt t m = .ok t') :
    ∃ o a a', MessageWrite l t t' m o (some a) o (some a') ∧ a.status = .pending ∧
      transportRejected o = true ∧ a'.status = .sent := by
  obtain ⟨o, a, hget, hfailed, hseek, hstatus⟩ := hready
  simp only [settleRejectedAttempt, bind_ok, need_ok, exists_unit, reject_ok,
    Bool.not_eq_false] at h
  obtain ⟨o₁, ho, a₁, ha, reason, hreason, hlabel, h₁⟩ := h
  have ho' := requiredOutbox_ok ho
  have ha' := requiredAttemptByMessage_ok ha
  rw [hget] at ho'
  rw [hseek] at ha'
  cases ho'
  cases ha'
  have hrejected : transportRejected o = true := by
    unfold transportRejected
    rw [hfailed, hreason, hlabel]
    rfl
  exact ⟨_, _, _, attempt_write hget hseek h₁ fun ha => .settled ha hrejected hstatus rfl, hstatus,
    hrejected, rfl⟩

theorem rejected_failed (o : StoredWireOutbox P)
    (h : (o.status == .failed && likeRejected o.lastError) = true) : o.status = .failed := by
  rw [Bool.and_eq_true] at h
  exact eq_of_beq h.1

theorem settleRejectedPendingAttempts_writes {n : Nat}
    (h : settleRejectedPendingAttempts codec t sessionId changedAt = .ok (n, t')) :
    Writes l t t' := by
  simp only [settleRejectedPendingAttempts, bind_ok, pure_ok, Prod.mk.injEq] at h
  obtain ⟨t₁, hfold, -, rfl⟩ := h
  refine foldlM_writes id (PendingIn (· = .failed)) ?_ sessionMessages_nodup
    (sessionMessages_pending (· = .failed) rejected_failed) hfold
  intro s m s' hready hstep
  obtain ⟨o, a, a', hwrite, -⟩ := settleRejectedAttempt_ok hready hstep
  exact ⟨.single (.message hwrite), fun k hk => PendingIn.kept hwrite hk⟩

/-! ## written messages -/

/-- the message was, or may have been, written and nothing was heard of it -/
def writtenPair (o : StoredWireOutbox P) (a : StoredDeliveryAttempt P) : Bool :=
  a.status == .sent && o.status != .failed ||
  a.status == .pending && (o.status == .writeStarted || o.status == .sent || o.status == .acked)

variable {a : StoredDeliveryAttempt P}

theorem writtenPair_open (h : writtenPair o a = true) :
    a.status = .sent ∨ (a.status = .pending ∧ o.status ≠ .pending ∧ o.status ≠ .cancelled) := by
  simp only [writtenPair, Bool.or_eq_true, Bool.and_eq_true, beq_iff_eq] at h
  rcases h with ⟨hsent, -⟩ | ⟨hpending, hwritten⟩
  · exact .inl hsent
  · refine .inr ⟨hpending, ?_, ?_⟩ <;> rcases hwritten with (hw | hw) | hw <;> rw [hw] <;> decide

/-- the attempt is in the table and was, or may have been, written -/
def WrittenIn (t : DeliveryTables P) (a : StoredDeliveryAttempt P) : Prop :=
  ∃ m o, a.messageId = some m ∧ t.attempts.get a.attemptId = some a ∧
    t.outboxes.get m = some o ∧ writtenPair o a = true

theorem attemptWritten_iff (hm : a.messageId = some m) (ho : t.outboxes.get m = some o) :
    attemptWritten t sessionId a = (a.sessionId == some sessionId && writtenPair o a) := by
  unfold attemptWritten writtenPair
  dsimp only
  rw [hm, Option.bind_some, ho, Option.any_some, Option.any_some]

theorem attemptWritten_ok (hmem : a ∈ t.attempts.rows) (h : attemptWritten t sessionId a = true) :
    WrittenIn t a := by
  have hget : t.attempts.get a.attemptId = some a := Table.get_eq_some.mpr ⟨hmem, rfl⟩
  have hfound : ∃ m o, a.messageId = some m ∧ t.outboxes.get m = some o := by
    simp only [attemptWritten, Bool.and_eq_true, Bool.or_eq_true, Option.any_eq_true,
      Option.bind_eq_some_iff] at h
    rcases h.2 with ⟨-, o, ⟨m, hm, ho⟩, -⟩ | ⟨-, o, ⟨m, hm, ho⟩, -⟩ <;> exact ⟨m, o, hm, ho⟩
  obtain ⟨m, o, hm, ho⟩ := hfound
  rw [attemptWritten_iff hm ho, Bool.and_eq_true] at h
  exact ⟨m, o, hm, hget, ho, h.2⟩

theorem unconfirmAttempt_ok {acc acc' : List (StoredDeliveryAttempt P) × DeliveryTables P}
    (hready : WrittenIn acc.2 a) (h : unconfirmAttempt codec changedAt error acc a = .ok acc') :
    (∃ m o a', a.messageId = some m ∧ MessageWrite l acc.2 acc'.2 m o (some a) o (some a') ∧
      writtenPair o a = true ∧ a'.status = .unconfirmed) ∧ ∀ b, b ≠ a → WrittenIn acc.2 b → WrittenIn acc'.2 b := by
  obtain ⟨m, o, hm, hgot, hget, hopen⟩ := hready
  simp only [unconfirmAttempt, bind_ok, exists_unit, pure_ok] at h
  obtain ⟨-, t₁, h₁, updated, -, rfl⟩ := h
  have hseek := Table.seek_of_get hgot hm
  have hwrite := attempt_write (l := l) hget hseek h₁ fun ha =>
    .unconfirmed ha (writtenPair_open hopen) rfl
  refine ⟨⟨m, o, _, hm, hwrite, hopen, rfl⟩, ?_⟩
  rintro b hb ⟨k, ok, hk, hgotb, hgetb, hopenb⟩
  -- another attempt is one of another message, whose rows stay
  have hne : k ≠ m := by
    intro heq
    have hseekb := Table.seek_of_get hgotb hk
    rw [heq, hseek] at hseekb
    cases hseekb
    exact hb rfl
  obtain ⟨b', hb', hsame⟩ := hwrite.attempts.kept _ _ hgotb
  have hbb : b' = b := by
    rcases hsame with hsame | ⟨hab, -⟩
    · exact hsame
    · cases hab
      exact absurd rfl hb
  rw [hbb] at hb'
  exact ⟨k, ok, hk, hb', by rw [hwrite.outbox_ne hne]; exact hgetb, hopenb⟩

variable {attempts : List (StoredDeliveryAttempt P)}

theorem unconfirmSessionAttempts_rows
    (h : unconfirmSessionAttempts codec t sessionId changedAt error = .ok (attempts, t')) :
    ∃ rows, rows = inOrder (fun a => a.attemptedAt) (fun a => a.attemptId)
        (t.attempts.rows.filter (attemptWritten t sessionId)) ∧ rows.Nodup ∧
      (∀ a ∈ rows, WrittenIn t a) ∧
      rows.foldlM (unconfirmAttempt codec changedAt error) ([], t) = .ok (attempts, t') := by
  simp only [unconfirmSessionAttempts, bind_ok] at h
  obtain ⟨rows, hrows, hfold⟩ := h
  have hself := collect_self (fun _ _ => parseAndValidateAttempt_self) hrows
  refine ⟨rows, hself, ?_, fun a ha => ?_, hfold⟩
  · rw [hself]
    exact List.Nodup.of_map _ (nodup_inOrder_map t.attempts.keyed)
  · rw [hself] at ha
    obtain ⟨hmem, hkeep⟩ := List.mem_filter.mp (mem_inOrder.mp ha)
    exact attemptWritten_ok hmem hkeep

theorem unconfirmSessionAttempts_writes
    (h : unconfirmSessionAttempts codec t sessionId changedAt error = .ok (attempts, t')) :
    Writes l t t' := by
  obtain ⟨rows, -, hnodup, hready, hfold⟩ := unconfirmSessionAttempts_rows h
  refine foldlM_writes Prod.snd (fun acc a => WrittenIn acc.2 a) ?_ hnodup hready hfold
  intro acc a acc' hwritten hstep
  obtain ⟨⟨m, o, a', -, hwrite, -⟩, hrest⟩ := unconfirmAttempt_ok hwritten hstep
  exact ⟨.single (.message hwrite), hrest⟩

/-! ## the session row -/

variable {s : StoredSessionRecord P} {status : SessionStatus} {session : NewSessionRecord P}

theorem transitionSessionStatus_writes (hl : l.sessions)
    (h : transitionSessionStatus t s status changedAt = .ok t') : Writes l t t' := by
  simp only [transitionSessionStatus, bind_ok] at h
  obtain ⟨next, -, h⟩ := h
  exact updateActiveSession_writes hl h

theorem releaseSession_writes (hl : l.sessions) {outcome : SessionDisconnectOutcome P}
    (h : releaseSession codec t s status changedAt error = .ok (outcome, t')) : Writes l t t' := by
  simp only [releaseSession, bind_ok, pure_ok, Prod.mk.injEq] at h
  obtain ⟨⟨n, t₁⟩, h₁, ⟨as, t₂⟩, h₂, ⟨n', t₃⟩, h₃, t₄, h₄, -, -, -, rfl⟩ := h
  exact (settleRejectedPendingAttempts_writes h₁).trans
    ((unconfirmSessionAttempts_writes h₂).trans
      ((cancelSessionPendingDeliveries_writes h₃).trans (transitionSessionStatus_writes hl h₄)))

theorem closeSession_writes (hl : l.sessions) {update : SessionStatusUpdate}
    {outcome : SessionDisconnectOutcome P}
    (h : closeSession codec t update status = .ok (outcome, t')) : Writes l t t' := by
  simp only [closeSession, bind_ok, exists_unit] at h
  obtain ⟨-, current, -, -, -, h⟩ := h
  exact releaseSession_writes hl h

theorem closeExactSession_writes (hl : l.sessions) {update : ExactSessionClose}
    {outcome : SessionDisconnectOutcome P}
    (h : closeExactSession codec t update status = .ok (outcome, t')) : Writes l t t' := by
  simp only [closeExactSession, bind_ok, exists_unit] at h
  obtain ⟨-, current, -, h⟩ := h
  split at h
  · simp only [pure_ok, Prod.mk.injEq] at h
    rw [← h.2]
  · exact releaseSession_writes hl h

theorem insertSession_writes (hl : l.sessions) (h : insertSession t session = .ok (some t')) :
    Writes l t t' := by
  simp only [insertSession, bind_ok, exists_unit] at h
  obtain ⟨-, -, h⟩ := h
  split at h
  · simp only [pure_ok] at h
    cases h
  · rename_i sessions hinsert
    simp only [pure_ok, Option.some.injEq] at h
    subst h
    refine .single (.session hl rfl rfl rfl fun id s hs => ?_)
    exact ⟨s, Table.get_insert_of_some hinsert hs, .inl rfl⟩

theorem insertSessionRecord_writes (hl : l.sessions)
    {outcome : WriteOutcome (StoredSessionRecord P)}
    (h : insertSessionRecord t session = .ok (outcome, t')) : Writes l t t' := by
  simp only [insertSessionRecord, bind_ok, exists_unit] at h
  obtain ⟨-, inserted, hinserted, h⟩ := h
  split at h
  · simp only [pure_ok, Prod.mk.injEq] at h
    obtain ⟨-, rfl⟩ := h
    exact insertSession_writes hl hinserted
  · simp only [bind_ok] at h
    obtain ⟨existing, -, h⟩ := h
    unfold sessionDuplicate at h
    split at h
    · split at h
      · cases h
        exact .refl
      · cases h
    · cases h

theorem insertReplacement_writes (hl : l.sessions) {replaced : Option (StoredSessionRecord P)}
    {unconfirmed : List (StoredDeliveryAttempt P)} {outcome : SessionReplacement P}
    (h : insertReplacement t session replaced unconfirmed = .ok (outcome, t')) :
    Writes l t t' := by
  simp only [insertReplacement, bind_ok, pure_ok, Prod.mk.injEq] at h
  obtain ⟨⟨w, t₁⟩, h₁, -, rfl⟩ := h
  exact insertSessionRecord_writes hl h₁

theorem replaceActiveSession_writes (hl : l.sessions) {outcome : SessionReplacement P}
    (h : replaceActiveSession codec t session = .ok (outcome, t')) : Writes l t t' := by
  simp only [replaceActiveSession, bind_ok, exists_unit] at h
  obtain ⟨-, active, -, h⟩ := h
  unfold replaceActive at h
  split at h
  · exact insertReplacement_writes hl h
  · split at h
    · split at h
      · cases h
        exact .refl
      · cases h
    · simp only [replaceExisting, bind_ok, exists_unit, need_ok] at h
      obtain ⟨-, ⟨n, t₁⟩, h₁, ⟨n', t₂⟩, h₂, ⟨as, t₃⟩, h₃, t₄, h₄, found, -, replaced, -, h⟩ := h
      exact (settleRejectedPendingAttempts_writes h₁).trans
        ((cancelSessionPendingDeliveries_writes h₂).trans
          ((unconfirmSessionAttempts_writes h₃).trans
            ((transitionSessionStatus_writes hl h₄).trans (insertReplacement_writes hl h))))
  · cases h

theorem updateSessionHeartbeat_writes (hl : l.sessions) {update : SessionHeartbeatUpdate}
    (h : updateSessionHeartbeat t update = .ok (s, t')) :
    Writes l t t' := by
  simp only [updateSessionHeartbeat, bind_ok, exists_unit, pure_ok, Prod.mk.injEq] at h
  obtain ⟨_, -, -, -, _, -, -, _, -, t₁, h₁, -, -, -, rfl⟩ := h
  exact updateActiveSession_writes hl h₁

theorem invalidateSessionClock_writes (hl : l.sessions) {update : SessionClockInvalidation}
    (h : invalidateSessionClock t update = .ok (s, t')) :
    Writes l t t' := by
  simp only [invalidateSessionClock, bind_ok, exists_unit, pure_ok, Prod.mk.injEq] at h
  obtain ⟨_, -, -, -, _, -, t₁, h₁, -, -, -, rfl⟩ := h
  exact updateActiveSession_writes hl h₁

theorem advanceSequence_writes (hl : l.sessions) {reservedAt : Int} {r : ControlOutboundReservation}
    (h : advanceSequence t s reservedAt = .ok (r, t')) :
    Writes l t t' := by
  simp only [advanceSequence, bind_ok, pure_ok, Prod.mk.injEq] at h
  obtain ⟨_, -, _, -, t₁, h₁, -, rfl⟩ := h
  exact updateActiveSession_writes hl h₁

theorem reserveOutboundSequence_writes (hl : l.sessions) {request : ReserveOutboundSequence}
    {r : SequenceReservation} (h : reserveOutboundSequence t request = .ok (r, t')) :
    Writes l t t' := by
  simp only [reserveOutboundSequence, bind_ok] at h
  obtain ⟨s, -, h⟩ := h
  split at h
  · simp only [pure_ok, Prod.mk.injEq] at h
    rw [← h.2]
  · split at h
    · simp only [pure_ok, Prod.mk.injEq] at h
      rw [← h.2]
    · simp only [bind_ok, exists_unit] at h
      obtain ⟨-, rejection, -, h⟩ := h
      unfold reserveRouted at h
      split at h
      · cases h
        exact .refl
      · unfold reserveOnSession at h
        split at h
        · cases h
          exact .refl
        · simp only [bind_ok, pure_ok, Prod.mk.injEq] at h
          obtain ⟨⟨r', t₁⟩, h₁, -, rfl⟩ := h
          exact advanceSequence_writes hl h₁

theorem reserveControlOutboundSequence_writes (hl : l.sessions)
    {request : ReserveControlOutboundSequence} {r : ControlSequenceReservation}
    (h : reserveControlOutboundSequence t request = .ok (r, t')) : Writes l t t' := by
  simp only [reserveControlOutboundSequence, bind_ok] at h
  obtain ⟨session, -, h⟩ := h
  unfold reserveControl at h
  split at h
  · cases h
    exact .refl
  · split at h
    · cases h
      exact .refl
    · simp only [bind_ok, exists_unit, pure_ok, Prod.mk.injEq] at h
      obtain ⟨-, ⟨r', t₁⟩, h₁, -, rfl⟩ := h
      exact advanceSequence_writes hl h₁

/-! ## the startup fence -/

variable {fencedAt : Int} {acc acc' : DeliveryStartupFenceReport × DeliveryTables P}

theorem fenceSession_writes (hl : l.sessions)
    (h : fenceSession codec fencedAt error acc s = .ok acc') : Writes l acc.2 acc'.2 := by
  simp only [fenceSession, bind_ok, exists_unit, pure_ok] at h
  obtain ⟨-, ⟨n, t₁⟩, h₁, ⟨n', t₂⟩, h₂, ⟨as, t₃⟩, h₃, t₄, h₄, rfl⟩ := h
  exact (settleRejectedPendingAttempts_writes h₁).trans
    ((cancelSessionPendingDeliveries_writes h₂).trans
      ((unconfirmSessionAttempts_writes h₃).trans (transitionSessionStatus_writes hl h₄)))

/-- the write of the message was started -/
def StartedIn (t : DeliveryTables P) (m : MessageId) : Prop :=
  ∃ o, t.outboxes.get m = some o ∧ o.status = .writeStarted

theorem fenceAttempt_ok (acc : DeliveryStartupFenceReport × DeliveryTables P)
    (hget : acc.2.outboxes.get m = some o) (hstarted : o.status = .writeStarted)
    (h : fenceAttempt fencedAt error acc (acc.2.attempts.seek m) = .ok acc') :
    Writes l acc.2 acc'.2 ∧ acc'.2.outboxes = acc.2.outboxes := by
  unfold fenceAttempt at h
  split at h
  · cases h
    exact ⟨.refl, rfl⟩
  · rename_i a hseek
    split at h
    · rename_i hopen
      simp only [bind_ok, pure_ok] at h
      obtain ⟨t₁, h₁, rfl⟩ := h
      obtain ⟨attempts, -, -, rfl⟩ := updateAttemptState_ok (Table.get_of_seek hseek) h₁
      refine ⟨.single (.message (attempt_write hget hseek h₁ fun ha => .unconfirmed ha ?_ rfl)),
        rfl⟩
      rcases hopen with hpending | hsent
      · exact .inr ⟨hpending, by rw [hstarted]; decide, by rw [hstarted]; decide⟩
      · exact .inl hsent
    · cases h
      exact ⟨.refl, rfl⟩

theorem fenceOutbox_ok (hl : ∀ m, l.evidence m fencedAt) (hready : StartedIn acc.2 m)
    (h : fenceOutbox codec fencedAt error acc m = .ok acc') :
    Writes l acc.2 acc'.2 ∧
      ∀ k, k ≠ m → StartedIn acc.2 k → StartedIn acc'.2 k := by
  obtain ⟨o, hget, hstarted⟩ := hready
  simp only [fenceOutbox, bind_ok, exists_unit] at h
  obtain ⟨o₁, ho, -, t₁, h₁, found, hfound, h₂⟩ := h
  have ho' := requiredOutbox_ok ho
  rw [hget] at ho'
  cases ho'
  have hwrite := outbox_write (l := l) hget h₁ fun ho => .fenced ho hstarted rfl rfl (hl _)
  rw [fetchDeliveryAttemptByMessage_ok hfound] at h₂
  have hget₁ := hwrite.outboxes m
  rw [if_pos rfl] at hget₁
  obtain ⟨hattempt, hsame⟩ := fenceAttempt_ok (acc.1, t₁) hget₁ rfl h₂
  refine ⟨.head (.message hwrite) hattempt, ?_⟩
  rintro k hk ⟨ok, hok, hs⟩
  refine ⟨ok, ?_, hs⟩
  rw [hsame, hwrite.outbox_ne hk]
  exact hok

theorem startedMessages_started : ∀ m ∈ startedMessages t, StartedIn t m := by
  intro m hm
  obtain ⟨o, ho, rfl⟩ := List.mem_map.mp hm
  obtain ⟨hmem, hstarted⟩ := List.mem_filter.mp (mem_inOrder.mp ho)
  exact ⟨o, Table.get_eq_some.mpr ⟨hmem, rfl⟩, eq_of_beq hstarted⟩

theorem startedMessages_nodup : (startedMessages t).Nodup :=
  nodup_inOrder_map t.outboxes.keyed

theorem fenceOutboxes_writes (hl : ∀ m, l.evidence m fencedAt)
    (h : (startedMessages acc.2).foldlM (fenceOutbox codec fencedAt error) acc = .ok acc') :
    Writes l acc.2 acc'.2 :=
  foldlM_writes Prod.snd (fun acc m => StartedIn acc.2 m) (fun _ _ _ => fenceOutbox_ok hl)
    startedMessages_nodup startedMessages_started h

theorem fenceInterruptedWrites_writes {report : DeliveryStartupFenceReport}
    (h : fenceInterruptedWrites codec t fencedAt error = .ok (report, t')) :
    Writes (fenceLicence fencedAt) t t' := by
  simp only [fenceInterruptedWrites, bind_ok, exists_unit] at h
  obtain ⟨-, active, hactive, ⟨report₁, t₁⟩, hsessions, houtboxes⟩ := h
  have hself := collect_self (fun _ _ => sessionFromRow_self) hactive
  have hnodup : active.Nodup := by
    rw [hself]
    exact List.Nodup.of_map _ (nodup_inOrder_map t.sessions.keyed)
  have h₁ := foldlM_writes (l := fenceLicence fencedAt) Prod.snd (fun _ _ => True)
    (fun _ _ _ _ h => ⟨fenceSession_writes trivial h, fun _ _ _ => trivial⟩) hnodup
    (fun _ _ => trivial) hsessions
  have h₂ : Writes (fenceLicence fencedAt) t₁ t' := fenceOutboxes_writes (fun _ => rfl) houtboxes
  exact ReflTransGen.trans h₁ h₂

/-! ## new rows -/

variable {message : NewWireOutbox P} {attempt : NewDeliveryAttempt P}
  {outcome : WriteOutcome (StoredDeliveryAttempt P)}

theorem createdAt_le_latest (o : StoredWireOutbox P) : o.createdAt ≤ outboxLatest o := by
  unfold outboxLatest latestOf
  cases o.sentAt <;> cases o.ackedAt <;> simp

theorem insertOutbox_ok (h : insertOutbox t message = .ok (some t')) :
    ∃ stored outboxes, t.outboxes.insert stored = some outboxes ∧
      t' = { t with outboxes := outboxes } ∧
      stored = { message with revision := 0, updatedAt := stored.updatedAt } ∧
      stored.createdAt ≤ stored.updatedAt := by
  simp only [insertOutbox, bind_ok, exists_unit, sqlGuard_ok] at h
  obtain ⟨htime, -, h⟩ := h
  split at h
  · simp only [pure_ok] at h
    cases h
  · rename_i outboxes hinsert
    simp only [bind_ok, exists_unit, pure_ok, Option.some.injEq] at h
    refine ⟨_, outboxes, hinsert, h.2.symm, ?_, ?_⟩
    · split <;> rfl
    · split
      · exact createdAt_le_latest _
      · rename_i hset
        have hlatest := (Bool.or_eq_true _ _).mp htime
        rcases hlatest with hzero | hlatest
        · exact absurd (eq_of_beq hzero) hset
        · exact le_trans (createdAt_le_latest _) (of_decide_eq_true hlatest)

theorem insertAttempt_ok (h : insertAttempt t attempt = .ok (some t')) :
    ∃ stored attempts, t.attempts.insert stored = some attempts ∧
      t' = { t with attempts := attempts } ∧
      stored = { attempt with revision := 0, updatedAt := stored.updatedAt } := by
  simp only [insertAttempt, bind_ok, exists_unit] at h
  obtain ⟨-, -, -, h⟩ := h
  split at h
  · simp only [pure_ok] at h
    cases h
  · rename_i attempts hinsert
    simp only [bind_ok, exists_unit, pure_ok, Option.some.injEq] at h
    refine ⟨_, attempts, hinsert, h.2.symm, ?_⟩
    split <;> rfl

theorem outboxDuplicate_same {existing : List (StoredWireOutbox P)}
    {outcome : WriteOutcome (StoredWireOutbox P)}
    (h : outboxDuplicate t message existing = .ok (outcome, t')) :
    t' = t ∧ outcome.wasInserted = false := by
  unfold outboxDuplicate at h
  split at h
  · split at h
    · cases h
      exact ⟨rfl, rfl⟩
    · cases h
  · cases h

theorem attemptDuplicate_same {existing : List (StoredDeliveryAttempt P)}
    (h : attemptDuplicate t attempt existing = .ok (outcome, t')) :
    t' = t ∧ outcome.wasInserted = false := by
  unfold attemptDuplicate at h
  split at h
  · split at h
    · cases h
      exact ⟨rfl, rfl⟩
    · cases h
  · cases h

theorem enqueueWireOutbox_ok {outcome : WriteOutcome (StoredWireOutbox P)}
    (h : enqueueWireOutbox codec t message = .ok (outcome, t')) :
    (insertOutbox t message = .ok (some t') ∧
      outcome = .inserted { message with revision := 0 }) ∨
      (t' = t ∧ outcome.wasInserted = false) := by
  simp only [enqueueWireOutbox, bind_ok, exists_unit] at h
  obtain ⟨-, -, inserted, hinserted, h⟩ := h
  split at h
  · simp only [pure_ok, Prod.mk.injEq] at h
    obtain ⟨rfl, rfl⟩ := h
    exact .inl ⟨hinserted, rfl⟩
  · simp only [bind_ok] at h
    obtain ⟨existing, -, h⟩ := h
    exact .inr (outboxDuplicate_same h)

theorem recordDeliveryAttempt_ok (h : recordDeliveryAttempt codec t attempt = .ok (outcome, t')) :
    (insertAttempt t attempt = .ok (some t') ∧
      ∃ stored, outcome = .inserted stored ∧ t'.attempts.get attempt.attemptId = some stored) ∨
      (t' = t ∧ outcome.wasInserted = false) := by
  simp only [recordDeliveryAttempt, bind_ok, exists_unit] at h
  obtain ⟨-, inserted, hinserted, h⟩ := h
  split at h
  · simp only [bind_ok, need_ok, pure_ok, Prod.mk.injEq] at h
    obtain ⟨found, hfound, stored, rfl, rfl, rfl⟩ := h
    exact .inl ⟨hinserted, stored, rfl, (fetchDeliveryAttemptById_ok hfound).symm⟩
  · simp only [bind_ok] at h
    obtain ⟨existing, -, h⟩ := h
    exact .inr (attemptDuplicate_same h)

theorem insertOutbox_writes (hl : l.creates) (h : insertOutbox t message = .ok (some t')) :
    Writes l t t' := by
  obtain ⟨stored, outboxes, hinsert, rfl, -, -⟩ := insertOutbox_ok h
  exact .single (.created hl (fun _ _ => Table.get_insert_of_some hinsert) (fun _ _ h => h)
    (fun _ _ h => h) rfl rfl)

theorem insertAttempt_writes (hl : l.creates) (h : insertAttempt t attempt = .ok (some t')) :
    Writes l t t' := by
  obtain ⟨stored, attempts, hinsert, rfl, -⟩ := insertAttempt_ok h
  exact .single (.created hl (fun _ _ h => h) (fun _ _ => Table.get_insert_of_some hinsert)
    (fun _ _ => Table.seek_insert_of_some hinsert) rfl rfl)

theorem enqueueWireOutbox_writes {outcome : WriteOutcome (StoredWireOutbox P)}
    (h : enqueueWireOutbox codec t message = .ok (outcome, t')) : Writes createLicence t t' := by
  rcases enqueueWireOutbox_ok h with ⟨hinsert, -⟩ | ⟨rfl, -⟩
  · exact insertOutbox_writes trivial hinsert
  · exact .refl

theorem recordDeliveryAttempt_writes (h : recordDeliveryAttempt codec t attempt = .ok (outcome, t')) :
    Writes createLicence t t' := by
  rcases recordDeliveryAttempt_ok h with ⟨hinsert, -⟩ | ⟨rfl, -⟩
  · exact insertAttempt_writes trivial hinsert
  · exact .refl

theorem enqueueReservedDelivery_writes {delivery : NewReservedDelivery P}
    {d : StoredOutboundDelivery P}
    (h : enqueueReservedDelivery codec t delivery = .ok (d, t')) : Writes createLicence t t' := by
  simp only [enqueueReservedDelivery, bind_ok, exists_unit, pure_ok, Prod.mk.injEq] at h
  obtain ⟨-, _, -, -, -, -, -, ⟨w, t₁⟩, h₁, ⟨w', t₂⟩, h₂, -, -, rfl⟩ := h
  exact (enqueueWireOutbox_writes h₁).trans (recordDeliveryAttempt_writes h₂)

end

end Sinan.Store
