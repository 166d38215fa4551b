import Sinan.Inbound.Dispatcher

/-!
# What one inbound transaction can do

A transaction leaves the admitted rows as they are, adds one row, claims one row that is open, or
finishes one row for the worker that holds its lease; nothing else ever happens to them.  The business
state moves in a finishing transaction only.
-/

set_option linter.unusedSectionVars false

namespace Sinan.Inbound

open Lib Store

section
variable {P : Type} {codec : EnvelopeCodec P} {W : Type} [DecidableEq P]

theorem sqlGuard_ok {condition : Bool} {u : Unit} :
    sqlGuard condition = .ok u ↔ condition = true := by
  unfold sqlGuard
  rw [reject_ok, Bool.not_eq_false]

/-! ## one row -/

/-- one row is replaced by another of its message, as the schema allows -/
structure Rewritten (t t' : InboundTables codec) (row changed : StoredInboundAdmission P) :
    Prop where
  found : t.admissions.get row.messageId = some row
  key : changed.messageId = row.messageId
  written : t.admissions.put changed = some t'.admissions
  allowed : inboundMayChange row changed = true
  sessions : t'.sessions = t.sessions

namespace Rewritten
variable {t t' : InboundTables codec} {row changed : StoredInboundAdmission P}

theorem get (h : Rewritten t t' row changed) (m : MessageId) :
    t'.admissions.get m = if row.messageId = m then some changed else t.admissions.get m := by
  have hfound : t.admissions.get changed.messageId = some row := by
    rw [h.key]
    exact h.found
  rw [Table.get_put h.written hfound, h.key]

theorem get_self (h : Rewritten t t' row changed) :
    t'.admissions.get row.messageId = some changed := by
  rw [h.get, if_pos rfl]

end Rewritten

variable {t t' : InboundTables codec} {row changed stored : StoredInboundAdmission P}

theorem updateInbound_ok (hfound : t.admissions.get row.messageId = some row)
    (hkey : changed.messageId = row.messageId) (h : updateInbound t row changed = .ok t') :
    Rewritten t t' row changed := by
  simp only [updateInbound, bind_ok, exists_unit, sqlGuard_ok, need_ok, pure_ok] at h
  obtain ⟨hallowed, admissions, hput, rfl⟩ := h
  exact ⟨hfound, hkey, hput, hallowed, rfl⟩

theorem requiredInbound_ok {m : MessageId} :
    requiredInbound t m = .ok stored ↔ t.admissions.get m = some stored := by
  unfold requiredInbound
  exact need_ok

/-! ## claims -/

variable {workerId : String} {x : StoredInboundAdmission P}
  {out : Option (StoredInboundAdmission P)}

theorem claimInboundOn_ok {candidate : StoredInboundAdmission P} {claimedAt lease : Int}
    {reclaim : Bool} (hcandidate : t.admissions.get candidate.messageId = some candidate)
    (h : claimInboundOn t candidate workerId claimedAt lease reclaim = .ok (stored, t')) :
    stored = claimedRow candidate workerId claimedAt lease ∧ candidate.updatedAt ≤ claimedAt ∧
    Rewritten t t' candidate stored := by
  simp only [claimInboundOn, bind_ok, exists_unit, reject_ok, need_ok, pure_ok, Prod.mk.injEq,
    requiredInbound_ok] at h
  obtain ⟨htime, -, row, hrow, written, hwritten, last, hlast, rfl, rfl⟩ := h
  rw [hcandidate, Option.filter_eq_some_iff] at hrow
  obtain ⟨hsame, -⟩ := hrow
  cases hsame
  have hrewritten : Rewritten t written candidate (claimedRow candidate workerId claimedAt lease) :=
    updateInbound_ok hcandidate rfl hwritten
  rw [hrewritten.get_self] at hlast
  cases hlast
  exact ⟨rfl, by omega, hrewritten⟩

theorem get_of_head {p : StoredInboundAdmission P → Bool} {κ : Type} [LinearOrder κ]
    {key : StoredInboundAdmission P → κ}
    (h : (sortBy key (t.admissions.rows.filter p)).head? = some x) :
    t.admissions.get x.messageId = some x ∧ p x = true := by
  have hmem := mem_sortBy.mp (List.mem_of_head? h)
  obtain ⟨hrow, hp⟩ := List.mem_filter.mp hmem
  exact ⟨Table.get_eq_some.mpr ⟨hrow, rfl⟩, hp⟩

theorem claimFound_ok {found : Option (StoredInboundAdmission P)} {claimedAt lease : Int}
    {reclaim : Bool} (hfound : ∀ x, found = some x → t.admissions.get x.messageId = some x)
    (h : claimFound t workerId claimedAt lease reclaim found = .ok (out, t')) :
    (out = none ∧ t' = t) ∨
      ∃ row, found = some row ∧ out = some (claimedRow row workerId claimedAt lease) ∧
        Rewritten t t' row (claimedRow row workerId claimedAt lease) := by
  cases found with
  | none =>
    cases h
    exact .inl ⟨rfl, rfl⟩
  | some candidate =>
    simp only [claimFound, bind_ok, pure_ok, Prod.mk.injEq, Prod.exists] at h
    obtain ⟨stored, written, hclaim, rfl, rfl⟩ := h
    obtain ⟨rfl, -, hrewritten⟩ := claimInboundOn_ok (hfound candidate rfl) hclaim
    exact .inr ⟨candidate, rfl, rfl, hrewritten⟩

theorem claimNextInbound_ok {claim : ClaimDurableWork}
    (h : claimNextInbound t claim = .ok (out, t')) :
    (out = none ∧ t' = t) ∨
      ∃ row, fetchNextInboundPending t = some row ∧
        out = some (claimedRow row claim.workerId claim.claimedAt claim.leaseExpiresAt) ∧
        Rewritten t t' row (claimedRow row claim.workerId claim.claimedAt claim.leaseExpiresAt) := by
  simp only [claimNextInbound, bind_ok, exists_unit] at h
  exact claimFound_ok (fun x hx => (get_of_head hx).1) h.2

theorem reclaimExpiredInbound_ok {reclaim : ReclaimDurableWork}
    (h : reclaimExpiredInbound t reclaim = .ok (out, t')) :
    (out = none ∧ t' = t) ∨
      ∃ row, fetchNextExpiredInbound t reclaim.reclaimedAt = some row ∧
        out = some (claimedRow row reclaim.workerId reclaim.reclaimedAt reclaim.leaseExpiresAt) ∧
        Rewritten t t' row
          (claimedRow row reclaim.workerId reclaim.reclaimedAt reclaim.leaseExpiresAt) := by
  simp only [reclaimExpiredInbound, bind_ok, exists_unit] at h
  exact claimFound_ok (fun x hx => (get_of_head hx).1) h.2

theorem pending_of_next (h : fetchNextInboundPending t = some row) : row.status = .pending :=
  eq_of_beq (get_of_head h).2

theorem processing_of_expired {reclaimedAt : Int}
    (h : fetchNextExpiredInbound t reclaimedAt = some row) : row.status = .processing := by
  have hwhere := (get_of_head h).2
  rw [Bool.and_eq_true] at hwhere
  exact eq_of_beq hwhere.1

/-! ## finishes -/

/-- the row, the worker and the time a call names when it finishes a message -/
structure Finish where
  messageId : MessageId
  revision : Nat
  workerId : String
  finishedAt : Int

/-- the finishing transaction met the row as its last claim left it, inside the lease -/
structure Finished (t t' : InboundTables codec) (finish : Finish) (error : Option String)
    (row : StoredInboundAdmission P) : Prop where
  rewritten : Rewritten t t' row (finishedRow row finish.finishedAt error)
  messageId : row.messageId = finish.messageId
  status : row.status = .processing
  revision : row.revision = finish.revision
  owner : row.leaseOwner = some finish.workerId
  lease : ∃ lease, row.leaseExpiresAt = some lease ∧ finish.finishedAt < lease

theorem finishInboundOn_ok {m : MessageId} {revision : Nat} {finishedAt : Int}
    {error : Option String} (h : finishInboundOn t m revision workerId finishedAt error = .ok t') :
    ∃ row, Finished t t' ⟨m, revision, workerId, finishedAt⟩ error row := by
  simp only [finishInboundOn, bind_ok, exists_unit, reject_ok, need_ok, requiredInbound_ok] at h
  obtain ⟨-, -, current, hcurrent, -, -, row, hrow, hupdate⟩ := h
  rw [hcurrent, Option.filter_eq_some_iff] at hrow
  obtain ⟨hsame, hwhere⟩ := hrow
  cases hsame
  simp only [Bool.and_eq_true, beq_iff_eq, Option.any_eq_true, decide_eq_true_eq] at hwhere
  obtain ⟨⟨⟨hstatus, hrevision⟩, howner⟩, hlease⟩ := hwhere
  have hkey := Table.key_of_get hcurrent
  exact ⟨current, updateInbound_ok (Table.get_self hcurrent) rfl hupdate, hkey, hstatus, hrevision,
    howner, hlease⟩

theorem completeInbound_ok {completion : CompleteInboundAdmission}
    (h : completeInbound t completion = .ok (stored, t')) :
    ∃ row, Finished t t' ⟨completion.messageId, completion.expectedRevision, completion.workerId,
      completion.completedAt⟩ none row ∧ stored = finishedRow row completion.completedAt none := by
  simp only [completeInbound, bind_ok, pure_ok, Prod.mk.injEq, requiredInbound_ok] at h
  obtain ⟨written, hwritten, last, hlast, rfl, rfl⟩ := h
  obtain ⟨row, hrow⟩ := finishInboundOn_ok hwritten
  have hself := hrow.rewritten.get_self
  rw [hrow.messageId, hlast] at hself
  exact ⟨row, hrow, Option.some.inj hself⟩

theorem failInbound_ok {failure : FailInboundAdmission}
    (h : failInbound t failure = .ok (stored, t')) :
    ∃ row, Finished t t' ⟨failure.messageId, failure.expectedRevision, failure.workerId,
      failure.failedAt⟩ (some failure.error) row ∧
      stored = finishedRow row failure.failedAt (some failure.error) := by
  simp only [failInbound, bind_ok, exists_unit, pure_ok, Prod.mk.injEq, requiredInbound_ok] at h
  obtain ⟨-, written, hwritten, last, hlast, rfl, rfl⟩ := h
  obtain ⟨row, hrow⟩ := finishInboundOn_ok hwritten
  have hself := hrow.rewritten.get_self
  rw [hrow.messageId, hlast] at hself
  exact ⟨row, hrow, Option.some.inj hself⟩

/-! ## admissions -/

variable {a : NewInboundAdmission P} {r : StoredInboundRejection P}
  {outcome : DurableInboundAdmissionOutcome P} {conflicts : List (StoredInboundAdmission P)}

theorem insertInbound_ok (h : insertInbound t a = .ok t') :
    t.admissions.insert (pendingRow a) = some t'.admissions ∧ t'.sessions = t.sessions := by
  simp only [insertInbound, bind_ok, exists_unit, sqlGuard_ok, need_ok, pure_ok,
    decide_eq_true_eq] at h
  obtain ⟨-, -, -, admissions, hinsert, -, rfl⟩ := h
  exact ⟨hinsert, rfl⟩

theorem insertRejection_ok (h : insertRejection t r = .ok t') :
    t'.admissions = t.admissions ∧ t'.sessions = t.sessions := by
  simp only [insertRejection, bind_ok, exists_unit] at h
  obtain ⟨-, h⟩ := h
  cases hinsert : t.rejections.insert r with
  | none =>
    rw [hinsert] at h
    cases h
    exact ⟨rfl, rfl⟩
  | some rejections =>
    simp only [hinsert, bind_ok, exists_unit, pure_ok] at h
    rw [← h.2]
    exact ⟨rfl, rfl⟩

theorem recordInboundRejection_ok {reason : ErrorCode}
    (h : recordInboundRejection t a reason = .ok (r, t')) :
    (t'.admissions = t.admissions ∧ t'.sessions = t.sessions) ∧ r.reason = reason := by
  simp only [recordInboundRejection, bind_ok, exists_unit, need_ok, reject_ok, pure_ok,
    Prod.mk.injEq, Bool.not_eq_false] at h
  obtain ⟨-, written, hwritten, stored, -, hsame, rfl, rfl⟩ := h
  unfold sameRejectionIdentity at hsame
  simp only [Bool.and_eq_true, beq_iff_eq] at hsame
  exact ⟨insertRejection_ok hwritten, hsame.2⟩

theorem rejectInbound_ok (h : rejectInbound t a = .ok (outcome, t')) :
    ∃ r, outcome = .rejected r ∧ r.reason = .duplicateIdempotencyConflict ∧
      t'.admissions = t.admissions ∧ t'.sessions = t.sessions := by
  simp only [rejectInbound, bind_ok, pure_ok, Prod.mk.injEq, Prod.exists] at h
  obtain ⟨r, written, hrecord, rfl, rfl⟩ := h
  obtain ⟨hsame, hreason⟩ := recordInboundRejection_ok hrecord
  exact ⟨r, rfl, hreason, hsame⟩

theorem settleAdmission_ok (h : settleAdmission t a conflicts = .ok (outcome, t')) :
    (conflicts = [] ∧ outcome = .accepted (pendingRow a) ∧
      t.admissions.insert (pendingRow a) = some t'.admissions ∧ t'.sessions = t.sessions) ∨
    (∃ stored, conflicts = [stored] ∧ sameInboundIdentity stored a = true ∧
      outcome = .duplicate stored ∧ t' = t) ∨
    (conflicts ≠ [] ∧ ∃ r, outcome = .rejected r ∧ r.reason = .duplicateIdempotencyConflict ∧
      t'.admissions = t.admissions ∧ t'.sessions = t.sessions) := by
  match conflicts with
  | [] =>
    simp only [settleAdmission, bind_ok, pure_ok, Prod.mk.injEq, requiredInbound_ok] at h
    obtain ⟨written, hwritten, stored, hstored, rfl, rfl⟩ := h
    obtain ⟨hinsert, hsessions⟩ := insertInbound_ok hwritten
    rw [Table.get_insert hinsert, pendingRow_messageId, if_pos rfl] at hstored
    exact .inl ⟨rfl, by rw [Option.some.inj hstored], hinsert, hsessions⟩
  | [stored] =>
    by_cases hsame : sameInboundIdentity stored a = true
    · simp only [settleAdmission, if_pos hsame, pure_ok, Prod.mk.injEq] at h
      obtain ⟨rfl, rfl⟩ := h
      exact .inr (.inl ⟨stored, rfl, hsame, rfl, rfl⟩)
    · simp only [settleAdmission, if_neg hsame] at h
      exact .inr (.inr ⟨List.cons_ne_nil _ _, rejectInbound_ok h⟩)
  | _ :: _ :: _ => exact .inr (.inr ⟨List.cons_ne_nil _ _, rejectInbound_ok h⟩)

/-- a stored row an admission clashes with -/
def Conflicts (x : StoredInboundAdmission P) (a : NewInboundAdmission P) : Prop :=
  x.messageId = a.messageId ∨ (x.sessionId = a.sessionId ∧ x.sequence = a.sequence)

theorem fetchInboundConflicts_ok (h : fetchInboundConflicts t a = .ok conflicts)
    (x : StoredInboundAdmission P) :
    x ∈ conflicts ↔ t.admissions.get x.messageId = some x ∧ Conflicts x a := by
  simp only [fetchInboundConflicts, bind_ok, exists_unit, pure_ok] at h
  obtain ⟨-, rfl⟩ := h
  rw [mem_sortBy, List.mem_filter, Table.get_eq_some]
  simp only [Bool.or_eq_true, Bool.and_eq_true, beq_iff_eq, and_true]
  rfl

theorem admitInbound_ok (h : admitInbound t a = .ok (outcome, t')) :
    ((∀ m x, t.admissions.get m = some x → ¬ Conflicts x a) ∧ outcome = .accepted (pendingRow a) ∧
      t.admissions.insert (pendingRow a) = some t'.admissions ∧ t'.sessions = t.sessions) ∨
    (∃ stored, t.admissions.get stored.messageId = some stored ∧
      sameInboundIdentity stored a = true ∧ outcome = .duplicate stored ∧ t' = t) ∨
    (∃ r, outcome = .rejected r ∧ r.reason = .duplicateIdempotencyConflict ∧
      t'.admissions = t.admissions ∧ t'.sessions = t.sessions) := by
  simp only [admitInbound, bind_ok, exists_unit] at h
  obtain ⟨-, conflicts, hconflicts, hsettle⟩ := h
  have hmem := fetchInboundConflicts_ok hconflicts
  rcases settleAdmission_ok hsettle with ⟨rfl, hout, hinsert⟩ | ⟨stored, rfl, hsame, hout, ht⟩ |
      ⟨-, hrejected⟩
  · refine .inl ⟨fun m x hx hclash => ?_, hout, hinsert⟩
    have hx' := (hmem x).mpr ⟨Table.get_self hx, hclash⟩
    exact absurd hx' List.not_mem_nil
  · exact .inr (.inl ⟨stored, ((hmem stored).mp (List.mem_singleton.mpr rfl)).1, hsame, hout, ht⟩)
  · exact .inr (.inr hrejected)

/-! ## the answer to a conflicting admission -/

/-- a rejection recorded under the id of this one, or for the same envelope, is the same rejection -/
def RejectionAgrees (t : InboundTables codec) (a : NewInboundAdmission P) (reason : ErrorCode) :
    Prop :=
  ∀ r : StoredInboundRejection P, (t.rejections.get r.rejectionId = some r) →
    (r.rejectionId = rejectionId codec a reason ∨
      (r.messageId = a.messageId ∧ codec.sha256Hex r.envelope = codec.sha256Hex a.envelope ∧
        r.reason = reason)) →
    r.rejectionId = rejectionId codec a reason ∧ sameRejectionIdentity r a reason = true

theorem sameRejectionIdentity_self (a : NewInboundAdmission P) (reason : ErrorCode) :
    sameRejectionIdentity (rejectionRow codec a reason) a reason = true := by
  simp only [sameRejectionIdentity, rejectionRow, beq_self_eq_true, Bool.and_self]

theorem recordInboundRejection_total {reason : ErrorCode} (hsequence : (a.sequence : Int) ≤ i64Max)
    (hpositive : 0 < a.sequence) (hreceived : 0 ≤ a.receivedAt) (hcreated : 0 ≤ a.createdAt)
    (hsession : a.sessionId ∈ t.sessions) (hagrees : RejectionAgrees t a reason) :
    ∃ r t', recordInboundRejection t a reason = .ok (r, t') := by
  have hchecks : (decide (0 < a.sequence) && decide (0 ≤ a.receivedAt) &&
      decide (0 ≤ a.createdAt)) = true := by
    simp only [hpositive, hreceived, hcreated, decide_true, Bool.and_self]
  have hrange : u64ToI64 "inbound_rejections.sequence" a.sequence = .ok () := by
    unfold u64ToI64
    rw [reject_ok]
    omega
  -- a row that agrees stands already, or the new one takes its place
  have hrow : ∃ r t', insertRejection t (rejectionRow codec a reason) = .ok t' ∧
      t'.rejections.get (rejectionId codec a reason) = some r ∧
      sameRejectionIdentity r a reason = true := by
    cases hget : t.rejections.get (rejectionId codec a reason) with
    | some r =>
      have hkey := Table.key_of_get hget
      obtain ⟨-, hsame⟩ := hagrees r (Table.get_self hget) (.inl hkey)
      have hinsert : t.rejections.insert (rejectionRow codec a reason) = none := by
        cases h : t.rejections.insert (rejectionRow codec a reason) with
        | none => rfl
        | some rejections =>
          have hfresh : t.rejections.get (rejectionId codec a reason) = none := Table.insert_fresh h
          rw [hget] at hfresh
          cases hfresh
      refine ⟨r, t, ?_, hget, hsame⟩
      simp only [insertRejection, hinsert, bind_ok, exists_unit, sqlGuard_ok, pure_ok, and_true]
      exact hchecks
    | none =>
      have hindex : ∀ u, some (a.messageId, codec.sha256Hex a.envelope, reason) = some u →
          t.rejections.seek u = none := by
        intro u hu
        cases hu
        cases hseek : t.rejections.seek (a.messageId, codec.sha256Hex a.envelope, reason) with
        | none => rfl
        | some r =>
          have hindex := Table.index_of_seek (t := t.rejections) hseek
          simp only [Option.some.injEq, Prod.mk.injEq] at hindex
          have hself := Table.get_of_seek hseek
          obtain ⟨hid, -⟩ := hagrees r hself (.inr hindex)
          rw [hid, hget] at hself
          cases hself
      obtain ⟨rejections, hinsert⟩ := Table.insert_free (r := rejectionRow codec a reason) hget hindex
      refine ⟨rejectionRow codec a reason, { t with rejections := rejections }, ?_, ?_,
        sameRejectionIdentity_self a reason⟩
      · simp only [insertRejection, hinsert, bind_ok, exists_unit, sqlGuard_ok, pure_ok, and_true,
          decide_eq_true_eq]
        exact ⟨hchecks, hsession⟩
      · have hself : (rejectionRow codec a reason).rejectionId = rejectionId codec a reason := rfl
        show rejections.get (rejectionId codec a reason) = _
        rw [Table.get_insert hinsert, if_pos hself]
  obtain ⟨r, t', hinsert, hget, hsame⟩ := hrow
  refine ⟨r, t', ?_⟩
  simp only [recordInboundRejection, bind_ok, exists_unit, need_ok, reject_ok, pure_ok, hrange,
    hinsert, true_and, Except.ok.injEq, exists_eq_left', hget, Option.some.injEq, hsame,
    Bool.true_eq_false, not_false_iff, Prod.mk.injEq]

theorem validateNewInbound_ok (h : validateNewInbound codec a = .ok ()) :
    0 < a.sequence ∧ 0 ≤ a.receivedAt ∧ 0 ≤ a.createdAt := by
  simp only [validateNewInbound, validateTime, bind_ok, exists_unit, reject_ok] at h
  obtain ⟨-, -, -, -, -, -, hsequence, -, hreceived, hcreated, -⟩ := h
  exact ⟨by omega, by omega, by omega⟩

theorem admitInbound_conflicting (hvalid : validateNewInbound codec a = .ok ())
    (hsequence : (a.sequence : Int) ≤ i64Max) (hsession : a.sessionId ∈ t.sessions)
    (hagrees : RejectionAgrees t a .duplicateIdempotencyConflict)
    (hx : t.admissions.get x.messageId = some x) (hclash : Conflicts x a) :
    ∃ outcome t', admitInbound t a = .ok (outcome, t') := by
  obtain ⟨hpositive, hreceived, hcreated⟩ := validateNewInbound_ok hvalid
  obtain ⟨r, t', hrecord⟩ := recordInboundRejection_total hsequence hpositive hreceived hcreated
    hsession hagrees
  have hreject : rejectInbound t a = .ok (.rejected r, t') := by
    simp only [rejectInbound, hrecord, bind_ok, pure_ok, Except.ok.injEq, exists_eq_left']
  have hrange : ∃ conflicts, fetchInboundConflicts t a = .ok conflicts := by
    unfold fetchInboundConflicts u64ToI64
    simp only [bind_ok, exists_unit, reject_ok, pure_ok]
    exact ⟨_, by omega, rfl⟩
  obtain ⟨conflicts, hconflicts⟩ := hrange
  have hmem := (fetchInboundConflicts_ok hconflicts x).mpr ⟨hx, hclash⟩
  have hsettle : ∃ outcome t', settleAdmission t a conflicts = .ok (outcome, t') := by
    cases conflicts with
    | nil => exact absurd hmem List.not_mem_nil
    | cons stored others =>
      cases others with
      | nil =>
        by_cases hsame : sameInboundIdentity stored a = true
        · exact ⟨.duplicate stored, t, by simp only [settleAdmission, if_pos hsame, pure_ok]⟩
        · exact ⟨.rejected r, t', by simp only [settleAdmission, if_neg hsame, hreject]⟩
      | cons _ _ => exact ⟨.rejected r, t', hreject⟩
  obtain ⟨outcome, t', hout⟩ := hsettle
  refine ⟨outcome, t', ?_⟩
  simp only [admitInbound, hvalid, hconflicts, hout, bind_ok, exists_unit, Except.ok.injEq,
    exists_eq_left', true_and]

/-! ## one transaction -/

/-- the row a claim took -/
def claimedBy (world : RecoveryWorld codec W) (call : InboundCall P W) :
    Option (StoredInboundAdmission P) :=
  match inboundCall world call with
  | .ok (.claimed row, _) => row
  | _ => none

/-- the row a completion, a failure or a handler's transaction finished -/
def finishedBy (world : RecoveryWorld codec W) (call : InboundCall P W) :
    Option (StoredInboundAdmission P) :=
  match inboundCall world call with
  | .ok (.finished row, _) => some row
  | .ok (.item (.handled row), _) => some row
  | _ => none

/-- the message an admission added -/
def acceptedBy (world : RecoveryWorld codec W) (call : InboundCall P W) :
    Option (NewInboundAdmission P) :=
  match inboundCall world call with
  | .ok (.admission (.accepted row), _) => some row.toNewInboundAdmission
  | _ => none

/-- what a call says of the message it finishes -/
def InboundCall.finish : InboundCall P W → Option Finish
  | .complete c => some ⟨c.messageId, c.expectedRevision, c.workerId, c.completedAt⟩
  | .fail f => some ⟨f.messageId, f.expectedRevision, f.workerId, f.failedAt⟩
  | .handle workerId item _ now => some ⟨item.messageId, item.revision, workerId, now⟩
  | .failTerminal workerId item _ _ now => some ⟨item.messageId, item.revision, workerId, now⟩
  | .failTimedOut workerId item now => some ⟨item.messageId, item.revision, workerId, now⟩
  | _ => none

/-- the handler of the call wrote this business state -/
def InboundCall.Writes (call : InboundCall P W) (before after : W) : Prop :=
  ∃ workerId item handler now, call = .handle workerId item handler now ∧
    handler before item = .completed after

/-- where a claim finds its row -/
inductive ClaimSource (t : InboundTables codec) :
    InboundCall P W → StoredInboundAdmission P → Prop
  | first {claim : ClaimDurableWork} {row : StoredInboundAdmission P}
      (h : fetchNextInboundPending t = some row) : ClaimSource t (.claim claim) row
  | again {reclaim : ReclaimDurableWork} {row : StoredInboundAdmission P}
      (h : fetchNextExpiredInbound t reclaim.reclaimedAt = some row) :
      ClaimSource t (.reclaim reclaim) row

variable {call : InboundCall P W}

theorem ClaimSource.open_ {t : InboundTables codec} {row : StoredInboundAdmission P}
    (h : ClaimSource t call row) :
    row.status = .pending ∨ row.status = .processing := by
  cases h with
  | first h => exact .inl (pending_of_next h)
  | again h => exact .inr (processing_of_expired h)

/-- what a transaction does to the admitted rows and to the business state -/
inductive InboundEffect (world : RecoveryWorld codec W) (call : InboundCall P W)
    (world' : RecoveryWorld codec W) : Prop
  | still (hclaimed : claimedBy world call = none) (hfinished : finishedBy world call = none)
      (haccepted : acceptedBy world call = none)
      (hrows : world'.tables.admissions = world.tables.admissions)
      (hsessions : world.tables.sessions ⊆ world'.tables.sessions)
      (hbusiness : world'.business = world.business)
  | admitted (a : NewInboundAdmission P) (hclaimed : claimedBy world call = none)
      (hfinished : finishedBy world call = none) (haccepted : acceptedBy world call = some a)
      (hcall : call = .admitInbound a)
      (hinsert : world.tables.admissions.insert (pendingRow a) = some world'.tables.admissions)
      (hsessions : world.tables.sessions ⊆ world'.tables.sessions)
      (hbusiness : world'.business = world.business)
  | claimed (workerId : String) (claimedAt lease : Int) (row : StoredInboundAdmission P)
      (hclaimed : claimedBy world call = some (claimedRow row workerId claimedAt lease))
      (hfinished : finishedBy world call = none) (haccepted : acceptedBy world call = none)
      (hsource : ClaimSource world.tables call row)
      (htaken : Rewritten world.tables world'.tables row (claimedRow row workerId claimedAt lease))
      (hbusiness : world'.business = world.business)
  | finished (finish : Finish) (error : Option String) (row : StoredInboundAdmission P)
      (hclaimed : claimedBy world call = none)
      (hfinished : finishedBy world call = some (finishedRow row finish.finishedAt error))
      (haccepted : acceptedBy world call = none) (hcall : call.finish = some finish)
      (hdone : Finished world.tables world'.tables finish error row)
      (hbusiness : world'.business = world.business ∨
        (error = none ∧ call.Writes world.business world'.business))

variable {world world' : RecoveryWorld codec W} {now : Int} {item : StoredInboundAdmission P}

theorem claim_effect {claimedAt lease : Int} {t' : InboundTables codec}
    (hcall : inboundCall world call = .ok (.claimed out, { world with tables := t' }))
    (h : (out = none ∧ t' = world.tables) ∨
      ∃ row, ClaimSource world.tables call row ∧
        out = some (claimedRow row workerId claimedAt lease) ∧
        Rewritten world.tables t' row (claimedRow row workerId claimedAt lease)) :
    InboundEffect world call { world with tables := t' } := by
  have hfinished : finishedBy world call = none := by simp only [finishedBy, hcall]
  have haccepted : acceptedBy world call = none := by simp only [acceptedBy, hcall]
  rcases h with ⟨rfl, rfl⟩ | ⟨row, hsource, rfl, htaken⟩
  · exact .still (by simp only [claimedBy, hcall]) hfinished haccepted rfl
      (List.Subset.refl _) rfl
  · exact .claimed workerId claimedAt lease row (by simp only [claimedBy, hcall]) hfinished
      haccepted hsource htaken rfl

theorem finish_effect {finish : Finish} {error : Option String} {row : StoredInboundAdmission P}
    (hcall : inboundCall world call =
      .ok (.finished (finishedRow row finish.finishedAt error), world'))
    (hfinish : call.finish = some finish)
    (hdone : Finished world.tables world'.tables finish error row)
    (hbusiness : world'.business = world.business) : InboundEffect world call world' :=
  .finished finish error row (by simp only [claimedBy, hcall]) (by simp only [finishedBy, hcall])
    (by simp only [acceptedBy, hcall]) hfinish hdone (.inl hbusiness)

theorem serverNow_ok {time : Int} : serverNow now = .ok time ↔ 0 ≤ now ∧ now = time := by
  unfold serverNow
  simp only [bind_ok, exists_unit, reject_ok, pure_ok, Int.not_lt]

theorem handleInbound_effect {handler : W → StoredInboundAdmission P → HandlerOutcome W}
    {out : ItemOutcome P × RecoveryWorld codec W}
    (h : handleInbound world workerId item (handler world.business item) now = .ok out) :
    InboundEffect world (.handle workerId item handler now) out.2 := by
  have hcall : inboundCall world (.handle workerId item handler now) = .ok (.item out.1, out.2) := by
    simp only [inboundCall, h]
    rfl
  have hclaimed : claimedBy world (.handle workerId item handler now) = none := by
    simp only [claimedBy, hcall]
  have haccepted : acceptedBy world (.handle workerId item handler now) = none := by
    simp only [acceptedBy, hcall]
  cases houtcome : handler world.business item with
  | completed business =>
    simp only [handleInbound, houtcome, bind_ok, serverNow_ok, pure_ok, mapError_ok,
      Prod.exists] at h
    obtain ⟨completedAt, ⟨-, rfl⟩, stored, t', hdone, rfl⟩ := h
    obtain ⟨row, hrow, rfl⟩ := completeInbound_ok hdone
    exact .finished _ none row hclaimed (by simp only [finishedBy, hcall]) haccepted rfl hrow
      (.inr ⟨rfl, workerId, item, handler, now, rfl, houtcome⟩)
  | refused error =>
    cases hclass : error.failureClass with
    | terminalDeadletter reason =>
      simp only [handleInbound, houtcome, hclass, Except.ok.injEq] at h
      subst h
      exact .still hclaimed (by simp only [finishedBy, hcall]) haccepted rfl
        (List.Subset.refl _) rfl
    | retryableInfrastructure =>
      simp only [handleInbound, houtcome, hclass] at h
      cases h
  | timedOut =>
    simp only [handleInbound, houtcome, Except.ok.injEq] at h
    subst h
    exact .still hclaimed (by simp only [finishedBy, hcall]) haccepted rfl
      (List.Subset.refl _) rfl

theorem failTerminalInbound_ok {stored : StoredInboundAdmission P} {reason : DeadletterReason}
    {error : DurableRecoveryHandlerError}
    (h : failTerminalInbound world workerId item reason error now = .ok (stored, world')) :
    ∃ row text, Finished world.tables world'.tables ⟨item.messageId, item.revision, workerId, now⟩
      (some text) row ∧ stored = finishedRow row now (some text) ∧
      world'.business = world.business := by
  simp only [failTerminalInbound, bind_ok, serverNow_ok, mapError_ok, pure_ok, Prod.mk.injEq,
    Prod.exists] at h
  obtain ⟨failedAt, ⟨-, rfl⟩, deadletters, -, failed, t', hdone, rfl, rfl⟩ := h
  obtain ⟨row, hrow, hstored⟩ := failInbound_ok hdone
  exact ⟨row, _, hrow, hstored, rfl⟩

theorem failTimedOut_ok {stored : StoredInboundAdmission P}
    (h : failTimedOut world workerId item now = .ok (stored, world')) :
    ∃ row text, Finished world.tables world'.tables ⟨item.messageId, item.revision, workerId, now⟩
      (some text) row ∧ stored = finishedRow row now (some text) ∧
      world'.business = world.business := by
  simp only [failTimedOut, bind_ok, serverNow_ok, mapError_ok, pure_ok, Prod.mk.injEq,
    Prod.exists] at h
  obtain ⟨failedAt, ⟨-, rfl⟩, failed, t', hdone, rfl, rfl⟩ := h
  obtain ⟨row, hrow, hstored⟩ := failInbound_ok hdone
  exact ⟨row, _, hrow, hstored, rfl⟩

theorem inboundCall_effect {answer : InboundAnswer P}
    (h : inboundCall world call = .ok (answer, world')) : InboundEffect world call world' := by
  have hcall := h
  cases call with
  | openSession sessionId =>
    simp only [inboundCall, Except.ok.injEq, Prod.mk.injEq] at h
    obtain ⟨rfl, rfl⟩ := h
    exact .still (by simp only [claimedBy, hcall]) (by simp only [finishedBy, hcall])
      (by simp only [acceptedBy, hcall]) rfl (List.subset_cons_self _ _) rfl
  | admitInbound a =>
    simp only [inboundCall, bind_ok, mapError_ok, pure_ok, Prod.mk.injEq, Prod.exists] at h
    obtain ⟨outcome, t', hadmitted, rfl, rfl⟩ := h
    have hclaimed : claimedBy world (.admitInbound a) = none := by simp only [claimedBy, hcall]
    have hfinished : finishedBy world (.admitInbound a) = none := by simp only [finishedBy, hcall]
    rcases admitInbound_ok hadmitted with
      ⟨-, rfl, hinsert, hsessions⟩ | ⟨stored, -, -, rfl, rfl⟩ | ⟨r, rfl, -, hsame, hsessions⟩
    · have haccepted : acceptedBy world (.admitInbound a) = some a := by simp only [acceptedBy, hcall]; rfl
      exact .admitted a hclaimed hfinished haccepted rfl hinsert (hsessions ▸ List.Subset.refl _)
        rfl
    · exact .still hclaimed hfinished (by simp only [acceptedBy, hcall]) rfl
        (List.Subset.refl _) rfl
    · exact .still hclaimed hfinished (by simp only [acceptedBy, hcall]) hsame
        (hsessions ▸ List.Subset.refl _) rfl
  | claim claim =>
    simp only [inboundCall, bind_ok, mapError_ok, pure_ok, Prod.mk.injEq, Prod.exists] at h
    obtain ⟨out, t', hclaim, rfl, rfl⟩ := h
    exact claim_effect hcall ((claimNextInbound_ok hclaim).imp_right
      (Exists.imp fun _ => And.imp_left ClaimSource.first))
  | reclaim reclaim =>
    simp only [inboundCall, bind_ok, mapError_ok, pure_ok, Prod.mk.injEq, Prod.exists] at h
    obtain ⟨out, t', hclaim, rfl, rfl⟩ := h
    exact claim_effect hcall ((reclaimExpiredInbound_ok hclaim).imp_right
      (Exists.imp fun _ => And.imp_left ClaimSource.again))
  | complete completion =>
    simp only [inboundCall, bind_ok, mapError_ok, pure_ok, Prod.mk.injEq, Prod.exists] at h
    obtain ⟨stored, t', hdone, rfl, rfl⟩ := h
    obtain ⟨row, hrow, rfl⟩ := completeInbound_ok hdone
    exact finish_effect hcall rfl hrow rfl
  | fail failure =>
    simp only [inboundCall, bind_ok, mapError_ok, pure_ok, Prod.mk.injEq, Prod.exists] at h
    obtain ⟨stored, t', hdone, rfl, rfl⟩ := h
    obtain ⟨row, hrow, rfl⟩ := failInbound_ok hdone
    exact finish_effect hcall rfl hrow rfl
  | handle workerId item handler now =>
    simp only [inboundCall, bind_ok, pure_ok, Prod.mk.injEq] at h
    obtain ⟨out, hout, rfl, rfl⟩ := h
    exact handleInbound_effect hout
  | failTerminal workerId item reason error now =>
    simp only [inboundCall, bind_ok, pure_ok, Prod.mk.injEq, Prod.exists] at h
    obtain ⟨stored, failed, hdone, rfl, rfl⟩ := h
    obtain ⟨row, text, hrow, rfl, hbusiness⟩ := failTerminalInbound_ok hdone
    exact finish_effect hcall rfl hrow hbusiness
  | failTimedOut workerId item now =>
    simp only [inboundCall, bind_ok, pure_ok, Prod.mk.injEq, Prod.exists] at h
    obtain ⟨stored, failed, hdone, rfl, rfl⟩ := h
    obtain ⟨row, text, hrow, rfl, hbusiness⟩ := failTimedOut_ok hdone
    exact finish_effect hcall rfl hrow hbusiness

theorem inboundStep_effect (world : RecoveryWorld codec W) (call : InboundCall P W) :
    InboundEffect world call (inboundStep world call) := by
  unfold inboundStep
  cases h : inboundCall world call with
  | error e =>
    exact .still (by simp only [claimedBy, h]) (by simp only [finishedBy, h])
      (by simp only [acceptedBy, h]) rfl (List.Subset.refl _) rfl
  | ok done => exact inboundCall_effect h

theorem sessions_step (world : RecoveryWorld codec W) (call : InboundCall P W) :
    world.tables.sessions ⊆ (inboundStep world call).tables.sessions := by
  cases inboundStep_effect world call with
  | still hclaimed hfinished haccepted hrows hsessions => exact hsessions
  | admitted a hclaimed hfinished haccepted hcall hinsert hsessions => exact hsessions
  | claimed workerId claimedAt lease row hclaimed hfinished haccepted hsource htaken =>
    exact htaken.sessions ▸ List.Subset.refl _
  | finished finish error row hclaimed hfinished haccepted hcall hdone =>
    exact hdone.rewritten.sessions ▸ List.Subset.refl _

end

end Sinan.Inbound
