import Sinan.Store.Claims

/-!
# The outbox row and the attempt of a message together

Six statuses of the one row and eight of the other make forty-eight pairs.  Nine calls race for them,
but each changes a pair by moves only, so the pairs that are ever found are those that a move leads
to.  `Paired` is that set: its statuses, the reason that a refused message carries and the route that
both rows share.
-/

set_option linter.unusedSectionVars false

namespace Sinan.Store

open Lib Relation

section
variable {P : Type} [DecidableEq P] {codec : WireCodec P} {t t' : DeliveryTables P} {m : MessageId}
  {o o' : StoredWireOutbox P} {x x' : StoredDeliveryAttempt P} {l : Licence}

/-- the two rows of the message -/
structure PairAt (t : DeliveryTables P) (m : MessageId) (o : StoredWireOutbox P)
    (x : StoredDeliveryAttempt P) : Prop where
  outbox : t.outboxes.get m = some o
  attempt : t.attempts.seek m = some x

theorem PairAt.messageId (h : PairAt t m o x) : o.messageId = m := messageId_of_get h.outbox

/-- a chain of moves of one message -/
abbrev Moves (l : Licence) :
    StoredWireOutbox P × StoredDeliveryAttempt P → StoredWireOutbox P × StoredDeliveryAttempt P →
    Prop :=
  ReflTransGen fun p q => Move l p.1 (some p.2) q.1 (some q.2)

/-! ## from the tables to a pair -/

theorem Move.attempt_some {a' : Option (StoredDeliveryAttempt P)} (h : Move l o (some x) o' a') :
    ∃ y, a' = some y := by
  rcases h.attempt with rfl | ⟨_, y, -, rfl, -⟩
  · exact ⟨x, rfl⟩
  · exact ⟨y, rfl⟩

theorem Move.attempt_of_some {a : Option (StoredDeliveryAttempt P)} (h : Move l o a o' (some x')) :
    ∃ y, a = some y := by
  rcases h.attempt with hsame | ⟨y, _, rfl, -⟩
  · exact ⟨x', hsame.symm⟩
  · exact ⟨y, rfl⟩

theorem write_pair (h : Write l t t') (hp : PairAt t m o x) :
    ∃ o' x', PairAt t' m o' x' ∧ Moves l (o, x) (o', x') := by
  cases h with
  | @message k ok ok' ak ak' h =>
    by_cases hk : m = k
    · subst hk
      have ho := h.outbox
      have ha := h.attempt
      rw [hp.outbox] at ho
      rw [hp.attempt] at ha
      cases ho
      subst ha
      obtain ⟨y, rfl⟩ := h.move.attempt_some
      refine ⟨ok', y, ⟨?_, ?_⟩, .single h.move⟩
      · rw [h.outboxes, if_pos rfl]
      · rw [h.attempts.seek, if_pos rfl]
    · refine ⟨o, x, ⟨?_, ?_⟩, .refl⟩
      · rw [h.outbox_ne hk]
        exact hp.outbox
      · rw [h.attempt_ne hk]
        exact hp.attempt
  | session _ houtboxes hattempts =>
    exact ⟨o, x, ⟨by rw [houtboxes]; exact hp.outbox, by rw [hattempts]; exact hp.attempt⟩, .refl⟩
  | created _ houtboxes _ hseek =>
    exact ⟨o, x, ⟨houtboxes _ _ hp.outbox, hseek _ _ hp.attempt⟩, .refl⟩

theorem writes_pair (h : Writes l t t') (hp : PairAt t m o x) :
    ∃ o' x', PairAt t' m o' x' ∧ Moves l (o, x) (o', x') := by
  induction h with
  | refl => exact ⟨o, x, hp, .refl⟩
  | tail _ hlast ih =>
    obtain ⟨o₁, x₁, hp₁, hmoves₁⟩ := ih
    obtain ⟨o₂, x₂, hp₂, hmoves₂⟩ := write_pair hlast hp₁
    exact ⟨o₂, x₂, hp₂, hmoves₁.trans hmoves₂⟩

theorem storeStep_pair (call : StoreCall P) (hp : PairAt t m o x) :
    ∃ o' x', PairAt (storeStep codec t call) m o' x' ∧
      Moves (callLicence call) (o, x) (o', x') := by
  unfold storeStep
  split
  · rename_i t' h
    rcases runCall_writes codec h with hwrites | ⟨rows, rfl⟩
    · exact writes_pair hwrites hp
    · exact ⟨o, x, ⟨hp.outbox, hp.attempt⟩, .refl⟩
  · exact ⟨o, x, hp, .refl⟩

/-! ## the pairs that are found -/

def statusesMeet : WireOutboxStatus → CommandDeliveryAttemptStatus → Bool
  | .pending, .pending | .pending, .acked => true
  | .writeStarted, .pending | .writeStarted, .unconfirmed | .writeStarted, .acked => true
  | .sent, .sent | .sent, .unconfirmed | .sent, .acked => true
  | .acked, .cancelled | .acked, .noActiveSession => false
  | .acked, _ => true
  | .failed, .cancelled | .failed, .noActiveSession => false
  | .failed, _ => true
  | .cancelled, .cancelled | .cancelled, .noActiveSession => true
  | _, _ => false

/-- the transport refused the message and said why -/
def Labelled (o : StoredWireOutbox P) : Prop :=
  ∃ reason, blank reason = false ∧ o.lastError = some (transportAckRejectedPrefix ++ reason)

structure Paired (o : StoredWireOutbox P) (x : StoredDeliveryAttempt P) : Prop where
  statuses : statusesMeet o.status x.status = true
  label : o.status = .failed → x.status = .pending ∨ x.status = .sent → Labelled o
  route : ∃ sessionId sequence, o.sessionId = some sessionId ∧ x.sessionId = some sessionId ∧
    o.sequence = some sequence

theorem Labelled.hasPrefix (h : Labelled o) : hasRejectedPrefix o.lastError = true := by
  obtain ⟨reason, -, hreason⟩ := h
  rw [hreason]
  exact append_hasRejectedPrefix reason

theorem OutboxStep.route (h : OutboxStep o o') :
    o'.sessionId = o.sessionId ∧ o'.sequence = o.sequence := by
  rw [h.definition]
  exact ⟨rfl, rfl⟩

theorem AttemptStep.sessionId (h : AttemptStep x x') : x'.sessionId = x.sessionId := by
  rw [h.definition]

theorem Move.route (h : Move l o (some x) o' (some x')) :
    o'.sessionId = o.sessionId ∧ o'.sequence = o.sequence ∧ x'.sessionId = x.sessionId := by
  have houtbox : o'.sessionId = o.sessionId ∧ o'.sequence = o.sequence := by
    rcases h.outbox with rfl | ⟨hstep, -⟩
    · exact ⟨rfl, rfl⟩
    · exact hstep.route
  refine ⟨houtbox.1, houtbox.2, ?_⟩
  rcases h.attempt with hsame | ⟨y, y', hy, hy', hstep, -⟩
  · cases hsame
    rfl
  · cases hy
    cases hy'
    exact hstep.sessionId

theorem Move.statuses (h : Move l o (some x) o' (some x'))
    (hmeet : statusesMeet o.status x.status = true) :
    statusesMeet o'.status x'.status = true := by
  cases h with
  | claim _ _ _ hstatus | sent _ _ _ hstatus | uncertain _ _ _ hstatus =>
    rw [hstatus.1, hstatus.2]
    rfl
  | cancel _ _ _ hstatus | unsent _ _ _ hstatus =>
    rw [hstatus.1]
    rcases hstatus.2 with hs | hs <;> rw [hs] <;> rfl
  | acked _ hawaits _ hstatus =>
    -- an acknowledgement takes no status of the attempt that the row could not have before it
    rw [hstatus]
    rcases awaitsAck_cases hawaits with hs | hs | hs <;> rw [hs] at hmeet <;>
      revert hmeet <;> cases x.status <;> decide
  | refused _ hawaits _ hrejected =>
    rw [failed_of_rejected hrejected]
    rcases awaitsAck_cases hawaits with hs | hs | hs <;> rw [hs] at hmeet <;>
      revert hmeet <;> cases x.status <;> decide
  | fenced _ hstarted hstatus =>
    rw [hstatus, ← hstarted]
    exact hmeet
  | receivedSent _ hstarted hstatus =>
    rw [hstatus, hstarted.2]
    rfl
  | settled _ hrejected _ hstatus =>
    rw [hstatus, failed_of_rejected hrejected]
    rfl
  | confirmed _ hacked _ hstatus =>
    rw [hstatus, hacked]
    rfl
  | unconfirmed _ hopen hstatus =>
    rw [hstatus]
    revert hmeet hopen
    cases o.status <;> cases x.status <;> decide
  | received _ hawaits hstatus =>
    rw [hstatus]
    revert hmeet hawaits
    cases o.status <;> cases x.status <;> decide

theorem Move.label (h : Move l o (some x) o' (some x')) (hp : Paired o x) :
    o'.status = .failed → x'.status = .pending ∨ x'.status = .sent → Labelled o' := by
  intro hfailed hopen
  cases h with
  | claim _ _ _ hstatus | cancel _ _ _ hstatus | sent _ _ _ hstatus | uncertain _ _ _ hstatus =>
    rw [hstatus.1] at hfailed
    cases hfailed
  | unsent _ _ _ hstatus =>
    rcases hstatus.2 with hs | hs <;> rw [hs] at hopen <;> rcases hopen with h | h <;> cases h
  | acked _ _ _ hstatus | receivedSent _ _ hstatus =>
    rw [hstatus] at hfailed
    cases hfailed
  | fenced _ _ hstatus =>
    rw [hstatus] at hfailed
    cases hfailed
  | refused _ _ _ _ hreason => exact hreason
  | settled _ _ hpending => exact hp.label hfailed (.inl hpending)
  | confirmed _ hacked =>
    rw [hacked] at hfailed
    cases hfailed
  | unconfirmed _ _ hstatus | received _ _ hstatus =>
    rw [hstatus] at hopen
    rcases hopen with h | h <;> cases h

theorem Move.paired (h : Move l o (some x) o' (some x')) (hp : Paired o x) : Paired o' x' := by
  refine ⟨h.statuses hp.statuses, h.label hp, ?_⟩
  obtain ⟨sessionId, sequence, ho, hx, hsequence⟩ := hp.route
  obtain ⟨houtbox, hsame, hattempt⟩ := h.route
  exact ⟨sessionId, sequence, houtbox.trans ho, hattempt.trans hx, hsame.trans hsequence⟩

theorem Moves.paired {p q : StoredWireOutbox P × StoredDeliveryAttempt P} (h : Moves l p q)
    (hp : Paired p.1 p.2) : Paired q.1 q.2 := by
  induction h with
  | refl => exact hp
  | tail _ hlast ih => exact hlast.paired ih

/-! ## new pairs -/

variable {outcome : WriteOutcome (StoredWireOutbox P)}

theorem outboxDuplicate_known {message : NewWireOutbox P} {existing : List (StoredWireOutbox P)}
    (hexisting : fetchWireOutboxConflicts codec t message = .ok existing)
    (h : outboxDuplicate t message existing = .ok (outcome, t')) :
    ∃ o, t.outboxes.get message.messageId = some o := by
  have hrows := collect_self (fun _ _ => wireOutboxFromRow_self) hexisting
  unfold outboxDuplicate at h
  split at h
  · rename_i stored
    split at h
    · rename_i hsame
      have hmem : stored ∈ t.outboxes.rows :=
        (List.mem_filter.mp (hrows ▸ List.mem_singleton_self stored)).1
      simp only [sameWireOutboxFact, Bool.and_eq_true, beq_iff_eq] at hsame
      exact ⟨stored, Table.get_eq_some.mpr ⟨hmem, hsame.1.1.1.1.1.1⟩⟩
    · cases h
  · cases h

theorem enqueueWireOutbox_new {message : NewWireOutbox P}
    (hnew : t.outboxes.get message.messageId = none)
    (h : enqueueWireOutbox codec t message = .ok (outcome, t')) :
    insertOutbox t message = .ok (some t') ∧ outcome = .inserted { message with revision := 0 } := by
  rcases enqueueWireOutbox_ok h with hinserted | ⟨-, hduplicate⟩
  · exact hinserted
  · simp only [enqueueWireOutbox, bind_ok, exists_unit] at h
    obtain ⟨-, -, inserted, -, h⟩ := h
    cases inserted with
    | some written =>
      cases h
      cases hduplicate
    | none =>
      simp only [bind_ok] at h
      obtain ⟨existing, hexisting, h⟩ := h
      obtain ⟨o, ho⟩ := outboxDuplicate_known hexisting h
      rw [hnew] at ho
      cases ho

/-- a message and its attempt enter the tables together, on an active session -/
structure Enqueued (t t' : DeliveryTables P) (m : MessageId) (o : StoredWireOutbox P)
    (x : StoredDeliveryAttempt P) : Prop where
  outboxes : ∃ rows, t.outboxes.insert o = some rows ∧ t'.outboxes = rows
  attempts : ∃ rows, t.attempts.insert x = some rows ∧ t'.attempts = rows
  sessions : t'.sessions = t.sessions
  keys : o.messageId = m ∧ x.messageId = some m
  pending : o.status = .pending ∧ x.status = .pending
  route : ∃ sessionId sequence, o.sessionId = some sessionId ∧ x.sessionId = some sessionId ∧
    o.sequence = some sequence ∧ ∃ s, t.sessions.get sessionId = some s ∧ s.status = .active

theorem enqueueReservedDelivery_ok {delivery : NewReservedDelivery P}
    {d : StoredOutboundDelivery P} (h : enqueueReservedDelivery codec t delivery = .ok (d, t')) :
    (t' = t ∧ ∃ o, t.outboxes.get delivery.messageId = some o) ∨
      ∃ o x, Enqueued t t' delivery.messageId o x := by
  simp only [enqueueReservedDelivery, bind_ok, exists_unit, pure_ok, reject_ok, Prod.mk.injEq,
    not_not] at h
  obtain ⟨-, session, hsession, hactive, -, -, -, ⟨w, t₁⟩, h₁, ⟨w', t₂⟩, h₂, hboth, -, rfl⟩ := h
  rcases enqueueWireOutbox_ok h₁ with ⟨hinsert, rfl⟩ | ⟨rfl, hduplicate⟩
  swap
  · rcases recordDeliveryAttempt_ok h₂ with ⟨-, stored, rfl, -⟩ | ⟨rfl, -⟩
    · rw [hduplicate] at hboth
      cases hboth
    · refine .inl ⟨rfl, ?_⟩
      cases hknown : t₂.outboxes.get delivery.messageId with
      | some o => exact ⟨o, rfl⟩
      | none =>
        -- a message that no row has is inserted
        obtain ⟨-, hinserted⟩ := enqueueWireOutbox_new hknown h₁
        rw [hinserted] at hduplicate
        cases hduplicate
  · rcases recordDeliveryAttempt_ok h₂ with ⟨hinsert', -⟩ | ⟨-, hduplicate'⟩
    · obtain ⟨o, outboxes, houtboxes, rfl, ho, -⟩ := insertOutbox_ok hinsert
      obtain ⟨x, attempts, hattempts, rfl, hx⟩ := insertAttempt_ok hinsert'
      have hstatus : session.status = .active := by
        by_contra hne
        exact hactive (.inl hne)
      refine .inr ⟨o, x, ⟨outboxes, houtboxes, rfl⟩, ⟨attempts, hattempts, rfl⟩, rfl, ?_, ?_,
        delivery.reservation.sessionId, delivery.reservation.sequence, ?_, ?_, ?_, session,
        requiredSession_ok hsession, hstatus⟩
      · exact ⟨by rw [ho]; rfl, by rw [hx]; rfl⟩
      · exact ⟨by rw [ho]; rfl, by rw [hx]; rfl⟩
      · rw [ho]
        rfl
      · rw [hx]
        rfl
      · rw [ho]
        rfl
    · rw [hduplicate'] at hboth
      cases hboth

theorem Enqueued.pairAt (h : Enqueued t t' m o x) : PairAt t' m o x := by
  obtain ⟨outboxes, ho, houtboxes⟩ := h.outboxes
  obtain ⟨attempts, hx, hattempts⟩ := h.attempts
  constructor
  · rw [houtboxes, Table.get_insert ho, if_pos h.keys.1]
  · rw [hattempts, Table.seek_insert hx, if_pos h.keys.2]

theorem Enqueued.paired (h : Enqueued t t' m o x) : Paired o x := by
  obtain ⟨sessionId, sequence, ho, hx, hsequence, -⟩ := h.route
  refine ⟨?_, fun hfailed => ?_, sessionId, sequence, ho, hx, hsequence⟩
  · rw [h.pending.1, h.pending.2]
    rfl
  · rw [h.pending.1] at hfailed
    cases hfailed

/-! ## claims and completions -/

variable {call : StoreCall P}

theorem claims_pair (h : claims codec m t call = true) :
    ∃ o x, PairAt (storeStep codec t call) m o x ∧ o.status = .writeStarted ∧
      x.status = .pending := by
  unfold claims at h
  split at h
  · rename_i claim
    rw [Bool.and_eq_true] at h
    obtain ⟨hm, h⟩ := h
    split at h
    · rename_i d t' hclaim
      obtain ⟨o, a, d', hclaimed, -⟩ := claimOutbox_ok hclaim
      have hstep : storeStep codec t (.claimOutbox claim) = t' := by
        simp only [storeStep, runCall, hclaim, Except.map]
      rcases hclaimed.outcome with ⟨-, hstarted, hpending, -⟩ | ⟨hother | hother | hother, -⟩
      · refine ⟨d'.outbox, d'.attempt, ⟨?_, ?_⟩, hstarted, hpending⟩
        · rw [hstep, hclaimed.write.outboxes, if_pos (eq_of_beq hm)]
        · rw [hstep, hclaimed.write.attempts.seek, if_pos (eq_of_beq hm)]
      all_goals cases hother
    · cases h
  · cases h

/-- the call completes a write of the message -/
def completes (m : MessageId) : StoreCall P → Bool
  | .finishTransportWrite completion _ => completion.messageId == m
  | _ => false

/-- at every point of the run the message was completed at most as often as it was claimed -/
def OncePerClaim (codec : WireCodec P) (t : DeliveryTables P) (calls : List (StoreCall P))
    (m : MessageId) : Prop :=
  ∀ k, countAlong (storeStep codec) (fun _ => completes m) t (calls.take k) ≤
    countAlong (storeStep codec) (claims codec m) t (calls.take k)

theorem not_claims_of_completes (h : completes m call = true) :
    claims codec m t call = false := by
  cases call <;> first | rfl | cases h

theorem OncePerClaim.first {calls : List (StoreCall P)} {k : Nat}
    (honce : OncePerClaim codec t calls m) (hk : calls[k]? = some call)
    (hcompletes : completes m call = true) :
    countAlong (storeStep codec) (fun _ => completes m) t (calls.take k) = 0 ∧
      countAlong (storeStep codec) (claims codec m) t (calls.take k) = 1 := by
  have hle := honce (k + 1)
  rw [countAlong_take_succ _ t hk, countAlong_take_succ _ t hk, hcompletes,
    not_claims_of_completes hcompletes] at hle
  have hclaims := claims_le codec t (calls.take k) m
  simp only [if_true, Bool.false_eq_true, if_false] at hle
  omega

end

end Sinan.Store
