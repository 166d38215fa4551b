import Sinan.Gateway.Stored

/-!
# Every delivery can be replayed

A request that is delivered again is answered from the two rows of its message.  Over every run from
the enqueue of a message on, the rows are ones for which the replay has an answer, and an answer that
denies the write is given only where no write of the message was, or may have been, made.
-/

set_option linter.unusedSectionVars false

namespace Sinan.Gateway

open Lib Execution Store Relation

section
variable {P : Type} [DecidableEq P] {codec : WireCodec P} {t t' : DeliveryTables P} {m : MessageId}
  {o o' : StoredWireOutbox P} {x x' : StoredDeliveryAttempt P} {observedAt : Int} {timeout : Nat}

/-! ## the answer to a pair -/

theorem stripLabel_append (label rest : String) : stripLabel label (label ++ rest) = some rest := by
  unfold stripLabel
  rw [String.toList_append, List.isPrefixOf_iff_prefix.mpr (List.prefix_append _ _), if_pos rfl,
    List.drop_left, String.ofList_toList]

theorem labelled_reason (h : Labelled o) :
    ∃ reason, transportRejectionReason (⟨o, x⟩ : StoredOutboundDelivery P) = some reason := by
  obtain ⟨reason, hblank, hreason⟩ := h
  refine ⟨reason, ?_⟩
  unfold transportRejectionReason
  dsimp only
  rw [hreason, Option.bind_some, stripLabel_append, Option.filter_some, if_pos]
  rw [hblank]
  rfl

/-- the answer exists, but for a confirmation deadline that is no time -/
def Answers (d : StoredOutboundDelivery P) (observedAt : Int) (timeout : Nat) : Prop :=
  (∃ outcome, durableDeliveryOutcome d observedAt timeout = .ok outcome) ∨
  (checkedAdd (d.outbox.sentAt.getD d.outbox.updatedAt) timeout = none ∧
    durableDeliveryOutcome d observedAt timeout = .error ⟨"delivery confirmation deadline overflow"⟩)

theorem sentOutcome_answers {d : StoredOutboundDelivery P} {sessionId : SessionId} {sequence : Nat}
    (hsession : d.outbox.sessionId = some sessionId) (hsequence : d.outbox.sequence = some sequence)
    (h : durableDeliveryOutcome d observedAt timeout = sentOutcome d timeout) :
    Answers d observedAt timeout := by
  unfold Answers
  rw [h]
  unfold sentOutcome
  rw [hsession, hsequence]
  cases hdeadline : checkedAdd (d.outbox.sentAt.getD d.outbox.updatedAt) timeout with
  | some deadline =>
    left
    simp only [need, hdeadline]
    exact ⟨_, rfl⟩
  | none =>
    refine .inr ⟨rfl, ?_⟩
    simp only [need, hdeadline]
    rfl

theorem paired_answers (h : Paired o x) (hleft : o.status ≠ .pending) :
    Answers ⟨o, x⟩ observedAt timeout := by
  obtain ⟨sessionId, sequence, hsession, -, hsequence⟩ := h.route
  have hsent : durableDeliveryOutcome (⟨o, x⟩ : StoredOutboundDelivery P) observedAt timeout
      = sentOutcome ⟨o, x⟩ timeout → Answers ⟨o, x⟩ observedAt timeout :=
    sentOutcome_answers hsession hsequence
  have hmeet := h.statuses
  cases ho : o.status <;> cases hx : x.status <;> rw [ho, hx] at hmeet <;>
    first | exact absurd ho hleft | exact absurd hmeet (by decide) | skip
  -- a row that failed under an attempt that is open, or thought to be sent, was refused
  case failed.pending =>
    obtain ⟨reason, hreason⟩ := labelled_reason (x := x) (h.label ho (.inl hx))
    left
    simp only [durableDeliveryOutcome, ho, hx, orTransportRejected, hreason]
    exact ⟨_, rfl⟩
  case failed.sent =>
    obtain ⟨reason, hreason⟩ := labelled_reason (x := x) (h.label ho (.inr hx))
    left
    simp only [durableDeliveryOutcome, ho, hx, orTransportRejected, hreason]
    exact ⟨_, rfl⟩
  case failed.unconfirmed | failed.failed =>
    left
    simp only [durableDeliveryOutcome, ho, hx, orTransportRejected]
    split
    · exact ⟨_, rfl⟩
    · exact ⟨_, rfl⟩
  case failed.acked | sent.sent | sent.acked | writeStarted.acked =>
    exact hsent (by simp only [durableDeliveryOutcome, ho, hx])
  case acked.pending | acked.sent | acked.acked | acked.backpressure | acked.failed =>
    exact hsent (by simp only [durableDeliveryOutcome, ho, hx])
  all_goals
    left
    simp only [durableDeliveryOutcome, ho, hx]
    exact ⟨_, rfl⟩

/-- the answer denies that the message was written -/
def disclaims : DeliveryOutcome → Bool
  | .definitelyNotWritten _ => true
  | .rejected rejection =>
    match rejection.reason with
    | .transportRejected _ => false
    | _ => true
  | .sent _ | .unconfirmed _ => false

theorem begun_not_disclaimed {outcome : DeliveryOutcome} (hbegun : Begun o x)
    (h : durableDeliveryOutcome ⟨o, x⟩ observedAt timeout = .ok outcome) :
    disclaims outcome = false := by
  cases durable_tells h with
  | sent | unconfirmed | refused => rfl
  | unwritten _ _ hstatus =>
    rcases hstatus with hcancelled | ⟨-, hended⟩
    · dsimp only at hcancelled
      rcases hbegun.1 with hs | hs | hs | hs <;> rw [hcancelled] at hs <;> cases hs
    · dsimp only at hended
      rcases hended with hended | hended <;> rcases hbegun.2 with hs | hs | hs | hs <;>
        rw [hended] at hs <;> cases hs

/-! ## one call -/

theorem storeStep_started {call : StoreCall P} (hsilent : ¬ (callLicence call).unsent m)
    (h : Started t m) : Started (storeStep codec t call) m := by
  unfold storeStep
  split
  · rename_i t' hrun
    rcases runCall_writes codec hrun with hwrites | ⟨rows, rfl⟩
    · clear hrun
      induction hwrites with
      | refl => exact h
      | tail _ hlast ih => exact write_started hlast hsilent ih
    · exact h
  · exact h

theorem unsent_completes {call : StoreCall P} (h : (callLicence call).unsent m) :
    completes m call = true ∧ ∀ completion result,
      call = .finishTransportWrite completion result → result ≠ .sent ∧ result ≠ .unconfirmed := by
  cases call with
  | finishTransportWrite completion result =>
    obtain ⟨rfl, hresult⟩ := h
    refine ⟨beq_self_eq_true _, fun completion' result' heq => ?_⟩
    cases heq
    rcases hresult with rfl | rfl <;> exact ⟨by decide, by decide⟩
  | _ => exact h.elim

/-- what no call but a receipt of the message takes from it: a pending row has a pending attempt -/
theorem move_pending {l : Licence} (h : Move l o (some x) o' (some x'))
    (hreceipt : l.receipt o.messageId → o.status ≠ .pending)
    (hp : o.status = .pending → x.status = .pending) :
    o'.status = .pending → x'.status = .pending := by
  intro hpending
  have hbefore : o.status = .pending := h.outboxHistory.pending hpending
  cases h with
  | claim _ _ _ hstatus => exact hstatus.2
  | cancel _ _ _ hstatus | sent _ _ _ hstatus | unsent _ _ _ hstatus | uncertain _ _ _ hstatus =>
    rw [hstatus.1] at hpending
    cases hpending
  | acked | refused | fenced => exact hp hbefore
  | receivedSent _ _ hstatus =>
    rw [hstatus] at hpending
    cases hpending
  | settled _ hrejected =>
    rw [failed_of_rejected hrejected] at hbefore
    cases hbefore
  | confirmed _ hacked =>
    rw [hacked] at hbefore
    cases hbefore
  | unconfirmed _ hopen =>
    rcases hopen with hsent | ⟨-, hne, -⟩
    · rw [hp hbefore] at hsent
      cases hsent
    · exact absurd hbefore hne
  | received _ _ _ hreceived => exact absurd hbefore (hreceipt hreceived)

theorem moves_pending {l : Licence} {p q : StoredWireOutbox P × StoredDeliveryAttempt P}
    (h : Moves l p q) (hm : p.1.messageId = m) (hreceipt : l.receipt m → p.1.status ≠ .pending)
    (hp : p.1.status = .pending → p.2.status = .pending) :
    q.1.status = .pending → q.2.status = .pending := by
  have hall : q.1.messageId = m ∧ (l.receipt m → q.1.status ≠ .pending) ∧
      (q.1.status = .pending → q.2.status = .pending) := by
    induction h with
    | refl => exact ⟨hm, hreceipt, hp⟩
    | tail _ hlast ih =>
      obtain ⟨hmessage, hleft, hpending⟩ := ih
      refine ⟨?_, fun hl hstatus => hleft hl (hlast.outboxHistory.pending hstatus), ?_⟩
      · rcases hlast.outbox with hsame | ⟨hstep, -⟩
        · rw [hsame]
          exact hmessage
        · exact hstep.messageId.trans hmessage
      · exact move_pending hlast (by rw [hmessage]; exact hleft) hpending
  exact hall.2.2

/-! ## every call of a run -/

/-- a receipt of the message is recorded only once its row has left PENDING -/
def ReceiptsFollow (codec : WireCodec P) (t : DeliveryTables P) (calls : List (StoreCall P))
    (m : MessageId) : Prop :=
  ∀ k update, calls[k]? = some (.recordCommandReceivedAttempt update) →
    update.sourceMessageId = m →
    ∀ o, (before (storeStep codec) t calls k).outboxes.get m = some o → o.status ≠ .pending

/-- a transport write of the message ended written or uncertain before the `k`-th call -/
def WroteBefore (calls : List (StoreCall P)) (m : MessageId) (k : Nat) : Prop :=
  ∃ i completion result, i < k ∧ calls[i]? = some (.finishTransportWrite completion result) ∧
    completion.messageId = m ∧ (result = .sent ∨ result = .unconfirmed)

/-- What holds in front of the `k`-th call.  A message that is claimed and not completed is started,
and it stays started when its one completion does not deny the write. -/
structure Replays (codec : WireCodec P) (t : DeliveryTables P) (calls : List (StoreCall P))
    (m : MessageId) (k : Nat) : Prop where
  pair : ∃ o x, PairAt (before (storeStep codec) t calls k) m o x ∧ Paired o x ∧
    (o.status = .pending → x.status = .pending)
  claimed : countAlong (storeStep codec) (claims codec m) t (calls.take k) = 1 →
    countAlong (storeStep codec) (fun _ => completes m) t (calls.take k) = 0 →
    Started (before (storeStep codec) t calls k) m
  wrote : WroteBefore calls m k → Started (before (storeStep codec) t calls k) m ∧
    countAlong (storeStep codec) (fun _ => completes m) t (calls.take k) ≠ 0

theorem receipt_of_licence {call : StoreCall P} (h : (callLicence call).receipt m) :
    ∃ update, call = .recordCommandReceivedAttempt update ∧ update.sourceMessageId = m := by
  cases call with
  | recordCommandReceivedAttempt update => exact ⟨update, rfl, h.symm⟩
  | _ => exact h.elim

variable {calls : List (StoreCall P)} {k : Nat} {call : StoreCall P}

theorem Replays.pair_step (h : Replays codec t calls m k) (hk : calls[k]? = some call)
    (hreceipts : ReceiptsFollow codec t calls m) :
    ∃ o x, PairAt (before (storeStep codec) t calls (k + 1)) m o x ∧ Paired o x ∧
      (o.status = .pending → x.status = .pending) := by
  obtain ⟨o, x, hpair, hpaired, hpending⟩ := h.pair
  obtain ⟨o', x', hpair', hmoves⟩ := storeStep_pair call hpair
  rw [before_succ (storeStep codec) t hk]
  refine ⟨o', x', hpair', hmoves.paired hpaired, moves_pending hmoves hpair.messageId ?_ hpending⟩
  intro hlicence
  obtain ⟨update, rfl, hm⟩ := receipt_of_licence hlicence
  exact hreceipts k update hk hm o hpair.outbox

theorem Replays.claimed_step (h : Replays codec t calls m k) (hk : calls[k]? = some call)
    (hclaimed : countAlong (storeStep codec) (claims codec m) t (calls.take (k + 1)) = 1)
    (hopen : countAlong (storeStep codec) (fun _ => completes m) t (calls.take (k + 1)) = 0) :
    Started (before (storeStep codec) t calls (k + 1)) m := by
  rw [countAlong_take_succ _ t hk] at hclaimed hopen
  rw [before_succ (storeStep codec) t hk]
  have hsilent : completes m call = false := by
    by_contra hne
    rw [Bool.not_eq_false] at hne
    rw [hne, if_pos rfl] at hopen
    omega
  by_cases hnow : claims codec m (before (storeStep codec) t calls k) call = true
  · obtain ⟨o, x, hpair, hstarted, hpending⟩ := claims_pair hnow
    exact ⟨o, x, hpair.outbox, hpair.attempt, .inl hstarted, .inl hpending⟩
  · rw [if_neg hnow, Nat.add_zero] at hclaimed
    rw [hsilent] at hopen
    refine storeStep_started (fun hunsent => ?_) (h.claimed hclaimed hopen)
    rw [(unsent_completes hunsent).1] at hsilent
    cases hsilent

theorem Replays.wrote_step (h : Replays codec t calls m k) (hk : calls[k]? = some call)
    (honce : OncePerClaim codec t calls m) (hwrote : WroteBefore calls m (k + 1)) :
    Started (before (storeStep codec) t calls (k + 1)) m ∧
      countAlong (storeStep codec) (fun _ => completes m) t (calls.take (k + 1)) ≠ 0 := by
  rw [before_succ (storeStep codec) t hk, countAlong_take_succ _ t hk]
  obtain ⟨i, completion, result, hik, hi, hm, hresult⟩ := hwrote
  rcases Nat.lt_or_eq_of_le (Nat.le_of_lt_succ hik) with hlt | rfl
  · obtain ⟨hstarted, hcompleted⟩ := h.wrote ⟨i, completion, result, hlt, hi, hm, hresult⟩
    refine ⟨storeStep_started (fun hunsent => ?_) hstarted, by omega⟩
    exact hcompleted (honce.first hk (unsent_completes hunsent).1).1
  · -- this call is the one completion of the claim
    rw [hi] at hk
    cases hk
    have hcompletes : completes m (.finishTransportWrite completion result : StoreCall P) = true := by
      rw [← hm]
      exact beq_self_eq_true _
    obtain ⟨hnone, hclaimed⟩ := honce.first hi hcompletes
    refine ⟨storeStep_started (fun hunsent => ?_) (h.claimed hclaimed hnone), ?_⟩
    · obtain ⟨hsent, hunconfirmed⟩ := (unsent_completes hunsent).2 completion result rfl
      exact hresult.elim hsent hunconfirmed
    · rw [hcompletes, if_pos rfl]
      omega

theorem run_replays {o : StoredWireOutbox P} {x : StoredDeliveryAttempt P} (hpair : PairAt t m o x)
    (hpaired : Paired o x) (hpending : o.status = .pending ∧ x.status = .pending)
    (honce : OncePerClaim codec t calls m) (hreceipts : ReceiptsFollow codec t calls m) (k : Nat) :
    Replays codec t calls m k := by
  induction k with
  | zero =>
    refine ⟨⟨o, x, hpair, hpaired, fun _ => hpending.2⟩, fun hclaimed => (nomatch hclaimed), ?_⟩
    rintro ⟨i, completion, result, hi, -⟩
    exact absurd hi (Nat.not_lt_zero i)
  | succ k ih =>
    cases hk : calls[k]? with
    | some call =>
      exact ⟨ih.pair_step hk hreceipts, ih.claimed_step hk, ih.wrote_step hk honce⟩
    | none =>
      have htake : calls.take (k + 1) = calls.take k := by
        rw [List.take_add_one, hk, Option.toList_none, List.append_nil]
      refine ⟨?_, ?_, ?_⟩
      · rw [before_past (storeStep codec) t hk]
        exact ih.pair
      · rw [before_past (storeStep codec) t hk, htake]
        exact ih.claimed
      · rintro ⟨i, completion, result, hik, hi, hm, hresult⟩
        rw [before_past (storeStep codec) t hk, htake]
        refine ih.wrote ⟨i, completion, result, ?_, hi, hm, hresult⟩
        rcases Nat.lt_or_eq_of_le (Nat.le_of_lt_succ hik) with hlt | rfl
        · exact hlt
        · rw [hi] at hk
          cases hk

end

section
variable {P : Type} [DecidableEq P]

/-- **Every delivery can be replayed.**  From the enqueue of a message on, whatever calls follow, its
two rows are pending or the replay answers them (unless the confirmation deadline is past the range of
times), and an answer that denies the write is given only where no write of the message ended written
or uncertain. -/
theorem every_delivery_replays (codec : WireCodec P) {t₀ t : DeliveryTables P}
    {delivery : NewReservedDelivery P} {d : StoredOutboundDelivery P}
    (hnew : t₀.outboxes.get delivery.messageId = none)
    (henqueue : enqueueReservedDelivery codec t₀ delivery = .ok (d, t))
    (calls : List (StoreCall P)) (honce : OncePerClaim codec t calls delivery.messageId)
    (hreceipts : ReceiptsFollow codec t calls delivery.messageId) (k : Nat) :
    ∃ o x, PairAt (before (storeStep codec) t calls k) delivery.messageId o x ∧
      ((o.status = .pending ∧ x.status = .pending) ∨
        ∀ observedAt timeout, Answers ⟨o, x⟩ observedAt timeout ∧
          ∀ outcome, durableDeliveryOutcome ⟨o, x⟩ observedAt timeout = .ok outcome →
            disclaims outcome = true → ¬ WroteBefore calls delivery.messageId k) := by
  rcases enqueueReservedDelivery_ok henqueue with ⟨-, o, hknown⟩ | ⟨o, x, hfresh⟩
  · rw [hnew] at hknown
    cases hknown
  · have h := run_replays hfresh.pairAt hfresh.paired hfresh.pending honce hreceipts k
    obtain ⟨o', x', hpair, hpaired, hpending⟩ := h.pair
    refine ⟨o', x', hpair, ?_⟩
    by_cases hleft : o'.status = .pending
    · exact .inl ⟨hleft, hpending hleft⟩
    · refine .inr fun observedAt timeout => ⟨paired_answers hpaired hleft, ?_⟩
      intro outcome houtcome hdenies hwrote
      obtain ⟨o'', x'', hget, hseek, hbegun⟩ := (h.wrote hwrote).1
      rw [hpair.outbox] at hget
      rw [hpair.attempt] at hseek
      cases hget
      cases hseek
      rw [begun_not_disclaimed hbegun houtcome] at hdenies
      cases hdenies

end

/-! ## a message that is written and acknowledged -/

/-- the session is registered and a sequence reserved -/
def routedTables : DeliveryTables String :=
  before (storeStep goldWireCodec) goldDeliveryTables goldCalls 2

def replayedDelivery : NewReservedDelivery String :=
  ⟨goldReservation, "attempt:m1", "m1", "execution.command", "envelope", 20⟩

def enqueuedTables : DeliveryTables String :=
  storeStep goldWireCodec routedTables (.enqueueReservedDelivery replayedDelivery)

/-- the message is claimed, written, received and acknowledged -/
def replayedCalls : List (StoreCall String) :=
  [.claimOutbox ⟨"m1", 0, 0, 0, true, 30⟩,
    .finishTransportWrite ⟨"m1", 1, 1, 40, none⟩ .sent,
    .recordCommandReceivedAttempt ⟨"m1", "s1", "c1", 45⟩,
    .recordTransportAck ⟨"m1", "s1", "execution.command", .accepted, none, 50⟩]

theorem replayed_enqueued : ∃ d,
    enqueueReservedDelivery goldWireCodec routedTables replayedDelivery = .ok (d, enqueuedTables) := by
  have hok : (enqueueReservedDelivery goldWireCodec routedTables replayedDelivery).toOption.isSome
      = true := by decide +kernel
  cases h : enqueueReservedDelivery goldWireCodec routedTables replayedDelivery with
  | ok r =>
    refine ⟨r.1, ?_⟩
    simp only [enqueuedTables, storeStep, runCall, h, Except.map]
  | error e =>
    rw [h] at hok
    cases hok

theorem replayed_once : OncePerClaim goldWireCodec enqueuedTables replayedCalls "m1" := by
  have hbounded : ∀ k ≤ 4,
      countAlong (storeStep goldWireCodec) (fun _ => completes "m1") enqueuedTables
        (replayedCalls.take k) ≤
      countAlong (storeStep goldWireCodec) (claims goldWireCodec "m1") enqueuedTables
        (replayedCalls.take k) := by decide +kernel
  intro k
  rcases Nat.le_total k 4 with hle | hge
  · exact hbounded k hle
  · have htake : replayedCalls.take k = replayedCalls.take 4 := by
      rw [List.take_of_length_le hge]
      rfl
    rw [htake]
    exact hbounded 4 (le_refl 4)

theorem replayed_receipts : ReceiptsFollow goldWireCodec enqueuedTables replayedCalls "m1" := by
  have hstatus : ((before (storeStep goldWireCodec) enqueuedTables replayedCalls 2).outboxes.get
      "m1").map (fun o => o.status) = some .sent := by decide +kernel
  intro k update hk _ o hget hpending
  rcases k with _ | _ | _ | _ | k
  · cases hk
  · cases hk
  · rw [hget, Option.map_some, hpending] at hstatus
    cases hstatus
  · cases hk
  · cases hk

theorem every_delivery_replays_sample :
    ∃ o x, PairAt (before (storeStep goldWireCodec) enqueuedTables replayedCalls 4) "m1" o x ∧
      ((o.status = .pending ∧ x.status = .pending) ∨
        ∀ observedAt timeout, Answers ⟨o, x⟩ observedAt timeout ∧
          ∀ outcome, durableDeliveryOutcome ⟨o, x⟩ observedAt timeout = .ok outcome →
            disclaims outcome = true → ¬ WroteBefore replayedCalls "m1" 4) := by
  obtain ⟨d, henqueued⟩ := replayed_enqueued
  exact every_delivery_replays goldWireCodec
    (show routedTables.outboxes.get "m1" = none by decide +kernel) henqueued replayedCalls
    replayed_once replayed_receipts 4

/-- A message that was written is not answered when the confirmation timeout, which the configuration
accepts up to the largest time, takes the deadline past it. -/
theorem late_deadline_has_no_outcome :
    OncePerClaim goldWireCodec enqueuedTables replayedCalls "m1" ∧
    ReceiptsFollow goldWireCodec enqueuedTables replayedCalls "m1" ∧
    ∃ o x, PairAt (before (storeStep goldWireCodec) enqueuedTables replayedCalls 4) "m1" o x ∧
      o.status ≠ .pending ∧
      ∀ outcome, durableDeliveryOutcome ⟨o, x⟩ 60 (2 ^ 63 - 1) ≠ .ok outcome := by
  have hrun : ((before (storeStep goldWireCodec) enqueuedTables replayedCalls 4).outboxes.get
      "m1").bind (fun o =>
        ((before (storeStep goldWireCodec) enqueuedTables replayedCalls 4).attempts.seek "m1").map
          fun x => (o.status, (durableDeliveryOutcome ⟨o, x⟩ 60 (2 ^ 63 - 1)).toOption.isSome))
      = some (.acked, false) := by decide +kernel
  obtain ⟨o, hget, hx⟩ := Option.bind_eq_some_iff.mp hrun
  obtain ⟨x, hseek, hpair⟩ := Option.map_eq_some_iff.mp hx
  rw [Prod.mk.injEq] at hpair
  refine ⟨replayed_once, replayed_receipts, o, x, ⟨hget, hseek⟩, ?_, fun outcome houtcome => ?_⟩
  · rw [hpair.1]
    decide
  · rw [houtcome] at hpair
    exact (nomatch hpair.2)

end Sinan.Gateway
