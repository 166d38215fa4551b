import Sinan.Store.Sound

/-!
# When a session can be closed

`closeExactSession` dates the close to the last change of the session, if that is later, but not to the
last changes of its messages.  A claim or a write that was dated ahead of the session makes the close
stale, and nothing is closed.  `Closable` says exactly when it is not: over every run from an empty
database the close of an active session returns if and only if the session is closable.
-/

set_option linter.unusedSectionVars false

namespace Sinan.Store

open Lib Relation

section
variable {P : Type} [DecidableEq P] {codec : WireCodec P} {t t₁ t' : DeliveryTables P}
  {m : MessageId} {o o' : StoredWireOutbox P} {x x' : StoredDeliveryAttempt P}
  {s : StoredSessionRecord P} {sessionId : SessionId}

/-! ## the pairs of a run -/

theorem AllPaired.step {call : StoreCall P} (hall : AllPaired t) (hread : Readable codec t)
    (hunbound : Unbound call) (h : runCall codec t call = .ok t') : AllPaired t' := by
  cases call with
  | enqueueWireOutbox _ =>
    rcases enqueueWireOutbox_ok (map_snd_ok h).choose_spec with ⟨hinsert, -⟩ | ⟨rfl, -⟩
    · obtain ⟨stored, outboxes, hrow, rfl, -⟩ := insertOutbox_ok hinsert
      exact fun m o x hp => hall m o x
        (pair_before_outbox (fun id a m ha hm => hread.bound ha hm) hrow hp)
    · exact hall
  | recordDeliveryAttempt attempt =>
    rcases recordDeliveryAttempt_unbound (map_snd_ok h).choose_spec (hunbound attempt rfl) with
      rfl | ⟨stored, attempts, hrow, rfl, hnone, -⟩
    · exact hall
    · exact fun m o x hp => hall m o x (pair_before_attempt hrow hnone hp)
  | enqueueReservedDelivery _ =>
    rcases enqueueReservedDelivery_ok (map_snd_ok h).choose_spec with ⟨rfl, -⟩ | ⟨o, x, hnew⟩
    · exact hall
    · intro k o' y hp
      rcases hnew.pair_before hp with ⟨-, rfl, rfl⟩ | hp
      · exact hnew.paired
      · exact hall k o' y hp
  | parents rows =>
    cases h
    exact fun m o x hp => hall m o x ⟨hp.outbox, hp.attempt⟩
  | _ =>
    rcases runCall_writes codec h with hwrites | ⟨rows, rfl⟩
    · exact hall.writes hwrites id
    · exact fun m o x hp => hall m o x ⟨hp.outbox, hp.attempt⟩

theorem run_sound {parents : Parents P} {calls : List (StoreCall P)}
    (hunbound : ∀ call ∈ calls, Unbound call)
    (hregular : ∀ k call, calls[k]? = some call →
      Regular (before (storeStep codec) (emptyTables parents) calls k) call) (k : Nat) :
    Readable codec (before (storeStep codec) (emptyTables parents) calls k) ∧
      AllPaired (before (storeStep codec) (emptyTables parents) calls k) := by
  induction k with
  | zero => exact ⟨emptyTables_readable parents, fun _ _ _ hp => (nomatch hp.outbox)⟩
  | succ k ih =>
    obtain ⟨hread, hall⟩ := ih
    cases hk : calls[k]? with
    | none =>
      rw [before_past _ _ hk]
      exact ⟨hread, hall⟩
    | some call =>
      rw [before_succ _ _ hk]
      unfold storeStep
      split
      · rename_i t' hrun
        exact ⟨runCall_readable hread (hregular k call hk) hrun,
          hall.step hread (hunbound call (List.mem_of_getElem? hk)) hrun⟩
      · exact ⟨hread, hall⟩

/-! ## statements that return -/

theorem checkedIncrement_iff {field : String} {value next : Nat} :
    checkedIncrement field value = .ok next ↔ next = value + 1 ∧ (value : Int) < i64Max := by
  simp only [checkedIncrement, u64ToI64, bind_ok, need_ok, exists_unit, pure_ok, reject_ok, not_lt]
  constructor
  · rintro ⟨n, hn, hfits, rfl⟩
    obtain ⟨rfl, -⟩ := checkedSucc_some hn
    exact ⟨rfl, by omega⟩
  · rintro ⟨rfl, hlt⟩
    have hsucc : checkedSucc value = some (value + 1) := by
      unfold checkedSucc
      rw [if_pos]
      simp only [i64Max, u64Max] at hlt ⊢
      omega
    exact ⟨value + 1, hsucc, by omega, rfl⟩

theorem Readable.attemptedAt (hread : Readable codec t) {id : String}
    (h : t.attempts.get id = some x) : x.attemptedAt ≤ x.updatedAt := by
  have hparse := hread.attempt id x h
  simp only [parseAndValidateAttempt, deliveryAttemptFromRow, bind_ok, exists_unit, pure_ok,
    reject_ok, not_or, not_lt] at hparse
  obtain ⟨-, ⟨⟨hle, -⟩, -⟩, -⟩ := hparse
  exact hle

/-- an attempt that is routed changes to another status unless the change is stale, the revisions are
used up, or the reason of an unconfirmed one counts as blank -/
theorem updateAttemptState_returns {id : String} (status : CommandDeliveryAttemptStatus) (time : Int)
    (error : Option String) (hget : t.attempts.get id = some x)
    (htimes : x.attemptedAt ≤ x.updatedAt) (hroute : x.sessionId.isSome ∧ x.messageId.isSome)
    (hstatus : status ≠ .acked) :
    (∃ t', updateAttemptState t x status time none error = .ok t') ↔
      (x.revision : Int) < i64Max ∧ x.updatedAt ≤ time ∧
        (status = .unconfirmed → error.any (fun e => !sqlBlank e) = true) := by
  have hself : t.attempts.get x.attemptId = some x := Table.get_self hget
  simp only [updateAttemptState, bind_ok, need_ok, exists_unit, pure_ok, sqlGuard_ok,
    Option.filter_eq_some_iff, checkedIncrement_iff]
  constructor
  · rintro ⟨t', next, ⟨rfl, hrevision⟩, row, ⟨hrow, -⟩, hguard, -⟩
    rw [hself] at hrow
    cases hrow
    simp only [attemptMayChange, attemptCheck, Bool.and_eq_true, decide_eq_true_eq,
      Bool.or_eq_true, Bool.not_eq_true'] at hguard
    refine ⟨hrevision, hguard.1.1.2, fun hunconfirmed => ?_⟩
    rcases hguard.2.2 with hother | hreason
    · exact absurd hunconfirmed (beq_eq_false_iff_ne.mp hother)
    · exact hreason
  · rintro ⟨hrevision, htime, hreason⟩
    have hnext : x.attemptedAt ≤ time := le_trans htimes htime
    have hguard : attemptMayChange x { x with
        status := status, revision := x.revision + 1, updatedAt := time, ackedAt := none,
        error := error } = true := by
      simp only [attemptMayChange, attemptCheck, Bool.and_eq_true, decide_eq_true_eq,
        Bool.or_eq_true, Bool.not_eq_true', beq_self_eq_true]
      refine ⟨⟨⟨trivial, htime⟩, attemptLatest_le.mpr ⟨hnext, rfl⟩⟩,
        ⟨⟨⟨⟨.inr ⟨hnext, rfl⟩, .inr hroute.1⟩, .inr hroute⟩, ?_⟩, ?_⟩, ?_⟩
      · rw [beq_eq_false_iff_ne.mpr hstatus]
        rfl
      · exact .inl (beq_eq_false_iff_ne.mpr hstatus)
      · by_cases hunconfirmed : status = .unconfirmed
        · exact .inr (hreason hunconfirmed)
        · exact .inl (beq_eq_false_iff_ne.mpr hunconfirmed)
    obtain ⟨attempts, hput⟩ := Table.put_kept (r := ({ x with
        status := status, revision := x.revision + 1, updatedAt := time, ackedAt := none,
        error := error } : StoredDeliveryAttempt P)) hself rfl
    exact ⟨_, x.revision + 1, ⟨rfl, hrevision⟩, x, ⟨hself, beq_self_eq_true _⟩, hguard, attempts, hput,
      rfl⟩

theorem updateOutboxState_returns (time : Int) (error : Option String)
    (hget : t.outboxes.get m = some o) (hsound : OutboxSound codec o) :
    (∃ t', updateOutboxState t o .cancelled time none none error = .ok t') ↔
      (o.revision : Int) < i64Max ∧ o.updatedAt ≤ time := by
  have hself : t.outboxes.get o.messageId = some o := Table.get_self hget
  simp only [updateOutboxState, bind_ok, need_ok, exists_unit, pure_ok, sqlGuard_ok,
    Option.filter_eq_some_iff, checkedIncrement_iff]
  constructor
  · rintro ⟨t', next, ⟨rfl, hrevision⟩, row, ⟨hrow, -⟩, hguard, -⟩
    rw [hself] at hrow
    cases hrow
    simp only [outboxMayChange, Bool.and_eq_true, decide_eq_true_eq] at hguard
    exact ⟨hrevision, hguard.1.1.2⟩
  · rintro ⟨hrevision, htime⟩
    have hreads := hsound.reads
    simp only [validateStoredWireOutbox, bind_ok, exists_unit, reject_ok, not_lt] at hreads
    obtain ⟨-, -, -, -, hcreated⟩ := hreads
    have hnext : o.createdAt ≤ time := le_trans hcreated htime
    have hguard : outboxMayChange o { o with
        status := .cancelled, revision := o.revision + 1, updatedAt := time, sentAt := none,
        ackedAt := none, lastError := error } = true := by
      have hcheck := hsound.check
      simp only [outboxMayChange, outboxCheck, Bool.and_eq_true, decide_eq_true_eq,
        Bool.or_eq_true, beq_self_eq_true] at hcheck ⊢
      obtain ⟨⟨⟨⟨⟨⟨⟨⟨htype, hsequence⟩, -⟩, -⟩, -⟩, -⟩, -⟩, hsubject⟩, hroute⟩ := hcheck
      exact ⟨⟨⟨trivial, htime⟩, outboxLatest_le.mpr ⟨hnext, rfl, rfl⟩⟩,
        ⟨⟨⟨⟨⟨⟨⟨⟨htype, hsequence⟩, .inr ⟨⟨hnext, rfl⟩, rfl⟩⟩, rfl⟩, rfl⟩, .inr rfl⟩, rfl⟩, hsubject⟩,
          hroute⟩⟩
    obtain ⟨outboxes, hput⟩ := Table.put_kept (r := ({ o with
        status := .cancelled, revision := o.revision + 1, updatedAt := time, sentAt := none,
        ackedAt := none, lastError := error } : StoredWireOutbox P)) hself rfl
    exact ⟨_, o.revision + 1, ⟨rfl, hrevision⟩, o, ⟨hself, beq_self_eq_true _⟩, hguard, outboxes, hput,
      rfl⟩

variable {status : SessionStatus}

theorem transitionSessionStatus_returns {time : Int} (hget : t.sessions.get sessionId = some s)
    (hactive : s.status = .active) (hsound : SessionSound s) (htime : s.updatedAt ≤ time)
    (hstatus : status ≠ .active) :
    (∃ t', transitionSessionStatus t s status time = .ok t') ↔ (s.revision : Int) < i64Max := by
  have hself : t.sessions.get s.sessionId = some s := Table.get_self hget
  simp only [transitionSessionStatus, updateActiveSession, bind_ok, need_ok, exists_unit, pure_ok,
    sqlGuard_ok, Option.filter_eq_some_iff, checkedIncrement_iff]
  constructor
  · rintro ⟨t', next, ⟨rfl, hrevision⟩, -⟩
    exact hrevision
  · intro hrevision
    have hreads := hsound.reads
    simp only [sessionFromRow, bind_ok, exists_unit, pure_ok, reject_ok, not_or, not_lt,
      Bool.not_eq_false, and_true] at hreads
    obtain ⟨-, -, hconnected, hheartbeat, hsync, -⟩ := hreads
    have hlater : ∀ y : Option Int, withinSession s.toNewSessionRecord y = true →
        y.all (fun t => t ≤ time) = true := by
      intro y hy
      cases y with
      | none => rfl
      | some at' =>
        simp only [withinSession, Option.all_some, decide_eq_true_eq] at hy ⊢
        exact le_trans hy.2 htime
    have hnext := le_trans hconnected htime
    have hended : (some time).all (fun t => t ≤ time) = true := decide_eq_true (le_refl time)
    have hguard : sessionMayChange s { s with
        status := status, disconnectedAt := some time, revision := s.revision + 1,
        updatedAt := time } = true := by
      have hcheck := hsound.check
      simp only [sessionMayChange, sessionCheck, Bool.and_eq_true, decide_eq_true_eq,
        Bool.or_eq_true, beq_self_eq_true] at hcheck ⊢
      obtain ⟨⟨⟨⟨hplatform, -⟩, hsequence⟩, -⟩, hlimit⟩ := hcheck
      exact ⟨⟨⟨⟨trivial, htime⟩, sessionLatest_le.mpr
          ⟨hnext, hlater _ hheartbeat, hlater _ hsync, hended⟩⟩, le_refl _⟩,
        ⟨⟨⟨hplatform, .inr ⟨⟨⟨hnext, hlater _ hheartbeat⟩, hlater _ hsync⟩, hended⟩⟩, hsequence⟩,
          .inl (bne_iff_ne.mpr (Nat.succ_ne_zero _))⟩, hlimit⟩
    obtain ⟨sessions, hput⟩ := Table.put_within (r := ({ s with
        status := status, disconnectedAt := some time, revision := s.revision + 1,
        updatedAt := time } : StoredSessionRecord P)) hself fun u hu => by
      unfold sessionIndex at hu
      rw [if_neg hstatus] at hu
      cases hu
    have hfits : (s.status == .active && s.revision == s.revision) = true := by
      rw [hactive, beq_self_eq_true, beq_self_eq_true, Bool.and_self]
    exact ⟨_, s.revision + 1, ⟨rfl, hrevision⟩, s, ⟨hself, hfits⟩, hguard, sessions, hput, rfl⟩

/-! ## the sweeps -/

variable {fits : StoredWireOutbox P → Bool}

theorem mem_sessionMessages_iff :
    m ∈ sessionMessages t sessionId fits ↔ ∃ o x, PairAt t m o x ∧ pendingOf sessionId fits m o x := by
  constructor
  · intro hm
    obtain ⟨o, ho, rfl⟩ := List.mem_map.mp hm
    obtain ⟨hmem, hkeep⟩ := List.mem_filter.mp (mem_inOrder.mp ho)
    simp only [Bool.and_eq_true, Option.any_eq_true, beq_iff_eq] at hkeep
    obtain ⟨⟨hsession, hfits⟩, x, hx, hpending⟩ := hkeep
    exact ⟨o, x, ⟨Table.get_eq_some.mpr ⟨hmem, rfl⟩, hx⟩, hsession, hfits, hpending⟩
  · rintro ⟨o, x, hp, hsession, hfits, hpending⟩
    exact mem_sessionMessages hp hsession hfits hpending

theorem Paired.routed (h : Paired o x) (hp : PairAt t m o x) :
    x.sessionId.isSome ∧ x.messageId.isSome := by
  obtain ⟨_, _, -, hsession, -⟩ := h.route
  have hindex := Table.index_of_seek hp.attempt
  have hm : x.messageId = some m := hindex
  rw [hsession, hm]
  exact ⟨rfl, rfl⟩

/-- the pair of the message has not changed since `t`, and can be read -/
structure PairKept (codec : WireCodec P) (t b : DeliveryTables P) (m : MessageId)
    (o : StoredWireOutbox P) (x : StoredDeliveryAttempt P) : Prop where
  start : PairAt t m o x
  now : PairAt b m o x
  read : Readable codec b

theorem PairKept.outbox (h : PairKept codec t t' m o x) : requiredOutbox codec t' m = .ok o :=
  requiredOutbox_of h.read h.now.outbox

theorem PairKept.attempt (h : PairKept codec t t' m o x) :
    requiredAttemptByMessage codec t' m = .ok x :=
  requiredAttemptByMessage_of h.read h.now.attempt

theorem PairKept.attemptedAt (h : PairKept codec t t' m o x) : x.attemptedAt ≤ x.updatedAt :=
  h.read.attemptedAt (Table.get_of_seek h.now.attempt)

theorem PairKept.apart {l : Licence} {k : MessageId} {ok ok' : StoredWireOutbox P}
    {ak ak' : Option (StoredDeliveryAttempt P)} (h : PairKept codec t t₁ m o x)
    (hwrite : MessageWrite l t₁ t' k ok ak ok' ak') (hm : m ≠ k) (hread : Readable codec t') :
    PairKept codec t t' m o x :=
  ⟨h.start, ⟨by rw [hwrite.outbox_ne hm]; exact h.now.outbox,
    by rw [hwrite.attempt_ne hm]; exact h.now.attempt⟩, hread⟩

theorem sessionLoop_returns (sessionId : SessionId) {status : WireOutboxStatus}
    (f : DeliveryTables P → MessageId → StoreCheck (DeliveryTables P))
    (Good : StoredWireOutbox P → StoredDeliveryAttempt P → Prop) (hread : Readable codec t)
    (hfits : ∀ o, fits o = true → o.status = status)
    (hgood : ∀ b m o x, PairKept codec t b m o x → pendingOf sessionId fits m o x →
      ((∃ b', f b m = .ok b') ↔ Good o x))
    (hwrite : ∀ b m b', PendingIn (· = status) b m → f b m = .ok b' →
      ∃ o a o' a', MessageWrite .none b b' m o a o' a')
    (hkept : ∀ b m b', Readable codec b → f b m = .ok b' → Readable codec b') :
    (∃ r, (sessionMessages t sessionId fits).foldlM f t = .ok r) ↔
      ∀ m o x, PairAt t m o x → pendingOf sessionId fits m o x → Good o x := by
  have hloop : (∃ r, (sessionMessages t sessionId fits).foldlM f t = .ok r) ↔
      ∀ m ∈ sessionMessages t sessionId fits, ∀ o x, PairAt t m o x → Good o x := by
    refine foldlM_returns
      (fun b m => ∃ o x, PairKept codec t b m o x ∧ pendingOf sessionId fits m o x)
      (fun m => ∀ o x, PairAt t m o x → Good o x) ?_ ?_ sessionMessages_nodup ?_
    · rintro b m ⟨o, x, hp, hpending⟩
      rw [hgood b m o x hp hpending]
      constructor
      · intro h o' x' hp'
        obtain ⟨rfl, rfl⟩ := hp.start.unique hp'
        exact h
      · exact fun h => h o x hp.start
    · rintro b m b' ⟨o, x, hp, hpending⟩ hstep k hk ⟨o', x', hp', hpending'⟩
      have hin : PendingIn (· = status) b m :=
        ⟨o, x, hp.now.outbox, hfits o hpending.2.1, hp.now.attempt, hpending.2.2⟩
      obtain ⟨_, _, _, _, hw⟩ := hwrite b m b' hin hstep
      exact ⟨o', x', hp'.apart hw hk (hkept b m b' hp.read hstep), hpending'⟩
    · intro m hm
      obtain ⟨o, x, hp, hpending⟩ := mem_sessionMessages_iff.mp hm
      exact ⟨o, x, ⟨hp, hp, hread⟩, hpending⟩
  rw [hloop]
  constructor
  · exact fun h m o x hp hpending => h m (mem_sessionMessages_iff.mpr ⟨o, x, hp, hpending⟩) o x hp
  · intro h m hm o x hp
    obtain ⟨o', x', hp', hpending⟩ := mem_sessionMessages_iff.mp hm
    obtain ⟨rfl, rfl⟩ := hp'.unique hp
    exact h m _ _ hp hpending

variable {changedAt : Int} {error : String}

theorem settleRejectedAttempt_returns {b : DeliveryTables P} (hpaired : Paired o x)
    (hp : PairKept codec t b m o x) (hfailed : o.status = .failed) (hpending : x.status = .pending) :
    (∃ b', settleRejectedAttempt codec changedAt b m = .ok b') ↔ (x.revision : Int) < i64Max := by
  obtain ⟨reason, -, hreason⟩ := hpaired.label hfailed (.inl hpending)
  have hlabel := (hpaired.label hfailed (.inl hpending)).hasPrefix
  rw [hreason] at hlabel
  simp only [settleRejectedAttempt, hp.outbox, hp.attempt, bind_ok, need_ok, exists_unit, reject_ok,
    Except.ok.injEq, exists_eq_left', hreason, Option.some.injEq, hlabel, Bool.true_eq_false,
    not_false_eq_true, true_and]
  rw [updateAttemptState_returns _ _ _ (Table.get_of_seek hp.now.attempt) hp.attemptedAt
    (hpaired.routed hp.now) (by decide)]
  constructor
  · exact fun h => h.1
  · exact fun h => ⟨h, le_max_right _ _, fun hstatus => by cases hstatus⟩

theorem settleRejectedPendingAttempts_returns (changedAt : Int) (hread : Readable codec t)
    (hall : AllPaired t) :
    (∃ r, settleRejectedPendingAttempts codec t sessionId changedAt = .ok r) ↔
      ∀ m o x, PairAt t m o x → o.sessionId = some sessionId → o.status = .failed →
        x.status = .pending → (x.revision : Int) < i64Max := by
  have hloop := sessionLoop_returns sessionId (settleRejectedAttempt codec changedAt)
    (fun _ x => (x.revision : Int) < i64Max) hread rejected_failed
    (fun b m o x hp hpending => settleRejectedAttempt_returns (hall m o x hp.start) hp
      (rejected_failed o hpending.2.1) hpending.2.2)
    (fun b m b' hready hstep => by
      obtain ⟨o, a, a', hwrite, -⟩ := settleRejectedAttempt_ok (l := .none) hready hstep
      exact ⟨o, some a, o, some a', hwrite⟩)
    (fun b m b' hb hstep => settleRejectedAttempt_readable hb hstep)
  simp only [settleRejectedPendingAttempts, bind_ok, pure_ok]
  constructor
  · rintro ⟨-, t₁, hfold, -⟩ m o x hp hsession hfailed hpending
    refine hloop.mp ⟨t₁, hfold⟩ m o x hp ⟨hsession, ?_, hpending⟩
    dsimp only
    rw [hfailed, ((hall m o x hp).label hfailed (.inl hpending)).like]
    rfl
  · intro h
    obtain ⟨t₁, hfold⟩ := hloop.mpr fun m o x hp hpending =>
      h m o x hp hpending.1 (rejected_failed o hpending.2.1) hpending.2.2
    exact ⟨_, t₁, hfold, rfl⟩

theorem cancelPendingDelivery_returns {b : DeliveryTables P} (hpaired : Paired o x)
    (hp : PairKept codec t b m o x) :
    (∃ b', cancelPendingDelivery codec changedAt error b m = .ok b') ↔
      (o.updatedAt ≤ changedAt ∧ x.updatedAt ≤ changedAt) ∧ (o.revision : Int) < i64Max ∧
        (x.revision : Int) < i64Max := by
  have hattempt : ∀ b₁ : DeliveryTables P, b₁.attempts = b.attempts →
      ((∃ b', updateAttemptState b₁ x .cancelled changedAt none (some error) = .ok b') ↔
        (x.revision : Int) < i64Max ∧ x.updatedAt ≤ changedAt) := by
    intro b₁ hsame
    have hget : b₁.attempts.get x.attemptId = some x := by
      rw [hsame]
      exact Table.get_of_seek hp.now.attempt
    rw [updateAttemptState_returns _ _ _ hget hp.attemptedAt (hpaired.routed hp.now) (by decide)]
    exact ⟨fun h => ⟨h.1, h.2.1⟩, fun h => ⟨h.1, h.2, fun hstatus => by cases hstatus⟩⟩
  have houtbox := updateOutboxState_returns changedAt (some error) hp.now.outbox
    (hp.read.outbox m o hp.now.outbox)
  simp only [cancelPendingDelivery, hp.outbox, hp.attempt, requireMonotonicTransitionTime, bind_ok,
    exists_unit, reject_ok, Except.ok.injEq, exists_eq_left', not_or, not_lt]
  constructor
  · rintro ⟨b', htimes, b₁, h₁, h₂⟩
    obtain ⟨outboxes, -, -, rfl⟩ := updateOutboxState_ok hp.now.outbox h₁
    have hxrevision := (hattempt { b with outboxes := outboxes } rfl).mp ⟨b', h₂⟩
    exact ⟨htimes, (houtbox.mp ⟨_, h₁⟩).1, hxrevision.1⟩
  · rintro ⟨htimes, horevision, hxrevision⟩
    obtain ⟨b₁, h₁⟩ := houtbox.mpr ⟨horevision, htimes.1⟩
    have hsame : b₁.attempts = b.attempts := by
      obtain ⟨outboxes, -, -, rfl⟩ := updateOutboxState_ok hp.now.outbox h₁
      rfl
    obtain ⟨b', h₂⟩ := (hattempt b₁ hsame).mpr ⟨hxrevision, htimes.2⟩
    exact ⟨b', htimes, b₁, h₁, h₂⟩

theorem cancelSessionPendingDeliveries_returns (changedAt : Int) (error : String)
    (hread : Readable codec t) (hall : AllPaired t) :
    (∃ r, cancelSessionPendingDeliveries codec t sessionId changedAt error = .ok r) ↔
      ∀ m o x, PairAt t m o x → o.sessionId = some sessionId → o.status = .pending →
        x.status = .pending → (o.updatedAt ≤ changedAt ∧ x.updatedAt ≤ changedAt) ∧
          (o.revision : Int) < i64Max ∧ (x.revision : Int) < i64Max := by
  have hfits : ∀ o : StoredWireOutbox P, (o.status == .pending) = true → o.status = .pending :=
    fun _ ho => eq_of_beq ho
  have hloop := sessionLoop_returns sessionId (cancelPendingDelivery codec changedAt error)
    (fun o x => (o.updatedAt ≤ changedAt ∧ x.updatedAt ≤ changedAt) ∧
      (o.revision : Int) < i64Max ∧ (x.revision : Int) < i64Max) hread hfits
    (fun b m o x hp _ => cancelPendingDelivery_returns (hall m o x hp.start) hp)
    (fun b m b' hready hstep => by
      obtain ⟨o, a, o', a', hwrite, -⟩ := cancelPendingDelivery_ok (l := .none) hready hstep
      exact ⟨o, some a, o', some a', hwrite⟩)
    (fun b m b' hb hstep => cancelPendingDelivery_readable hb hstep)
  simp only [cancelSessionPendingDeliveries, bind_ok, pure_ok]
  constructor
  · rintro ⟨-, t₁, hfold, -⟩ m o x hp hsession hopen hpending
    exact hloop.mp ⟨t₁, hfold⟩ m o x hp ⟨hsession, beq_iff_eq.mpr hopen, hpending⟩
  · intro h
    obtain ⟨t₁, hfold⟩ := hloop.mpr fun m o x hp hpending =>
      h m o x hp hpending.1 (hfits o hpending.2.1) hpending.2.2
    exact ⟨_, t₁, hfold, rfl⟩

theorem unconfirmAttempt_returns {acc : List (StoredDeliveryAttempt P) × DeliveryTables P}
    (hread : Readable codec acc.2) (herror : blank error = false)
    (hget : acc.2.attempts.get x.attemptId = some x)
    (hroute : x.sessionId.isSome ∧ x.messageId.isSome) :
    (∃ acc', unconfirmAttempt codec changedAt error acc x = .ok acc') ↔
      x.updatedAt ≤ changedAt ∧ (x.revision : Int) < i64Max ∧ sqlBlank error = false := by
  have hupdate := updateAttemptState_returns .unconfirmed changedAt (some error) hget
    (hread.attemptedAt hget) hroute (by decide)
  simp only [unconfirmAttempt, bind_ok, exists_unit, reject_ok, pure_ok, not_lt]
  constructor
  · rintro ⟨acc', htime, t₁, h₁, -⟩
    obtain ⟨hrevision, -, hreason⟩ := hupdate.mp ⟨t₁, h₁⟩
    have hreason := hreason rfl
    rw [Option.any_some, Bool.not_eq_true'] at hreason
    exact ⟨htime, hrevision, hreason⟩
  · rintro ⟨htime, hrevision, hreason⟩
    obtain ⟨t₁, h₁⟩ := hupdate.mpr ⟨hrevision, htime, fun _ => by
      rw [Option.any_some, hreason]
      rfl⟩
    have hread₁ : Readable codec t₁ := by
      refine updateAttemptState_readable hread (fun _ => ?_) h₁
      exact herror
    obtain ⟨attempts, hstep, hput, rfl⟩ := updateAttemptState_ok hget h₁
    have hafter := Table.get_put_self hput (r := StoredDeliveryAttempt.restate x .unconfirmed
      changedAt none (some error)) hget
    exact ⟨_, htime, _, h₁, _, requiredAttempt_of hread₁ hafter, rfl⟩

theorem unconfirmSessionAttempts_returns (hread : Readable codec t) (hall : AllPaired t)
    (herror : blank error = false) :
    (∃ r, unconfirmSessionAttempts codec t sessionId changedAt error = .ok r) ↔
      ∀ m o x, PairAt t m o x → o.sessionId = some sessionId → writtenPair o x = true →
        x.updatedAt ≤ changedAt ∧ (x.revision : Int) < i64Max ∧ sqlBlank error = false := by
  obtain ⟨rows, hrows⟩ : ∃ rows, rows = inOrder (fun a => a.attemptedAt) (fun a => a.attemptId)
      (t.attempts.rows.filter (attemptWritten t sessionId)) := ⟨_, rfl⟩
  have hnodup : rows.Nodup := by
    rw [hrows]
    exact List.Nodup.of_map _ (nodup_inOrder_map t.attempts.keyed)
  have hmem : ∀ a, a ∈ rows ↔ a.sessionId = some sessionId ∧ WrittenIn t a := by
    intro a
    rw [hrows, mem_inOrder, List.mem_filter]
    constructor
    · rintro ⟨hmem, hwritten⟩
      obtain ⟨m, o, hm, hget, ho, hpair⟩ := attemptWritten_ok hmem hwritten
      rw [attemptWritten_iff hm ho, Bool.and_eq_true, beq_iff_eq] at hwritten
      exact ⟨hwritten.1, m, o, hm, hget, ho, hpair⟩
    · rintro ⟨hsession, m, o, hm, hget, ho, hwritten⟩
      rw [attemptWritten_iff hm ho, hwritten, hsession, beq_self_eq_true]
      exact ⟨(Table.get_eq_some.mp hget).1, rfl⟩
  have hcollect : collect (parseAndValidateAttempt codec t) rows = .ok rows := by
    refine collect_ok.mpr (List.forall₂_same.mpr fun a ha => ?_)
    obtain ⟨-, m, o, -, hget, -⟩ := (hmem a).mp ha
    exact hread.attempt _ a hget
  have hloop : (∃ r, rows.foldlM (unconfirmAttempt codec changedAt error) ([], t) = .ok r) ↔
      ∀ a ∈ rows, a.updatedAt ≤ changedAt ∧ (a.revision : Int) < i64Max ∧
        sqlBlank error = false := by
    refine foldlM_returns
      (fun acc a => Readable codec acc.2 ∧ WrittenIn acc.2 a ∧ a.sessionId.isSome) _ ?_ ?_ hnodup ?_
    · rintro acc a ⟨hacc, ⟨m, o, hm, hget, -⟩, hsession⟩
      exact unconfirmAttempt_returns hacc herror hget ⟨hsession, by rw [hm]; rfl⟩
    · rintro acc a acc' ⟨hacc, hwritten, -⟩ hstep b hb ⟨-, hwritten', hsession'⟩
      exact ⟨unconfirmAttempt_readable hacc herror hstep,
        (unconfirmAttempt_ok (l := .none) hwritten hstep).2 b hb hwritten', hsession'⟩
    · intro a ha
      obtain ⟨hsession, hwritten⟩ := (hmem a).mp ha
      exact ⟨hread, hwritten, by rw [hsession]; rfl⟩
  have hread' : (∃ r, unconfirmSessionAttempts codec t sessionId changedAt error = .ok r) ↔
      ∃ r, rows.foldlM (unconfirmAttempt codec changedAt error) ([], t) = .ok r := by
    simp only [unconfirmSessionAttempts, ← hrows, hcollect, bind_ok, Except.ok.injEq, exists_eq_left']
  rw [hread', hloop]
  constructor
  · intro h m o x hp hsession hwritten
    obtain ⟨_, _, ho, hx, -⟩ := (hall m o x hp).route
    rw [hsession] at ho
    cases ho
    have hindex := Table.index_of_seek hp.attempt
    exact h x ((hmem x).mpr ⟨hx, m, o, hindex, Table.get_of_seek hp.attempt, hp.outbox, hwritten⟩)
  · intro h a ha
    obtain ⟨hsession, m, o, hm, hget, ho, hwritten⟩ := (hmem a).mp ha
    have hp : PairAt t m o a := ⟨ho, Table.seek_of_get hget hm⟩
    obtain ⟨_, _, ho', hx, -⟩ := (hall m o a hp).route
    rw [hsession] at hx
    cases hx
    exact h m o a hp ho' hwritten

/-! ## what one sweep leaves to the next -/

theorem Swept.before {selected : MessageId → StoredWireOutbox P → StoredDeliveryAttempt P → Prop}
    (hswept : Swept t t' selected) (hwrites : Writes Licence.none t t') (hp : PairAt t' m o x)
    (hopen : ¬ AtRest o x) : PairAt t m o x := by
  obtain ⟨o₀, x₀, hp₀, -⟩ := writes_pair_back hwrites id hp
  obtain ⟨o', x', hp', hcase⟩ := hswept m o₀ x₀ hp₀
  obtain ⟨rfl, rfl⟩ := hp'.unique hp
  rcases hcase with ⟨rfl, rfl, -⟩ | ⟨-, hreleased⟩
  · exact hp₀
  · exact absurd hreleased.atRest hopen

theorem loop_apart {σ α : Type} (tables : σ → DeliveryTables P) (message : α → MessageId)
    (Ready : σ → α → Prop) {f : σ → α → StoreCheck σ}
    (hstep : ∀ b y b', Ready b y → f b y = .ok b' →
      (∃ o a o' a', MessageWrite Licence.none (tables b) (tables b') (message y) o a o' a') ∧
        ∀ z, z ≠ y → Ready b z → Ready b' z)
    {ys : List α} (hnodup : ys.Nodup) {b r : σ} (hready : ∀ y ∈ ys, Ready b y)
    (h : ys.foldlM f b = .ok r) (hout : ∀ y ∈ ys, m ≠ message y) (hp : PairAt (tables b) m o x) :
    PairAt (tables r) m o x := by
  have happart : ∀ b y b', (Ready b y ∧ m ≠ message y) → f b y = .ok b' →
      (PairAt (tables b) m o x → PairAt (tables b') m o x) ∧
        ∀ z, z ≠ y → (Ready b z ∧ m ≠ message z) → (Ready b' z ∧ m ≠ message z) := by
    rintro b y b' ⟨hb, hm⟩ hy
    obtain ⟨⟨_, _, _, _, hwrite⟩, hkeep⟩ := hstep b y b' hb hy
    refine ⟨fun hp => ⟨?_, ?_⟩, fun z hz ⟨hz', hmz⟩ => ⟨hkeep z hz hz', hmz⟩⟩
    · rw [hwrite.outbox_ne hm]
      exact hp.outbox
    · rw [hwrite.attempt_ne hm]
      exact hp.attempt
  exact foldlM_chain (R := fun b b' => PairAt (tables b) m o x → PairAt (tables b') m o x)
    (fun _ => id) (fun h₁ h₂ hb => h₂ (h₁ hb)) happart hnodup
    (fun y hy => ⟨hready y hy, hout y hy⟩) h hp

theorem settleRejectedPendingAttempts_apart {n : Nat}
    (h : settleRejectedPendingAttempts codec t sessionId changedAt = .ok (n, t'))
    (hp : PairAt t m o x) (hout : ¬ (o.status = .failed ∧ x.status = .pending)) :
    PairAt t' m o x := by
  simp only [settleRejectedPendingAttempts, bind_ok, pure_ok, Prod.mk.injEq] at h
  obtain ⟨t₁, hfold, -, rfl⟩ := h
  have hpending : ∀ k ∈ sessionMessages t sessionId
      (fun o => o.status == .failed && likeRejected o.lastError), PendingIn (· = .failed) t k :=
    sessionMessages_pending (· = .failed) rejected_failed
  refine loop_apart id id (PendingIn (· = .failed)) (fun b k b' hready hstep => ?_)
    sessionMessages_nodup hpending hfold (fun k hk hmk => hout ?_) hp
  · obtain ⟨o, a, a', hwrite, -⟩ := settleRejectedAttempt_ok (l := .none) hready hstep
    exact ⟨⟨o, some a, o, some a', hwrite⟩, fun z hz => PendingIn.kept hwrite hz⟩
  · obtain ⟨o', x', ho, hfailed, hx, hstatus⟩ := hpending k hk
    have hmk : m = k := hmk
    obtain ⟨rfl, rfl⟩ := hp.unique ⟨hmk ▸ ho, hmk ▸ hx⟩
    exact ⟨hfailed, hstatus⟩

theorem unconfirmSessionAttempts_apart {attempts : List (StoredDeliveryAttempt P)}
    (h : unconfirmSessionAttempts codec t sessionId changedAt error = .ok (attempts, t'))
    (hp : PairAt t m o x) (hout : writtenPair o x = false) : PairAt t' m o x := by
  obtain ⟨rows, -, hnodup, hready, hfold⟩ := unconfirmSessionAttempts_rows h
  refine loop_apart Prod.snd (fun a => a.messageId.getD "") (fun acc a => WrittenIn acc.2 a)
    (fun acc a acc' hwritten hstep => ?_) hnodup hready hfold (fun a ha hma => ?_) hp
  · obtain ⟨⟨k, o, a', hk, hwrite, -⟩, hrest⟩ := unconfirmAttempt_ok (l := .none) hwritten hstep
    refine ⟨⟨o, some a, o, some a', ?_⟩, hrest⟩
    rw [hk]
    exact hwrite
  · obtain ⟨k, ok, hk, hget, hok, hwritten⟩ := hready a ha
    rw [hk, Option.getD_some] at hma
    subst hma
    obtain ⟨rfl, rfl⟩ := hp.unique ⟨hok, Table.seek_of_get hget hk⟩
    rw [hout] at hwritten
    cases hwritten

/-! ## the close -/

/-- Each attempt that the close settles or marks, and each message that it cancels, has a revision
left and no later version than the close, but for an attempt under a refused message; and the
reason of an attempt that becomes unconfirmed is one the schema accepts. -/
structure Closable (t : DeliveryTables P) (s : StoredSessionRecord P) (closedAt : Int)
    (reason : String) : Prop where
  session : (s.revision : Int) < i64Max
  refused : ∀ m o x, PairAt t m o x → o.sessionId = some s.sessionId → o.status = .failed →
    x.status = .pending → (x.revision : Int) < i64Max
  written : ∀ m o x, PairAt t m o x → o.sessionId = some s.sessionId → writtenPair o x = true →
    x.updatedAt ≤ closedAt ∧ (x.revision : Int) < i64Max ∧ sqlBlank reason = false
  unclaimed : ∀ m o x, PairAt t m o x → o.sessionId = some s.sessionId → o.status = .pending →
    x.status = .pending → (o.updatedAt ≤ closedAt ∧ x.updatedAt ≤ closedAt) ∧
      (o.revision : Int) < i64Max ∧ (x.revision : Int) < i64Max

theorem pending_open (h : o.status = .pending ∧ x.status = .pending) : ¬ AtRest o x :=
  fun hrest => hrest.pending h.2

theorem pending_not_written (h : o.status = .pending ∧ x.status = .pending) :
    writtenPair o x = false := by
  unfold writtenPair
  rw [h.1, h.2]
  rfl

theorem written_not_refused (h : writtenPair o x = true) :
    ¬ (o.status = .failed ∧ x.status = .pending) := by
  rintro ⟨hfailed, hpending⟩
  unfold writtenPair at h
  rw [hfailed, hpending] at h
  cases h

theorem releaseSession_returns {closedAt : Int} {reason : String} (hread : Readable codec t)
    (hall : AllPaired t) (hs : t.sessions.get s.sessionId = some s) (hactive : s.status = .active)
    (htime : s.updatedAt ≤ closedAt) (hreason : blank reason = false) (hstatus : status ≠ .active) :
    (∃ r, releaseSession codec t s status closedAt reason = .ok r) ↔
      Closable t s closedAt reason := by
  simp only [releaseSession, bind_ok, pure_ok]
  constructor
  · rintro ⟨-, ⟨n, t₁⟩, h₁, ⟨as, t₂⟩, h₂, ⟨n', t₃⟩, h₃, t₄, h₄, -⟩
    have hread₁ := settleRejectedPendingAttempts_readable hread h₁
    have hwrites₁ := settleRejectedPendingAttempts_writes (l := .none) h₁
    have hall₁ := hall.writes hwrites₁ id
    have hread₂ := unconfirmSessionAttempts_readable hread₁ hreason h₂
    have hwrites₂ := unconfirmSessionAttempts_writes (l := .none) h₂
    have hall₂ := hall₁.writes hwrites₂ id
    have hwrites₃ := cancelSessionPendingDeliveries_writes (l := .none) h₃
    have hs₃ : t₃.sessions.get s.sessionId = some s := by
      rw [writes_sessions id (hwrites₁.trans (hwrites₂.trans hwrites₃))]
      exact hs
    refine ⟨(transitionSessionStatus_returns hs₃ hactive (hread.session _ s hs) htime
      hstatus).mp ⟨t₄, h₄⟩, (settleRejectedPendingAttempts_returns closedAt hread hall).mp ⟨_, h₁⟩, ?_, ?_⟩
    · intro m o x hp hsession hwritten
      have hp₁ := settleRejectedPendingAttempts_apart h₁ hp (written_not_refused hwritten)
      exact (unconfirmSessionAttempts_returns hread₁ hall₁ hreason).mp ⟨_, h₂⟩ m o x hp₁ hsession
        hwritten
    · intro m o x hp hsession hopen hpending
      have hp₁ := settleRejectedPendingAttempts_apart h₁ hp (fun h => by
        rw [h.1] at hopen
        cases hopen)
      have hp₂ := unconfirmSessionAttempts_apart h₂ hp₁ (pending_not_written ⟨hopen, hpending⟩)
      exact (cancelSessionPendingDeliveries_returns closedAt reason hread₂ hall₂).mp ⟨_, h₃⟩ m o x hp₂
        hsession hopen hpending
  · intro h
    obtain ⟨⟨n, t₁⟩, h₁⟩ :=
      (settleRejectedPendingAttempts_returns closedAt hread hall).mpr h.refused
    have hread₁ := settleRejectedPendingAttempts_readable hread h₁
    have hwrites₁ := settleRejectedPendingAttempts_writes (l := .none) h₁
    have hswept₁ := settleRejectedPendingAttempts_swept h₁
    have hall₁ := hall.writes hwrites₁ id
    obtain ⟨⟨as, t₂⟩, h₂⟩ := (unconfirmSessionAttempts_returns hread₁ hall₁ hreason).mpr
      fun m o x hp₁ hsession hwritten =>
        h.written m o x (hswept₁.before hwrites₁ hp₁ (written_open hwritten)) hsession hwritten
    have hread₂ := unconfirmSessionAttempts_readable hread₁ hreason h₂
    have hwrites₂ := unconfirmSessionAttempts_writes (l := .none) h₂
    have hswept₂ := unconfirmSessionAttempts_swept h₂
    have hall₂ := hall₁.writes hwrites₂ id
    obtain ⟨⟨n', t₃⟩, h₃⟩ := (cancelSessionPendingDeliveries_returns closedAt reason hread₂
      hall₂).mpr fun m o x hp₂ hsession hopen hpending =>
        have hp₁ := hswept₂.before hwrites₂ hp₂ (pending_open ⟨hopen, hpending⟩)
        have hp := hswept₁.before hwrites₁ hp₁ (pending_open ⟨hopen, hpending⟩)
        h.unclaimed m o x hp hsession hopen hpending
    have hread₃ := cancelSessionPendingDeliveries_readable hread₂ h₃
    have hwrites₃ := cancelSessionPendingDeliveries_writes (l := .none) h₃
    have hs₃ : t₃.sessions.get s.sessionId = some s := by
      rw [writes_sessions id (hwrites₁.trans (hwrites₂.trans hwrites₃))]
      exact hs
    obtain ⟨t₄, h₄⟩ := (transitionSessionStatus_returns hs₃ hactive (hread.session _ s hs) htime
      hstatus).mpr h.session
    have hread₄ := transitionSessionStatus_readable hread₃ hstatus h₄
    obtain ⟨_, s', hupdated, -⟩ := transitionSessionStatus_updated h₄
    have hs' : t₄.sessions.get s.sessionId = some s' := by rw [hupdated.after, if_pos rfl]
    exact ⟨_, _, h₁, _, h₂, _, h₃, _, h₄, _,
      requiredSession_of hs' (hread₄.session _ s' hs').reads, rfl⟩

theorem closeExactSession_active {update : ExactSessionClose} (hread : Readable codec t)
    (hs : t.sessions.get update.sessionId = some s) (hactive : s.status = .active)
    (hreason : blank update.deliveryError = false) :
    closeExactSession codec t update status =
      releaseSession codec t s status (max update.changedAt s.updatedAt) update.deliveryError := by
  have hsession := requiredSession_of hs (hread.session _ s hs).reads
  have hnonempty : requireNonEmpty "session status delivery_error" update.deliveryError = .ok () :=
    requireNonEmpty_ok.mpr hreason
  unfold closeExactSession
  rw [hnonempty, hsession]
  show (if s.status ≠ .active then _ else _) = _
  rw [if_neg (not_not.mpr hactive)]

/-- **When a session can be closed.**  In every state of every run from an empty database, the exact
close of an active session returns, with the session ended and its messages released, if and only if
the session is closable at the later of the given time and its own last change. -/
theorem exact_close_iff (codec : WireCodec P) (parents : Parents P) (calls : List (StoreCall P))
    (hunbound : ∀ call ∈ calls, Unbound call)
    (hregular : ∀ k call, calls[k]? = some call →
      Regular (before (storeStep codec) (emptyTables parents) calls k) call) (k : Nat)
    (update : ExactSessionClose) (hreason : blank update.deliveryError = false)
    (status : SessionStatus) (hstatus : status ≠ .active) (s : StoredSessionRecord P)
    (hs : (before (storeStep codec) (emptyTables parents) calls k).sessions.get update.sessionId
      = some s) (hactive : s.status = .active) :
    (∃ outcome t', closeExactSession codec
        (before (storeStep codec) (emptyTables parents) calls k) update status = .ok (outcome, t') ∧
      t'.sessions.get update.sessionId = some outcome.session ∧ outcome.session.status ≠ .active ∧
      SessionReleased (before (storeStep codec) (emptyTables parents) calls k) t'
        update.sessionId) ↔
    Closable (before (storeStep codec) (emptyTables parents) calls k) s
      (max update.changedAt s.updatedAt) update.deliveryError := by
  obtain ⟨hread, hall⟩ := run_sound hunbound hregular k
  generalize before (storeStep codec) (emptyTables parents) calls k = t at hread hall hs ⊢
  have hself : t.sessions.get s.sessionId = some s := Table.get_self hs
  have hreturns := releaseSession_returns hread hall hself hactive
    (le_max_right update.changedAt s.updatedAt) hreason hstatus
  rw [closeExactSession_active hread hs hactive hreason, ← hreturns]
  constructor
  · rintro ⟨outcome, t', h, -⟩
    exact ⟨(outcome, t'), h⟩
  · rintro ⟨⟨outcome, t'⟩, h⟩
    refine ⟨outcome, t', h, ?_⟩
    have hid : s.sessionId = update.sessionId := by
      have hkey := Table.key_of_get hs
      exact hkey
    have hreleased := releaseSession_released hall h
    obtain ⟨_, s', hupdated, hended, -⟩ := releaseSession_updated h
    simp only [releaseSession, bind_ok, pure_ok, Prod.mk.injEq] at h
    obtain ⟨_, -, _, -, _, -, t₄, -, session, hsession, rfl, rfl⟩ := h
    have hafter := requiredSession_ok hsession
    have hsame : session = s' := by
      rw [hupdated.after, if_pos rfl] at hafter
      exact (Option.some.inj hafter).symm
    rw [← hid]
    refine ⟨hafter, ?_, hreleased⟩
    rw [hsame, hended]
    exact hstatus

end

/-! ## a message that is claimed within one tick of its reservation -/

/-- the message is reserved and enqueued at 20; its claim takes the next version -/
def claimedCalls : List (StoreCall String) :=
  goldCalls.take 3 ++ [.claimOutbox ⟨"m1", 0, 0, 0, true, 21⟩]

theorem claimed_unbound : ∀ call ∈ claimedCalls, Unbound call := by
  intro call hcall attempt heq
  subst heq
  simp [claimedCalls, goldCalls] at hcall

theorem claimed_regular (k : Nat) (call : StoreCall String) (h : claimedCalls[k]? = some call) :
    Regular (before (storeStep goldWireCodec) (emptyTables goldParents) claimedCalls k) call := by
  have hmem : call ∈ claimedCalls := List.mem_of_getElem? h
  simp only [claimedCalls, goldCalls, List.take_succ_cons, List.take_zero, List.cons_append,
    List.nil_append, List.mem_cons, List.not_mem_nil, or_false] at hmem
  rcases hmem with rfl | rfl | rfl | rfl <;> trivial

/-- a tick later the session can be closed -/
theorem exact_close_iff_sample : ∃ s outcome t',
    (before (storeStep goldWireCodec) (emptyTables goldParents) claimedCalls 4).sessions.get "s1"
      = some s ∧ s.status = .active ∧
    closeExactSession goldWireCodec
      (before (storeStep goldWireCodec) (emptyTables goldParents) claimedCalls 4)
      ⟨"s1", 21, "gone"⟩ .disconnected = .ok (outcome, t') ∧
    outcome.session.status ≠ .active := by
  have hrun : ((before (storeStep goldWireCodec) (emptyTables goldParents) claimedCalls
      4).sessions.get "s1").map (fun s => (s.status, decide (s.revision < 100),
        decide (s.updatedAt ≤ 21))) = some (.active, true, true) := by decide +kernel
  obtain ⟨s, hs, hsession⟩ := Option.map_eq_some_iff.mp hrun
  simp only [Prod.mk.injEq, decide_eq_true_eq] at hsession
  obtain ⟨hactive, hrevision, hupdated⟩ := hsession
  have hattempts : (before (storeStep goldWireCodec) (emptyTables goldParents) claimedCalls
      4).attempts.rows.all (fun x => decide (x.updatedAt ≤ 21 ∧ x.revision < 100)) = true := by
    decide +kernel
  have hopen : (before (storeStep goldWireCodec) (emptyTables goldParents) claimedCalls
      4).outboxes.rows.all (fun o => o.status != .pending) = true := by decide +kernel
  have hbounds : ∀ m o x, PairAt (before (storeStep goldWireCodec) (emptyTables goldParents)
      claimedCalls 4) m o x → x.updatedAt ≤ max 21 s.updatedAt ∧ (x.revision : Int) < i64Max := by
    intro m o x hp
    have hx := List.all_eq_true.mp hattempts x (Table.seek_eq_some.mp hp.attempt).1
    rw [decide_eq_true_eq] at hx
    simp only [i64Max]
    omega
  obtain ⟨outcome, t', hclose, -, hended, -⟩ := (exact_close_iff goldWireCodec goldParents
    claimedCalls claimed_unbound claimed_regular 4 ⟨"s1", 21, "gone"⟩ (by decide) .disconnected
    (by decide) s hs hactive).mpr
    { session := by
        simp only [i64Max]
        omega
      refused := fun m o x hp _ _ _ => (hbounds m o x hp).2
      written := fun m o x hp _ _ => ⟨(hbounds m o x hp).1, (hbounds m o x hp).2, by decide⟩
      unclaimed := fun m o x hp _ hpending _ => by
        have ho := List.all_eq_true.mp hopen o (Table.get_eq_some.mp hp.outbox).1
        rw [hpending] at ho
        cases ho }
  exact ⟨s, outcome, t', hs, hactive, hclose, hended⟩

/-- A disconnect at the time of the reservation, to which the session's own version holds it, is
refused as stale: the claimed attempt is one version ahead. -/
theorem close_behind_claim :
    ((before (storeStep goldWireCodec) (emptyTables goldParents) claimedCalls 4).sessions.get
      "s1").map (fun s => (s.status, s.updatedAt)) = some (.active, 20) ∧
    closeExactSession goldWireCodec
      (before (storeStep goldWireCodec) (emptyTables goldParents) claimedCalls 4)
      ⟨"s1", 20, "gone"⟩ .disconnected
      = .error (.staleWrite "command_delivery_attempt" "attempt:m1") := by
  refine ⟨by decide +kernel, ?_⟩
  have hrefused : (match closeExactSession goldWireCodec
      (before (storeStep goldWireCodec) (emptyTables goldParents) claimedCalls 4)
      ⟨"s1", 20, "gone"⟩ .disconnected with
    | .error e => decide (e = .staleWrite "command_delivery_attempt" "attempt:m1")
    | .ok _ => false) = true := by decide +kernel
  split at hrefused
  · rename_i e h
    rw [h, of_decide_eq_true hrefused]
  · cases hrefused

end Sinan.Store
