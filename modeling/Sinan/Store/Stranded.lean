import Sinan.Store.Registry

/-!
# No delivery is stranded on an ended session

When a session ends, three sweeps go over its messages: the rejected ones are settled, the written ones
become unconfirmed and the pending ones are cancelled.  Each leaves a pair as it was or settles it, and
a pair that none of them selects was settled before.  Afterwards nothing but a second completion of a
write could bring a settled attempt back to SENT.
-/

set_option linter.unusedSectionVars false

namespace Sinan.Store

open Lib Relation

section
variable {P : Type} [DecidableEq P] {codec : WireCodec P} {t t₁ t' : DeliveryTables P}
  {m : MessageId} {o o' : StoredWireOutbox P} {x x' : StoredDeliveryAttempt P} {l : Licence}
  {sessionId : SessionId}

/-- nothing waits for the session of the message any more -/
structure AtRest (o : StoredWireOutbox P) (x : StoredDeliveryAttempt P) : Prop where
  pending : x.status ≠ .pending
  sent : x.status = .sent → transportRejected o = true

/-- the attempt failed before the wire -/
def Unwritten (x : StoredDeliveryAttempt P) : Prop := x.status = .failed ∨ x.status = .backpressure

/-! ## a pair at rest stays at rest -/

variable {p q : StoredWireOutbox P × StoredDeliveryAttempt P}

/-- Late calls find nothing to change, but for a completion of an attempt that was completed before. -/
theorem move_atRest (h : Move l o (some x) o' (some x'))
    (hlate : l.completes o.messageId → ¬ Unwritten x) (hrest : AtRest o x) :
    AtRest o' x' ∧ (Unwritten x' → Unwritten x) := by
  cases h with
  | claim _ _ hpending | cancel _ _ hpending => exact absurd hpending.2 hrest.pending
  | sent _ _ hstarted | unsent _ _ hstarted | uncertain _ _ hstarted =>
    exact absurd hstarted.2 hrest.pending
  | acked _ _ hlabel | refused _ _ hlabel =>
    refine ⟨⟨hrest.pending, fun hsent => ?_⟩, id⟩
    have hrejected := hrest.sent hsent
    rw [not_rejected_of_label hlabel] at hrejected
    cases hrejected
  | fenced _ hstarted =>
    refine ⟨⟨hrest.pending, fun hsent => ?_⟩, id⟩
    have hfailed := failed_of_rejected (hrest.sent hsent)
    rw [hstarted] at hfailed
    cases hfailed
  | receivedSent _ hstarted =>
    refine ⟨⟨hrest.pending, fun hsent => ?_⟩, id⟩
    rw [hstarted.2] at hsent
    cases hsent
  | settled _ _ hpending => exact absurd hpending hrest.pending
  | confirmed _ _ hopen hstatus hcompletes =>
    rcases hopen with hpending | hfailed | hbackpressure
    · exact absurd hpending hrest.pending
    · exact absurd (.inl hfailed) (hlate hcompletes)
    · exact absurd (.inr hbackpressure) (hlate hcompletes)
  | unconfirmed _ _ hstatus | received _ _ hstatus =>
    unfold Unwritten
    rw [hstatus]
    refine ⟨⟨by rw [hstatus]; decide, fun hsent => ?_⟩, fun hended => ?_⟩
    · rw [hstatus] at hsent
      cases hsent
    · rcases hended with h | h <;> cases h

theorem Move.message (h : Move l o (some x) o' (some x')) : o'.messageId = o.messageId := by
  rcases h.outbox with rfl | ⟨hstep, -⟩
  · rfl
  · exact hstep.messageId

theorem moves_atRest (h : Moves l p q) (hlate : l.completes p.1.messageId → ¬ Unwritten p.2)
    (hrest : AtRest p.1 p.2) :
    AtRest q.1 q.2 := by
  have hall : AtRest q.1 q.2 ∧ q.1.messageId = p.1.messageId ∧
      (Unwritten q.2 → Unwritten p.2) := by
    induction h with
    | refl => exact ⟨hrest, rfl, id⟩
    | tail _ hlast ih =>
      obtain ⟨hrest₁, hm, hback⟩ := ih
      obtain ⟨hrest₂, hback₂⟩ := move_atRest hlast
        (fun hcompletes hended => hlate (hm ▸ hcompletes) (hback hended)) hrest₁
      exact ⟨hrest₂, hlast.message.trans hm, hback ∘ hback₂⟩
  exact hall.1

theorem move_unwritten (h : Move l o (some x) o' (some x')) (hx' : Unwritten x') :
    Unwritten x ∨ l.unsent o.messageId := by
  cases h with
  | claim _ _ _ hstatus | sent _ _ _ hstatus | uncertain _ _ _ hstatus =>
    rcases hx' with h | h <;> rw [hstatus.2] at h <;> cases h
  | cancel _ _ _ hstatus =>
    rcases hstatus.2 with hs | hs <;> rcases hx' with h | h <;> rw [hs] at h <;> cases h
  | unsent _ _ _ _ hunsent => exact .inr hunsent
  | acked | refused | fenced | receivedSent => exact .inl hx'
  | settled _ _ _ hstatus | confirmed _ _ _ hstatus | unconfirmed _ _ hstatus
  | received _ _ hstatus =>
    rcases hx' with h | h <;> rw [hstatus] at h <;> cases h

theorem moves_unwritten (h : Moves l p q) (hq : Unwritten q.2) :
    Unwritten p.2 ∨ l.unsent p.1.messageId := by
  have hall : q.1.messageId = p.1.messageId ∧
      (Unwritten q.2 → Unwritten p.2 ∨ l.unsent p.1.messageId) := by
    clear hq
    induction h with
    | refl => exact ⟨rfl, .inl⟩
    | tail _ hlast ih =>
      obtain ⟨hm, hback⟩ := ih
      refine ⟨hlast.message.trans hm, fun hended => ?_⟩
      rcases move_unwritten hlast hended with hx | hunsent
      · exact hback hx
      · exact .inr (hm ▸ hunsent)
  exact hall.2 hq

/-! ## pairs of the tables -/

theorem write_pair_back (h : Write l t t') (hcreates : ¬ l.creates) (hp : PairAt t' m o' x') :
    ∃ o x, PairAt t m o x := by
  cases h with
  | @message k ok ok' ak ak' h =>
    by_cases hk : m = k
    · subst hk
      have hattempt := hp.attempt
      rw [h.attempts.seek, if_pos rfl] at hattempt
      have hmove := h.move
      rw [hattempt] at hmove
      obtain ⟨y, rfl⟩ := hmove.attempt_of_some
      exact ⟨ok, y, h.outbox, h.attempt⟩
    · refine ⟨o', x', ?_, ?_⟩
      · rw [← h.outbox_ne hk]
        exact hp.outbox
      · rw [← h.attempt_ne hk]
        exact hp.attempt
  | session _ houtboxes hattempts =>
    exact ⟨o', x', houtboxes ▸ hp.outbox, hattempts ▸ hp.attempt⟩
  | created hc => exact absurd hc hcreates

theorem PairAt.unique (h : PairAt t m o x) (h' : PairAt t m o' x') : o' = o ∧ x' = x := by
  have ho := h'.outbox
  have hx := h'.attempt
  rw [h.outbox] at ho
  rw [h.attempt] at hx
  exact ⟨(Option.some.inj ho).symm, (Option.some.inj hx).symm⟩

theorem writes_pair_back (h : Writes l t t') (hcreates : ¬ l.creates) (hp : PairAt t' m o' x') :
    ∃ o x, PairAt t m o x ∧ Moves l (o, x) (o', x') := by
  have hback : ∃ o x, PairAt t m o x := by
    induction h generalizing o' x' with
    | refl => exact ⟨o', x', hp⟩
    | tail _ hlast ih =>
      obtain ⟨o₁, x₁, hp₁⟩ := write_pair_back hlast hcreates hp
      exact ih hp₁
  obtain ⟨o, x, hbefore⟩ := hback
  obtain ⟨o₂, x₂, hafter, hmoves⟩ := writes_pair h hbefore
  obtain ⟨rfl, rfl⟩ := hafter.unique hp
  exact ⟨o, x, hbefore, hmoves⟩

def AllPaired (t : DeliveryTables P) : Prop := ∀ m o x, PairAt t m o x → Paired o x

theorem moves_sessionId (h : Moves l p q) :
    q.1.sessionId = p.1.sessionId := by
  induction h with
  | refl => rfl
  | tail _ hlast ih => exact hlast.route.1.trans ih

theorem AllPaired.writes (hall : AllPaired t) (h : Writes l t t') (hcreates : ¬ l.creates) :
    AllPaired t' := by
  intro m o' x' hp
  obtain ⟨o, x, hbefore, hmoves⟩ := writes_pair_back h hcreates hp
  exact hmoves.paired (hall m o x hbefore)

/-! ## the sweeps -/

/-- what the end of a session does to a pair that was not at rest -/
structure Released (o : StoredWireOutbox P) (x : StoredDeliveryAttempt P) (o' : StoredWireOutbox P)
    (x' : StoredDeliveryAttempt P) : Prop where
  cancelled : o.status = .pending → x.status = .pending → x'.status = .cancelled
  unconfirmed : writtenPair o x = true → x'.status = .unconfirmed
  settled : o.status = .failed → x.status = .pending → x'.status = .sent ∨ x'.status = .unconfirmed
  atRest : AtRest o' x'

/-- a sweep leaves a pair that it does not select, or releases it -/
def Swept (t t' : DeliveryTables P)
    (selected : MessageId → StoredWireOutbox P → StoredDeliveryAttempt P → Prop) : Prop :=
  ∀ m o x, PairAt t m o x → ∃ o' x', PairAt t' m o' x' ∧
    ((o' = o ∧ x' = x ∧ ¬ selected m o x) ∨ (¬ AtRest o x ∧ Released o x o' x'))

variable {selected selected' : MessageId → StoredWireOutbox P → StoredDeliveryAttempt P → Prop}

theorem Swept.trans (h₁ : Swept t t₁ selected) (h₂ : Swept t₁ t' selected') :
    Swept t t' (fun m o x => selected m o x ∨ selected' m o x) := by
  intro m o x hp
  obtain ⟨o₁, x₁, hp₁, ⟨rfl, rfl, hout₁⟩ | ⟨hopen₁, hreleased₁⟩⟩ := h₁ m o x hp
  · obtain ⟨o₂, x₂, hp₂, ⟨rfl, rfl, hout₂⟩ | hreleased₂⟩ := h₂ m _ _ hp₁
    · exact ⟨_, _, hp₂, .inl ⟨rfl, rfl, not_or.mpr ⟨hout₁, hout₂⟩⟩⟩
    · exact ⟨_, _, hp₂, .inr hreleased₂⟩
  · -- a pair that was released is at rest, so the second sweep leaves it
    obtain ⟨o₂, x₂, hp₂, ⟨rfl, rfl, -⟩ | ⟨hopen₂, -⟩⟩ := h₂ m o₁ x₁ hp₁
    · exact ⟨_, _, hp₂, .inr ⟨hopen₁, hreleased₁⟩⟩
    · exact absurd hreleased₁.atRest hopen₂

theorem Swept.select (h : Swept t t' selected)
    (hselect : ∀ m o x, PairAt t m o x → selected' m o x → selected m o x) :
    Swept t t' selected' := by
  intro m o x hp
  obtain ⟨o', x', hp', ⟨ho, hx, hout⟩ | hrest⟩ := h m o x hp
  · exact ⟨o', x', hp', .inl ⟨ho, hx, fun hs => hout (hselect m o x hp hs)⟩⟩
  · exact ⟨o', x', hp', .inr hrest⟩

theorem sweep_fold {σ α : Type} (tables : σ → DeliveryTables P) (message : α → MessageId)
    (Ready : σ → α → Prop) {f : σ → α → StoreCheck σ}
    (hstep : ∀ b y b', Ready b y → f b y = .ok b' →
      (∃ o a o' a', MessageWrite Licence.none (tables b) (tables b') (message y) o (some a) o' (some a') ∧
        ¬ AtRest o a ∧ Released o a o' a') ∧ ∀ z, z ≠ y → Ready b z → Ready b' z)
    {ys : List α} (hnodup : ys.Nodup) {b r : σ} (hready : ∀ y ∈ ys, Ready b y)
    (h : ys.foldlM f b = .ok r) : Swept (tables b) (tables r) (fun m _ _ => m ∈ ys.map message) := by
  induction ys generalizing b with
  | nil =>
    cases h
    exact fun m o x hp => ⟨o, x, hp, .inl ⟨rfl, rfl, List.not_mem_nil⟩⟩
  | cons y ys ih =>
    rw [List.foldlM_cons, bind_ok] at h
    obtain ⟨b₁, hy, hys⟩ := h
    obtain ⟨hnotin, hnodup⟩ := List.nodup_cons.mp hnodup
    obtain ⟨⟨oy, ay, oy', ay', hwrite, hopen, hreleased⟩, hkeep⟩ :=
      hstep b y b₁ (hready y (List.mem_cons_self ..)) hy
    have hswept := ih hnodup (fun z hz => hkeep z (fun heq => hnotin (heq ▸ hz))
      (hready z (List.mem_cons_of_mem _ hz))) hys
    intro m o x hp
    by_cases hm : m = message y
    · have hp₁ : PairAt (tables b₁) m oy' ay' := by
        rw [hm]
        exact ⟨by rw [hwrite.outboxes, if_pos rfl], by rw [hwrite.attempts.seek, if_pos rfl]⟩
      have hbefore : PairAt (tables b) m oy ay := hm ▸ ⟨hwrite.outbox, hwrite.attempt⟩
      obtain ⟨rfl, rfl⟩ := hp.unique hbefore
      obtain ⟨o', x', hp', ⟨rfl, rfl, -⟩ | ⟨hopen', -⟩⟩ := hswept m oy' ay' hp₁
      · exact ⟨_, _, hp', .inr ⟨hopen, hreleased⟩⟩
      · exact absurd hreleased.atRest hopen'
    · have hp₁ : PairAt (tables b₁) m o x :=
        ⟨by rw [hwrite.outbox_ne hm]; exact hp.outbox, by rw [hwrite.attempt_ne hm]; exact hp.attempt⟩
      obtain ⟨o', x', hp', ⟨rfl, rfl, hout⟩ | hreleased'⟩ := hswept m o x hp₁
      · refine ⟨o', x', hp', .inl ⟨rfl, rfl, ?_⟩⟩
        show m ∉ message y :: ys.map message
        rw [List.mem_cons, not_or]
        exact ⟨hm, hout⟩
      · exact ⟨o', x', hp', .inr hreleased'⟩

theorem atRest_of_status (h : x.status = .cancelled ∨ x.status = .unconfirmed) : AtRest o x := by
  refine ⟨?_, fun hsent => ?_⟩
  · rcases h with h | h <;> rw [h] <;> decide
  · rw [hsent] at h
    rcases h with h | h <;> cases h

theorem written_open (h : writtenPair o x = true) : ¬ AtRest o x := by
  intro hrest
  simp only [writtenPair, Bool.or_eq_true, Bool.and_eq_true, beq_iff_eq, bne_iff_ne] at h
  rcases h with ⟨hsent, hfailed⟩ | ⟨hpending, -⟩
  · exact hfailed (failed_of_rejected (hrest.sent hsent))
  · exact hrest.pending hpending

theorem settled_released (hpending : x.status = .pending) (hrejected : transportRejected o = true)
    (hsent : x'.status = .sent) : Released o x o x' := by
  have hfailed := failed_of_rejected hrejected
  refine ⟨fun ho => ?_, fun hwritten => ?_, fun _ _ => .inl hsent, ?_, fun _ => hrejected⟩
  · rw [hfailed] at ho
    cases ho
  · unfold writtenPair at hwritten
    rw [hpending, hfailed] at hwritten
    cases hwritten
  · rw [hsent]
    decide

theorem cancelled_released (hpending : o.status = .pending ∧ x.status = .pending)
    (hcancelled : x'.status = .cancelled) : Released o x o' x' := by
  refine ⟨fun _ _ => hcancelled, fun hwritten => ?_, fun hfailed => ?_,
    atRest_of_status (.inl hcancelled)⟩
  · unfold writtenPair at hwritten
    rw [hpending.1, hpending.2] at hwritten
    cases hwritten
  · rw [hpending.1] at hfailed
    cases hfailed

theorem written_released (h : writtenPair o x = true) (hunconfirmed : x'.status = .unconfirmed) :
    Released o x o' x' := by
  refine ⟨fun ho hx => ?_, fun _ => hunconfirmed, fun _ _ => .inr hunconfirmed,
    atRest_of_status (.inr hunconfirmed)⟩
  unfold writtenPair at h
  rw [ho, hx] at h
  cases h

theorem mem_sessionMessages {fits : StoredWireOutbox P → Bool} (hp : PairAt t m o x)
    (hsession : o.sessionId = some sessionId) (hfits : fits o = true) (hpending : x.status = .pending) :
    m ∈ sessionMessages t sessionId fits := by
  have hm := hp.messageId
  refine List.mem_map.mpr ⟨o, mem_inOrder.mpr (List.mem_filter.mpr
    ⟨(Table.get_eq_some.mp hp.outbox).1, ?_⟩), hm⟩
  rw [hm, hp.attempt, Option.any_some, hpending, hfits, hsession]
  simp

/-- the pending attempts of the session's messages that fit -/
def pendingOf (sessionId : SessionId) (fits : StoredWireOutbox P → Bool) (_ : MessageId)
    (o : StoredWireOutbox P) (x : StoredDeliveryAttempt P) : Prop :=
  o.sessionId = some sessionId ∧ fits o = true ∧ x.status = .pending

variable {changedAt : Int} {error : String}

theorem settleRejectedPendingAttempts_swept {n : Nat}
    (h : settleRejectedPendingAttempts codec t sessionId changedAt = .ok (n, t')) :
    Swept t t' (pendingOf sessionId fun o => o.status == .failed && likeRejected o.lastError) := by
  simp only [settleRejectedPendingAttempts, bind_ok, pure_ok, Prod.mk.injEq] at h
  obtain ⟨t₁, hfold, -, rfl⟩ := h
  have hswept := sweep_fold id id (PendingIn (· = .failed)) (fun s m s' hready hstep => by
    obtain ⟨o, a, a', hwrite, hpending, hrejected, hsent⟩ :=
      settleRejectedAttempt_ok (l := .none) hready hstep
    exact ⟨⟨o, a, o, a', hwrite, fun hrest => hrest.pending hpending,
      settled_released hpending hrejected hsent⟩, fun k hk => PendingIn.kept hwrite hk⟩)
    sessionMessages_nodup (sessionMessages_pending (· = .failed) rejected_failed) hfold
  rw [List.map_id] at hswept
  exact hswept.select fun m o x hp hs => mem_sessionMessages hp hs.1 hs.2.1 hs.2.2

theorem cancelSessionPendingDeliveries_swept {n : Nat}
    (h : cancelSessionPendingDeliveries codec t sessionId changedAt error = .ok (n, t')) :
    Swept t t' (pendingOf sessionId fun o => o.status == .pending) := by
  simp only [cancelSessionPendingDeliveries, bind_ok, pure_ok, Prod.mk.injEq] at h
  obtain ⟨t₁, hfold, -, rfl⟩ := h
  have hswept := sweep_fold id id (PendingIn (· = .pending)) (fun s m s' hready hstep => by
    obtain ⟨o, a, o', a', hwrite, hpending, hcancelled⟩ :=
      cancelPendingDelivery_ok (l := .none) hready hstep
    exact ⟨⟨o, a, o', a', hwrite, fun hrest => hrest.pending hpending.2,
      cancelled_released hpending hcancelled⟩, fun k hk => PendingIn.kept hwrite hk⟩)
    sessionMessages_nodup
    (sessionMessages_pending (· = .pending) fun _ h => eq_of_beq h) hfold
  rw [List.map_id] at hswept
  exact hswept.select fun m o x hp hs => mem_sessionMessages hp hs.1 hs.2.1 hs.2.2

theorem unconfirmSessionAttempts_swept {attempts : List (StoredDeliveryAttempt P)}
    (h : unconfirmSessionAttempts codec t sessionId changedAt error = .ok (attempts, t')) :
    Swept t t' (fun _ o x => x.sessionId = some sessionId ∧ writtenPair o x = true) := by
  obtain ⟨rows, hself, hnodup, hready, hfold⟩ := unconfirmSessionAttempts_rows h
  refine Swept.select (sweep_fold Prod.snd (fun a => a.messageId.getD "")
    (fun acc a => WrittenIn acc.2 a) (fun acc a acc' hwritten hstep => ?_) hnodup hready hfold)
    fun m o x hp ⟨hsession, hselected⟩ => ?_
  · obtain ⟨⟨k, o, a', hk, hwrite, hpair, hunconfirmed⟩, hrest⟩ :=
      unconfirmAttempt_ok (l := .none) hwritten hstep
    refine ⟨⟨o, a, o, a', ?_, written_open hpair, written_released hpair hunconfirmed⟩, hrest⟩
    rw [hk]
    exact hwrite
  · have hindex := Table.index_of_seek hp.attempt
    have hm : x.messageId = some m := hindex
    refine List.mem_map.mpr ⟨x, ?_, by rw [hm]; rfl⟩
    rw [hself]
    refine mem_inOrder.mpr (List.mem_filter.mpr ⟨(Table.seek_eq_some.mp hp.attempt).1, ?_⟩)
    rw [attemptWritten_iff hm hp.outbox, hsession, beq_self_eq_true, Bool.true_and]
    exact hselected

theorem likePattern_self (pattern rest : List Char) : likePattern pattern (pattern ++ rest) = true := by
  induction pattern with
  | nil => rfl
  | cons c cs ih =>
    show (likeChar c c && likePattern cs (cs ++ rest)) = true
    unfold likeChar
    rw [ih, beq_self_eq_true, Bool.or_true, Bool.true_and]

theorem Labelled.like (h : Labelled o) : likeRejected o.lastError = true := by
  obtain ⟨reason, -, hreason⟩ := h
  unfold likeRejected
  rw [hreason, Option.getD_some, String.toList_append]
  exact likePattern_self _ _

theorem unswept_atRest (hpaired : Paired o x)
    (hsettled : ¬ (o.status = .failed ∧ likeRejected o.lastError = true ∧ x.status = .pending))
    (hwritten : writtenPair o x ≠ true) (hcancelled : ¬ (o.status = .pending ∧ x.status = .pending)) :
    AtRest o x := by
  have hmeet := hpaired.statuses
  have hlabel := hpaired.label
  constructor
  · intro hpending
    cases ho : o.status
    case pending => exact hcancelled ⟨ho, hpending⟩
    case failed => exact hsettled ⟨ho, (hlabel ho (.inl hpending)).like, hpending⟩
    case writeStarted | sent | acked =>
      exact hwritten (by unfold writtenPair; rw [ho, hpending]; rfl)
    case cancelled =>
      rw [ho, hpending] at hmeet
      cases hmeet
  · intro hsent
    cases ho : o.status
    case failed =>
      unfold transportRejected
      rw [ho, (hlabel ho (.inr hsent)).hasPrefix]
      rfl
    case sent | acked | writeStarted | pending | cancelled =>
      exact absurd (by unfold writtenPair; rw [ho, hsent]; rfl) hwritten

/-- the pairs of the session are released -/
def SessionReleased (t t' : DeliveryTables P) (sessionId : SessionId) : Prop :=
  ∀ m o x, PairAt t m o x → o.sessionId = some sessionId →
    ∃ o' x', PairAt t' m o' x' ∧ Released o x o' x'

theorem AtRest.released (h : AtRest o x) : Released o x o x :=
  ⟨fun _ hpending => absurd hpending h.pending, fun hwritten => absurd h (written_open hwritten),
    fun _ hpending => absurd hpending h.pending, h⟩

theorem swept_released (hall : AllPaired t) (hswept : Swept t t' selected)
    (hsettle : ∀ m o x, pendingOf sessionId
      (fun o => o.status == .failed && likeRejected o.lastError) m o x → selected m o x)
    (hunconfirm : ∀ m o x, x.sessionId = some sessionId → writtenPair o x = true → selected m o x)
    (hcancel : ∀ m o x, pendingOf sessionId (fun o => o.status == .pending) m o x →
      selected m o x) : SessionReleased t t' sessionId := by
  intro m o x hp hsession
  obtain ⟨o', x', hp', ⟨rfl, rfl, hout⟩ | ⟨-, hreleased⟩⟩ := hswept m o x hp
  · have hpaired := hall m _ _ hp
    obtain ⟨_, sequence, ho, hx, -⟩ := hpaired.route
    rw [hsession] at ho
    cases ho
    refine ⟨_, _, hp', AtRest.released (unswept_atRest hpaired
      (fun ⟨hfailed, hlike, hpending⟩ => hout (hsettle m _ _ ⟨hsession, ?_, hpending⟩))
      (fun hwritten => hout (hunconfirm m _ _ hx hwritten))
      fun ⟨hpending, hpending'⟩ => hout (hcancel m _ _ ⟨hsession, beq_iff_eq.mpr hpending, hpending'⟩))⟩
    dsimp only
    rw [hfailed, hlike]
    rfl
  · exact ⟨o', x', hp', hreleased⟩

/-! ## after the release -/

/-- a call that completes a write or records a receipt -/
def Disturbs (l : Licence) : Prop := ∃ m, l.completes m ∨ l.receipt m

variable {x₀ : StoredDeliveryAttempt P}

theorem move_released {o₀ : StoredWireOutbox P} (h : Move l o (some x) o' (some x'))
    (hquiet : ¬ Disturbs l) (hreleased : Released o₀ x₀ o x) :
    Released o₀ x₀ o' x' := by
  have hcompletes : ∀ m, ¬ l.completes m := fun m hm => hquiet ⟨m, .inl hm⟩
  have hreceipt : ∀ m, ¬ l.receipt m := fun m hm => hquiet ⟨m, .inr hm⟩
  have hkept : x.status = .cancelled ∨ x.status = .unconfirmed → x'.status = x.status := by
    intro hfinal
    cases h with
    | claim _ _ hopen | cancel _ _ hopen | sent _ _ hopen | unsent _ _ hopen
    | uncertain _ _ hopen =>
      rw [hopen.2] at hfinal
      rcases hfinal with h | h <;> cases h
    | acked | refused | fenced | receivedSent => rfl
    | settled _ _ hpending =>
      rw [hpending] at hfinal
      rcases hfinal with h | h <;> cases h
    | confirmed _ _ _ _ hc => exact absurd hc (hcompletes _)
    | unconfirmed _ hopen =>
      rcases hopen with hs | ⟨hs, -⟩ <;> rw [hs] at hfinal <;> rcases hfinal with h | h <;> cases h
    | received _ _ _ hr => exact absurd hr (hreceipt _)
  have hsettled : x.status = .sent → x'.status = .sent ∨ x'.status = .unconfirmed := by
    intro hsent
    cases h with
    | claim _ _ hopen | cancel _ _ hopen | sent _ _ hopen | unsent _ _ hopen
    | uncertain _ _ hopen =>
      rw [hopen.2] at hsent
      cases hsent
    | acked | refused | fenced | receivedSent => exact .inl hsent
    | settled _ _ _ hstatus | confirmed _ _ _ hstatus => exact .inl hstatus
    | unconfirmed _ _ hstatus => exact .inr hstatus
    | received _ _ _ hr => exact absurd hr (hreceipt _)
  refine ⟨fun ho hx => ?_, fun hwritten => ?_, fun ho hx => ?_,
    (move_atRest h (fun hc => absurd hc (hcompletes _)) hreleased.atRest).1⟩
  · have hcancelled := hreleased.cancelled ho hx
    rw [hkept (.inl hcancelled), hcancelled]
  · have hunconfirmed := hreleased.unconfirmed hwritten
    rw [hkept (.inr hunconfirmed), hunconfirmed]
  · rcases hreleased.settled ho hx with hsent | hunconfirmed
    · exact hsettled hsent
    · rw [hkept (.inr hunconfirmed), hunconfirmed]
      exact .inr rfl

theorem writes_released {o₀ : StoredWireOutbox P} (h : Writes l t t') (hquiet : ¬ Disturbs l)
    (hp : PairAt t m o x) (hreleased : Released o₀ x₀ o x) :
    ∃ o' x', PairAt t' m o' x' ∧ Released o₀ x₀ o' x' := by
  obtain ⟨o', x', hp', hmoves⟩ := writes_pair h hp
  have hall : ∀ q : StoredWireOutbox P × StoredDeliveryAttempt P, Moves l (o, x) q →
      Released o₀ x₀ q.1 q.2 := by
    intro q hq
    induction hq with
    | refl => exact hreleased
    | tail _ hlast ih => exact move_released hlast hquiet ih
  exact ⟨o', x', hp', hall _ hmoves⟩

theorem SessionReleased.undisturbed (h : SessionReleased t t₁ sessionId) (hwrites : Writes l t₁ t')
    (hquiet : ¬ Disturbs l) : SessionReleased t t' sessionId := by
  intro m o x hp hsession
  obtain ⟨o₁, x₁, hp₁, hreleased⟩ := h m o x hp hsession
  exact writes_released hwrites hquiet hp₁ hreleased

theorem session_quiet : ¬ Disturbs sessionLicence := fun ⟨_, h⟩ => h.elim id id

theorem fence_quiet (fencedAt : Int) : ¬ Disturbs (fenceLicence fencedAt) :=
  fun ⟨_, h⟩ => h.elim id id

/-! ## the calls that end a session -/

variable {status : SessionStatus} {outcome : SessionDisconnectOutcome P}
  {current : StoredSessionRecord P} {session : NewSessionRecord P} {fencedAt : Int}

theorem releaseSession_released (hall : AllPaired t)
    (h : releaseSession codec t current status changedAt error = .ok (outcome, t')) :
    SessionReleased t t' current.sessionId := by
  simp only [releaseSession, bind_ok, pure_ok, Prod.mk.injEq] at h
  obtain ⟨⟨n, t₁⟩, h₁, ⟨as, t₂⟩, h₂, ⟨n', t₃⟩, h₃, t₄, h₄, -, -, -, rfl⟩ := h
  have hswept := ((settleRejectedPendingAttempts_swept h₁).trans
    (unconfirmSessionAttempts_swept h₂)).trans (cancelSessionPendingDeliveries_swept h₃)
  have hreleased : SessionReleased t t₃ current.sessionId := swept_released hall hswept
    (fun _ _ _ hs => .inl (.inl hs)) (fun _ _ _ hx hw => .inl (.inr ⟨hx, hw⟩))
    (fun _ _ _ hs => .inr hs)
  exact hreleased.undisturbed (transitionSessionStatus_writes trivial h₄) session_quiet

theorem cancelFirst_released {n n' : Nat} {t₂ : DeliveryTables P}
    {as : List (StoredDeliveryAttempt P)} (hall : AllPaired t)
    (h₁ : settleRejectedPendingAttempts codec t sessionId changedAt = .ok (n, t₁))
    (h₂ : cancelSessionPendingDeliveries codec t₁ sessionId changedAt error = .ok (n', t₂))
    (h₃ : unconfirmSessionAttempts codec t₂ sessionId changedAt error = .ok (as, t')) :
    (∃ selected, Swept t t' selected) ∧ SessionReleased t t' sessionId := by
  have hswept := ((settleRejectedPendingAttempts_swept h₁).trans
    (cancelSessionPendingDeliveries_swept h₂)).trans (unconfirmSessionAttempts_swept h₃)
  exact ⟨⟨_, hswept⟩, swept_released hall hswept (fun _ _ _ hs => .inl (.inl hs))
    (fun _ _ _ hx hw => .inr ⟨hx, hw⟩) (fun _ _ _ hs => .inl (.inr hs))⟩

theorem replaceExisting_released {existing : StoredSessionRecord P} {outcome : SessionReplacement P}
    (hall : AllPaired t) (h : replaceExisting codec t session existing = .ok (outcome, t')) :
    SessionReleased t t' existing.sessionId := by
  simp only [replaceExisting, bind_ok, exists_unit, need_ok] at h
  obtain ⟨-, ⟨n, t₁⟩, h₁, ⟨n', t₂⟩, h₂, ⟨as, t₃⟩, h₃, t₄, h₄, found, -, replaced, -, h⟩ := h
  exact (cancelFirst_released hall h₁ h₂ h₃).2.undisturbed
    ((transitionSessionStatus_writes trivial h₄).trans (insertReplacement_writes trivial h))
    session_quiet

theorem fenceSession_released {acc acc' : DeliveryStartupFenceReport × DeliveryTables P}
    (hall : AllPaired acc.2) (h : fenceSession codec fencedAt error acc current = .ok acc') :
    (∃ selected, Swept acc.2 acc'.2 selected) ∧
      SessionReleased acc.2 acc'.2 current.sessionId := by
  simp only [fenceSession, bind_ok, exists_unit, pure_ok] at h
  obtain ⟨-, ⟨n, t₁⟩, h₁, ⟨n', t₂⟩, h₂, ⟨as, t₃⟩, h₃, t₄, h₄, rfl⟩ := h
  obtain ⟨⟨selected, hswept⟩, hreleased⟩ := cancelFirst_released hall h₁ h₂ h₃
  refine ⟨⟨selected, ?_⟩, hreleased.undisturbed (transitionSessionStatus_writes trivial h₄)
    session_quiet⟩
  simp only [transitionSessionStatus, updateActiveSession, bind_ok, pure_ok] at h₄
  obtain ⟨_, -, _, -, _, -, _, -, rfl⟩ := h₄
  intro m o x hp
  obtain ⟨o', x', hp', hcase⟩ := hswept m o x hp
  exact ⟨o', x', ⟨hp'.outbox, hp'.attempt⟩, hcase⟩

theorem fenceSessions_released {active : List (StoredSessionRecord P)}
    {acc acc' : DeliveryStartupFenceReport × DeliveryTables P} (hall : AllPaired acc.2)
    (h : active.foldlM (fenceSession codec fencedAt error) acc = .ok acc') :
    Writes sessionLicence acc.2 acc'.2 ∧
      ∀ s ∈ active, SessionReleased acc.2 acc'.2 s.sessionId := by
  induction active generalizing acc with
  | nil =>
    cases h
    exact ⟨.refl, fun s hs => (nomatch hs)⟩
  | cons y ys ih =>
    rw [List.foldlM_cons, bind_ok] at h
    obtain ⟨acc₁, hy, hys⟩ := h
    have hwrites := fenceSession_writes (l := sessionLicence) trivial hy
    obtain ⟨hrest, hothers⟩ := ih (hall.writes hwrites id) hys
    obtain ⟨⟨selected, hswept⟩, hhead⟩ := fenceSession_released hall hy
    refine ⟨hwrites.trans hrest, fun s hs => ?_⟩
    rcases List.mem_cons.mp hs with rfl | hs
    · exact hhead.undisturbed hrest session_quiet
    · intro m o x hp hsession
      obtain ⟨o₁, x₁, hp₁, ⟨rfl, rfl, -⟩ | ⟨-, hreleased⟩⟩ := hswept m o x hp
      · exact hothers s hs m _ _ hp₁ hsession
      · exact writes_released hrest session_quiet hp₁ hreleased

theorem fenceInterruptedWrites_released {report : DeliveryStartupFenceReport} (hall : AllPaired t)
    (h : fenceInterruptedWrites codec t fencedAt error = .ok (report, t'))
    (hactive : sessionActive t sessionId = true) : SessionReleased t t' sessionId := by
  simp only [fenceInterruptedWrites, bind_ok, exists_unit] at h
  obtain ⟨-, active, hrows, ⟨report₁, t₁⟩, hsessions, houtboxes⟩ := h
  have hself := collect_self (fun _ _ => sessionFromRow_self) hrows
  obtain ⟨s, hs, hstatus⟩ := (Option.any_eq_true _ _).mp hactive
  obtain ⟨hmem, hid⟩ := Table.get_eq_some.mp hs
  have hlisted : s ∈ active := by
    rw [hself]
    exact mem_inOrder.mpr (List.mem_filter.mpr ⟨hmem, hstatus⟩)
  have hreleased := (fenceSessions_released hall hsessions).2 s hlisted
  have hid : s.sessionId = sessionId := hid
  rw [hid] at hreleased
  have hwrites : Writes (fenceLicence fencedAt) t₁ t' := fenceOutboxes_writes (fun _ => rfl) houtboxes
  exact hreleased.undisturbed hwrites (fence_quiet fencedAt)

theorem replaceActiveSession_released {outcome : SessionReplacement P} (hall : AllPaired t)
    (h : replaceActiveSession codec t session = .ok (outcome, t'))
    (hreplaced : sessionReplaced t session sessionId = true) :
    SessionReleased t t' sessionId := by
  simp only [replaceActiveSession, bind_ok, exists_unit] at h
  obtain ⟨-, active, hactive, h⟩ := h
  obtain ⟨hne, s, hs, hid⟩ := sessionReplaced_iff.mp hreplaced
  rw [← collect_self (fun _ _ => sessionFromRow_self) hactive] at hs
  unfold replaceActive at h
  split at h
  · cases hs
  · rename_i existing
    rw [List.mem_singleton] at hs
    subst hs
    split at h
    · rename_i hsame
      exact absurd (hid.symm.trans hsame) hne
    · rw [← hid]
      exact replaceExisting_released hall h
  · cases h

theorem closeSession_released {update : SessionStatusUpdate} (hall : AllPaired t)
    (h : closeSession codec t update status = .ok (outcome, t')) :
    SessionReleased t t' update.sessionId := by
  simp only [closeSession, bind_ok, exists_unit] at h
  obtain ⟨-, current, hcurrent, -, -, h⟩ := h
  have hkey := Table.key_of_get (requiredSession_ok hcurrent)
  have hid : current.sessionId = update.sessionId := hkey
  rw [← hid]
  exact releaseSession_released hall h

theorem closeExactSession_released {update : ExactSessionClose} (hall : AllPaired t)
    (h : closeExactSession codec t update status = .ok (outcome, t'))
    (hactive : sessionActive t update.sessionId = true) :
    SessionReleased t t' update.sessionId := by
  simp only [closeExactSession, bind_ok, exists_unit] at h
  obtain ⟨-, current, hcurrent, h⟩ := h
  have hget := requiredSession_ok hcurrent
  have hkey := Table.key_of_get hget
  have hid : current.sessionId = update.sessionId := hkey
  split at h
  · rename_i hended
    unfold sessionActive at hactive
    rw [hget, Option.any_some] at hactive
    exact absurd (eq_of_beq hactive) hended
  · rw [← hid]
    exact releaseSession_released hall h

/-! ## one call -/

variable {s s' : StoredSessionRecord P} {call : StoreCall P}

theorem SessionUpdated.active_after {k : SessionId} {y y' : StoredSessionRecord P}
    (h : SessionUpdated t t' k y y') (hy : y'.status = .active)
    (hs : t.sessions.get sessionId = some s) (hactive : s.status = .active)
    (hs' : t'.sessions.get sessionId = some s') : s'.status = .active := by
  rw [h.after] at hs'
  split at hs'
  · cases hs'
    exact hy
  · rw [hs] at hs'
    cases hs'
    exact hactive

theorem runCall_ends (hall : AllPaired t) (h : runCall codec t call = .ok t')
    (hs : t.sessions.get sessionId = some s) (hactive : s.status = .active)
    (hs' : t'.sessions.get sessionId = some s') (hended : s'.status ≠ .active) :
    SessionReleased t t' sessionId := by
  have hsame : t'.sessions = t.sessions → SessionReleased t t' sessionId := by
    intro hsame
    rw [hsame, hs] at hs'
    cases hs'
    exact absurd hactive hended
  have hchanged : changesSession t call sessionId = true := by
    by_contra hne
    have hkept := ((runCall_sessions h).kept sessionId s (Bool.not_eq_true _ ▸ hne) hs).1
    rw [hs'] at hkept
    cases hkept
    exact hended hactive
  cases call with
  | updateSessionHeartbeat _ =>
    obtain ⟨y, y', hupdated, hy, -⟩ := updateSessionHeartbeat_updated (map_snd_ok h).choose_spec
    exact absurd (hupdated.active_after hy hs hactive hs') hended
  | invalidateSessionClock _ =>
    obtain ⟨y, y', hupdated, hy, -⟩ := invalidateSessionClock_updated (map_snd_ok h).choose_spec
    exact absurd (hupdated.active_after hy hs hactive hs') hended
  | reserveOutboundSequence _ =>
    rcases reserveOutboundSequence_effect (map_snd_ok h).choose_spec with
      ⟨hkept, -⟩ | ⟨_, y, y', -, hupdated, hy, -⟩
    · exact hsame hkept
    · exact absurd (hupdated.active_after hy hs hactive hs') hended
  | reserveControlOutboundSequence _ =>
    rcases reserveControlOutboundSequence_effect (map_snd_ok h).choose_spec with
      ⟨hkept, -⟩ | ⟨_, y, y', -, hupdated, hy, -⟩
    · exact hsame hkept
    · exact absurd (hupdated.active_after hy hs hactive hs') hended
  | markSessionStale _ | disconnectSession _ =>
    rw [← eq_of_beq hchanged]
    exact closeSession_released hall (map_snd_ok h).choose_spec
  | markExactSessionStale _ | disconnectExactSession _ =>
    obtain ⟨hid, hopen⟩ := (Bool.and_eq_true _ _).mp hchanged
    rw [← eq_of_beq hid] at hopen ⊢
    exact closeExactSession_released hall (map_snd_ok h).choose_spec hopen
  | replaceActiveSession _ =>
    exact replaceActiveSession_released hall (map_snd_ok h).choose_spec hchanged
  | fenceInterruptedWrites _ _ =>
    exact fenceInterruptedWrites_released hall (map_snd_ok h).choose_spec hchanged
  | _ => cases hchanged

/-! ## what holds in every state -/

/-- `done` are the messages of which a write was completed -/
structure Tracked (t : DeliveryTables P) (done : MessageId → Prop) : Prop where
  paired : AllPaired t
  registered : ∀ m o x id, PairAt t m o x → o.sessionId = some id → ∃ s, t.sessions.get id = some s
  ended : ∀ m o x id s, PairAt t m o x → o.sessionId = some id → t.sessions.get id = some s →
    s.status ≠ .active → AtRest o x
  unwritten : ∀ m o x, PairAt t m o x → Unwritten x → done m
  bound : ∀ id a m, t.attempts.get id = some a → a.messageId = some m →
    ∃ o, t.outboxes.get m = some o
  unbound : ∀ id a, t.attempts.get id = some a → a.messageId = none →
    a.status ≠ .pending ∧ a.status ≠ .sent

variable {done : MessageId → Prop}

theorem Tracked.mono {done' : MessageId → Prop} (h : Tracked t done) (hdone : ∀ m, done m → done' m) :
    Tracked t done' :=
  { h with unwritten := fun m o x hp hx => hdone m (h.unwritten m o x hp hx) }

theorem Tracked.same (h : Tracked t done) (ho : t'.outboxes = t.outboxes)
    (ha : t'.attempts = t.attempts) (hs : t'.sessions = t.sessions) : Tracked t' done := by
  obtain ⟨outboxes, attempts, sessions, parents⟩ := t'
  dsimp only at ho ha hs
  subst ho ha hs
  exact ⟨fun m o x hp => h.paired m o x ⟨hp.outbox, hp.attempt⟩,
    fun m o x id hp => h.registered m o x id ⟨hp.outbox, hp.attempt⟩,
    fun m o x id s hp => h.ended m o x id s ⟨hp.outbox, hp.attempt⟩,
    fun m o x hp => h.unwritten m o x ⟨hp.outbox, hp.attempt⟩, h.bound, h.unbound⟩

theorem writes_attempt_back (h : Writes l t t') (hcreates : ¬ l.creates) {id : String}
    {a' : StoredDeliveryAttempt P} (hget : t'.attempts.get id = some a') :
    ∃ a, t.attempts.get id = some a ∧ a'.messageId = a.messageId ∧
      (a.messageId = none → a' = a) := by
  induction h generalizing a' with
  | refl => exact ⟨a', hget, rfl, fun _ => rfl⟩
  | @tail t₁ t₂ _ hlast ih =>
    have hlast : ∃ a₁, t₁.attempts.get id = some a₁ ∧ a'.messageId = a₁.messageId ∧
        (a₁.messageId = none → a' = a₁) := by
      cases hlast with
      | @message k ok ok' ak ak' h =>
        cases hbefore : t₁.attempts.get id with
        | none =>
          rw [h.attempts.absent id hbefore] at hget
          cases hget
        | some a₁ =>
          obtain ⟨y, hy, hcase⟩ := h.attempts.kept id a₁ hbefore
          rw [hget] at hy
          cases hy
          refine ⟨a₁, rfl, ?_⟩
          rcases hcase with rfl | ⟨rfl, rfl⟩
          · exact ⟨rfl, fun _ => rfl⟩
          · have hindex := Table.index_of_seek h.attempt
            have hm : a₁.messageId = some k := hindex
            refine ⟨?_, fun hnone => ?_⟩
            · rcases h.move.attempt with hsame | ⟨y, y', hy, hy', hstep, -⟩
              · cases hsame
                rfl
              · cases hy
                cases hy'
                exact hstep.messageId
            · rw [hm] at hnone
              cases hnone
      | session _ _ hattempts => exact ⟨a', hattempts ▸ hget, rfl, fun _ => rfl⟩
      | created hc => exact absurd hc hcreates
    obtain ⟨a₁, ha₁, hm₁, hsame₁⟩ := hlast
    obtain ⟨a, ha, hm, hsame⟩ := ih ha₁
    refine ⟨a, ha, hm₁.trans hm, fun hnone => ?_⟩
    rw [hsame₁ (hm.trans hnone), hsame hnone]

theorem runCall_registered (h : runCall codec t call = .ok t')
    (hs : t.sessions.get sessionId = some s) : ∃ s', t'.sessions.get sessionId = some s' := by
  have heffect := runCall_sessions h
  cases hchanged : changesSession t call sessionId with
  | true =>
    obtain ⟨_, y', -, hy', -⟩ := heffect.moved sessionId hchanged
    exact ⟨y', hy'⟩
  | false => exact ⟨s, (heffect.kept sessionId s hchanged hs).1⟩

theorem Tracked.moved (h : Tracked t done) (hrun : runCall codec t call = .ok t')
    (hwrites : Writes (callLicence call) t t') (hcreates : ¬ (callLicence call).creates)
    (hunsent : ∀ m, (callLicence call).unsent m → (callLicence call).completes m)
    (hlate : ∀ m, (callLicence call).completes m → ¬ done m) :
    Tracked t' (fun m => done m ∨ (callLicence call).completes m) where
  paired := h.paired.writes hwrites hcreates
  registered := by
    intro m o' x' id hp hsession
    obtain ⟨o, x, hbefore, hmoves⟩ := writes_pair_back hwrites hcreates hp
    obtain ⟨s, hs⟩ := h.registered m o x id hbefore (by rw [← moves_sessionId hmoves]; exact hsession)
    exact runCall_registered hrun hs
  ended := by
    intro m o' x' id s' hp hsession hs' hended
    obtain ⟨o, x, hbefore, hmoves⟩ := writes_pair_back hwrites hcreates hp
    have hsession₀ : o.sessionId = some id := by
      rw [← moves_sessionId hmoves]
      exact hsession
    obtain ⟨s, hs⟩ := h.registered m o x id hbefore hsession₀
    by_cases hactive : s.status = .active
    · obtain ⟨o₁, x₁, hp₁, hreleased⟩ :=
        runCall_ends h.paired hrun hs hactive hs' hended m o x hbefore hsession₀
      obtain ⟨rfl, rfl⟩ := hp.unique hp₁
      exact hreleased.atRest
    · refine moves_atRest hmoves (fun hcompletes hfailed => ?_)
        (h.ended m o x id s hbefore hsession₀ hs hactive)
      have hm := hbefore.messageId
      exact hlate m (hm ▸ hcompletes) (h.unwritten m o x hbefore hfailed)
  unwritten := by
    intro m o' x' hp hfailed
    obtain ⟨o, x, hbefore, hmoves⟩ := writes_pair_back hwrites hcreates hp
    rcases moves_unwritten hmoves hfailed with hx | hm
    · exact .inl (h.unwritten m o x hbefore hx)
    · exact .inr (hunsent m (hbefore.messageId ▸ hm))
  bound := by
    intro id a' m hget hm
    obtain ⟨a, ha, hsame, -⟩ := writes_attempt_back hwrites hcreates hget
    obtain ⟨o, ho⟩ := h.bound id a m ha (hsame.symm.trans hm)
    obtain ⟨o', ho', -⟩ := (Writes.history hwrites).outbox m o ho
    exact ⟨o', ho'⟩
  unbound := by
    intro id a' hget hnone
    obtain ⟨a, ha, hsame, hkept⟩ := writes_attempt_back hwrites hcreates hget
    rw [hkept (hsame.symm.trans hnone)]
    exact h.unbound id a ha (hsame.symm.trans hnone)

/-! ## new rows -/

theorem pair_before_outbox {outboxes : OutboxTable P}
    (hbound : ∀ id a m, t.attempts.get id = some a → a.messageId = some m →
      ∃ o, t.outboxes.get m = some o)
    (hinsert : t.outboxes.insert o = some outboxes)
    (hp : PairAt { t with outboxes := outboxes } m o' x) : PairAt t m o' x := by
  have hattempt : t.attempts.seek m = some x := hp.attempt
  refine ⟨?_, hattempt⟩
  have houtbox : outboxes.get m = some o' := hp.outbox
  rw [Table.get_insert hinsert] at houtbox
  split at houtbox
  · -- the attempt of the new message would have had a row to be bound to
    rename_i hm
    have hindex := Table.index_of_seek hattempt
    obtain ⟨known, hknown⟩ := hbound x.attemptId x m (Table.get_of_seek hattempt) hindex
    have hfresh := Table.insert_fresh hinsert
    rw [hm, hknown] at hfresh
    cases hfresh
  · exact houtbox

theorem Tracked.outboxInserted {outboxes : OutboxTable P} (h : Tracked t done)
    (hinsert : t.outboxes.insert o = some outboxes) :
    Tracked { t with outboxes := outboxes } done := by
  have hback : ∀ m o' x, PairAt { t with outboxes := outboxes } m o' x → PairAt t m o' x :=
    fun _ _ _ hp => pair_before_outbox h.bound hinsert hp
  exact ⟨fun m o' x hp => h.paired m o' x (hback m o' x hp),
    fun m o' x id hp => h.registered m o' x id (hback m o' x hp),
    fun m o' x id s hp => h.ended m o' x id s (hback m o' x hp),
    fun m o' x hp => h.unwritten m o' x (hback m o' x hp),
    fun id a m hget hm => by
      obtain ⟨known, hknown⟩ := h.bound id a m hget hm
      exact ⟨known, Table.get_insert_of_some hinsert hknown⟩, h.unbound⟩

theorem pair_before_attempt {attempts : AttemptTable P} {y : StoredDeliveryAttempt P}
    (hinsert : t.attempts.insert x = some attempts) (hnone : x.messageId = none)
    (hp : PairAt { t with attempts := attempts } m o y) : PairAt t m o y := by
  refine ⟨hp.outbox, ?_⟩
  have hattempt : attempts.seek m = some y := hp.attempt
  rw [Table.seek_insert hinsert, if_neg] at hattempt
  · exact hattempt
  · rw [hnone]
    exact fun hm => (nomatch hm)

theorem Tracked.attemptInserted {attempts : AttemptTable P} (h : Tracked t done)
    (hinsert : t.attempts.insert x = some attempts) (hnone : x.messageId = none)
    (hstatus : x.status ≠ .pending ∧ x.status ≠ .sent) :
    Tracked { t with attempts := attempts } done := by
  have hback : ∀ m o y, PairAt { t with attempts := attempts } m o y → PairAt t m o y :=
    fun _ _ _ hp => pair_before_attempt hinsert hnone hp
  have hget : ∀ id a, attempts.get id = some a → a = x ∨ t.attempts.get id = some a := by
    intro id a ha
    rw [Table.get_insert hinsert] at ha
    split at ha
    · exact .inl (Option.some.inj ha).symm
    · exact .inr ha
  refine ⟨fun m o y hp => h.paired m o y (hback m o y hp),
    fun m o y id hp => h.registered m o y id (hback m o y hp),
    fun m o y id s hp => h.ended m o y id s (hback m o y hp),
    fun m o y hp => h.unwritten m o y (hback m o y hp), fun id a m ha hm => ?_, fun id a ha hm => ?_⟩
  · rcases hget id a ha with rfl | ha
    · rw [hnone] at hm
      cases hm
    · exact h.bound id a m ha hm
  · rcases hget id a ha with rfl | ha
    · exact hstatus
    · exact h.unbound id a ha hm

theorem Enqueued.pair_before {y : StoredDeliveryAttempt P} {k : MessageId}
    (hnew : Enqueued t t' m o x) (hp : PairAt t' k o' y) :
    (k = m ∧ o' = o ∧ y = x) ∨ PairAt t k o' y := by
  obtain ⟨outboxes, ho, houtboxes⟩ := hnew.outboxes
  obtain ⟨attempts, hx, hattempts⟩ := hnew.attempts
  by_cases hk : k = m
  · subst hk
    obtain ⟨rfl, rfl⟩ := hnew.pairAt.unique hp
    exact .inl ⟨rfl, rfl, rfl⟩
  · refine .inr ⟨?_, ?_⟩
    · have hget := hp.outbox
      rw [houtboxes, Table.get_insert ho, hnew.keys.1, if_neg (Ne.symm hk)] at hget
      exact hget
    · have hseek := hp.attempt
      rw [hattempts, Table.seek_insert hx, if_neg] at hseek
      · exact hseek
      · rw [hnew.keys.2, Option.some.injEq]
        exact Ne.symm hk

theorem Tracked.enqueued (h : Tracked t done) (hnew : Enqueued t t' m o x) : Tracked t' done := by
  obtain ⟨outboxes, ho, houtboxes⟩ := hnew.outboxes
  obtain ⟨attempts, hx, hattempts⟩ := hnew.attempts
  have hpair := hnew.pairAt
  have hback : ∀ k o' y, PairAt t' k o' y → (k = m ∧ o' = o ∧ y = x) ∨ PairAt t k o' y :=
    fun _ _ _ hp => hnew.pair_before hp
  obtain ⟨sessionId, _, hosession, -, -, s, hs, hactive⟩ := hnew.route
  constructor
  · intro k o' y hp
    rcases hback k o' y hp with ⟨-, rfl, rfl⟩ | hp
    · exact hnew.paired
    · exact h.paired k o' y hp
  · intro k o' y id hp hid
    rw [hnew.sessions]
    rcases hback k o' y hp with ⟨-, rfl, rfl⟩ | hp
    · rw [hosession] at hid
      cases hid
      exact ⟨s, hs⟩
    · exact h.registered k o' y id hp hid
  · intro k o' y id s' hp hid hs' hended
    rw [hnew.sessions] at hs'
    rcases hback k o' y hp with ⟨-, rfl, rfl⟩ | hp
    · rw [hosession] at hid
      cases hid
      rw [hs] at hs'
      cases hs'
      exact absurd hactive hended
    · exact h.ended k o' y id s' hp hid hs' hended
  · intro k o' y hp hfailed
    rcases hback k o' y hp with ⟨-, rfl, rfl⟩ | hp
    · unfold Unwritten at hfailed
      rw [hnew.pending.2] at hfailed
      rcases hfailed with h | h <;> cases h
    · exact h.unwritten k o' y hp hfailed
  · intro id a k ha hk
    rw [hattempts, Table.get_insert hx] at ha
    split at ha
    · cases ha
      rw [hnew.keys.2] at hk
      cases hk
      exact ⟨o, hpair.outbox⟩
    · obtain ⟨known, hknown⟩ := h.bound id a k ha hk
      exact ⟨known, by rw [houtboxes]; exact Table.get_insert_of_some ho hknown⟩
  · intro id a ha hnone
    rw [hattempts, Table.get_insert hx] at ha
    split at ha
    · cases ha
      rw [hnew.keys.2] at hnone
      cases hnone
    · exact h.unbound id a ha hnone

variable {attempt : NewDeliveryAttempt P}

theorem recordDeliveryAttempt_unbound {outcome : WriteOutcome (StoredDeliveryAttempt P)}
    (h : recordDeliveryAttempt codec t attempt = .ok (outcome, t'))
    (hnone : attempt.messageId = none) :
    t' = t ∨ ∃ stored attempts, t.attempts.insert stored = some attempts ∧
      t' = { t with attempts := attempts } ∧ stored.messageId = none ∧
      stored.status ≠ .pending ∧ stored.status ≠ .sent := by
  have hvalid : validateNewAttempt attempt = .ok () := by
    simp only [recordDeliveryAttempt, bind_ok, exists_unit] at h
    exact h.1
  simp only [validateNewAttempt, bind_ok, exists_unit, reject_ok, not_and, Bool.not_eq_true] at hvalid
  have hstatus : CommandDeliveryAttemptStatus.bound attempt.status = false :=
    hvalid.2.2.2.2.2.2.2 hnone
  rcases recordDeliveryAttempt_ok h with ⟨hinsert, -⟩ | ⟨rfl, -⟩
  · obtain ⟨stored, attempts, hrow, rfl, hstored⟩ := insertAttempt_ok hinsert
    refine .inr ⟨stored, attempts, hrow, rfl, by rw [hstored]; exact hnone, ?_⟩
    have hsame : stored.status = attempt.status := by rw [hstored]
    rw [hsame]
    constructor <;> intro heq <;> rw [heq] at hstatus <;> cases hstatus
  · exact .inl rfl

theorem Tracked.recorded {outcome : WriteOutcome (StoredDeliveryAttempt P)} (h : Tracked t done)
    (hrecord : recordDeliveryAttempt codec t attempt = .ok (outcome, t'))
    (hnone : attempt.messageId = none) : Tracked t' done := by
  rcases recordDeliveryAttempt_unbound hrecord hnone with rfl | ⟨stored, attempts, hrow, rfl, hm, hs⟩
  · exact h
  · exact h.attemptInserted hrow hm hs

theorem Tracked.messageEnqueued {message : NewWireOutbox P}
    {outcome : WriteOutcome (StoredWireOutbox P)} (h : Tracked t done)
    (henqueue : enqueueWireOutbox codec t message = .ok (outcome, t')) : Tracked t' done := by
  rcases enqueueWireOutbox_ok henqueue with ⟨hinsert, -⟩ | ⟨rfl, -⟩
  · obtain ⟨stored, outboxes, hrow, rfl, -⟩ := insertOutbox_ok hinsert
    exact h.outboxInserted hrow
  · exact h

/-! ## every run -/

theorem completes_of_licence (h : (callLicence call).completes m) :
    completes m call = true := by
  cases call with
  | finishTransportWrite completion _ =>
    have hm : m = completion.messageId := h
    exact beq_iff_eq.mpr hm.symm
  | _ => exact h.elim

theorem completes_of_unsent (h : (callLicence call).unsent m) :
    (callLicence call).completes m := by
  cases call with
  | finishTransportWrite _ _ => exact h.1
  | _ => exact h.elim

/-- an attempt that the call records outside of a reserved delivery is bound to no message -/
def Unbound (call : StoreCall P) : Prop :=
  ∀ attempt, call = .recordDeliveryAttempt attempt → attempt.messageId = none

theorem Tracked.step (h : Tracked t done) (hunbound : Unbound call)
    (hlate : ∀ m, completes m call = true → ¬ done m) :
    Tracked (storeStep codec t call) (fun m => done m ∨ completes m call = true) := by
  unfold storeStep
  split
  case h_2 => exact h.mono fun m => .inl
  case h_1 t₁ hrun =>
    have hmoved (hwrites : Writes (callLicence call) t t₁) (hcreates : ¬ (callLicence call).creates) :
        Tracked t₁ (fun m => done m ∨ completes m call = true) := by
      refine (h.moved hrun hwrites hcreates (fun m => completes_of_unsent)
        fun m hm => hlate m (completes_of_licence hm)).mono fun m hm => ?_
      rcases hm with hm | hm
      · exact .inl hm
      · exact .inr (completes_of_licence hm)
    have hparents (rows : Parents P) :
        Tracked { t with parents := rows } (fun m => done m ∨ completes m call = true) :=
      (h.same rfl rfl rfl : Tracked { t with parents := rows } done).mono fun m => .inl
    cases call with
    | enqueueWireOutbox _ => exact (h.messageEnqueued (map_snd_ok hrun).choose_spec).mono fun m => .inl
    | recordDeliveryAttempt attempt =>
      exact (h.recorded (map_snd_ok hrun).choose_spec (hunbound attempt rfl)).mono fun m => .inl
    | enqueueReservedDelivery _ =>
      rcases enqueueReservedDelivery_ok (map_snd_ok hrun).choose_spec with ⟨rfl, -⟩ | ⟨o, x, hnew⟩
      · exact h.mono fun m => .inl
      · exact (h.enqueued hnew).mono fun m => .inl
    | parents rows =>
      cases hrun
      exact hparents rows
    | _ =>
      rcases runCall_writes codec hrun with hwrites | ⟨rows, rfl⟩
      · exact hmoved hwrites id
      · exact hparents rows

/-- the tables of a new database -/
def emptyTables (parents : Parents P) : DeliveryTables P := ⟨.empty, .empty, .empty, parents⟩

theorem emptyTables_tracked (parents : Parents P) : Tracked (emptyTables parents) fun _ => False where
  paired := fun _ _ _ hp => (nomatch hp.outbox)
  registered := fun _ _ _ _ hp => (nomatch hp.outbox)
  ended := fun _ _ _ _ _ hp => (nomatch hp.outbox)
  unwritten := fun _ _ _ hp => (nomatch hp.outbox)
  bound := fun _ _ _ ha => (nomatch ha)
  unbound := fun _ _ ha => (nomatch ha)

/-- some write of the message was completed in front of the `k`-th call -/
def Completed (codec : WireCodec P) (t : DeliveryTables P) (calls : List (StoreCall P)) (k : Nat)
    (m : MessageId) : Prop :=
  countAlong (storeStep codec) (fun _ => completes m) t (calls.take k) ≠ 0

theorem run_tracked {parents : Parents P} {calls : List (StoreCall P)}
    (hunbound : ∀ call ∈ calls, Unbound call)
    (honce : ∀ m, OncePerClaim codec (emptyTables parents) calls m) (k : Nat) :
    Tracked (before (storeStep codec) (emptyTables parents) calls k)
      (Completed codec (emptyTables parents) calls k) := by
  induction k with
  | zero => exact (emptyTables_tracked parents).mono fun _ hm => hm.elim
  | succ k ih =>
    unfold Completed at ih ⊢
    cases hk : calls[k]? with
    | none =>
      have htake : calls.take (k + 1) = calls.take k := by
        rw [List.take_add_one, hk, Option.toList_none, List.append_nil]
      rw [before_past _ _ hk, htake]
      exact ih
    | some call =>
      rw [before_succ _ _ hk]
      refine (ih.step (hunbound call (List.mem_of_getElem? hk)) fun m hm hdone =>
        hdone ((honce m).first hk hm).1).mono fun m hm => ?_
      rw [countAlong_take_succ _ _ hk]
      rcases hm with hm | hm
      · omega
      · rw [hm, if_pos rfl]
        omega

/-- **No delivery is stranded on an ended session.**  In every run from an empty database that records
only unbound attempts outside of a reserved delivery and completes each claimed write at most once: an
attempt of a session that is not active is not pending, and one that is SENT has an outbox row that the
terminal refused; and the call that ends a session takes each of its messages there. -/
theorem no_delivery_is_stranded (codec : WireCodec P) (parents : Parents P)
    (calls : List (StoreCall P)) (hunbound : ∀ call ∈ calls, Unbound call)
    (honce : ∀ m, OncePerClaim codec (emptyTables parents) calls m) (k : Nat) :
    (∀ id s, (before (storeStep codec) (emptyTables parents) calls k).sessions.get id = some s →
      s.status ≠ .active → ∀ attemptId x,
      (before (storeStep codec) (emptyTables parents) calls k).attempts.get attemptId = some x →
      (x.sessionId = some id ∨ ∃ m o, x.messageId = some m ∧
        (before (storeStep codec) (emptyTables parents) calls k).outboxes.get m = some o ∧
        o.sessionId = some id) →
      x.status ≠ .pending ∧ (x.status = .sent → ∃ m o, x.messageId = some m ∧
        (before (storeStep codec) (emptyTables parents) calls k).outboxes.get m = some o ∧
        transportRejected o = true)) ∧
    ∀ id s s', (before (storeStep codec) (emptyTables parents) calls k).sessions.get id = some s →
      s.status = .active →
      (before (storeStep codec) (emptyTables parents) calls (k + 1)).sessions.get id = some s' →
      s'.status ≠ .active →
      SessionReleased (before (storeStep codec) (emptyTables parents) calls k)
        (before (storeStep codec) (emptyTables parents) calls (k + 1)) id := by
  have htracked := run_tracked hunbound honce k
  generalize hpoint : before (storeStep codec) (emptyTables parents) calls k = t at htracked ⊢
  constructor
  · intro id s hs hended attemptId x hx hsession
    cases hm : x.messageId with
    | none =>
      obtain ⟨hpending, hsent⟩ := htracked.unbound attemptId x hx hm
      exact ⟨hpending, fun h => absurd h hsent⟩
    | some m =>
      obtain ⟨o, ho⟩ := htracked.bound attemptId x m hx hm
      have hp : PairAt t m o x := ⟨ho, Table.seek_eq_some.mpr ⟨(Table.get_eq_some.mp hx).1, hm⟩⟩
      have hosession : o.sessionId = some id := by
        rcases hsession with hxsession | ⟨m', o', hm', ho', hsession⟩
        · obtain ⟨_, _, ho', hx', -⟩ := (htracked.paired m o x hp).route
          rw [ho', ← hx', hxsession]
        · rw [hm] at hm'
          cases hm'
          rw [ho] at ho'
          cases ho'
          exact hsession
      have hrest := htracked.ended m o x id s hp hosession hs hended
      exact ⟨hrest.pending, fun hsent => ⟨m, o, rfl, ho, hrest.sent hsent⟩⟩
  · intro id s s' hs hactive hs' hended
    cases hk : calls[k]? with
    | none =>
      rw [before_past _ _ hk, hpoint, hs] at hs'
      cases hs'
      exact absurd hactive hended
    | some call =>
      rw [before_succ _ _ hk, hpoint] at hs' ⊢
      cases hrun : runCall codec t call with
      | ok t₁ =>
        have hstep : storeStep codec t call = t₁ := by
          unfold storeStep
          rw [hrun]
        rw [hstep] at hs' ⊢
        exact runCall_ends htracked.paired hrun hs hactive hs' hended
      | error e =>
        have hstep : storeStep codec t call = t := by
          unfold storeStep
          rw [hrun]
        rw [hstep, hs] at hs'
        cases hs'
        exact absurd hactive hended

end

/-! ## a session that ends, and two runs that leave an attempt behind -/

/-- the session of a written message disconnects -/
def releasedCalls : List (StoreCall String) :=
  goldCalls.take 4 ++ [.finishTransportWrite ⟨"m1", 1, 1, 40, none⟩ .sent,
    .disconnectExactSession ⟨"s1", 60, "gone"⟩]

theorem released_once (m : MessageId) :
    OncePerClaim goldWireCodec (emptyTables goldParents) releasedCalls m := by
  by_cases hm : m = "m1"
  · subst hm
    have hbounded : ∀ k ≤ 6,
        countAlong (storeStep goldWireCodec) (fun _ => completes "m1") (emptyTables goldParents)
          (releasedCalls.take k) ≤
        countAlong (storeStep goldWireCodec) (claims goldWireCodec "m1") (emptyTables goldParents)
          (releasedCalls.take k) := by decide +kernel
    intro k
    rcases Nat.le_total k 6 with hle | hge
    · exact hbounded k hle
    · have htake : releasedCalls.take k = releasedCalls.take 6 := by
        rw [List.take_of_length_le hge]
        rfl
      rw [htake]
      exact hbounded 6 (le_refl 6)
  · intro k
    have hnone : ∀ call ∈ releasedCalls.take k, ∀ _ : DeliveryTables String,
        completes m call = false := by
      intro call hcall _
      have hmem : call ∈ releasedCalls := List.mem_of_mem_take hcall
      simp only [releasedCalls, goldCalls, List.take_succ_cons, List.take_zero, List.cons_append,
        List.nil_append, List.mem_cons, List.not_mem_nil, or_false] at hmem
      rcases hmem with rfl | rfl | rfl | rfl | rfl | rfl
      all_goals first | rfl | exact beq_eq_false_iff_ne.mpr (Ne.symm hm)
    rw [countAlong_eq_zero (storeStep goldWireCodec) _ hnone]
    exact Nat.zero_le _

theorem released_unbound : ∀ call ∈ releasedCalls, Unbound call := by
  intro call hcall attempt heq
  subst heq
  simp [releasedCalls, goldCalls] at hcall

theorem no_delivery_is_stranded_sample :
    ((before (storeStep goldWireCodec) (emptyTables goldParents) releasedCalls 5).attempts.get
      "attempt:m1").map (fun x => x.status) = some .sent ∧
    ∃ s x, (before (storeStep goldWireCodec) (emptyTables goldParents) releasedCalls 6).sessions.get
        "s1" = some s ∧ s.status ≠ .active ∧
      (before (storeStep goldWireCodec) (emptyTables goldParents) releasedCalls 6).attempts.get
        "attempt:m1" = some x ∧ x.status ≠ .pending ∧ (x.status = .sent → ∃ m o,
          x.messageId = some m ∧
          (before (storeStep goldWireCodec) (emptyTables goldParents) releasedCalls 6).outboxes.get m
            = some o ∧ transportRejected o = true) := by
  refine ⟨by decide +kernel, ?_⟩
  have hrun : ((before (storeStep goldWireCodec) (emptyTables goldParents) releasedCalls
      6).sessions.get "s1").bind (fun s =>
        ((before (storeStep goldWireCodec) (emptyTables goldParents) releasedCalls 6).attempts.get
          "attempt:m1").map fun x => (s.status, x.sessionId)) = some (.disconnected, some "s1") := by
    decide +kernel
  obtain ⟨s, hs, hx⟩ := Option.bind_eq_some_iff.mp hrun
  obtain ⟨x, hx, hpair⟩ := Option.map_eq_some_iff.mp hx
  rw [Prod.mk.injEq] at hpair
  have hended : s.status ≠ .active := by
    rw [hpair.1]
    decide
  exact ⟨s, x, hs, hended, hx, (no_delivery_is_stranded goldWireCodec goldParents releasedCalls
    released_unbound released_once 6).1 "s1" s hs hended "attempt:m1" x hx (.inl hpair.2)⟩

def strandedMessage : NewWireOutbox String where
  messageId := "m1"
  sessionId := some "s1"
  messageType := "execution.command"
  sequence := some 2
  commandId := some "c1"
  requestId := none
  payload := "envelope"
  status := .pending
  createdAt := 30
  updatedAt := 30
  sentAt := none
  ackedAt := none
  lastError := none

def strandedAttempt : NewDeliveryAttempt String where
  attemptId := "attempt:m1"
  subject := .executionCommand "c1"
  sessionId := some "s1"
  messageId := some "m1"
  requestPayload := none
  status := .pending
  attemptedAt := 30
  ackedAt := none
  error := none
  updatedAt := 30

/-- a message and its attempt are written one by one for a session that is gone -/
def strandedCalls : List (StoreCall String) :=
  [.replaceActiveSession goldSession, .disconnectExactSession ⟨"s1", 20, "gone"⟩,
    .enqueueWireOutbox strandedMessage, .recordDeliveryAttempt strandedAttempt]

/-- the one write of the message is reported twice, around its acknowledgement -/
def twiceCompletedCalls : List (StoreCall String) :=
  goldCalls.take 4 ++ [.finishTransportWrite ⟨"m1", 1, 1, 40, some "closed"⟩ .failed,
    .recordTransportAck ⟨"m1", "s1", "execution.command", .accepted, none, 50⟩,
    .disconnectExactSession ⟨"s1", 60, "gone"⟩,
    .finishTransportWrite ⟨"m1", 1, 1, 70, none⟩ .sent]

/-- Rows that are written one by one leave a pending attempt on an ended session, and a write that is
completed twice brings an attempt of one back to SENT under a message that was not refused. -/
theorem ended_session_with_open_attempt :
    (∃ s x, (before (storeStep goldWireCodec) (emptyTables goldParents) strandedCalls 4).sessions.get
        "s1" = some s ∧ s.status ≠ .active ∧
      (before (storeStep goldWireCodec) (emptyTables goldParents) strandedCalls 4).attempts.get
        "attempt:m1" = some x ∧ x.sessionId = some "s1" ∧ x.status = .pending) ∧
    ∃ s x o, (before (storeStep goldWireCodec) (emptyTables goldParents) twiceCompletedCalls
        8).sessions.get "s1" = some s ∧ s.status ≠ .active ∧
      (before (storeStep goldWireCodec) (emptyTables goldParents) twiceCompletedCalls
        8).attempts.get "attempt:m1" = some x ∧ x.sessionId = some "s1" ∧ x.status = .sent ∧
      (before (storeStep goldWireCodec) (emptyTables goldParents) twiceCompletedCalls
        8).outboxes.get "m1" = some o ∧ o.status = .acked := by
  constructor
  · have hrun : ((before (storeStep goldWireCodec) (emptyTables goldParents) strandedCalls
        4).sessions.get "s1").bind (fun s =>
          ((before (storeStep goldWireCodec) (emptyTables goldParents) strandedCalls
            4).attempts.get "attempt:m1").map fun x => (s.status, x.sessionId, x.status))
        = some (.disconnected, some "s1", .pending) := by decide +kernel
    obtain ⟨s, hs, hx⟩ := Option.bind_eq_some_iff.mp hrun
    obtain ⟨x, hx, hpair⟩ := Option.map_eq_some_iff.mp hx
    simp only [Prod.mk.injEq] at hpair
    refine ⟨s, x, hs, ?_, hx, hpair.2⟩
    rw [hpair.1]
    decide
  · have hrun : ((before (storeStep goldWireCodec) (emptyTables goldParents) twiceCompletedCalls
        8).sessions.get "s1").bind (fun s =>
          ((before (storeStep goldWireCodec) (emptyTables goldParents) twiceCompletedCalls
            8).attempts.get "attempt:m1").bind fun x =>
              ((before (storeStep goldWireCodec) (emptyTables goldParents) twiceCompletedCalls
                8).outboxes.get "m1").map fun o => (s.status, x.sessionId, x.status, o.status))
        = some (.disconnected, some "s1", .sent, .acked) := by decide +kernel
    obtain ⟨s, hs, hx⟩ := Option.bind_eq_some_iff.mp hrun
    obtain ⟨x, hx, ho⟩ := Option.bind_eq_some_iff.mp hx
    obtain ⟨o, ho, hpair⟩ := Option.map_eq_some_iff.mp ho
    simp only [Prod.mk.injEq] at hpair
    refine ⟨s, x, o, hs, ?_, hx, hpair.2.1, hpair.2.2.1, ho, hpair.2.2.2⟩
    rw [hpair.1]
    decide

end Sinan.Store
