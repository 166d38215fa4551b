import Sinan.Store.Pairs

/-!
# The registry of sessions

Sessions are registered, ended and counted by calls of many tasks.  What a call does to the registry
is stated once: which sessions it changes, which sequences it hands out, and that it leaves every other
row alone.  Uniqueness, the end of a session and the order of the sequences follow for every run.
-/

set_option linter.unusedSectionVars false

namespace Sinan.Store

open Lib Relation

section
variable {P : Type} [DecidableEq P] {codec : WireCodec P} {t t₁ t' : DeliveryTables P}
  {id : SessionId} {s s' : StoredSessionRecord P}

/-- the sequence of the last message of the session; a session starts with one -/
def sequenceOf (id : SessionId) (t : DeliveryTables P) : Nat :=
  ((t.sessions.get id).map fun s => s.lastOutboundSequence).getD 1

def sessionActive (t : DeliveryTables P) (id : SessionId) : Bool :=
  (t.sessions.get id).any fun s => s.status == .active

theorem writes_sessions {l : Licence} (hl : ¬ l.sessions) (h : Writes l t t') :
    t'.sessions = t.sessions := by
  induction h with
  | refl => rfl
  | tail _ hlast ih =>
    cases hlast with
    | message h => rw [h.sessions, ih]
    | session hsessions => exact absurd hsessions hl
    | created _ _ _ _ hsessions => rw [hsessions, ih]

/-! ## one row -/

/-- one active session is updated and no other row changes -/
structure SessionUpdated (t t' : DeliveryTables P) (id : SessionId)
    (s s' : StoredSessionRecord P) : Prop where
  found : t.sessions.get id = some s
  active : s.status = .active
  revision : s'.revision = s.revision + 1
  after : ∀ k, t'.sessions.get k = if id = k then some s' else t.sessions.get k

theorem SessionUpdated.start (h : SessionUpdated t₁ t' id s s') (hsame : t₁.sessions = t.sessions) :
    SessionUpdated t t' id s s' :=
  ⟨hsame ▸ h.found, h.active, h.revision, hsame ▸ h.after⟩

theorem updateActiveSession_updated {revision : Nat}
    {change : StoredSessionRecord P → StoredSessionRecord P}
    (h : updateActiveSession t id revision change = .ok t') :
    ∃ s, s.revision = revision ∧
      SessionUpdated t t' id s { change s with sessionId := s.sessionId } := by
  simp only [updateActiveSession, bind_ok, need_ok, exists_unit, pure_ok, sqlGuard_ok,
    Option.filter_eq_some_iff, Bool.and_eq_true, beq_iff_eq] at h
  obtain ⟨row, ⟨hrow, hactive, hrevision⟩, hguard, sessions, hput, rfl⟩ := h
  simp only [sessionMayChange, Bool.and_eq_true, beq_iff_eq, decide_eq_true_eq] at hguard
  have hid : row.sessionId = id := by
    have hkey := Table.key_of_get hrow
    exact hkey
  have hself : t.sessions.get row.sessionId = some row := Table.get_self hrow
  refine ⟨row, hrevision, hrow, hactive, hguard.1.1.1.1, fun k => ?_⟩
  rw [← hid, Table.get_put hput hself]

theorem updateSessionHeartbeat_updated {update : SessionHeartbeatUpdate}
    {r : StoredSessionRecord P} (h : updateSessionHeartbeat t update = .ok (r, t')) :
    ∃ s s', SessionUpdated t t' update.sessionId s s' ∧ s'.status = .active ∧
      s'.lastOutboundSequence = s.lastOutboundSequence := by
  simp only [updateSessionHeartbeat, bind_ok, exists_unit, pure_ok, Prod.mk.injEq] at h
  obtain ⟨_, -, -, -, _, -, -, _, -, t₁, h₁, -, -, -, rfl⟩ := h
  obtain ⟨s, -, hupdated⟩ := updateActiveSession_updated h₁
  exact ⟨s, _, hupdated, hupdated.active, rfl⟩

theorem invalidateSessionClock_updated {update : SessionClockInvalidation}
    {r : StoredSessionRecord P} (h : invalidateSessionClock t update = .ok (r, t')) :
    ∃ s s', SessionUpdated t t' update.sessionId s s' ∧ s'.status = .active ∧
      s'.lastOutboundSequence = s.lastOutboundSequence := by
  simp only [invalidateSessionClock, bind_ok, exists_unit, pure_ok, Prod.mk.injEq] at h
  obtain ⟨_, -, -, -, _, -, t₁, h₁, -, -, -, rfl⟩ := h
  obtain ⟨s, -, hupdated⟩ := updateActiveSession_updated h₁
  exact ⟨s, _, hupdated, hupdated.active, rfl⟩

variable {current : StoredSessionRecord P}

theorem advanceSequence_updated {reservedAt : Int} {r : ControlOutboundReservation}
    (hcurrent : t.sessions.get current.sessionId = some current)
    (h : advanceSequence t current reservedAt = .ok (r, t')) :
    r.sessionId = current.sessionId ∧ r.sequence = current.lastOutboundSequence + 1 ∧
      ∃ s', SessionUpdated t t' current.sessionId current s' ∧ s'.status = .active ∧
        s'.lastOutboundSequence = current.lastOutboundSequence + 1 := by
  simp only [advanceSequence, bind_ok, pure_ok, Prod.mk.injEq] at h
  obtain ⟨sequence, hsequence, next, -, t₁, h₁, rfl, rfl⟩ := h
  obtain ⟨s, -, hupdated⟩ := updateActiveSession_updated h₁
  have hsame : s = current := by
    have hfound := hupdated.found
    rw [hcurrent] at hfound
    exact (Option.some.inj hfound).symm
  subst hsame
  have hnext := checkedIncrement_ok hsequence
  exact ⟨rfl, hnext, _, hupdated, hupdated.active, hnext⟩

variable {status : SessionStatus} {error : String} {outcome : SessionDisconnectOutcome P}

theorem transitionSessionStatus_updated {changedAt : Int}
    (h : transitionSessionStatus t current status changedAt = .ok t') :
    ∃ s s', SessionUpdated t t' current.sessionId s s' ∧ s'.status = status ∧
      s'.lastOutboundSequence = s.lastOutboundSequence := by
  simp only [transitionSessionStatus, bind_ok] at h
  obtain ⟨next, -, h⟩ := h
  obtain ⟨s, -, hupdated⟩ := updateActiveSession_updated h
  exact ⟨s, _, hupdated, rfl, rfl⟩

theorem releaseSession_updated {changedAt : Int}
    (h : releaseSession codec t current status changedAt error = .ok (outcome, t')) :
    ∃ s s', SessionUpdated t t' current.sessionId s s' ∧ s'.status = status ∧
      s'.lastOutboundSequence = s.lastOutboundSequence := by
  simp only [releaseSession, bind_ok, pure_ok, Prod.mk.injEq] at h
  obtain ⟨⟨n, t₁⟩, h₁, ⟨as, t₂⟩, h₂, ⟨n', t₃⟩, h₃, t₄, h₄, -, -, -, rfl⟩ := h
  have hrows : Writes Licence.none t t₃ := (settleRejectedPendingAttempts_writes h₁).trans
    ((unconfirmSessionAttempts_writes h₂).trans (cancelSessionPendingDeliveries_writes h₃))
  obtain ⟨s, s', hupdated, hstatus, hsequence⟩ := transitionSessionStatus_updated h₄
  exact ⟨s, s', hupdated.start (writes_sessions id hrows), hstatus, hsequence⟩

/-- a session is registered and no other row changes -/
structure SessionInserted (t t' : DeliveryTables P) (session : NewSessionRecord P)
    (s : StoredSessionRecord P) : Prop where
  fresh : t.sessions.get session.sessionId = none
  status : s.status = session.status
  sequence : s.lastOutboundSequence = 1
  after : ∀ k, t'.sessions.get k = if session.sessionId = k then some s else t.sessions.get k

variable {session : NewSessionRecord P}

theorem insertSession_ok (h : insertSession t session = .ok (some t')) :
    ∃ stored sessions, t.sessions.insert stored = some sessions ∧
      t' = { t with sessions := sessions } ∧
      stored = { session with
        revision := 0, lastOutboundSequence := 1, updatedAt := stored.updatedAt } := by
  simp only [insertSession, bind_ok, exists_unit] at h
  obtain ⟨-, -, h⟩ := h
  split at h
  · simp only [pure_ok] at h
    cases h
  · rename_i sessions hinsert
    simp only [pure_ok, Option.some.injEq] at h
    refine ⟨_, sessions, hinsert, h.symm, ?_⟩
    split <;> rfl

theorem insertSession_inserted (h : insertSession t session = .ok (some t')) :
    ∃ s, SessionInserted t t' session s := by
  obtain ⟨stored, sessions, hinsert, rfl, hstored⟩ := insertSession_ok h
  have hid : stored.sessionId = session.sessionId := by rw [hstored]
  refine ⟨stored, ?_, ?_, ?_, fun k => ?_⟩
  · rw [← hid]
    exact Table.insert_fresh hinsert
  · rw [hstored]
  · rw [hstored]
  · rw [Table.get_insert hinsert, hid]

theorem insertSessionRecord_inserted {outcome : WriteOutcome (StoredSessionRecord P)}
    (h : insertSessionRecord t session = .ok (outcome, t')) :
    t' = t ∨ ∃ s, SessionInserted t t' session s := by
  simp only [insertSessionRecord, bind_ok, exists_unit] at h
  obtain ⟨-, inserted, hinserted, h⟩ := h
  split at h
  · simp only [pure_ok, Prod.mk.injEq] at h
    obtain ⟨-, rfl⟩ := h
    exact .inr (insertSession_inserted hinserted)
  · simp only [bind_ok] at h
    obtain ⟨existing, -, h⟩ := h
    unfold sessionDuplicate at h
    split at h
    · split at h
      · cases h
        exact .inl rfl
      · cases h
    · cases h

/-! ## what a call does to the registry -/

/-- the sequence of the session that the call hands out -/
def handedBy (id : SessionId) (t : DeliveryTables P) : StoreCall P → Option Nat
  | .reserveOutboundSequence request =>
    match reserveOutboundSequence t request with
    | .ok (.reserved r, _) => if r.sessionId = id then some r.sequence else none
    | _ => none
  | .reserveControlOutboundSequence request =>
    match reserveControlOutboundSequence t request with
    | .ok (.reserved r, _) => if r.sessionId = id then some r.sequence else none
    | _ => none
  | _ => none

/-- the session holds the identity that another session is registered under -/
def sessionReplaced (t : DeliveryTables P) (session : NewSessionRecord P) (id : SessionId) : Bool :=
  id != session.sessionId && (t.sessions.get id).any fun s =>
    s.clientId == session.clientId && s.accountId == session.accountId &&
      s.terminalId == session.terminalId && s.status == .active

/-- the call, when it succeeds, changes the session -/
def changesSession (t : DeliveryTables P) (call : StoreCall P) (id : SessionId) : Bool :=
  match call with
  | .updateSessionHeartbeat update => update.sessionId == id
  | .invalidateSessionClock update => update.sessionId == id
  | .markSessionStale update | .disconnectSession update => update.sessionId == id
  | .markExactSessionStale update | .disconnectExactSession update =>
    update.sessionId == id && sessionActive t id
  | .reserveOutboundSequence _ | .reserveControlOutboundSequence _ => (handedBy id t call).isSome
  | .replaceActiveSession session => sessionReplaced t session id
  | .fenceInterruptedWrites _ _ => sessionActive t id
  | _ => false

/-- `changed` sessions move on by the sequences they are `given`; the others stay, and new ones start -/
structure SessionEffect (t t' : DeliveryTables P) (changed : SessionId → Bool)
    (given : SessionId → Nat) : Prop where
  moved : ∀ id, changed id = true → ∃ s s', t.sessions.get id = some s ∧
    t'.sessions.get id = some s' ∧ s.status = .active ∧ s.revision < s'.revision ∧
    s'.lastOutboundSequence = s.lastOutboundSequence + given id
  kept : ∀ id s, changed id = false → t.sessions.get id = some s →
    t'.sessions.get id = some s ∧ given id = 0
  fresh : ∀ id, t.sessions.get id = none → given id = 0 ∧
    ∀ s', t'.sessions.get id = some s' → s'.lastOutboundSequence = 1

variable {changed : SessionId → Bool} {given : SessionId → Nat}

theorem SessionEffect.same (h : t'.sessions = t.sessions) :
    SessionEffect t t' (fun _ => false) (fun _ => 0) where
  moved := fun _ h => (by cases h)
  kept := fun _ _ _ hget => ⟨h ▸ hget, rfl⟩
  fresh := fun _ hnone => ⟨rfl, fun s' hs' => by
    rw [h, hnone] at hs'
    cases hs'⟩

theorem SessionUpdated.effect {n : Nat} (h : SessionUpdated t t' id s s')
    (hsequence : s'.lastOutboundSequence = s.lastOutboundSequence + n) :
    SessionEffect t t' (fun k => id == k) (fun k => if id = k then n else 0) where
  moved := by
    intro k hk
    obtain rfl := eq_of_beq hk
    refine ⟨s, s', h.found, ?_, h.active, ?_, ?_⟩
    · rw [h.after, if_pos rfl]
    · rw [h.revision]
      exact Nat.lt_succ_self _
    · rw [if_pos rfl]
      exact hsequence
  kept := by
    intro k x hk hget
    have hne : id ≠ k := beq_eq_false_iff_ne.mp hk
    refine ⟨?_, if_neg hne⟩
    rw [h.after, if_neg hne]
    exact hget
  fresh := by
    intro k hnone
    have hne : id ≠ k := by
      rintro rfl
      rw [h.found] at hnone
      cases hnone
    refine ⟨if_neg hne, fun x hx => ?_⟩
    rw [h.after, if_neg hne, hnone] at hx
    cases hx

theorem SessionUpdated.quiet (h : SessionUpdated t t' id s s')
    (hsequence : s'.lastOutboundSequence = s.lastOutboundSequence) :
    SessionEffect t t' (fun k => id == k) (fun _ => 0) := by
  have heffect := h.effect (n := 0) hsequence
  simp only [ite_self] at heffect
  exact heffect

theorem SessionEffect.inserted (h : SessionEffect t t₁ changed given)
    (hinserted : SessionInserted t₁ t' session s) (hnew : t.sessions.get session.sessionId = none) :
    SessionEffect t t' changed given where
  moved := by
    intro k hk
    obtain ⟨x, x', hx, hx', hrest⟩ := h.moved k hk
    refine ⟨x, x', hx, ?_, hrest⟩
    rw [hinserted.after, if_neg]
    · exact hx'
    · rintro rfl
      rw [hnew] at hx
      cases hx
  kept := by
    intro k x hk hx
    obtain ⟨hx', hgiven⟩ := h.kept k x hk hx
    refine ⟨?_, hgiven⟩
    rw [hinserted.after, if_neg]
    · exact hx'
    · rintro rfl
      rw [hnew] at hx
      cases hx
  fresh := by
    intro k hnone
    obtain ⟨hgiven, hone⟩ := h.fresh k hnone
    refine ⟨hgiven, fun x hx => ?_⟩
    rw [hinserted.after] at hx
    split at hx
    · cases hx
      exact hinserted.sequence
    · exact hone x hx

theorem insertSessionRecord_effect {outcome : WriteOutcome (StoredSessionRecord P)}
    (h : insertSessionRecord t session = .ok (outcome, t')) :
    SessionEffect t t' (fun _ => false) (fun _ => 0) := by
  rcases insertSessionRecord_inserted h with rfl | ⟨s, hinserted⟩
  · exact .same rfl
  · exact SessionEffect.inserted (.same rfl) hinserted hinserted.fresh

/-! ## reservations -/

variable {request : ReserveOutboundSequence} {r : ControlSequenceReservation}

theorem validateSubjectRoute_unreserved {rejection : SequenceReservation}
    (h : validateSubjectRoute t s request = .ok (some rejection)) :
    ∀ reservation, rejection ≠ .reserved reservation := by
  intro reservation hreserved
  subst hreserved
  unfold validateSubjectRoute at h
  split at h
  · split at h
    · cases h
    · simp only [bind_ok] at h
      obtain ⟨parent, -, h⟩ := h
      split at h
      · cases h
      · split at h <;> cases h
  · simp only [bind_ok, pure_ok, Option.map_eq_some_iff] at h
    obtain ⟨parent, -, field, -, hfield⟩ := h
    cases hfield

theorem reserveOutboundSequence_effect {r : SequenceReservation}
    (h : reserveOutboundSequence t request = .ok (r, t')) :
    (t'.sessions = t.sessions ∧ ∀ reservation, r ≠ .reserved reservation) ∨
    ∃ reservation s s', r = .reserved reservation ∧ SessionUpdated t t' reservation.sessionId s s' ∧
      s'.status = .active ∧ reservation.sequence = s.lastOutboundSequence + 1 ∧
      s'.lastOutboundSequence = s.lastOutboundSequence + 1 := by
  simp only [reserveOutboundSequence, bind_ok] at h
  obtain ⟨s, hs, h⟩ := h
  have hsession := Table.get_self (requiredSession_ok hs)
  split at h
  · cases h
    exact .inl ⟨rfl, fun _ hr => (by cases hr)⟩
  · split at h
    · cases h
      exact .inl ⟨rfl, fun _ hr => (by cases hr)⟩
    · simp only [bind_ok, exists_unit] at h
      obtain ⟨-, rejection, hrejection, h⟩ := h
      cases rejection with
      | some rejection =>
        cases h
        exact .inl ⟨rfl, validateSubjectRoute_unreserved hrejection⟩
      | none =>
        simp only [reserveRouted, reserveOnSession] at h
        split at h
        · cases h
          exact .inl ⟨rfl, fun _ hr => (by cases hr)⟩
        · simp only [bind_ok, pure_ok, Prod.mk.injEq] at h
          obtain ⟨⟨reservation, t₁⟩, hadvance, rfl, rfl⟩ := h
          obtain ⟨hid, hsequence, s', hupdated, hactive, hlast⟩ :=
            advanceSequence_updated hsession hadvance
          refine .inr ⟨_, s, s', rfl, ?_, hactive, hsequence, hlast⟩
          dsimp only
          rw [hid]
          exact hupdated

theorem reserveControlOutboundSequence_effect {request : ReserveControlOutboundSequence}
    (h : reserveControlOutboundSequence t request = .ok (r, t')) :
    (t'.sessions = t.sessions ∧ ∀ reservation, r ≠ .reserved reservation) ∨
    ∃ reservation s s', r = .reserved reservation ∧ SessionUpdated t t' reservation.sessionId s s' ∧
      s'.status = .active ∧ reservation.sequence = s.lastOutboundSequence + 1 ∧
      s'.lastOutboundSequence = s.lastOutboundSequence + 1 := by
  simp only [reserveControlOutboundSequence, fetchSessionById, bind_ok] at h
  obtain ⟨found, hfound, h⟩ := h
  have hget := readRow_ok (fun _ _ => sessionFromRow_self) hfound
  unfold reserveControl at h
  split at h
  · cases h
    exact .inl ⟨rfl, fun _ hr => (by cases hr)⟩
  · rename_i s
    have hsession := Table.get_self hget.symm
    split at h
    · cases h
      exact .inl ⟨rfl, fun _ hr => (by cases hr)⟩
    · simp only [bind_ok, exists_unit, pure_ok, Prod.mk.injEq] at h
      obtain ⟨-, ⟨reservation, t₁⟩, hadvance, rfl, rfl⟩ := h
      obtain ⟨hid, hsequence, s', hupdated, hactive, hlast⟩ :=
        advanceSequence_updated hsession hadvance
      refine .inr ⟨_, s, s', rfl, ?_, hactive, hsequence, hlast⟩
      dsimp only
      rw [hid]
      exact hupdated

/-- a reservation hands out nothing, or the next sequence of one session -/
inductive Reservation (t t' : DeliveryTables P) (call : StoreCall P) : Prop
  | refused (same : t'.sessions = t.sessions) (none : ∀ k, handedBy k t call = none)
  | handed {id : SessionId} {s s' : StoredSessionRecord P} (updated : SessionUpdated t t' id s s')
      (sequence : s'.lastOutboundSequence = s.lastOutboundSequence + 1)
      (handed : ∀ k, handedBy k t call = if id = k then some (s.lastOutboundSequence + 1) else none)

theorem reserveOutboundSequence_reservation {r : SequenceReservation}
    (h : reserveOutboundSequence t request = .ok (r, t')) :
    Reservation t t' (.reserveOutboundSequence request) := by
  rcases reserveOutboundSequence_effect h with
    ⟨hsame, hnone⟩ | ⟨reservation, s, s', rfl, hupdated, -, hsequence, hlast⟩
  · refine .refused hsame fun k => ?_
    simp only [handedBy, h]
    cases r with
    | reserved reservation => exact absurd rfl (hnone reservation)
    | _ => rfl
  · refine .handed hupdated hlast fun k => ?_
    simp only [handedBy, h, hsequence]

theorem reserveControlOutboundSequence_reservation {request : ReserveControlOutboundSequence}
    (h : reserveControlOutboundSequence t request = .ok (r, t')) :
    Reservation t t' (.reserveControlOutboundSequence request) := by
  rcases reserveControlOutboundSequence_effect h with
    ⟨hsame, hnone⟩ | ⟨reservation, s, s', rfl, hupdated, -, hsequence, hlast⟩
  · refine .refused hsame fun k => ?_
    simp only [handedBy, h]
    cases r with
    | reserved reservation => exact absurd rfl (hnone reservation)
    | sessionUnavailable => rfl
  · refine .handed hupdated hlast fun k => ?_
    simp only [handedBy, h, hsequence]

variable {call : StoreCall P}

theorem Reservation.effect (h : Reservation t t' call) :
    SessionEffect t t' (fun k => (handedBy k t call).isSome)
      (fun k => (handedBy k t call).toList.length) := by
  cases h with
  | refused hsame hnone =>
    simp only [hnone]
    exact .same hsame
  | @handed id s s' hupdated hlast hhanded =>
    have heffect := hupdated.effect hlast
    have hsome : ∀ k, (handedBy k t call).isSome = (id == k) := by
      intro k
      rw [hhanded]
      split <;> rename_i hk
      · rw [beq_iff_eq.mpr hk]
        rfl
      · rw [beq_eq_false_iff_ne.mpr hk]
        rfl
    have hlength : ∀ k, (handedBy k t call).toList.length = if id = k then 1 else 0 := by
      intro k
      rw [hhanded]
      split <;> rfl
    simp only [hsome, hlength]
    exact heffect

theorem Reservation.next (h : Reservation t t' call) {q : Nat} (hq : handedBy id t call = some q) :
    q = sequenceOf id t + 1 := by
  cases h with
  | refused _ hnone =>
    rw [hnone] at hq
    cases hq
  | @handed k s s' hupdated _ hhanded =>
    rw [hhanded] at hq
    split at hq
    · rename_i hk
      cases hq
      unfold sequenceOf
      rw [← hk, hupdated.found]
      rfl
    · cases hq

/-! ## the end of sessions -/

variable {fencedAt : Int}

theorem sessionReplaced_iff :
    sessionReplaced t session id = true ↔ id ≠ session.sessionId ∧
      ∃ s ∈ t.sessions.rows.filter (fun s => s.clientId == session.clientId &&
        s.accountId == session.accountId && s.terminalId == session.terminalId &&
        s.status == .active), s.sessionId = id := by
  unfold sessionReplaced
  rw [Bool.and_eq_true, bne_iff_ne, Option.any_eq_true]
  refine and_congr_right fun _ => ⟨?_, ?_⟩
  · rintro ⟨s, hs, hfits⟩
    obtain ⟨hmem, hid⟩ := Table.get_eq_some.mp hs
    exact ⟨s, List.mem_filter.mpr ⟨hmem, hfits⟩, hid⟩
  · rintro ⟨s, hs, hid⟩
    obtain ⟨hmem, hfits⟩ := List.mem_filter.mp hs
    exact ⟨s, Table.get_eq_some.mpr ⟨hmem, hid⟩, hfits⟩

theorem insertReplacement_effect {replaced : Option (StoredSessionRecord P)}
    {unconfirmed : List (StoredDeliveryAttempt P)} {outcome : SessionReplacement P}
    (h : insertReplacement t session replaced unconfirmed = .ok (outcome, t')) :
    t' = t ∨ ∃ s, SessionInserted t t' session s := by
  simp only [insertReplacement, bind_ok, pure_ok, Prod.mk.injEq] at h
  obtain ⟨⟨w, t₁⟩, h₁, -, rfl⟩ := h
  exact insertSessionRecord_inserted h₁

theorem replaceExisting_effect {existing : StoredSessionRecord P} {outcome : SessionReplacement P}
    (hne : existing.sessionId ≠ session.sessionId)
    (h : replaceExisting codec t session existing = .ok (outcome, t')) :
    SessionEffect t t' (fun k => existing.sessionId == k) (fun _ => 0) := by
  simp only [replaceExisting, bind_ok, exists_unit, need_ok] at h
  obtain ⟨-, ⟨n, t₁⟩, h₁, ⟨n', t₂⟩, h₂, ⟨as, t₃⟩, h₃, t₄, h₄, found, -, replaced, -, h⟩ := h
  have hrows : Writes Licence.none t t₃ := (settleRejectedPendingAttempts_writes h₁).trans
    ((cancelSessionPendingDeliveries_writes h₂).trans (unconfirmSessionAttempts_writes h₃))
  obtain ⟨s, s', hupdated, -, hlast⟩ := transitionSessionStatus_updated h₄
  have hupdated := hupdated.start (writes_sessions id hrows)
  have heffect := hupdated.quiet hlast
  rcases insertReplacement_effect h with rfl | ⟨x, hinserted⟩
  · exact heffect
  · refine heffect.inserted hinserted ?_
    have hfresh := hinserted.fresh
    rw [hupdated.after, if_neg hne] at hfresh
    exact hfresh

theorem replaceActiveSession_effect {outcome : SessionReplacement P}
    (h : replaceActiveSession codec t session = .ok (outcome, t')) :
    SessionEffect t t' (sessionReplaced t session) (fun _ => 0) := by
  simp only [replaceActiveSession, bind_ok, exists_unit] at h
  obtain ⟨-, active, hactive, h⟩ := h
  have hreplaced : ∀ k, sessionReplaced t session k = true ↔
      k ≠ session.sessionId ∧ ∃ s ∈ active, s.sessionId = k := by
    intro k
    rw [collect_self (fun _ _ => sessionFromRow_self) hactive]
    exact sessionReplaced_iff
  unfold replaceActive at h
  split at h
  · have hnone : sessionReplaced t session = fun _ => false := by
      funext k
      rw [← Bool.not_eq_true, hreplaced]
      rintro ⟨-, s, hs, -⟩
      cases hs
    rw [hnone]
    rcases insertReplacement_effect h with rfl | ⟨x, hinserted⟩
    · exact .same rfl
    · exact SessionEffect.inserted (.same rfl) hinserted hinserted.fresh
  · rename_i existing
    split at h
    · rename_i hsame
      have hnone : sessionReplaced t session = fun _ => false := by
        funext k
        rw [← Bool.not_eq_true, hreplaced]
        rintro ⟨hne, s, hs, hid⟩
        rw [List.mem_singleton.mp hs, hsame] at hid
        exact hne hid.symm
      rw [hnone]
      split at h
      · cases h
        exact .same rfl
      · cases h
    · rename_i hne
      have hone : sessionReplaced t session = fun k => existing.sessionId == k := by
        funext k
        rw [Bool.eq_iff_iff, hreplaced, beq_iff_eq]
        constructor
        · rintro ⟨-, s, hs, hid⟩
          rw [List.mem_singleton.mp hs] at hid
          exact hid
        · rintro rfl
          exact ⟨hne, existing, List.mem_singleton_self existing, rfl⟩
      rw [hone]
      exact replaceExisting_effect hne h
  · cases h

theorem fenceSession_updated {acc acc' : DeliveryStartupFenceReport × DeliveryTables P}
    (h : fenceSession codec fencedAt error acc current = .ok acc') :
    ∃ s s', SessionUpdated acc.2 acc'.2 current.sessionId s s' ∧ s'.status = .stale ∧
      s'.lastOutboundSequence = s.lastOutboundSequence := by
  simp only [fenceSession, bind_ok, exists_unit, pure_ok] at h
  obtain ⟨-, ⟨n, t₁⟩, h₁, ⟨n', t₂⟩, h₂, ⟨as, t₃⟩, h₃, t₄, h₄, rfl⟩ := h
  have hrows : Writes Licence.none acc.2 t₃ := (settleRejectedPendingAttempts_writes h₁).trans
    ((cancelSessionPendingDeliveries_writes h₂).trans (unconfirmSessionAttempts_writes h₃))
  obtain ⟨s, s', hupdated, hstatus, hlast⟩ := transitionSessionStatus_updated h₄
  exact ⟨s, s', hupdated.start (writes_sessions id hrows), hstatus, hlast⟩

theorem fenceSessions_effect {active : List (StoredSessionRecord P)}
    {acc acc' : DeliveryStartupFenceReport × DeliveryTables P}
    (hnodup : (active.map fun s => s.sessionId).Nodup)
    (h : active.foldlM (fenceSession codec fencedAt error) acc = .ok acc') :
    SessionEffect acc.2 acc'.2 (fun id => decide (id ∈ active.map fun s => s.sessionId))
      (fun _ => 0) := by
  induction active generalizing acc with
  | nil =>
    cases h
    exact .same rfl
  | cons x xs ih =>
    rw [List.foldlM_cons, bind_ok] at h
    obtain ⟨acc₁, hx, hxs⟩ := h
    obtain ⟨s, s', hupdated, -, hlast⟩ := fenceSession_updated hx
    rw [List.map_cons, List.nodup_cons] at hnodup
    have hrest := ih hnodup.2 hxs
    constructor
    · intro k hk
      rw [decide_eq_true_eq, List.map_cons, List.mem_cons] at hk
      by_cases hhead : x.sessionId = k
      · subst hhead
        refine ⟨s, s', hupdated.found, ?_, hupdated.active, ?_, hlast⟩
        · refine (hrest.kept _ _ (decide_eq_false hnodup.1) ?_).1
          rw [hupdated.after, if_pos rfl]
        · rw [hupdated.revision]
          exact Nat.lt_succ_self _
      · obtain ⟨y, y', hy, hrest'⟩ := hrest.moved k
          (decide_eq_true (hk.resolve_left (Ne.symm hhead)))
        rw [hupdated.after, if_neg hhead] at hy
        exact ⟨y, y', hy, hrest'⟩
    · intro k y hk hy
      rw [decide_eq_false_iff_not, List.map_cons, List.mem_cons, not_or] at hk
      refine ⟨(hrest.kept k y (decide_eq_false hk.2) ?_).1, rfl⟩
      rw [hupdated.after, if_neg (Ne.symm hk.1)]
      exact hy
    · intro k hnone
      refine ⟨rfl, (hrest.fresh k ?_).2⟩
      rw [hupdated.after, if_neg]
      · exact hnone
      · rintro rfl
        rw [hupdated.found] at hnone
        cases hnone

theorem fenceInterruptedWrites_effect {report : DeliveryStartupFenceReport}
    (h : fenceInterruptedWrites codec t fencedAt error = .ok (report, t')) :
    SessionEffect t t' (sessionActive t) (fun _ => 0) := by
  simp only [fenceInterruptedWrites, bind_ok, exists_unit] at h
  obtain ⟨-, active, hactive, ⟨report₁, t₁⟩, hsessions, houtboxes⟩ := h
  have hself := collect_self (fun _ _ => sessionFromRow_self) hactive
  have heffect := fenceSessions_effect (by rw [hself]; exact nodup_inOrder_map t.sessions.keyed)
    hsessions
  have hactives : (fun id => decide (id ∈ active.map fun s => s.sessionId)) = sessionActive t := by
    funext k
    rw [Bool.eq_iff_iff, decide_eq_true_eq, hself]
    unfold sessionActive
    rw [Option.any_eq_true, List.mem_map]
    constructor
    · rintro ⟨s, hs, rfl⟩
      obtain ⟨hmem, hstatus⟩ := List.mem_filter.mp (mem_inOrder.mp hs)
      exact ⟨s, Table.get_eq_some.mpr ⟨hmem, rfl⟩, hstatus⟩
    · rintro ⟨s, hs, hstatus⟩
      obtain ⟨hmem, hid⟩ := Table.get_eq_some.mp hs
      exact ⟨s, mem_inOrder.mpr (List.mem_filter.mpr ⟨hmem, hstatus⟩), hid⟩
  rw [hactives] at heffect
  have hwrites : Writes { Licence.none with evidence := fun _ time => time = fencedAt } t₁ t' :=
    fenceOutboxes_writes (fun _ => rfl) houtboxes
  have hrest : t'.sessions = t₁.sessions := writes_sessions id hwrites
  exact ⟨fun k hk => by rw [hrest]; exact heffect.moved k hk,
    fun k y hk hy => by rw [hrest]; exact heffect.kept k y hk hy,
    fun k hk => by rw [hrest]; exact heffect.fresh k hk⟩

theorem closeSession_updated {update : SessionStatusUpdate}
    (h : closeSession codec t update status = .ok (outcome, t')) :
    ∃ s s', SessionUpdated t t' update.sessionId s s' ∧ s'.status = status ∧
      s'.lastOutboundSequence = s.lastOutboundSequence := by
  simp only [closeSession, bind_ok, exists_unit] at h
  obtain ⟨-, current, hcurrent, -, -, h⟩ := h
  have hid : current.sessionId = update.sessionId := by
    have hkey := Table.key_of_get (requiredSession_ok hcurrent)
    exact hkey
  rw [← hid]
  exact releaseSession_updated h

theorem closeExactSession_effect {update : ExactSessionClose}
    (h : closeExactSession codec t update status = .ok (outcome, t')) :
    SessionEffect t t' (fun k => update.sessionId == k && sessionActive t k) (fun _ => 0) := by
  simp only [closeExactSession, bind_ok, exists_unit] at h
  obtain ⟨-, current, hcurrent, h⟩ := h
  have hget := requiredSession_ok hcurrent
  have hid : current.sessionId = update.sessionId := by
    have hkey := Table.key_of_get hget
    exact hkey
  have hactive : ∀ k, update.sessionId = k → sessionActive t k = (current.status == .active) := by
    rintro k rfl
    unfold sessionActive
    rw [hget, Option.any_some]
  split at h
  · rename_i hended
    cases h
    have hnone : (fun k => update.sessionId == k && sessionActive t k) = fun _ => false := by
      funext k
      by_cases hk : update.sessionId = k
      · rw [hactive k hk, beq_eq_false_iff_ne.mpr hended, Bool.and_false]
      · rw [beq_eq_false_iff_ne.mpr hk, Bool.false_and]
    rw [hnone]
    exact .same rfl
  · rename_i hstatus
    obtain ⟨s, s', hupdated, -, hlast⟩ := releaseSession_updated h
    rw [hid] at hupdated
    have hone : (fun k => update.sessionId == k && sessionActive t k) =
        fun k => update.sessionId == k := by
      funext k
      by_cases hk : update.sessionId = k
      · rw [hactive k hk, beq_iff_eq.mpr (not_not.mp hstatus), Bool.and_true]
      · rw [beq_eq_false_iff_ne.mpr hk, Bool.false_and]
    rw [hone]
    exact hupdated.quiet hlast

theorem runCall_sessions (h : runCall codec t call = .ok t') :
    SessionEffect t t' (changesSession t call) (fun k => (handedBy k t call).toList.length) := by
  cases call with
  | enqueueWireOutbox _ =>
    exact .same (writes_sessions id (enqueueWireOutbox_writes (map_snd_ok h).choose_spec))
  | enqueueReservedDelivery _ =>
    exact .same (writes_sessions id (enqueueReservedDelivery_writes (map_snd_ok h).choose_spec))
  | recordDeliveryAttempt _ =>
    exact .same (writes_sessions id (recordDeliveryAttempt_writes (map_snd_ok h).choose_spec))
  | claimOutbox _ =>
    obtain ⟨o, a, d, hclaimed, -⟩ := claimOutbox_ok (map_snd_ok h).choose_spec
    exact .same hclaimed.write.sessions
  | finishTransportWrite _ _ =>
    exact .same (writes_sessions id (finishTransportWrite_writes (map_snd_ok h).choose_spec))
  | recordTransportAck _ =>
    exact .same (writes_sessions id (recordTransportAck_writes (map_snd_ok h).choose_spec))
  | recordCommandReceivedAttempt _ =>
    exact .same (writes_sessions id (recordCommandReceivedAttempt_writes (map_snd_ok h).choose_spec))
  | timeoutDeliveryAttempt _ =>
    exact .same (writes_sessions (l := .none) id
      (timeoutDeliveryAttempt_writes (map_snd_ok h).choose_spec))
  | insertSession _ => exact insertSessionRecord_effect (map_snd_ok h).choose_spec
  | replaceActiveSession _ => exact replaceActiveSession_effect (map_snd_ok h).choose_spec
  | updateSessionHeartbeat _ =>
    obtain ⟨s, s', hupdated, -, hlast⟩ := updateSessionHeartbeat_updated (map_snd_ok h).choose_spec
    exact hupdated.quiet hlast
  | invalidateSessionClock _ =>
    obtain ⟨s, s', hupdated, -, hlast⟩ := invalidateSessionClock_updated (map_snd_ok h).choose_spec
    exact hupdated.quiet hlast
  | reserveOutboundSequence _ =>
    exact (reserveOutboundSequence_reservation (map_snd_ok h).choose_spec).effect
  | reserveControlOutboundSequence _ =>
    exact (reserveControlOutboundSequence_reservation (map_snd_ok h).choose_spec).effect
  | markSessionStale _ | disconnectSession _ =>
    obtain ⟨s, s', hupdated, -, hlast⟩ := closeSession_updated (map_snd_ok h).choose_spec
    exact hupdated.quiet hlast
  | markExactSessionStale _ | disconnectExactSession _ =>
    exact closeExactSession_effect (map_snd_ok h).choose_spec
  | fenceInterruptedWrites _ _ => exact fenceInterruptedWrites_effect (map_snd_ok h).choose_spec
  | parents rows =>
    cases h
    exact .same rfl

/-! ## every run -/

theorem handedBy_next {q : Nat} (hq : handedBy id t call = some q) :
    q = sequenceOf id t + 1 := by
  cases call with
  | reserveOutboundSequence request =>
    cases h : reserveOutboundSequence t request with
    | ok r => exact (reserveOutboundSequence_reservation h).next hq
    | error e =>
      simp only [handedBy, h] at hq
      cases hq
  | reserveControlOutboundSequence request =>
    cases h : reserveControlOutboundSequence t request with
    | ok r => exact (reserveControlOutboundSequence_reservation h).next hq
    | error e =>
      simp only [handedBy, h] at hq
      cases hq
  | _ => cases hq

theorem handedBy_failed {e : StoreError} (h : runCall codec t call = .error e) :
    handedBy id t call = none := by
  cases call with
  | reserveOutboundSequence request =>
    cases hr : reserveOutboundSequence t request with
    | ok r => simp only [runCall, hr, Except.map] at h; cases h
    | error e => simp only [handedBy, hr]
  | reserveControlOutboundSequence request =>
    cases hr : reserveControlOutboundSequence t request with
    | ok r => simp only [runCall, hr, Except.map] at h; cases h
    | error e => simp only [handedBy, hr]
  | _ => rfl

theorem SessionEffect.sequence (h : SessionEffect t t' changed given) (id : SessionId) :
    sequenceOf id t' = sequenceOf id t + given id := by
  unfold sequenceOf
  cases hget : t.sessions.get id with
  | some s =>
    cases hchanged : changed id with
    | true =>
      obtain ⟨x, x', hx, hx', -, -, hlast⟩ := h.moved id hchanged
      rw [hget] at hx
      cases hx
      rw [hx']
      exact hlast
    | false =>
      obtain ⟨hkept, hgiven⟩ := h.kept id s hchanged hget
      rw [hkept, hgiven]
      rfl
  | none =>
    obtain ⟨hgiven, hone⟩ := h.fresh id hget
    rw [hgiven]
    cases hget' : t'.sessions.get id with
    | some s' =>
      rw [Option.map_some, hone s' hget']
      rfl
    | none => rfl

theorem storeStep_sequence (call : StoreCall P) (id : SessionId) :
    sequenceOf id (storeStep codec t call) =
      sequenceOf id t + (handedBy id t call).toList.length := by
  unfold storeStep
  split
  · rename_i t' h
    exact (runCall_sessions h).sequence id
  · rename_i e h
    rw [handedBy_failed h]
    rfl

theorem storeStep_ended (hs : t.sessions.get id = some s) (hended : s.status ≠ .active) :
    (storeStep codec t call).sessions.get id = some s := by
  unfold storeStep
  split
  · rename_i t' h
    have heffect := runCall_sessions h
    cases hchanged : changesSession t call id with
    | true =>
      obtain ⟨x, x', hx, -, hactive, -⟩ := heffect.moved id hchanged
      rw [hs] at hx
      cases hx
      exact absurd hactive hended
    | false => exact (heffect.kept id s hchanged hs).1
  · exact hs

/-- the sequences of the session that a run hands out, in their order -/
def handed (codec : WireCodec P) (id : SessionId) (t : DeliveryTables P) :
    List (StoreCall P) → List Nat
  | [] => []
  | call :: calls => (handedBy id t call).toList ++ handed codec id (storeStep codec t call) calls

theorem handed_cons (call : StoreCall P) (calls : List (StoreCall P)) :
    handed codec id t (call :: calls) =
      (handedBy id t call).toList ++ handed codec id (storeStep codec t call) calls := rfl

theorem handed_consecutive (calls : List (StoreCall P)) (id : SessionId) (t : DeliveryTables P) :
    handed codec id t calls =
        List.range' (sequenceOf id t + 1) (handed codec id t calls).length ∧
      sequenceOf id (calls.foldl (storeStep codec) t) =
        sequenceOf id t + (handed codec id t calls).length := by
  induction calls generalizing t with
  | nil => exact ⟨rfl, rfl⟩
  | cons call calls ih =>
    obtain ⟨hrest, hlast⟩ := ih (storeStep codec t call)
    have hsequence : sequenceOf id (storeStep codec t call) =
        sequenceOf id t + (handedBy id t call).toList.length := storeStep_sequence call id
    rw [List.foldl_cons, hlast, hsequence, handed_cons, List.length_append]
    refine ⟨?_, Nat.add_assoc _ _ _⟩
    cases hnow : handedBy id t call with
    | none =>
      rw [hsequence, hnow] at hrest
      simpa using hrest
    | some q =>
      rw [hsequence, hnow] at hrest
      have hq := handedBy_next hnow
      simp only [Option.toList_some, List.length_singleton, List.singleton_append] at hrest ⊢
      rw [Nat.add_comm 1, List.range'_succ, ← hq, hq, ← hrest]

theorem active_unique {x y : StoredSessionRecord P} (hx : x ∈ t.sessions.rows)
    (hy : y ∈ t.sessions.rows) (hxa : x.status = .active) (hya : y.status = .active)
    (hclient : x.clientId = y.clientId) (haccount : x.accountId = y.accountId)
    (hterminal : x.terminalId = y.terminalId) : x = y := by
  have hindex : ∀ s : StoredSessionRecord P, s.status = .active →
      sessionIndex s = some (s.clientId, s.accountId, s.terminalId.getD "") := by
    intro s hs
    unfold sessionIndex
    rw [if_pos hs]
  have hseekx := Table.seek_eq_some.mpr ⟨hx, hindex x hxa⟩
  have hseeky := Table.seek_eq_some.mpr ⟨hy, hindex y hya⟩
  rw [hclient, haccount, hterminal, hseeky] at hseekx
  exact (Option.some.inj hseekx).symm

end

section
variable {P : Type} [DecidableEq P]

/-- **The registry of sessions.**  Over every run of the store: an identity has at most one active
session, a session that left ACTIVE stays as it is, the sequences handed out for a session by both
reservations are consecutive, and every successful call raises the revision of each session that it
changes and leaves the others alone. -/
theorem session_registry (codec : WireCodec P) (t : DeliveryTables P) (calls : List (StoreCall P)) :
    (∀ k x y, x ∈ (before (storeStep codec) t calls k).sessions.rows →
      y ∈ (before (storeStep codec) t calls k).sessions.rows → x.status = .active →
      y.status = .active → x.clientId = y.clientId → x.accountId = y.accountId →
      x.terminalId = y.terminalId → x = y) ∧
    (∀ i k, i ≤ k → ∀ id s, (before (storeStep codec) t calls i).sessions.get id = some s →
      s.status ≠ .active → (before (storeStep codec) t calls k).sessions.get id = some s) ∧
    (∀ id, ∃ n, handed codec id t calls = List.range' (sequenceOf id t + 1) n ∧
      sequenceOf id (calls.foldl (storeStep codec) t) = sequenceOf id t + n) ∧
    ∀ k call t', calls[k]? = some call →
      runCall codec (before (storeStep codec) t calls k) call = .ok t' → ∀ id,
      if changesSession (before (storeStep codec) t calls k) call id then
        ∃ s s', (before (storeStep codec) t calls k).sessions.get id = some s ∧
          t'.sessions.get id = some s' ∧ s.revision < s'.revision
      else ∀ s, (before (storeStep codec) t calls k).sessions.get id = some s →
        t'.sessions.get id = some s := by
  refine ⟨fun k x y hx hy hxa hya => active_unique hx hy hxa hya, fun i k hik => ?_,
    fun id => ⟨_, handed_consecutive calls id t⟩, fun k call t' _ hcall id => ?_⟩
  · have hrelated := before_related (storeStep codec)
      (R := fun t t' => ∀ id s, t.sessions.get id = some s → s.status ≠ .active →
        t'.sessions.get id = some s)
      (fun _ _ _ h _ => h)
      (fun h₁ h₂ id s hs hended => h₂ id s (h₁ id s hs hended) hended) t calls hik
      fun j call _ _ id s hs hended => storeStep_ended hs hended
    exact hrelated
  · have heffect := runCall_sessions hcall
    split
    · rename_i hchanged
      obtain ⟨s, s', hs, hs', -, hrevision, -⟩ := heffect.moved id hchanged
      exact ⟨s, s', hs, hs', hrevision⟩
    · rename_i hsame
      exact fun s hs => (heffect.kept id s (Bool.eq_false_iff.mpr hsame) hs).1

/-- the client connects again, and both sessions are handed sequences for commands and for control -/
def registryCalls : List (StoreCall String) :=
  goldCalls.take 3 ++
    [.reserveControlOutboundSequence ⟨"s1", 30⟩,
      .replaceActiveSession
        { goldSession with
          sessionId := "s2", connectedAt := 40, lastHeartbeatAt := some 40
          lastTimeSyncAt := some 40, updatedAt := 40 },
      .reserveControlOutboundSequence ⟨"s1", 50⟩,
      .reserveControlOutboundSequence ⟨"s2", 51⟩,
      .reserveOutboundSequence ⟨"s2", 1, .executionCommand "c1", 1, 52⟩]

theorem session_registry_sample :
    handed goldWireCodec "s1" goldDeliveryTables registryCalls = [2, 3] ∧
    handed goldWireCodec "s2" goldDeliveryTables registryCalls = [2, 3] ∧
    (∀ k x y,
      x ∈ (before (storeStep goldWireCodec) goldDeliveryTables registryCalls k).sessions.rows →
      y ∈ (before (storeStep goldWireCodec) goldDeliveryTables registryCalls k).sessions.rows →
      x.status = .active → y.status = .active → x.clientId = y.clientId →
      x.accountId = y.accountId → x.terminalId = y.terminalId → x = y) :=
  ⟨by decide +kernel, by decide +kernel,
    (session_registry goldWireCodec goldDeliveryTables registryCalls).1⟩

/-- The registration of a session that is registered already succeeds, and its revision stays. -/
theorem repeated_registration_keeps_revision :
    ∃ t', runCall goldWireCodec (before (storeStep goldWireCodec) goldDeliveryTables goldCalls 2)
        (.replaceActiveSession goldSession) = .ok t' ∧
      ∃ s, (before (storeStep goldWireCodec) goldDeliveryTables goldCalls 2).sessions.get "s1"
          = some s ∧ t'.sessions.get "s1" = some s := by
  have hrun : (runCall goldWireCodec (before (storeStep goldWireCodec) goldDeliveryTables goldCalls 2)
      (.replaceActiveSession goldSession)).toOption.bind (fun t' =>
        ((before (storeStep goldWireCodec) goldDeliveryTables goldCalls 2).sessions.get "s1").map
          fun s => t'.sessions.get "s1" == some s) = some true := by decide +kernel
  obtain ⟨t', hok, hsame⟩ := Option.bind_eq_some_iff.mp hrun
  obtain ⟨s, hs, hsame⟩ := Option.map_eq_some_iff.mp hsame
  refine ⟨t', ?_, s, hs, eq_of_beq hsame⟩
  cases hcall : runCall goldWireCodec
      (before (storeStep goldWireCodec) goldDeliveryTables goldCalls 2)
      (.replaceActiveSession goldSession) with
  | ok t₁ =>
    rw [hcall] at hok
    cases hok
    rfl
  | error e =>
    rw [hcall] at hok
    cases hok

end

end Sinan.Store
