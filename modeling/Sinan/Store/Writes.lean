import Sinan.Store.Moves

/-!
# Operations as chains of moves

`Write l` is one change of the tables: a move of one message, an update or a registration of a
session, or new rows.  Each operation of the store is a chain of writes under its own licence.
-/

set_option linter.unusedSectionVars false

namespace Sinan.Store

open Lib Relation

section
variable {P : Type}

abbrev OutboxTable (P : Type) := Table (fun o : StoredWireOutbox P => o.messageId) outboxIndex
abbrev AttemptTable (P : Type) :=
  Table (fun a : StoredDeliveryAttempt P => a.attemptId) (fun a => a.messageId)

/-- only the row of `m` may differ -/
def OutboxesAfter (os os' : OutboxTable P) (m : MessageId) (o' : StoredWireOutbox P) : Prop :=
  ∀ k, os'.get k = if m = k then some o' else os.get k

/-- only the attempt of `m` may differ -/
structure AttemptsAfter (as as' : AttemptTable P) (m : MessageId)
    (a a' : Option (StoredDeliveryAttempt P)) : Prop where
  seek : ∀ k, as'.seek k = if m = k then a' else as.seek k
  kept : ∀ id x, as.get id = some x → ∃ x', as'.get id = some x' ∧
    (x' = x ∨ (a = some x ∧ a' = some x'))
  absent : ∀ id, as.get id = none → as'.get id = none

structure MessageWrite (l : Licence) (t t' : DeliveryTables P) (m : MessageId)
    (o : StoredWireOutbox P) (a : Option (StoredDeliveryAttempt P)) (o' : StoredWireOutbox P)
    (a' : Option (StoredDeliveryAttempt P)) : Prop where
  outbox : t.outboxes.get m = some o
  attempt : t.attempts.seek m = a
  move : Move l o a o' a'
  outboxes : OutboxesAfter t.outboxes t'.outboxes m o'
  attempts : AttemptsAfter t.attempts t'.attempts m a a'
  sessions : t'.sessions = t.sessions
  parents : t'.parents = t.parents

inductive Write (l : Licence) (t t' : DeliveryTables P) : Prop
  | message {m : MessageId} {o o' : StoredWireOutbox P}
      {a a' : Option (StoredDeliveryAttempt P)} (h : MessageWrite l t t' m o a o' a')
  | session (hsessions : l.sessions) (outboxes : t'.outboxes = t.outboxes)
      (attempts : t'.attempts = t.attempts) (parents : t'.parents = t.parents)
      (sessions : ∀ id s, t.sessions.get id = some s →
        ∃ s', t'.sessions.get id = some s' ∧ (s' = s ∨ SessionStep s s'))
  | created (hcreates : l.creates)
      (outboxes : ∀ k o, t.outboxes.get k = some o → t'.outboxes.get k = some o)
      (attempts : ∀ id a, t.attempts.get id = some a → t'.attempts.get id = some a)
      (seek : ∀ k a, t.attempts.seek k = some a → t'.attempts.seek k = some a)
      (sessions : t'.sessions = t.sessions) (parents : t'.parents = t.parents)

abbrev Writes (l : Licence) : DeliveryTables P → DeliveryTables P → Prop := ReflTransGen (Write l)

/-! ## the two halves of a message -/

variable {os os' : OutboxTable P} {as as' : AttemptTable P} {m : MessageId}
  {o o' : StoredWireOutbox P} {x x' : StoredDeliveryAttempt P}

theorem messageId_of_get (h : os.get m = some o) : o.messageId = m := by
  have hkey := Table.key_of_get h
  exact hkey

theorem OutboxesAfter.same (h : os.get m = some o) : OutboxesAfter os os m o := by
  intro k
  by_cases hk : m = k
  · rw [if_pos hk, ← hk]
    exact h
  · rw [if_neg hk]

theorem OutboxesAfter.put (h : os.get m = some o) (hstep : OutboxStep o o')
    (hput : os.put o' = some os') : OutboxesAfter os os' m o' := by
  intro k
  have hkey : o'.messageId = m := hstep.messageId.trans (messageId_of_get h)
  have hget : os.get o'.messageId = some o := by rw [hkey]; exact h
  rw [Table.get_put hput hget, hkey]

theorem AttemptsAfter.same {a : Option (StoredDeliveryAttempt P)} (h : as.seek m = a) :
    AttemptsAfter as as m a a where
  seek := by
    intro k
    by_cases hk : m = k
    · rw [if_pos hk, ← hk]
      exact h
    · rw [if_neg hk]
  kept := fun id y hy => ⟨y, hy, .inl rfl⟩
  absent := fun id h => h

theorem AttemptsAfter.put (h : as.seek m = some x) (hstep : AttemptStep x x')
    (hput : as.put x' = some as') : AttemptsAfter as as' m (some x) (some x') := by
  have hget : as.get x'.attemptId = some x := by
    rw [hstep.attemptId]
    exact Table.get_of_seek h
  have hmessage := Table.index_of_seek h
  have hindex : x'.messageId = some m := hstep.messageId.trans hmessage
  refine ⟨fun k => ?_, fun id y hy => ?_, fun id hid => ?_⟩
  · rw [Table.seek_put hput hget hstep.messageId, hindex]
    simp only [Option.some.injEq]
  · rw [Table.get_put hput hget]
    by_cases hid : x'.attemptId = id
    · rw [if_pos hid]
      rw [← hid, hget] at hy
      exact ⟨x', rfl, .inr ⟨hy, rfl⟩⟩
    · rw [if_neg hid]
      exact ⟨y, hy, .inl rfl⟩
  · rw [Table.get_put hput hget, if_neg]
    · exact hid
    · intro heq
      rw [heq, hid] at hget
      cases hget

/-! ## the statements -/

def StoredWireOutbox.restate (o : StoredWireOutbox P) (status : WireOutboxStatus) (updatedAt : Int)
    (sentAt ackedAt : Option Int) (error : Option String) : StoredWireOutbox P :=
  { o with
    status := status, revision := o.revision + 1, updatedAt := updatedAt, sentAt := sentAt,
    ackedAt := ackedAt, lastError := error }

def StoredDeliveryAttempt.restate (a : StoredDeliveryAttempt P)
    (status : CommandDeliveryAttemptStatus) (updatedAt : Int) (ackedAt : Option Int)
    (error : Option String) : StoredDeliveryAttempt P :=
  { a with
    status := status, revision := a.revision + 1, updatedAt := updatedAt, ackedAt := ackedAt,
    error := error }

theorem checkedIncrement_ok {field : String} {value next : Nat}
    (h : checkedIncrement field value = .ok next) : next = value + 1 := by
  simp only [checkedIncrement, bind_ok, need_ok, exists_unit, pure_ok] at h
  obtain ⟨n, hn, -, rfl⟩ := h
  exact (checkedSucc_some hn).1

theorem sqlGuard_ok {condition : Bool} {u : Unit} :
    sqlGuard condition = .ok u ↔ condition = true := by
  rw [sqlGuard, reject_ok, Bool.not_eq_false]

variable {t t' : DeliveryTables P} {status : WireOutboxStatus} {updatedAt : Int}
  {ackedAt : Option Int} {error : Option String} {sentAt : Option Int} {l : Licence}

theorem updateOutboxState_ok (hget : t.outboxes.get m = some o)
    (h : updateOutboxState t o status updatedAt sentAt ackedAt error = .ok t') :
    ∃ outboxes, OutboxStep o (StoredWireOutbox.restate o status updatedAt sentAt ackedAt error) ∧
      t.outboxes.put (StoredWireOutbox.restate o status updatedAt sentAt ackedAt error)
        = some outboxes ∧ t' = { t with outboxes := outboxes } := by
  simp only [updateOutboxState, bind_ok, need_ok, exists_unit, pure_ok, sqlGuard_ok,
    Option.filter_eq_some_iff] at h
  obtain ⟨next, hnext, row, ⟨hrow, -⟩, hguard, outboxes, hput, rfl⟩ := h
  rw [Table.get_self hget] at hrow
  cases hrow
  rw [checkedIncrement_ok hnext] at hguard hput
  refine ⟨outboxes, ⟨rfl, ?_, ?_⟩, hput, rfl⟩
  · simp only [outboxMayChange, Bool.and_eq_true, decide_eq_true_eq] at hguard
    exact hguard.1.1.2
  · simp only [outboxMayChange, Bool.and_eq_true] at hguard
    exact hguard.2

theorem updateAttemptState_ok {status : CommandDeliveryAttemptStatus} {id : String}
    (hget : t.attempts.get id = some x)
    (h : updateAttemptState t x status updatedAt ackedAt error = .ok t') :
    ∃ attempts, AttemptStep x (StoredDeliveryAttempt.restate x status updatedAt ackedAt error) ∧
      t.attempts.put (StoredDeliveryAttempt.restate x status updatedAt ackedAt error)
        = some attempts ∧ t' = { t with attempts := attempts } := by
  simp only [updateAttemptState, bind_ok, need_ok, exists_unit, pure_ok, sqlGuard_ok,
    Option.filter_eq_some_iff] at h
  obtain ⟨next, hnext, row, ⟨hrow, -⟩, hguard, attempts, hput, rfl⟩ := h
  rw [Table.get_self hget] at hrow
  cases hrow
  rw [checkedIncrement_ok hnext] at hguard hput
  refine ⟨attempts, ⟨rfl, ?_⟩, hput, rfl⟩
  simp only [attemptMayChange, Bool.and_eq_true, decide_eq_true_eq] at hguard
  exact hguard.1.1.2

theorem outbox_write (hget : t.outboxes.get m = some o)
    (h : updateOutboxState t o status updatedAt sentAt ackedAt error = .ok t')
    (hmove : OutboxStep o (StoredWireOutbox.restate o status updatedAt sentAt ackedAt error) →
      Move l o (t.attempts.seek m)
        (StoredWireOutbox.restate o status updatedAt sentAt ackedAt error)
        (t.attempts.seek m)) :
    MessageWrite l t t' m o (t.attempts.seek m)
      (StoredWireOutbox.restate o status updatedAt sentAt ackedAt error)
      (t.attempts.seek m) := by
  obtain ⟨outboxes, hstep, hput, rfl⟩ := updateOutboxState_ok hget h
  exact ⟨hget, rfl, hmove hstep, .put hget hstep hput, .same rfl, rfl, rfl⟩

theorem attempt_write {status : CommandDeliveryAttemptStatus} (hget : t.outboxes.get m = some o)
    (hseek : t.attempts.seek m = some x)
    (h : updateAttemptState t x status updatedAt ackedAt error = .ok t')
    (hmove : AttemptStep x (StoredDeliveryAttempt.restate x status updatedAt ackedAt error) →
      Move l o (some x) o
        (some (StoredDeliveryAttempt.restate x status updatedAt ackedAt error))) :
    MessageWrite l t t' m o (some x) o
      (some (StoredDeliveryAttempt.restate x status updatedAt ackedAt error)) := by
  obtain ⟨attempts, hstep, hput, rfl⟩ := updateAttemptState_ok (Table.get_of_seek hseek) h
  exact ⟨hget, hseek, hmove hstep, .same hget, .put hseek hstep hput, rfl, rfl⟩

theorem pair_write {t₁ : DeliveryTables P} {status' : CommandDeliveryAttemptStatus}
    {updatedAt' : Int} {ackedAt' : Option Int} {error' : Option String}
    (hget : t.outboxes.get m = some o) (hseek : t.attempts.seek m = some x)
    (h₁ : updateOutboxState t o status updatedAt sentAt ackedAt error = .ok t₁)
    (h₂ : updateAttemptState t₁ x status' updatedAt' ackedAt' error' = .ok t')
    (hmove : OutboxStep o (StoredWireOutbox.restate o status updatedAt sentAt ackedAt error) →
      AttemptStep x (StoredDeliveryAttempt.restate x status' updatedAt' ackedAt' error') →
      Move l o (some x) (StoredWireOutbox.restate o status updatedAt sentAt ackedAt error)
        (some (StoredDeliveryAttempt.restate x status' updatedAt' ackedAt' error'))) :
    MessageWrite l t t' m o (some x)
      (StoredWireOutbox.restate o status updatedAt sentAt ackedAt error)
      (some (StoredDeliveryAttempt.restate x status' updatedAt' ackedAt' error')) := by
  obtain ⟨outboxes, hstep, hput, rfl⟩ := updateOutboxState_ok hget h₁
  have hseek₁ : ({ t with outboxes := outboxes } : DeliveryTables P).attempts.get x.attemptId
      = some x := Table.get_of_seek hseek
  obtain ⟨attempts, hstep', hput', rfl⟩ := updateAttemptState_ok hseek₁ h₂
  exact ⟨hget, hseek, hmove hstep hstep', .put hget hstep hput, .put hseek hstep' hput', rfl, rfl⟩

theorem updateActiveSession_writes (hl : l.sessions) {sessionId : SessionId} {revision : Nat}
    {change : StoredSessionRecord P → StoredSessionRecord P}
    (h : updateActiveSession t sessionId revision change = .ok t') : Writes l t t' := by
  simp only [updateActiveSession, bind_ok, need_ok, exists_unit, pure_ok, sqlGuard_ok,
    Option.filter_eq_some_iff] at h
  obtain ⟨row, ⟨hrow, -⟩, hguard, sessions, hput, rfl⟩ := h
  simp only [sessionMayChange, Bool.and_eq_true, beq_iff_eq, decide_eq_true_eq] at hguard
  have hself : t.sessions.get row.sessionId = some row := Table.get_self hrow
  refine .single (.session hl rfl rfl rfl fun id s hs => ?_)
  rw [Table.get_put hput hself]
  by_cases hid : row.sessionId = id
  · rw [if_pos hid]
    rw [← hid, hself] at hs
    cases hs
    exact ⟨_, rfl, .inr ⟨hguard.1.1.1.1, hguard.1.1.1.2⟩⟩
  · rw [if_neg hid]
    exact ⟨s, hs, .inl rfl⟩

end

/-! ## the readers -/

section
variable {P : Type} [DecidableEq P] {codec : WireCodec P} {t : DeliveryTables P}
  {a : StoredDeliveryAttempt P}

theorem readRow_ok {ρ : Type} {fromRow : ρ → StoreCheck ρ}
    (hself : ∀ x y, fromRow x = .ok y → y = x) {row found : Option ρ}
    (h : readRow fromRow row = .ok found) : found = row := by
  cases row with
  | none =>
    cases h
    rfl
  | some x =>
    simp only [readRow, bind_ok, pure_ok] at h
    obtain ⟨y, hy, rfl⟩ := h
    rw [hself x y hy]

theorem wireOutboxFromRow_self {o o' : StoredWireOutbox P}
    (h : wireOutboxFromRow codec o = .ok o') : o' = o := by
  simp only [wireOutboxFromRow, bind_ok, exists_unit, pure_ok] at h
  exact h.2.symm

theorem parseAndValidateAttempt_self {a' : StoredDeliveryAttempt P}
    (h : parseAndValidateAttempt codec t a = .ok a') : a' = a := by
  simp only [parseAndValidateAttempt, deliveryAttemptFromRow, bind_ok, exists_unit, pure_ok,
    reject_ok] at h
  obtain ⟨b, ⟨-, -, -, rfl⟩, -, rfl⟩ := h
  rfl

theorem sessionFromRow_self {s s' : StoredSessionRecord P} (h : sessionFromRow s = .ok s') :
    s' = s := by
  simp only [sessionFromRow, bind_ok, exists_unit, pure_ok, reject_ok] at h
  obtain ⟨-, -, -, rfl⟩ := h
  rfl

theorem fetchWireOutboxById_ok {m : MessageId} {found : Option (StoredWireOutbox P)}
    (h : fetchWireOutboxById codec t m = .ok found) : found = t.outboxes.get m :=
  readRow_ok (fun _ _ => wireOutboxFromRow_self) h

theorem requiredOutbox_ok {m : MessageId} {o : StoredWireOutbox P}
    (h : requiredOutbox codec t m = .ok o) : t.outboxes.get m = some o := by
  simp only [requiredOutbox, bind_ok, need_ok] at h
  obtain ⟨found, hfound, rfl⟩ := h
  exact (fetchWireOutboxById_ok hfound).symm

variable {found : Option (StoredDeliveryAttempt P)} {d : StoredOutboundDelivery P}

theorem fetchDeliveryAttemptByMessage_ok {m : MessageId}
    (h : fetchDeliveryAttemptByMessage codec t m = .ok found) : found = t.attempts.seek m :=
  readRow_ok (fun _ _ => parseAndValidateAttempt_self) h

theorem requiredAttemptByMessage_ok {m : MessageId} (h : requiredAttemptByMessage codec t m = .ok a) :
    t.attempts.seek m = some a := by
  simp only [requiredAttemptByMessage, bind_ok, need_ok] at h
  obtain ⟨found, hfound, rfl⟩ := h
  exact (fetchDeliveryAttemptByMessage_ok hfound).symm

theorem fetchDeliveryAttemptById_ok {id : String}
    (h : fetchDeliveryAttemptById codec t id = .ok found) : found = t.attempts.get id :=
  readRow_ok (fun _ _ => parseAndValidateAttempt_self) h

theorem requiredAttempt_ok {id : String} {missing : StoreError}
    (h : requiredAttempt codec t id missing = .ok a) : t.attempts.get id = some a := by
  simp only [requiredAttempt, bind_ok, need_ok] at h
  obtain ⟨found, hfound, rfl⟩ := h
  exact (fetchDeliveryAttemptById_ok hfound).symm

theorem requiredOutboundDelivery_ok {m : MessageId} (h : requiredOutboundDelivery codec t m = .ok d) :
    t.outboxes.get m = some d.outbox ∧ t.attempts.seek m = some d.attempt := by
  simp only [requiredOutboundDelivery, bind_ok, pure_ok] at h
  obtain ⟨o, ho, a, ha, rfl⟩ := h
  exact ⟨requiredOutbox_ok ho, requiredAttemptByMessage_ok ha⟩

theorem MessageWrite.delivery {l : Licence} {t' : DeliveryTables P} {m : MessageId}
    {o o' : StoredWireOutbox P} {a : Option (StoredDeliveryAttempt P)}
    {x' : StoredDeliveryAttempt P} (hwrite : MessageWrite l t t' m o a o' (some x'))
    (h : requiredOutboundDelivery codec t' m = .ok d) :
    d = ⟨o', x'⟩ := by
  obtain ⟨houtbox, hattempt⟩ := requiredOutboundDelivery_ok h
  rw [hwrite.outboxes, if_pos rfl] at houtbox
  rw [hwrite.attempts.seek, if_pos rfl] at hattempt
  rw [Option.some.inj houtbox, Option.some.inj hattempt]

theorem requiredSession_ok {id : SessionId} {s : StoredSessionRecord P}
    (h : requiredSession t id = .ok s) : t.sessions.get id = some s := by
  simp only [requiredSession, fetchSessionById, bind_ok, need_ok] at h
  obtain ⟨found, hfound, rfl⟩ := h
  exact (readRow_ok (fun _ _ => sessionFromRow_self) hfound).symm

end

end Sinan.Store
