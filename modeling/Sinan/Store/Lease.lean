import Sinan.Lib.Run
import Sinan.Store.Work
import Sinan.Store.Writes

/-!
# Leases fence late workers

Any number of workers call `claim`, `complete` and `retry`, each with its own clock; a call is atomic
and a failed one changes nothing.  The invariant of a run is about its past: a row that is being
processed was last changed by the claim that leased it.
-/

namespace Sinan.Store

open Lib

/-! ## message identities -/

theorem command_ne_request (c r : String) :
    "execution.command:" ++ c ≠ "reconciliation.request:" ++ r := by
  intro h
  have hlist := congrArg String.toList h
  rw [String.toList_append, String.toList_append,
    show "execution.command:".toList = 'e' :: "xecution.command:".toList from rfl,
    show "reconciliation.request:".toList = 'r' :: "econciliation.request:".toList from rfl] at hlist
  exact absurd (List.cons.inj hlist).1 (by decide)

theorem workId_inj {s s' : OutboundDeliveryWorkSubject} (h : workId s = workId s') : s = s' := by
  cases s with
  | executionCommand c =>
    cases s' with
    | executionCommand c' => exact congrArg _ ((String.append_right_inj _).mp h)
    | reconciliationRequest r => exact absurd h (command_ne_request c r)
  | reconciliationRequest r =>
    cases s' with
    | executionCommand c => exact absurd h.symm (command_ne_request c r)
    | reconciliationRequest r' => exact congrArg _ ((String.append_right_inj _).mp h)

theorem letter_notMem_natText (n : Nat) : 'v' ∉ n.repr.toList := fun hmem =>
  absurd (isDigit_of_mem_natText hmem) (by decide)

theorem messageId_inj {s s' : OutboundDeliveryWorkSubject} {g g' : Nat}
    (h : messageId s g = messageId s' g') : s = s' ∧ g = g' := by
  have hlist := congrArg String.toList h
  simp only [messageId, String.toList_append, List.append_assoc] at hlist
  have hlabel := List.append_cancel_left hlist
  have hshape : ∀ (w : List Char) (g : Nat),
      w ++ (":v".toList ++ g.repr.toList) = (w ++ [':']) ++ 'v' :: g.repr.toList := by
    intro w g
    rw [List.append_assoc]
    rfl
  rw [hshape, hshape] at hlabel
  obtain ⟨hwork, hdigits⟩ :=
    split_last_inj (letter_notMem_natText g) (letter_notMem_natText g') hlabel
  have hid : workId s = workId s' := String.toList_inj.mp (List.append_cancel_right hwork)
  exact ⟨workId_inj hid, natText_inj (String.toList_inj.mp hdigits)⟩

/-! ## what a call does to its row -/

/-- only the row of this work item differs -/
def WorksAfter (works works' : WorkTable) (work : StoredOutboundDeliveryWork) : Prop :=
  ∀ id, works'.get id = if work.workId = id then some work else works.get id

variable {id : String}

theorem requiredWork_ok {works : WorkTable} {work : StoredOutboundDeliveryWork}
    (h : requiredWork works id = .ok work) :
    works.get id = some work ∧ work.messageId = messageId work.subject work.generation := by
  simp only [requiredWork, fetchWork, bind_ok, need_ok] at h
  obtain ⟨found, hfound, rfl⟩ := h
  cases hget : works.get id with
  | none =>
    rw [hget] at hfound
    cases hfound
  | some row =>
    rw [hget] at hfound
    simp only [readRow, workFromRow, validateWorkMessageId, bind_ok, exists_unit, reject_ok,
      pure_ok, Option.some.injEq, not_not] at hfound
    obtain ⟨_, ⟨hmessage, rfl⟩, rfl⟩ := hfound
    exact ⟨rfl, hmessage⟩

theorem updateWork_ok {works works' : WorkTable} {fits : StoredOutboundDeliveryWork → Bool}
    {change : StoredOutboundDeliveryWork → StoredOutboundDeliveryWork}
    (h : updateWork works id fits change = .ok works') :
    ∃ row, works.get id = some row ∧ fits row = true ∧
      workMayChange row { change row with workId := row.workId, subject := row.subject } = true ∧
      WorksAfter works works' { change row with workId := row.workId, subject := row.subject } := by
  simp only [updateWork, bind_ok, need_ok, exists_unit, sqlGuard_ok,
    Option.filter_eq_some_iff] at h
  obtain ⟨row, ⟨hrow, hfits⟩, hmay, hput⟩ := h
  have hself := Table.get_self hrow
  refine ⟨row, hrow, hfits, hmay, fun k => ?_⟩
  exact Table.get_put hput hself k

theorem workMayChange_dated {old new : StoredOutboundDeliveryWork}
    (h : workMayChange old new = true) : new.createdAt ≤ new.updatedAt := by
  simp only [workMayChange, workCheck, Bool.and_eq_true, decide_eq_true_eq] at h
  exact h.2.1.2

/-- a claim: the due row, or the first row of its subject, is leased to the worker -/
structure Leased (works works' : WorkTable) (claim : ClaimOutboundDeliveryWork)
    (current work : StoredOutboundDeliveryWork) : Prop where
  source : works.get work.workId = some current ∨
    (works.get work.workId = none ∧ current = newWork work.subject claim.claimedAt)
  due : workDue claim.claimedAt current = true
  row : work = { current with
    status := .processing, deliveryAttempts := current.deliveryAttempts + 1, nextAttemptAt := none,
    leaseOwner := some claim.workerId, leaseExpiresAt := some claim.leaseExpiresAt,
    revision := current.revision + 1, updatedAt := claim.claimedAt }
  after : WorksAfter works works' work
  message : work.messageId = messageId work.subject work.generation
  dated : work.createdAt ≤ claim.claimedAt

variable {current : StoredOutboundDeliveryWork} {subject : OutboundDeliveryWorkSubject}
  {claim : ClaimOutboundDeliveryWork}

theorem ensureWork_ok {works works' : WorkTable} {claimedAt : Int}
    {existing : Option StoredOutboundDeliveryWork}
    (h : ensureWork works subject claimedAt existing = .ok works')
    (hget : works'.get (workId subject) = some current) :
    (works.get (workId subject) = some current ∨
      (works.get (workId subject) = none ∧ current = newWork subject claimedAt)) ∧
    ∀ k, k ≠ workId subject → works'.get k = works.get k := by
  unfold ensureWork at h
  split at h
  · cases h
    exact ⟨.inl hget, fun _ _ => rfl⟩
  · simp only [bind_ok, exists_unit, need_ok] at h
    obtain ⟨-, hinsert⟩ := h
    have hnew : (newWork subject claimedAt).workId = workId subject := rfl
    have hfresh := Table.insert_fresh hinsert
    rw [Table.get_insert hinsert, if_pos hnew] at hget
    refine ⟨.inr ⟨hfresh, (Option.some.inj hget).symm⟩, fun k hk => ?_⟩
    rw [Table.get_insert hinsert, if_neg fun heq => hk (heq.symm.trans hnew)]

theorem claimSubject_ok {works works' : WorkTable} {work : StoredOutboundDeliveryWork}
    (h : claimSubject works claim subject = .ok (work, works')) :
    ∃ current, Leased works works' claim current work ∧ work.workId = workId subject := by
  simp only [claimSubject, bind_ok, pure_ok, Prod.mk.injEq] at h
  obtain ⟨existing, hexisting, w₁, hensure, current, hcurrent, w₂, hlease, work', hwork, rfl, rfl⟩ :=
    h
  simp only [leaseWork, bind_ok] at hlease
  obtain ⟨nextRevision, hrevision, nextAttempts, hattempts, hupdate⟩ := hlease
  obtain ⟨hget₁, -⟩ := requiredWork_ok hcurrent
  have hid : current.workId = workId subject := by
    have hkey := Table.key_of_get hget₁
    exact hkey
  obtain ⟨row, hrow, hfits, hmay, hafter⟩ := updateWork_ok hupdate
  rw [hid, hget₁] at hrow
  cases hrow
  have hdated := workMayChange_dated hmay
  rw [Bool.and_eq_true] at hfits
  obtain ⟨hget₂, hmessage⟩ := requiredWork_ok hwork
  rw [hafter, if_pos hid] at hget₂
  cases hget₂
  rw [checkedIncrement_ok hrevision, checkedIncrement_ok hattempts] at hafter ⊢
  obtain ⟨hsource, hother⟩ := ensureWork_ok hensure hget₁
  refine ⟨current, ⟨?_, hfits.2, rfl, fun k => ?_, ?_, hdated⟩, hid⟩
  · have hwork : ∀ w : StoredOutboundDeliveryWork, w.workId = current.workId →
        w.subject = current.subject →
        works.get w.workId = some current ∨
          (works.get w.workId = none ∧ current = newWork w.subject claim.claimedAt) := by
      intro w hw hs
      rw [hw, hid, hs]
      rcases hsource with hsource | ⟨hnone, hnew⟩
      · exact .inl hsource
      · exact .inr ⟨hnone, by rw [hnew]; rfl⟩
    exact hwork _ rfl rfl
  · rw [hafter k]
    split
    · rfl
    · rename_i hne
      exact hother k fun heq => hne (hid.trans heq.symm)
  · rw [checkedIncrement_ok hrevision, checkedIncrement_ok hattempts] at hmessage
    exact hmessage

theorem claimNextOutboundDelivery_ok {works works' : WorkTable} {subjects : UnscheduledSubjects}
    {load : OutboundDeliveryWorkSubject → StoreCheck Unit}
    {claimed : Option StoredOutboundDeliveryWork}
    (h : claimNextOutboundDelivery works subjects load claim = .ok (claimed, works')) :
    (claimed = none ∧ works' = works) ∨
      ∃ current work, claimed = some work ∧ Leased works works' claim current work := by
  simp only [claimNextOutboundDelivery, bind_ok, exists_unit] at h
  obtain ⟨-, h⟩ := h
  split at h
  · simp only [pure_ok, Prod.mk.injEq] at h
    exact .inl ⟨h.1.symm, h.2.symm⟩
  · simp only [bind_ok, exists_unit, pure_ok, Prod.mk.injEq] at h
    obtain ⟨⟨work, w₁⟩, hclaim, -, rfl, rfl⟩ := h
    obtain ⟨current, hleased, -⟩ := claimSubject_ok hclaim
    exact .inr ⟨current, work, rfl, hleased⟩

/-- the part of a completion or a retry that is checked against the lease -/
structure WorkFinish where
  workId : String
  expectedRevision : Nat
  workerId : String
  finishedAt : Int

/-- a completion or a retry: the row is the one the caller holds -/
structure Finished (works works' : WorkTable) (finish : WorkFinish)
    (current work : StoredOutboundDeliveryWork) : Prop where
  source : works.get finish.workId = some current
  owned : ownedRow finish.expectedRevision finish.workerId finish.finishedAt current = true
  workId : work.workId = finish.workId
  subject : work.subject = current.subject
  revision : work.revision = current.revision + 1
  after : WorksAfter works works' work
  message : work.messageId = messageId work.subject work.generation
  createdAt : work.createdAt = current.createdAt

theorem validateOwnedWork_ok {works : WorkTable} {workerId : String} {revision : Nat}
    {finishedAt : Int} (h : validateOwnedWork works id revision workerId finishedAt = .ok current) :
    works.get id = some current ∧ current.updatedAt ≤ finishedAt := by
  simp only [validateOwnedWork, bind_ok, exists_unit, reject_ok, pure_ok, not_or, not_lt] at h
  obtain ⟨-, w, hw, hguard, rfl⟩ := h
  exact ⟨(requiredWork_ok hw).1, hguard.2.2.2.1⟩

def CompleteOutboundDeliveryWork.finish (c : CompleteOutboundDeliveryWork) : WorkFinish :=
  ⟨c.workId, c.expectedRevision, c.workerId, c.completedAt⟩

def RetryOutboundDeliveryWork.finish (r : RetryOutboundDeliveryWork) : WorkFinish :=
  ⟨r.workId, r.expectedRevision, r.workerId, r.failedAt⟩

theorem completeOutboundDeliveryWork_ok {works works' : WorkTable}
    {c : CompleteOutboundDeliveryWork} {work : StoredOutboundDeliveryWork}
    (h : completeOutboundDeliveryWork works c = .ok (work, works')) :
    ∃ current, Finished works works' c.finish current work ∧ work.status = .delivered ∧
      work.generation = current.generation ∧ work.lastOutcome = some c.outcome ∧
      current.updatedAt ≤ c.completedAt := by
  simp only [completeOutboundDeliveryWork, bind_ok, exists_unit, pure_ok, Prod.mk.injEq] at h
  obtain ⟨-, -, current, hcurrent, nextRevision, hrevision, w₁, hupdate, work', hwork, rfl, rfl⟩ := h
  obtain ⟨hget, htime⟩ := validateOwnedWork_ok hcurrent
  obtain ⟨row, hrow, hfits, -, hafter⟩ := updateWork_ok hupdate
  rw [hget] at hrow
  cases hrow
  have hid : current.workId = c.workId := by
    have hkey := Table.key_of_get hget
    exact hkey
  obtain ⟨hget₂, hmessage⟩ := requiredWork_ok hwork
  rw [hafter, if_pos hid] at hget₂
  cases hget₂
  exact ⟨current, ⟨hget, hfits, hid, rfl, checkedIncrement_ok hrevision, hafter, hmessage, rfl⟩, rfl, rfl,
    rfl, htime⟩

theorem nextGeneration_ok {advance : Bool} {g : Nat} (h : nextGeneration advance current = .ok g) :
    g = current.generation + if advance then 1 else 0 := by
  cases advance with
  | true => exact checkedIncrement_ok h
  | false =>
    cases h
    rfl

theorem retryOutboundDeliveryWork_ok {works works' : WorkTable} {r : RetryOutboundDeliveryWork}
    {work : StoredOutboundDeliveryWork}
    (h : retryOutboundDeliveryWork works r = .ok (work, works')) :
    ∃ current, Finished works works' r.finish current work ∧ work.status = .pending ∧
      work.generation = current.generation + (if r.advanceGeneration then 1 else 0) ∧
      work.createdAt = current.createdAt := by
  simp only [retryOutboundDeliveryWork, bind_ok, exists_unit, pure_ok, Prod.mk.injEq] at h
  obtain ⟨-, -, current, hcurrent, nextRevision, hrevision, g, hg, w₁, hupdate, work', hwork, rfl,
    rfl⟩ := h
  obtain ⟨hget, -⟩ := validateOwnedWork_ok hcurrent
  obtain ⟨row, hrow, hfits, -, hafter⟩ := updateWork_ok hupdate
  rw [hget] at hrow
  cases hrow
  have hid : current.workId = r.workId := by
    have hkey := Table.key_of_get hget
    exact hkey
  obtain ⟨hget₂, hmessage⟩ := requiredWork_ok hwork
  rw [hafter, if_pos hid] at hget₂
  cases hget₂
  exact ⟨current, ⟨hget, hfits, hid, rfl, checkedIncrement_ok hrevision, hafter, hmessage, rfl⟩, rfl,
    nextGeneration_ok hg, rfl⟩

/-! ## runs -/

/-- a call of a worker; a claim comes with what it finds in the other tables -/
inductive WorkCall where
  | claim (subjects : UnscheduledSubjects) (load : OutboundDeliveryWorkSubject → StoreCheck Unit)
      (claim : ClaimOutboundDeliveryWork)
  | complete (completion : CompleteOutboundDeliveryWork)
  | retry (retry : RetryOutboundDeliveryWork)

/-- the row the call changed, and the table it leaves -/
def runWork (works : WorkTable) :
    WorkCall → StoreCheck (Option StoredOutboundDeliveryWork × WorkTable)
  | .claim subjects load claim => claimNextOutboundDelivery works subjects load claim
  | .complete completion => do
    let done ← completeOutboundDeliveryWork works completion
    return (some done.1, done.2)
  | .retry retry => do
    let done ← retryOutboundDeliveryWork works retry
    return (some done.1, done.2)

def workStep (works : WorkTable) (call : WorkCall) : WorkTable :=
  match runWork works call with
  | .ok (_, works') => works'
  | .error _ => works

/-- the row a successful call changed -/
def changedRow (works : WorkTable) (call : WorkCall) : Option StoredOutboundDeliveryWork :=
  match runWork works call with
  | .ok (row, _) => row
  | .error _ => none

def WorkCall.finish : WorkCall → Option WorkFinish
  | .claim _ _ _ => none
  | .complete c => some c.finish
  | .retry r => some r.finish

/-- the call asks for a new generation -/
def WorkCall.advances : WorkCall → Bool
  | .retry r => r.advanceGeneration
  | _ => false

/-- a successful call is a claim that leased the row or the end of the lease it holds -/
inductive Change (works works' : WorkTable) (work : StoredOutboundDeliveryWork) : WorkCall → Prop
  | leased {subjects : UnscheduledSubjects}
      {load : OutboundDeliveryWorkSubject → StoreCheck Unit} {claim : ClaimOutboundDeliveryWork}
      {current : StoredOutboundDeliveryWork} (h : Leased works works' claim current work) :
      Change works works' work (.claim subjects load claim)
  | finished {call : WorkCall} {finish : WorkFinish} {current : StoredOutboundDeliveryWork}
      (hfinish : call.finish = some finish) (h : Finished works works' finish current work)
      (hstatus : work.status ≠ .processing)
      (hgeneration : work.generation = current.generation + if call.advances then 1 else 0) :
      Change works works' work call

theorem runWork_ok {works works' : WorkTable} {call : WorkCall}
    {row : Option StoredOutboundDeliveryWork} (h : runWork works call = .ok (row, works')) :
    (row = none ∧ works' = works) ∨ ∃ work, row = some work ∧ Change works works' work call := by
  cases call with
  | claim subjects load claim =>
    rcases claimNextOutboundDelivery_ok h with hnone | ⟨current, work, rfl, hleased⟩
    · exact .inl hnone
    · exact .inr ⟨work, rfl, .leased hleased⟩
  | complete completion =>
    simp only [runWork, bind_ok, pure_ok, Prod.mk.injEq] at h
    obtain ⟨⟨work, w₁⟩, hcomplete, rfl, rfl⟩ := h
    obtain ⟨current, hfinished, hstatus, hgeneration, -⟩ :=
      completeOutboundDeliveryWork_ok hcomplete
    exact .inr ⟨work, rfl, .finished rfl hfinished (by rw [hstatus]; decide) hgeneration⟩
  | retry retry =>
    simp only [runWork, bind_ok, pure_ok, Prod.mk.injEq] at h
    obtain ⟨⟨work, w₁⟩, hretry, rfl, rfl⟩ := h
    obtain ⟨current, hfinished, hstatus, hgeneration, -⟩ := retryOutboundDeliveryWork_ok hretry
    exact .inr ⟨work, rfl, .finished rfl hfinished (by rw [hstatus]; decide) hgeneration⟩

theorem changedRow_none {works : WorkTable} {call : WorkCall} (h : changedRow works call = none) :
    workStep works call = works := by
  unfold changedRow at h
  unfold workStep
  split at h
  · rename_i row works' hrun
    rcases runWork_ok hrun with ⟨-, hsame⟩ | ⟨work, hwork, -⟩
    · exact hsame
    · rw [h] at hwork
      cases hwork
  · rfl

theorem changedRow_some {works : WorkTable} {call : WorkCall} {work : StoredOutboundDeliveryWork}
    (h : changedRow works call = some work) : Change works (workStep works call) work call := by
  unfold changedRow at h
  unfold workStep
  split at h
  · rename_i row works' hrun
    rcases runWork_ok hrun with ⟨hnone, -⟩ | ⟨work', hwork, hchange⟩
    · rw [h] at hnone
      cases hnone
    · rw [h] at hwork
      cases hwork
      exact hchange
  · cases h

section
variable {works works' : WorkTable} {work : StoredOutboundDeliveryWork} {call : WorkCall}

theorem Change.after (h : Change works works' work call) : WorksAfter works works' work := by
  cases h with
  | leased h => exact h.after
  | finished _ h => exact h.after

theorem Change.message (h : Change works works' work call) :
    work.messageId = messageId work.subject work.generation := by
  cases h with
  | leased h => exact h.message
  | finished _ h => exact h.message

theorem ownedRow_ok {revision : Nat} {workerId : String} {finishedAt : Int}
    {row : StoredOutboundDeliveryWork} (h : ownedRow revision workerId finishedAt row = true) :
    row.status = .processing ∧ row.revision = revision ∧ row.leaseOwner = some workerId ∧
      ∃ lease, row.leaseExpiresAt = some lease ∧ finishedAt < lease := by
  simp only [ownedRow, Bool.and_eq_true, beq_iff_eq, Option.any_eq_true, decide_eq_true_eq] at h
  obtain ⟨⟨⟨hstatus, hrevision⟩, howner⟩, hlease⟩ := h
  exact ⟨hstatus, hrevision, howner, hlease⟩

theorem workDue_not_delivered {claimedAt : Int} (h : workDue claimedAt work = true) :
    work.status ≠ .delivered := by
  intro hdelivered
  rw [workDue, hdelivered] at h
  simp at h

/-- the row before a change: it was open, and its revision and generation moved as they may -/
structure Raised (old work : StoredOutboundDeliveryWork) (advances : Bool) : Prop where
  open_ : old.status ≠ .delivered
  subject : work.subject = old.subject
  revision : work.revision = old.revision + 1
  generation : work.generation = old.generation + if advances then 1 else 0

theorem Change.raised (h : Change works works' work call) {old : StoredOutboundDeliveryWork}
    (hold : works.get work.workId = some old) : Raised old work call.advances := by
  cases h with
  | leased h =>
    rcases h.source with hsource | ⟨hnone, -⟩
    · rw [hold] at hsource
      cases hsource
      refine ⟨workDue_not_delivered h.due, by rw [h.row], by rw [h.row], ?_⟩
      rw [h.row]
      rfl
    · rw [hold] at hnone
      cases hnone
  | finished hfinish h hstatus hgeneration =>
    have hsource := h.source
    rw [← h.workId, hold] at hsource
    cases hsource
    refine ⟨?_, h.subject, h.revision, hgeneration⟩
    rw [(ownedRow_ok h.owned).1]
    decide

theorem Change.fresh (h : Change works works' work call) (hnone : works.get work.workId = none) :
    call.finish = none ∧ work.revision = 1 ∧ work.generation = 1 ∧
      work.workId = workId work.subject := by
  cases h with
  | leased h =>
    rcases h.source with hsource | ⟨-, hnew⟩
    · rw [hnone] at hsource
      cases hsource
    · refine ⟨rfl, ?_, ?_, ?_⟩ <;> rw [h.row, hnew] <;> rfl
  | finished hfinish h =>
    have hsource := h.source
    rw [← h.workId, hnone] at hsource
    cases hsource

end

/-! ## the invariant of a run -/

/-- every row carries the identities derived from its subject and generation -/
def WellNamed (works : WorkTable) : Prop :=
  ∀ id work, works.get id = some work →
    id = workId work.subject ∧ work.messageId = messageId work.subject work.generation

theorem Leased.wellNamed {works works' : WorkTable} {work : StoredOutboundDeliveryWork}
    (h : Leased works works' claim current work) (hnamed : WellNamed works) :
    work.workId = workId work.subject ∧ WellNamed works' := by
  have hid : work.workId = workId work.subject := by
    rcases h.source with hget | ⟨-, hnew⟩
    · have hold := (hnamed _ _ hget).1
      rw [h.row] at hold ⊢
      exact hold
    · rw [h.row, hnew]
      rfl
  refine ⟨hid, fun id row hrow => ?_⟩
  rw [h.after] at hrow
  split at hrow
  · rename_i heq
    cases hrow
    exact ⟨heq.symm.trans hid, h.message⟩
  · exact hnamed id row hrow

theorem Finished.wellNamed {works works' : WorkTable} {finish : WorkFinish}
    {work : StoredOutboundDeliveryWork} (h : Finished works works' finish current work)
    (hnamed : WellNamed works) : WellNamed works' := by
  intro id row hrow
  rw [h.after] at hrow
  split at hrow
  · rename_i heq
    cases hrow
    refine ⟨?_, h.message⟩
    rw [← heq, h.workId, h.subject]
    exact (hnamed _ _ h.source).1
  · exact hnamed id row hrow

theorem WellNamed.step {works : WorkTable} (h : WellNamed works) (call : WorkCall) :
    WellNamed (workStep works call) := by
  cases hrow : changedRow works call with
  | none =>
    rw [changedRow_none hrow]
    exact h
  | some work =>
    have hchange := changedRow_some hrow
    intro id w hw
    rw [hchange.after] at hw
    split at hw
    · rename_i hid
      cases hw
      refine ⟨?_, hchange.message⟩
      cases hold : works.get work.workId with
      | none => exact hid.symm.trans (hchange.fresh hold).2.2.2
      | some old => rw [← hid, (h _ _ hold).1, (hchange.raised hold).subject]
    · exact h id w hw

variable (calls : List WorkCall)

/-- the table in front of the `k`-th call of a run that starts with no rows -/
def worksAt (k : Nat) : WorkTable := before workStep .empty calls k

/-- the `k`-th call succeeded and changed a row to `work` -/
def ChangesAt (k : Nat) (call : WorkCall) (work : StoredOutboundDeliveryWork) : Prop :=
  calls[k]? = some call ∧ changedRow (worksAt calls k) call = some work

/-- no call between `i` and `k` changed the row -/
def Untouched (i k : Nat) (id : String) : Prop :=
  ∀ j, i < j → j < k → ∀ call work, ChangesAt calls j call work → work.workId ≠ id

/-- the claim that leased the row, with nothing after it up to `k` -/
def LeasedAt (i k : Nat) (claim : ClaimOutboundDeliveryWork) (row : StoredOutboundDeliveryWork) :
    Prop :=
  i < k ∧ (∃ subjects load, ChangesAt calls i (.claim subjects load claim) row) ∧
  row.leaseOwner = some claim.workerId ∧ row.leaseExpiresAt = some claim.leaseExpiresAt ∧
  Untouched calls i k row.workId

theorem worksAt_wellNamed (k : Nat) : WellNamed (worksAt calls k) :=
  before_invariant workStep .empty calls (fun _ _ h => by cases h) (fun _ call h => h.step call) k

variable {k : Nat} {row : StoredOutboundDeliveryWork}

theorem worksAt_succ_some {call : WorkCall} (h : calls[k]? = some call) :
    worksAt calls (k + 1) = workStep (worksAt calls k) call :=
  before_succ workStep .empty h

theorem worksAt_succ_none (h : calls[k]? = none) :
    worksAt calls (k + 1) = worksAt calls k :=
  before_past workStep .empty h

theorem ChangesAt.change {call : WorkCall} {work : StoredOutboundDeliveryWork}
    (h : ChangesAt calls k call work) :
    Change (worksAt calls k) (worksAt calls (k + 1)) work call := by
  rw [worksAt_succ_some calls h.1]
  exact changedRow_some h.2

theorem worksAt_succ_cases (h : (worksAt calls (k + 1)).get id = some row) :
    (∃ call, ChangesAt calls k call row ∧ row.workId = id) ∨
      ((worksAt calls k).get id = some row ∧
        ∀ call work, ChangesAt calls k call work → work.workId ≠ id) := by
  cases hcall : calls[k]? with
  | none =>
    rw [worksAt_succ_none calls hcall] at h
    refine .inr ⟨h, fun call work hchanges => ?_⟩
    rw [hchanges.1] at hcall
    cases hcall
  | some call =>
    rw [worksAt_succ_some calls hcall] at h
    cases hrow : changedRow (worksAt calls k) call with
    | none =>
      rw [changedRow_none hrow] at h
      refine .inr ⟨h, fun call' work hchanges => ?_⟩
      obtain ⟨hcall', hchanged⟩ := hchanges
      rw [hcall] at hcall'
      cases hcall'
      rw [hrow] at hchanged
      cases hchanged
    | some work =>
      rw [(changedRow_some hrow).after] at h
      split at h
      · rename_i hid
        cases h
        exact .inl ⟨call, ⟨hcall, hrow⟩, hid⟩
      · rename_i hid
        refine .inr ⟨h, fun call' work' hchanges => ?_⟩
        obtain ⟨hcall', hchanged⟩ := hchanges
        rw [hcall] at hcall'
        cases hcall'
        rw [hrow] at hchanged
        cases hchanged
        exact hid

theorem key_of_worksAt (h : (worksAt calls k).get id = some row) : row.workId = id := by
  have hkey := Table.key_of_get h
  exact hkey

theorem processing_leasedAt (k : Nat) (hget : (worksAt calls k).get id = some row)
    (hstatus : row.status = .processing) :
    ∃ i claim, LeasedAt calls i k claim row := by
  induction k with
  | zero => cases hget
  | succ k ih =>
    rcases worksAt_succ_cases calls hget with ⟨call, hchanges, hid⟩ | ⟨hbefore, huntouched⟩
    · cases hchanges.change with
      | @leased subjects load claim current h =>
        refine ⟨k, claim, Nat.lt_succ_self k, ⟨subjects, load, hchanges⟩, ?_, ?_, ?_⟩
        · rw [h.row]
        · rw [h.row]
        · intro j hj hjk
          omega
      | finished _ _ hopen => exact absurd hstatus hopen
    · obtain ⟨i, claim, hik, hclaim, howner, hlease, hbetween⟩ := ih hbefore
      refine ⟨i, claim, Nat.lt_succ_of_lt hik, hclaim, howner, hlease, fun j hj hjk => ?_⟩
      rcases Nat.lt_or_eq_of_le (Nat.le_of_lt_succ hjk) with hlt | rfl
      · exact hbetween j hj hlt
      · intro call work hchanges
        rw [key_of_worksAt calls hbefore]
        exact huntouched call work hchanges

/-- **Lease fencing of outbound work**, over every run of claims, completions and retries that starts
with no rows. -/
structure LeaseFencing : Prop where
  /-- a completion or retry that succeeds is made under the unexpired lease of the last claim of its
  row, by that worker and with the revision that claim returned -/
  fenced : ∀ k call work finish, ChangesAt calls k call work → call.finish = some finish →
    ∃ i claim row, LeasedAt calls i k claim row ∧ row.workId = finish.workId ∧
      claim.workerId = finish.workerId ∧ row.revision = finish.expectedRevision ∧
      finish.finishedAt < claim.leaseExpiresAt
  /-- two of them have a claim of the row in between -/
  once : ∀ j k call call' work work', j < k → ChangesAt calls j call work →
    ChangesAt calls k call' work' → call.finish.isSome → call'.finish.isSome →
    work.workId = work'.workId →
    ∃ i, j < i ∧ i < k ∧ ∃ subjects load claim row,
      ChangesAt calls i (.claim subjects load claim) row ∧ row.workId = work.workId
  /-- a delivered row stays as it is -/
  delivered : ∀ i k id row, i ≤ k → (worksAt calls i).get id = some row →
    row.status = .delivered → (worksAt calls k).get id = some row
  /-- a successful call raises the revision of its row and changes no other row -/
  revision : ∀ k call work, ChangesAt calls k call work →
    WorksAfter (worksAt calls k) (worksAt calls (k + 1)) work ∧
    ∀ old, (worksAt calls k).get work.workId = some old → old.revision < work.revision
  /-- the generation starts at one and is raised, by one, exactly by a retry that asks for it -/
  generation : ∀ k call work, ChangesAt calls k call work →
    ((worksAt calls k).get work.workId = none → work.generation = 1) ∧
    ∀ old, (worksAt calls k).get work.workId = some old →
      work.generation = old.generation + if call.advances then 1 else 0
  /-- the message id is the one of the subject and the generation -/
  message : ∀ k id row, (worksAt calls k).get id = some row →
    id = workId row.subject ∧ row.messageId = messageId row.subject row.generation
  /-- and it determines both -/
  distinct : ∀ s s' g g', messageId s g = messageId s' g' → s = s' ∧ g = g'

theorem fenced_finish {call : WorkCall} {work : StoredOutboundDeliveryWork} {finish : WorkFinish}
    (h : ChangesAt calls k call work) (hfinish : call.finish = some finish) :
    work.workId = finish.workId ∧
    ∃ i claim row, LeasedAt calls i k claim row ∧ row.workId = finish.workId ∧
      claim.workerId = finish.workerId ∧ row.revision = finish.expectedRevision ∧
      finish.finishedAt < claim.leaseExpiresAt := by
  cases h.change with
  | leased => cases hfinish
  | @finished _ finish' current hfinish' hfinished =>
    rw [hfinish] at hfinish'
    cases hfinish'
    refine ⟨hfinished.workId, ?_⟩
    obtain ⟨hstatus, hrevision, howner, lease, hlease, hlt⟩ := ownedRow_ok hfinished.owned
    obtain ⟨i, claim, hleased⟩ := processing_leasedAt calls k hfinished.source hstatus
    have hworker := Option.some.inj (hleased.2.2.1.symm.trans howner)
    have hexpiry := Option.some.inj (hleased.2.2.2.1.symm.trans hlease)
    refine ⟨i, claim, current, hleased, key_of_worksAt calls hfinished.source, hworker, hrevision, ?_⟩
    rw [hexpiry]
    exact hlt

theorem delivered_stays {i : Nat} (hik : i ≤ k) (hget : (worksAt calls i).get id = some row)
    (hdelivered : row.status = .delivered) :
    (worksAt calls k).get id = some row := by
  induction k with
  | zero =>
    rw [Nat.le_zero.mp hik] at hget
    exact hget
  | succ k ih =>
    rcases Nat.lt_or_eq_of_le hik with hlt | rfl
    · have hbefore := ih (Nat.le_of_lt_succ hlt)
      cases hcall : calls[k]? with
      | none =>
        rw [worksAt_succ_none calls hcall]
        exact hbefore
      | some call =>
        rw [worksAt_succ_some calls hcall]
        cases hrow : changedRow (worksAt calls k) call with
        | none =>
          rw [changedRow_none hrow]
          exact hbefore
        | some work =>
          have hchange := changedRow_some hrow
          rw [hchange.after, if_neg]
          · exact hbefore
          · intro hid
            subst hid
            exact (hchange.raised hbefore).open_ hdelivered
    · exact hget

theorem lease_fencing : LeaseFencing calls where
  fenced := fun k call work finish hchanges hfinish => (fenced_finish calls hchanges hfinish).2
  once := by
    intro j k call call' work work' hjk hchanges hchanges' hfinish hfinish' hsame
    obtain ⟨f, hf⟩ := Option.isSome_iff_exists.mp hfinish
    obtain ⟨f', hf'⟩ := Option.isSome_iff_exists.mp hfinish'
    obtain ⟨hid, -⟩ := fenced_finish calls hchanges hf
    obtain ⟨hid', i, claim, row, hleased, hrow, -⟩ := fenced_finish calls hchanges' hf'
    obtain ⟨hik, ⟨subjects, load, hclaim⟩, -, -, huntouched⟩ := hleased
    have hwork : row.workId = work.workId := hrow.trans (hid'.symm.trans hsame.symm)
    refine ⟨i, ?_, hik, subjects, load, claim, row, hclaim, hwork⟩
    -- the claim is the last change before `k`, so it does not come before the call at `j`
    rcases Nat.lt_trichotomy i j with hlt | rfl | hgt
    · exact absurd hwork.symm (huntouched j hlt hjk call work hchanges)
    · have hboth := hclaim.1.symm.trans hchanges.1
      cases hboth
      cases hf
    · exact hgt
  delivered := fun i k id row hik hget hdelivered => delivered_stays calls hik hget hdelivered
  revision := fun k call work hchanges => by
    refine ⟨hchanges.change.after, fun old hold => ?_⟩
    have hrevision := (hchanges.change.raised hold).revision
    omega
  generation := fun k call work hchanges =>
    ⟨fun hnone => (hchanges.change.fresh hnone).2.2.1,
      fun old hold => (hchanges.change.raised hold).generation⟩
  message := fun k id row hget => worksAt_wellNamed calls k id row hget
  distinct := fun _ _ _ _ h => messageId_inj h

/-- a worker that reports after its lease was claimed again is refused, the new one is not -/
example :
    let lateRun : List WorkCall :=
      [.claim ⟨[("c1", 5)], []⟩ (fun _ => .ok ()) ⟨"w1", 10, 20⟩,
        .claim ⟨[], []⟩ (fun _ => .ok ()) ⟨"w2", 20, 40⟩,
        .complete ⟨"execution.command:c1", 1, "w1", 21, .sent, none⟩,
        .complete ⟨"execution.command:c1", 2, "w2", 22, .sent, none⟩]
    ((worksAt lateRun 3).get "execution.command:c1").map (fun w => (w.status, w.revision))
        = some (.processing, 2) ∧
      ((worksAt lateRun 4).get "execution.command:c1").map (fun w => (w.status, w.revision))
        = some (.delivered, 3) := by
  decide +kernel

end Sinan.Store
