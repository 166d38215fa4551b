import Sinan.Core.Outbound
import Sinan.Execution.Lifecycle
import Sinan.Store.Lease

/-!
# What a finish does

`finishDelivery` inverted once: a successful finish either schedules a retry and leaves the states, or
completes the work, and then `WorkEnd` says for which reason and what became of the state of the
command.  Everything about runs of the processor is proved from these two.
-/

set_option linter.unusedSectionVars false

namespace Sinan.Core

open Lib Execution Store

section
variable {P F R : Type} [DecidableEq P] [DecidableEq F] [F64 F]

/-! ## errors of the layers below -/

theorem ofStore_ok {α : Type} {r : StoreCheck α} {a : α} : ofStore r = .ok a ↔ r = .ok a := by
  cases r with
  | ok b => exact ⟨fun h => by cases h; rfl, fun h => by cases h; rfl⟩
  | error e => exact ⟨fun h => (nomatch h), fun h => (nomatch h)⟩

theorem ofCommand_ok {α : Type} {r : CommandCheck α} {a : α} : ofCommand r = .ok a ↔ r = .ok a := by
  cases r with
  | ok b => exact ⟨fun h => by cases h; rfl, fun h => by cases h; rfl⟩
  | error e => exact ⟨fun h => (nomatch h), fun h => (nomatch h)⟩

theorem map_ok {ε α β : Type} {f : α → β} {x : Except ε α} {b : β} :
    x.map f = .ok b ↔ ∃ a, x = .ok a ∧ f a = b := by
  cases x with
  | error e => exact ⟨fun h => (nomatch h), fun ⟨_, h, _⟩ => (nomatch h)⟩
  | ok a =>
    constructor
    · intro h
      cases h
      exact ⟨a, rfl, rfl⟩
    · rintro ⟨a', ha, rfl⟩
      cases ha
      rfl

/-! ## states -/

/-- only the state of one command may differ -/
def StatesAfter (states states' : StateTable) (s' : ExecutionCommandState) : Prop :=
  ∀ c, states'.get c = if s'.commandId = c then some s' else states.get c

/-- every state is kept or advanced -/
def Onward (states states' : StateTable) : Prop :=
  ∀ c s, states.get c = some s → ∃ s', states'.get c = some s' ∧ Advances s s'

theorem Onward.refl (states : StateTable) : Onward states states :=
  fun _ s h => ⟨s, h, advances_refl s⟩


variable {states : StateTable} {c : CommandId} {s s' current next : ExecutionCommandState}
  {snapshot : ExecutionProjectionSnapshot P F}

theorem stateId_of_get (h : states.get c = some s) : s.commandId = c := by
  have hkey := Table.key_of_get h
  exact hkey

theorem StatesAfter.onward {states' : StateTable} (h : StatesAfter states states' s')
    (hs : states.get c = some s) (hadvance : Advances s s') : Onward states states' := by
  intro k r hr
  have hid : s'.commandId = c := hadvance.commandId.trans (stateId_of_get hs)
  rw [h k]
  by_cases hk : s'.commandId = k
  · rw [if_pos hk]
    rw [← hk, hid, hs] at hr
    cases hr
    exact ⟨s', rfl, hadvance⟩
  · rw [if_neg hk]
    exact ⟨r, hr, advances_refl r⟩

theorem left_created (h : Advances s s') (hs : s.status ≠ .created) : s'.status ≠ .created := by
  intro hcreated
  have hrank := h.rank
  rw [hcreated] at hrank
  have hzero : statusRank s.status = 0 := Nat.le_zero.mp hrank
  revert hs hzero
  cases s.status <;> decide

theorem updateExecutionCommandState_ok {states' : StateTable} {u : CommandStateUpdate}
    (h : updateExecutionCommandState states u = .ok states') :
    StatesAfter states states' u.state := by
  simp only [updateExecutionCommandState, bind_ok, need_ok] at h
  obtain ⟨row, hrow, h⟩ := h
  split at h
  · rw [need_ok] at h
    exact fun c => Table.get_put h hrow c
  · simp only [bind_ok, exists_unit, reject_ok, pure_ok, not_not] at h
    obtain ⟨-, hsame, rfl⟩ := h
    intro c
    by_cases hc : u.state.commandId = c
    · rw [if_pos hc, ← hc, hrow, hsame]
    · rw [if_neg hc]

theorem writeState_ok {t t' : OutboundTables P F R} (h : writeState t current next = .ok t') :
    StatesAfter t.states t'.states next ∧ t'.works = t.works ∧ t'.commands = t.commands := by
  simp only [writeState, bind_ok, ofStore_ok, pure_ok] at h
  obtain ⟨states, hstates, rfl⟩ := h
  exact ⟨updateExecutionCommandState_ok hstates, rfl, rfl⟩

theorem writeProjected_ok {codec : PayloadCodec P F} {t t' : OutboundTables P F R}
    {projectionAt : Int} (h : writeProjected codec t snapshot current next projectionAt = .ok t') :
    StatesAfter t.states t'.states next ∧ t'.works = t.works ∧ t'.commands = t.commands := by
  simp only [writeProjected, bind_ok, pure_ok] at h
  obtain ⟨written, hwritten, plans, -, rfl⟩ := h
  obtain ⟨hafter, hworks, hcommands⟩ := writeState_ok hwritten
  exact ⟨hafter, hworks, hcommands⟩

/-! ## snapshots -/

variable {planId : PlanId}

omit [DecidableEq P] in
theorem commandState_ok {row : CommandRow F} (h : commandState states planId row = .ok s) :
    states.get s.commandId = some s := by
  simp only [commandState, bind_ok, need_ok] at h
  obtain ⟨state, hstate, h⟩ := h
  split at h
  · cases h
  · cases h
    have hself := Table.get_self hstate
    exact hself

omit [DecidableEq P] in
theorem collect_states {rows : List (CommandRow F)} {legs : List (ExecutionLeg F)}
    {pairs : List (CommandRow F × ExecutionCommandState)}
    (h : collect (legCommand states planId rows) legs = .ok pairs) :
    ∀ s ∈ pairs.map Prod.snd, states.get s.commandId = some s := by
  induction legs generalizing pairs with
  | nil =>
    cases h
    exact fun s hs => absurd hs List.not_mem_nil
  | cons leg legs ih =>
    simp only [collect, bind_ok, pure_ok] at h
    obtain ⟨pair, hpair, rest, hrest, rfl⟩ := h
    simp only [legCommand, bind_ok, need_ok, pure_ok] at hpair
    obtain ⟨row, -, state, hstate, rfl⟩ := hpair
    intro s hs
    rcases List.mem_cons.mp hs with rfl | hs
    · exact commandState_ok hstate
    · exact ih hrest s hs

theorem fetchWorkflow_states {codec : PayloadCodec P F} {tables : CommandTables P F}
    {workflow : StoredExecutionWorkflow P F}
    (h : fetchExecutionWorkflowByPlanId codec tables planId = .ok (some workflow)) :
    ∀ s ∈ workflow.commandStates, tables.states.get s.commandId = some s := by
  simp only [fetchExecutionWorkflowByPlanId, bind_ok] at h
  obtain ⟨found, -, h⟩ := h
  cases found with
  | none => cases h
  | some plan =>
    simp only [bind_ok, need_ok, exists_unit, pure_ok, Option.some.injEq] at h
    obtain ⟨_, -, _, -, _, -, _, -, rows, -, -, pairs, hpairs, rfl⟩ := h
    exact collect_states hpairs

theorem loadedProjection_states {codec : PayloadCodec P F} {t : OutboundTables P F R}
    (h : loadedProjection codec t c = .ok snapshot) :
    ∀ s ∈ snapshot.workflow.commandStates, t.states.get s.commandId = some s := by
  simp only [loadedProjection, bind_ok, ofStore_ok, need_ok, loadExecutionProjection] at h
  obtain ⟨found, hfound, rfl⟩ := h
  split at hfound
  · cases hfound
  · simp only [projectionSnapshot, bind_ok, need_ok, exists_unit, pure_ok, Option.some.injEq] at hfound
    obtain ⟨_, hworkflow, workflow, rfl, -, rfl⟩ := hfound
    exact fetchWorkflow_states hworkflow

theorem snapshotState_ok {t : OutboundTables P F R}
    (hstates : ∀ s ∈ snapshot.workflow.commandStates, t.states.get s.commandId = some s)
    (h : snapshotState snapshot c = .ok s) : t.states.get c = some s := by
  rw [snapshotState, need_ok] at h
  obtain ⟨hmem, hid⟩ := find_key h
  have hget := hstates s hmem
  rwa [hid] at hget

/-! ## transitions -/

variable {evidence : CommandEvidence F} {dispatchedAt : Int} {uncertainty : Option (Int × String)}

theorem transitionState_advances {command : ExecutionCommand F}
    (h : transitionState command s evidence = .ok s') :
    Advances s s' := by
  rw [transitionState, ofCommand_ok, map_ok] at h
  obtain ⟨outcome, houtcome, rfl⟩ := h
  obtain ⟨hvalid, ⟨rfl, -⟩ | ⟨next, rfl, happlied, -⟩⟩ := commandEffect houtcome
  · exact advances_refl s
  · exact (applied_stepSpec hvalid happlied).advances

theorem transitionState_ok {command : ExecutionCommand F}
    (h : transitionState command s evidence = .ok s') (hreceipt : receiptEvidence evidence = none) :
    Advances s s' ∧ s'.status = claimedStatus evidence := by
  refine ⟨transitionState_advances h, ?_⟩
  rw [transitionState, ofCommand_ok, map_ok] at h
  obtain ⟨outcome, houtcome, rfl⟩ := h
  obtain ⟨hvalid, ⟨rfl, hrepeats⟩ | ⟨next, rfl, happlied, -⟩⟩ := commandEffect houtcome
  · rcases hrepeats with ⟨hsome, -⟩ | ⟨-, hstatus⟩
    · rw [hreceipt] at hsome
      cases hsome
    · exact hstatus.symm
  · cases happlied with
    | receipt _ _ _ hr =>
      rw [hreceipt] at hr
      cases hr
    | advance target version evidenceAt recorded hnone hclaim hnewer hallowed hrecords =>
      have hrecorded := (recordEvidence_frame hrecords).2.2.2.2.2.1
      have hcompleted := (completeAt_frame recorded evidenceAt).2.2.2.2.2.1
      have htarget : target = claimedStatus evidence := evidenceTarget_status hclaim
      exact (hcompleted.trans hrecorded).trans htarget

omit [DecidableEq P] in
theorem nextDeliveryState_ok {command : ExecutionCommand F} {next : Option ExecutionCommandState}
    (hcreated : current.status = .created)
    (h : nextDeliveryState command current dispatchedAt uncertainty = .ok next) :
    ∃ s, next = some s ∧ Advances current s ∧
      (s.status = .dispatched ∨ s.status = .deliveryUnconfirmed) := by
  simp only [nextDeliveryState, bind_ok, pure_ok] at h
  obtain ⟨dispatched, hdispatched, last, hlast, rfl⟩ := h
  rw [dispatchState, if_pos hcreated] at hdispatched
  obtain ⟨hadvance, hstatus⟩ := transitionState_ok hdispatched rfl
  change dispatched.status = .dispatched at hstatus
  have hend : Advances dispatched last ∧
      (last.status = .dispatched ∨ last.status = .deliveryUnconfirmed) := by
    cases uncertainty with
    | none =>
      cases hlast
      exact ⟨advances_refl _, .inl hstatus⟩
    | some u =>
      rw [doubtState, if_pos hstatus] at hlast
      obtain ⟨hdoubt, hdoubted⟩ := transitionState_ok hlast rfl
      exact ⟨hdoubt, .inr hdoubted⟩
  have hmoved : last ≠ current := by
    intro hsame
    rcases hend.2 with hlast' | hlast' <;> rw [hsame, hcreated] at hlast' <;> cases hlast'
  rw [if_neg hmoved]
  exact ⟨last, rfl, advances_trans hadvance hend.1, hend.2⟩

theorem applyDelivery_ok {codec : PayloadCodec P F} {t t' : OutboundTables P F R}
    {command : ExecutionCommand F} (hget : t.states.get command.commandId = some current)
    (hcreated : current.status = .created)
    (h : applyDelivery codec t command current dispatchedAt uncertainty = .ok t') :
    ∃ s', StatesAfter t.states t'.states s' ∧ Advances current s' ∧
      (s'.status = .dispatched ∨ s'.status = .deliveryUnconfirmed) ∧
      t'.works = t.works ∧ t'.commands = t.commands := by
  unfold applyDelivery at h
  split at h
  · simp only [bind_ok, applyCommandDeliveryTransition] at h
    obtain ⟨snapshot, hsnapshot, found, hfound, next, hnext, hwrite⟩ := h
    have hread := snapshotState_ok (loadedProjection_states hsnapshot) hfound
    rw [hget] at hread
    cases hread
    obtain ⟨s', rfl, hadvance, hstatus⟩ := nextDeliveryState_ok hcreated hnext
    obtain ⟨hafter, hworks, hcommands⟩ := writeProjected_ok hwrite
    exact ⟨s', hafter, hadvance, hstatus, hworks, hcommands⟩
  · simp only [bind_ok] at h
    obtain ⟨next, hnext, hwrite⟩ := h
    obtain ⟨s', rfl, hadvance, hstatus⟩ := nextDeliveryState_ok hcreated hnext
    obtain ⟨hafter, hworks, hcommands⟩ := writeState_ok hwrite
    exact ⟨s', hafter, hadvance, hstatus, hworks, hcommands⟩

theorem ensureDeliveryReconciliation_ok {runStore : RunStore R} {t t' : OutboundTables P F R}
    {work : StoredOutboundDeliveryWork} {command : ExecutionCommand F} {completedAt : Int}
    (h : ensureDeliveryReconciliation runStore t work command completedAt uncertainty = .ok t') :
    t'.states = t.states ∧ t'.works = t.works ∧ t'.commands = t.commands := by
  cases uncertainty with
  | none =>
    cases h
    exact ⟨rfl, rfl, rfl⟩
  | some u =>
    simp only [ensureDeliveryReconciliation, bind_ok] at h
    obtain ⟨current, -, h⟩ := h
    split at h
    · simp only [bind_ok, pure_ok] at h
      obtain ⟨runs, -, rfl⟩ := h
      exact ⟨rfl, rfl, rfl⟩
    · cases h
      exact ⟨rfl, rfl, rfl⟩

theorem completeWork_ok {t t' : OutboundTables P F R} {k : CompleteOutboundDeliveryWork}
    (h : completeWork t k = .ok t') :
    (∃ row, completeOutboundDeliveryWork t.works k = .ok (row, t'.works)) ∧
      t'.states = t.states ∧ t'.commands = t.commands := by
  simp only [completeWork, bind_ok, ofStore_ok, pure_ok] at h
  obtain ⟨⟨row, works⟩, hcomplete, rfl⟩ := h
  exact ⟨⟨row, hcomplete⟩, rfl, rfl⟩

/-! ## the two ends of a finish -/

def retryable : DeliveryRejectionReason → Bool
  | .noActiveSession | .ambiguousRoute _ | .clockUnhealthy | .backpressure _
  | .inflightLimit _ => true
  | _ => false

/-- the delivery says that nothing of this message was written -/
def Unsent (m : MessageId) : Delivery DeliveryOutcome → Prop
  | .ok (.definitelyNotWritten failure) => failure.messageId = m
  | .ok (.rejected rejection) => rejection.messageId = m ∧ retryable rejection.reason = true
  | _ => False

/-- the message was refused for good: a foreign identity, or the peer's transport -/
def Refused (m : MessageId) : Delivery DeliveryOutcome → Prop
  | .ok (.rejected rejection) => rejection.messageId = m ∧
    ((∃ field, rejection.reason = .identityMismatch field) ∨
      ∃ reason, rejection.reason = .transportRejected reason)
  | _ => False

/-- the message expired before it was written -/
def Expired (m : MessageId) : Delivery DeliveryOutcome → Prop
  | .ok (.rejected rejection) => rejection.messageId = m ∧ rejection.reason = .expired
  | _ => False

/-- the delivery has evidence of a write -/
def WriteEvidence (m : MessageId) : Delivery DeliveryOutcome → Prop
  | .ok (.sent receipt) => receipt.messageId = m
  | .ok (.unconfirmed uncertainty) => uncertainty.messageId = m
  | _ => False

/-- why a work item was completed, and what became of the states -/
inductive WorkEnd (t t' : OutboundTables P F R) (m : MessageId)
    (subject : OutboundDeliveryWorkSubject) (outcome : OutboundDeliveryWorkOutcome)
    (answer : Delivery DeliveryOutcome) : Prop
  | gone (hstates : t'.states = t.states) (houtcome : outcome = .superseded)
      (hgone : ∀ c, subject = .executionCommand c → ∃ s, t.states.get c = some s ∧
        s.status ≠ .created)
  | refused (hstates : t'.states = t.states) (houtcome : outcome = .permanentRejection)
      (hrefused : subject.requestId = none → Refused m answer)
  | run (hstates : t'.states = t.states) (hsubject : ∃ r, subject = .reconciliationRequest r)
  | moved {c : CommandId} {s s' : ExecutionCommandState} (hsubject : subject = .executionCommand c)
      (hget : t.states.get c = some s) (hcreated : s.status = .created)
      (hafter : StatesAfter t.states t'.states s') (hadvance : Advances s s')
      (houtcome : outcome ≠ .permanentRejection)
      (hmoved : (WriteEvidence m answer ∧
          (s'.status = .dispatched ∨ s'.status = .deliveryUnconfirmed)) ∨
        (Expired m answer ∧ s'.status = .expired))

inductive Ending (t t' : OutboundTables P F R) (work : StoredOutboundDeliveryWork)
    (finishedAt : Int) (answer : Delivery DeliveryOutcome) : Prop
  | retried {r : RetryOutboundDeliveryWork} {row : StoredOutboundDeliveryWork}
      (hretry : retryOutboundDeliveryWork t.works r = .ok (row, t'.works))
      (hwork : r.workId = work.workId ∧ r.expectedRevision = work.revision ∧
        r.failedAt = finishedAt)
      (hstates : t'.states = t.states)
      (hopen : ∀ c s, work.subject = .executionCommand c → t.states.get c = some s →
        s.status = .created)
      (hadvance : r.advanceGeneration = true → Unsent work.messageId answer)
  | completed {k : CompleteOutboundDeliveryWork} {row : StoredOutboundDeliveryWork}
      (hcomplete : completeOutboundDeliveryWork t.works k = .ok (row, t'.works))
      (hwork : k.workId = work.workId ∧ k.expectedRevision = work.revision ∧
        k.completedAt = finishedAt)
      (hend : WorkEnd t t' work.messageId work.subject k.outcome answer)

variable {codec : PayloadCodec P F} {runStore : RunStore R} {config : DurableOutboundConfig}
  {t t' : OutboundTables P F R} {work : StoredOutboundDeliveryWork} {finishedAt : Int}
  {answer : Delivery DeliveryOutcome} {result : DurableOutboundProcessOutcome}
  {outcome : OutboundDeliveryWorkOutcome} {error : Option String} {reason : String}

theorem completed_ok (h : completeWork t (complete config work finishedAt outcome error) = .ok t')
    (hend : t'.states = t.states → WorkEnd t t' work.messageId work.subject outcome answer) :
    Ending t t' work finishedAt answer ∧ t'.commands = t.commands := by
  obtain ⟨⟨row, hcomplete⟩, hstates, hcommands⟩ := completeWork_ok h
  exact ⟨.completed hcomplete ⟨rfl, rfl, rfl⟩ (hend hstates), hcommands⟩

theorem stopDelivery_ok
    (h : stopDelivery config t work finishedAt outcome error reason = .ok (result, t'))
    (hend : t'.states = t.states → WorkEnd t t' work.messageId work.subject outcome answer) :
    Ending t t' work finishedAt answer ∧ t'.commands = t.commands := by
  simp only [stopDelivery, bind_ok, pure_ok, Prod.mk.injEq] at h
  obtain ⟨written, hwritten, -, rfl⟩ := h
  exact completed_ok hwritten hend

theorem superseded_command (stop : Bool)
    (h : superseded runStore t (.executionCommand c) = .ok stop) :
    (stop = true → ∃ s, t.states.get c = some s ∧ s.status ≠ .created) ∧
      (stop = false → ∀ s, t.states.get c = some s → s.status = .created) := by
  rw [superseded] at h
  cases h
  cases hget : t.states.get c with
  | none => exact ⟨fun h => (nomatch h), fun _ s hs => (nomatch hs)⟩
  | some s =>
    constructor
    · intro hstop
      exact ⟨s, rfl, bne_iff_ne.mp hstop⟩
    · intro hstop r hr
      cases hr
      have hsame : (s.status != ExecutionCommandStatus.created) = false := hstop
      simpa using hsame

theorem scheduleRetry_ok {advance : Bool}
    (h : scheduleRetry runStore config t work finishedAt outcome reason advance = .ok (result, t'))
    (hadvance : advance = true → Unsent work.messageId answer) :
    Ending t t' work finishedAt answer ∧ t'.commands = t.commands := by
  simp only [scheduleRetry, bind_ok] at h
  obtain ⟨retryAt, -, stop, hstop, h⟩ := h
  split at h
  · rename_i hgone
    simp only [bind_ok, pure_ok, Prod.mk.injEq] at h
    obtain ⟨written, hwritten, -, rfl⟩ := h
    refine completed_ok hwritten fun hstates => .gone hstates rfl fun c hc => ?_
    rw [hc] at hstop
    exact (superseded_command stop hstop).1 hgone
  · rename_i hopen
    simp only [bind_ok, ofStore_ok, pure_ok, Prod.mk.injEq] at h
    obtain ⟨⟨row, works⟩, hretry, -, rfl⟩ := h
    refine ⟨.retried hretry ⟨rfl, rfl, rfl⟩ rfl (fun c s hc hs => ?_) hadvance, rfl⟩
    rw [hc] at hstop
    exact (superseded_command stop hstop).2 (Bool.not_eq_true _ ▸ hopen) s hs

theorem orRetry_ok {check : EvidenceCheck}
    {accepted : Outbound (DurableOutboundProcessOutcome × OutboundTables P F R)}
    (h : orRetry runStore config t work finishedAt check accepted = .ok (result, t'))
    (haccepted : check = .ok () → accepted = .ok (result, t') →
      Ending t t' work finishedAt answer ∧ t'.commands = t.commands) :
    Ending t t' work finishedAt answer ∧ t'.commands = t.commands := by
  cases check with
  | error reason =>
    simp only [orRetry] at h
    exact scheduleRetry_ok h fun hadvance => (nomatch hadvance)
  | ok u =>
    simp only [orRetry] at h
    exact haccepted rfl h

theorem sameMessage_ok {m m' : MessageId} (h : sameMessage m m' reason = .ok ()) : m = m' := by
  simpa [sameMessage, reject_ok] using h

/-! ## the finish of a command -/

variable {command : ExecutionCommand F} {disposition : DurableDeliveryDisposition}

theorem commitCommandDelivery_ok {committed : CommandDeliveryCommitOutcome}
    (hsubject : work.subject = .executionCommand command.commandId)
    (hevidence : WriteEvidence work.messageId answer) (houtcome : outcome ≠ .permanentRejection)
    (h : commitCommandDelivery codec runStore config t work command dispatchedAt uncertainty
      finishedAt outcome = .ok (committed, t')) :
    Ending t t' work finishedAt answer ∧ t'.commands = t.commands := by
  simp only [commitCommandDelivery, requiredState, bind_ok, need_ok] at h
  obtain ⟨current, hget, h⟩ := h
  split at h
  · rename_i hleft
    simp only [bind_ok, pure_ok, Prod.mk.injEq] at h
    obtain ⟨written, hwritten, -, rfl⟩ := h
    refine completed_ok hwritten fun hstates => .gone hstates rfl fun c hc => ?_
    rw [hsubject] at hc
    cases hc
    exact ⟨current, hget, hleft⟩
  · rename_i hcreated
    simp only [bind_ok, pure_ok, Prod.mk.injEq] at h
    obtain ⟨delivered, hdelivered, reconciled, hreconciled, written, hwritten, -, rfl⟩ := h
    rw [not_not] at hcreated
    obtain ⟨s', hafter, hadvance, hstatus, hworks, hcommands⟩ :=
      applyDelivery_ok hget hcreated hdelivered
    obtain ⟨hstates₂, hworks₂, hcommands₂⟩ := ensureDeliveryReconciliation_ok hreconciled
    obtain ⟨⟨row, hcomplete⟩, hstates₃, hcommands₃⟩ := completeWork_ok hwritten
    rw [hworks₂, hworks] at hcomplete
    have hend : StatesAfter t.states written.states s' := by
      rw [hstates₃, hstates₂]
      exact hafter
    exact ⟨.completed hcomplete ⟨rfl, rfl, rfl⟩
      (.moved hsubject hget hcreated hend hadvance houtcome (.inl ⟨hevidence, hstatus⟩)),
      hcommands₃.trans (hcommands₂.trans hcommands)⟩

theorem deliverCommand_ok (hsubject : work.subject = .executionCommand command.commandId)
    (hevidence : WriteEvidence work.messageId answer) (houtcome : outcome ≠ .permanentRejection)
    (h : deliverCommand codec runStore config t work command dispatchedAt uncertainty finishedAt
      outcome disposition = .ok (result, t')) :
    Ending t t' work finishedAt answer ∧ t'.commands = t.commands := by
  simp only [deliverCommand, bind_ok, pure_ok, Prod.mk.injEq] at h
  obtain ⟨⟨committed, written⟩, hcommit, -, rfl⟩ := h
  exact commitCommandDelivery_ok hsubject hevidence houtcome hcommit

/-- an expiry moves a CREATED command to EXPIRED and leaves any other -/
structure Expiry (t t' : OutboundTables P F R) (c : CommandId) (current : ExecutionCommandState)
    (expired : Bool) : Prop where
  get : t.states.get c = some current
  works : t'.works = t.works
  commands : t'.commands = t.commands
  effect : (current.status ≠ .created ∧ expired = false ∧ t'.states = t.states) ∨
    (current.status = .created ∧ expired = true ∧ ∃ s', StatesAfter t.states t'.states s' ∧
      Advances current s' ∧ s'.status = .expired)

theorem expireState_ok {expiredAt : Int} {expired : Bool}
    {write : ExecutionCommandState → Outbound (OutboundTables P F R)}
    (hget : t.states.get c = some current)
    (hwrite : ∀ next t', write next = .ok t' → StatesAfter t.states t'.states next ∧
      t'.works = t.works ∧ t'.commands = t.commands)
    (h : expireState t command current expiredAt write = .ok (expired, t')) :
    Expiry t t' c current expired := by
  unfold expireState at h
  split at h
  · rename_i hleft
    cases h
    exact ⟨hget, rfl, rfl, .inl ⟨hleft, rfl, rfl⟩⟩
  · rename_i hcreated
    rw [not_not] at hcreated
    simp only [bind_ok, pure_ok, Prod.mk.injEq] at h
    obtain ⟨next, hnext, written, hwritten, rfl, rfl⟩ := h
    obtain ⟨hadvance, hstatus⟩ := transitionState_ok hnext rfl
    obtain ⟨hafter, hworks, hcommands⟩ := hwrite next written hwritten
    exact ⟨hget, hworks, hcommands, .inr ⟨hcreated, rfl, next, hafter, hadvance, hstatus⟩⟩

theorem applyExpiry_ok {expiredAt : Int} {expired : Bool}
    (h : applyExpiry codec t command expiredAt = .ok (expired, t')) :
    ∃ current, Expiry t t' command.commandId current expired := by
  unfold applyExpiry at h
  split at h
  · simp only [bind_ok] at h
    obtain ⟨snapshot, hsnapshot, current, hcurrent, h⟩ := h
    have hget := snapshotState_ok (loadedProjection_states hsnapshot) hcurrent
    exact ⟨current, expireState_ok hget (fun next t' hw => writeProjected_ok hw) h⟩
  · simp only [bind_ok, requiredState, need_ok] at h
    obtain ⟨current, hget, h⟩ := h
    exact ⟨current, expireState_ok hget (fun next t' hw => writeState_ok hw) h⟩

theorem expireCommand_ok {rejectedAt : Int}
    (hsubject : work.subject = .executionCommand command.commandId)
    (hexpired : Expired work.messageId answer)
    (h : expireCommand codec runStore config t work command rejectedAt finishedAt
      = .ok (result, t')) :
    Ending t t' work finishedAt answer ∧ t'.commands = t.commands := by
  unfold expireCommand at h
  dsimp only at h
  split at h
  · exact scheduleRetry_ok h fun hadvance => (nomatch hadvance)
  · simp only [bind_ok, pure_ok, Prod.mk.injEq] at h
    obtain ⟨⟨expired, moved⟩, hmoved, written, hwritten, -, rfl⟩ := h
    obtain ⟨current, hget, hworks, hcommands, hcase⟩ := applyExpiry_ok hmoved
    obtain ⟨⟨row, hcomplete⟩, hstates₂, hcommands₂⟩ := completeWork_ok hwritten
    rw [hworks] at hcomplete
    refine ⟨.completed hcomplete ⟨rfl, rfl, rfl⟩ ?_, hcommands₂.trans hcommands⟩
    rcases hcase with ⟨hleft, hnot, hstates⟩ | ⟨hcreated, hyes, s', hafter, hadvance, hstatus⟩
    · refine .gone (hstates₂.trans hstates) ?_ fun c hc => ?_
      · show expiryOutcome expired = .superseded
        rw [hnot]
        rfl
      · rw [hsubject] at hc
        cases hc
        exact ⟨current, hget, hleft⟩
    · have hend : StatesAfter t.states written.states s' := by
        rw [hstates₂]
        exact hafter
      have houtcome : expiryOutcome expired ≠ .permanentRejection := by
        rw [hyes]
        decide
      exact .moved hsubject hget hcreated hend hadvance houtcome (.inr ⟨hexpired, hstatus⟩)

variable {rejection : DeliveryRejection}

theorem finishRejection_ok (hsubject : work.subject = .executionCommand command.commandId)
    (hm : rejection.messageId = work.messageId)
    (h : finishRejection codec runStore config t work command rejection.rejectedAt finishedAt
      rejection.reason = .ok (result, t')) :
    Ending t t' work finishedAt (.ok (.rejected rejection)) ∧ t'.commands = t.commands := by
  have hunsent : retryable rejection.reason = true →
      Unsent work.messageId (.ok (.rejected rejection)) := fun hr => ⟨hm, hr⟩
  cases hreason : rejection.reason <;> rw [hreason] at h hunsent <;>
    simp only [finishRejection] at h
  case expired => exact expireCommand_ok hsubject ⟨hm, hreason⟩ h
  case identityMismatch field =>
    exact stopDelivery_ok h fun hstates => .refused hstates rfl fun _ => ⟨hm, .inl ⟨field, hreason⟩⟩
  case transportRejected reason =>
    exact stopDelivery_ok h fun hstates => .refused hstates rfl fun _ => ⟨hm, .inr ⟨reason, hreason⟩⟩
  all_goals exact scheduleRetry_ok h fun _ => hunsent rfl

theorem finishCommand_ok (hsubject : work.subject = .executionCommand command.commandId)
    (h : finishCommand codec runStore config t work command finishedAt answer = .ok (result, t')) :
    Ending t t' work finishedAt answer ∧ t'.commands = t.commands := by
  cases answer with
  | error error =>
    simp only [finishCommand] at h
    exact scheduleRetry_ok h fun hadvance => (nomatch hadvance)
  | ok outcome =>
    cases outcome with
    | sent receipt =>
      simp only [finishCommand] at h
      refine orRetry_ok h fun hcheck h => deliverCommand_ok hsubject ?_ (by decide) h
      simp only [validateDeliveryEvidence, bind_ok, exists_unit, reject_ok, not_not] at hcheck
      exact hcheck.1
    | unconfirmed u =>
      simp only [finishCommand] at h
      refine orRetry_ok h fun hcheck h => orRetry_ok h fun _ h => deliverCommand_ok hsubject ?_ (by decide) h
      simp only [validateUnconfirmedEvidence, validateUnconfirmedEvidenceWithoutExpiry, bind_ok,
        exists_unit, reject_ok, not_not] at hcheck
      exact hcheck.1.1
    | rejected rejection =>
      simp only [finishCommand] at h
      exact orRetry_ok h fun hcheck h => finishRejection_ok hsubject (sameMessage_ok hcheck) h
    | definitelyNotWritten failure =>
      simp only [finishCommand] at h
      refine orRetry_ok h fun hcheck h => scheduleRetry_ok h fun _ => ?_
      exact sameMessage_ok hcheck

/-! ## the finish of a reconciliation request -/

theorem deliverRun_ok {requestId : RequestId}
    (hsubject : ∃ r, work.subject = .reconciliationRequest r)
    (h : deliverRun config t work requestId finishedAt outcome error disposition
      = .ok (result, t')) :
    Ending t t' work finishedAt answer ∧ t'.commands = t.commands := by
  simp only [deliverRun, bind_ok, pure_ok, Prod.mk.injEq] at h
  obtain ⟨written, hwritten, -, rfl⟩ := h
  exact completed_ok hwritten fun hstates => .run hstates hsubject

theorem finishRunRejection_ok (hsubject : ∃ r, work.subject = .reconciliationRequest r)
    (hm : rejection.messageId = work.messageId)
    (h : finishRunRejection runStore config t work finishedAt rejection.reason
      = .ok (result, t')) :
    Ending t t' work finishedAt (.ok (.rejected rejection)) ∧ t'.commands = t.commands := by
  have hunsent : retryable rejection.reason = true →
      Unsent work.messageId (.ok (.rejected rejection)) := fun hr => ⟨hm, hr⟩
  cases hreason : rejection.reason <;> rw [hreason] at h hunsent <;>
    simp only [finishRunRejection] at h
  case expired | identityMismatch | transportRejected =>
    exact stopDelivery_ok h fun hstates => .run hstates hsubject
  all_goals exact scheduleRetry_ok h fun _ => hunsent rfl

theorem finishReconciliation_ok
    (h : finishReconciliation runStore config t work answer finishedAt = .ok (result, t')) :
    Ending t t' work finishedAt answer ∧ t'.commands = t.commands := by
  unfold finishReconciliation at h
  split at h
  · rename_i requestId hrequest
    have hsubject : ∃ r, work.subject = .reconciliationRequest r := ⟨requestId, hrequest⟩
    cases answer with
    | error error =>
      simp only [finishRun] at h
      exact scheduleRetry_ok h fun hadvance => (nomatch hadvance)
    | ok outcome =>
      cases outcome with
      | sent receipt =>
        simp only [finishRun] at h
        exact orRetry_ok h fun _ h => deliverRun_ok hsubject h
      | unconfirmed u =>
        simp only [finishRun] at h
        exact orRetry_ok h fun _ h => orRetry_ok h fun _ h => deliverRun_ok hsubject h
      | rejected rejection =>
        simp only [finishRun] at h
        exact orRetry_ok h fun hcheck h => finishRunRejection_ok hsubject (sameMessage_ok hcheck) h
      | definitelyNotWritten failure =>
        simp only [finishRun] at h
        exact orRetry_ok h fun hcheck h => scheduleRetry_ok h fun _ => sameMessage_ok hcheck
  · cases h

/-! ## a whole finish -/

/-- the work of a claim is about the subject that was loaded with it -/
def ClaimedOutboundDelivery.Fits : ClaimedOutboundDelivery F → Prop
  | .executionCommand work command _ _ _ =>
    work.subject = .executionCommand command.command.commandId
  | .reconciliationRequest work _ => ∃ r, work.subject = .reconciliationRequest r

/-- the subject had gone on when it was claimed -/
def ClaimedOutboundDelivery.Late : ClaimedOutboundDelivery F → Prop
  | .executionCommand _ _ state _ _ => state.status ≠ .created
  | .reconciliationRequest _ run => run.status ≠ .requested

theorem finishDelivery_ok {claimed : ClaimedOutboundDelivery F} {now : Int}
    (hfits : claimed.Fits)
    (hlate : claimed.Late → ∀ c, claimed.work.subject = .executionCommand c →
      ∃ s, t.states.get c = some s ∧ s.status ≠ .created)
    (h : finishDelivery codec runStore config t claimed answer now = .ok (result, t')) :
    Ending t t' claimed.work now answer ∧ t'.commands = t.commands := by
  simp only [finishDelivery, nowMs, bind_ok, exists_unit, reject_ok, pure_ok] at h
  obtain ⟨now', ⟨-, rfl⟩, h⟩ := h
  cases claimed with
  | executionCommand work command state correlationId causationId =>
    dsimp only at h
    split at h
    · rename_i hleft
      exact stopDelivery_ok h fun hstates => .gone hstates rfl (hlate hleft)
    · exact finishCommand_ok hfits h
  | reconciliationRequest work run =>
    dsimp only at h
    split at h
    · rename_i hleft
      exact stopDelivery_ok h fun hstates => .gone hstates rfl (hlate hleft)
    · exact finishReconciliation_ok h

end

end Sinan.Core
