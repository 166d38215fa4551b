import Sinan.Reconciliation.Attention

/-!
# A pending reconciliation has a way out

An operator takes over what a reconciliation leaves open.  Between the evaluation and the escalation
the commands move on, by the command state machine only, so their states stay valid and the scope
stays the same; and from each of the three statuses that wait for evidence the table has an edge to the
manual status.
-/

set_option linter.unusedSectionVars false

namespace Sinan.Reconciliation

open Lib Execution Relation

section
variable {F : Type} [F64 F]

/-! ## the transition to the manual status -/

variable {s : ExecutionCommandState} {status : ExecutionCommandStatus}

theorem latestLifecycleEvidenceAt_le {bound : Int} (hcreated : s.createdAt ≤ bound)
    (htimes : ∀ t ∈ lifecycleTimestamps s, t ≤ bound) :
    latestLifecycleEvidenceAt s ≤ bound := by
  unfold latestLifecycleEvidenceAt
  cases hmax : (s.createdAt :: lifecycleTimestamps s).max? with
  | none => exact hcreated
  | some latest =>
    rcases List.mem_cons.mp (List.max?_mem hmax) with rfl | hmem
    · exact hcreated
    · exact htimes latest hmem

theorem awaitsManual_allowed (h : awaitsManual status = true) :
    status = .manualReconciliationRequired ∨
      transitionIsAllowed status .manualReconciliationRequired = true := by
  cases status <;> first | exact .inl rfl | exact .inr rfl | cases h

theorem awaitsManual_requires (h : awaitsManual status = true) :
    commandStatusIsTerminal status = false ∧ requiresDispatch status = true := by
  cases status <;> first | exact ⟨rfl, rfl⟩ | cases h

/-- the state of a command that an operator takes over -/
def manualState (s : ExecutionCommandState) (time : Int) : ExecutionCommandState :=
  { s with status := .manualReconciliationRequired,
           reconcilingAt := some (s.reconcilingAt.getD time),
           updatedAt := max (s.updatedAt + 1) time }

variable {command : ExecutionCommand F}

theorem manualState_valid {time : Int} (hvalid : ValidState command s)
    (hawaits : awaitsManual s.status = true) (htime : s.updatedAt ≤ time) :
    ValidState command (manualState s time) := by
  have hcreated := hvalid.updated
  obtain ⟨hopen, hdispatch⟩ := awaitsManual_requires hawaits
  have hnone : s.completedAt.isSome = false := by rw [← hvalid.completed, hopen]
  refine ⟨hvalid.identity, hvalid.commandId, hvalid.accountId, hvalid.planId, hvalid.legId,
    hvalid.created, ?_, hvalid.expiry, hnone.symm, fun t ht => ?_, fun h => (by cases h),
    hvalid.attempts, fun _ => hvalid.dispatch hdispatch, fun h => (by cases h), fun _ => rfl,
    fun h => (by cases h)⟩
  · show s.createdAt ≤ max (s.updatedAt + 1) time
    omega
  · show s.createdAt ≤ t ∧ t ≤ max (s.updatedAt + 1) time
    have hkept : ∀ t ∈ lifecycleTimestamps s, s.createdAt ≤ t ∧ t ≤ max (s.updatedAt + 1) time := by
      intro t ht
      have := hvalid.window t ht
      omega
    rcases mem_lifecycleTimestamps.mp ht with h | h | h | h
    · exact hkept t (mem_lifecycleTimestamps.mpr (.inl h))
    · exact hkept t (mem_lifecycleTimestamps.mpr (.inr (.inl h)))
    · have hreconciling : s.reconcilingAt.getD time = t := Option.some.inj h
      cases hold : s.reconcilingAt with
      | some known =>
        rw [hold, Option.getD_some] at hreconciling
        subst hreconciling
        exact hkept known (mem_lifecycleTimestamps.mpr (.inr (.inr (.inl hold))))
      | none =>
        rw [hold, Option.getD_none] at hreconciling
        omega
    · exact hkept t (mem_lifecycleTimestamps.mpr (.inr (.inr (.inr h))))

theorem transitionCommand_manual {time : Int} (hvalid : ValidState command s)
    (hawaits : awaitsManual s.status = true) (htime : s.updatedAt ≤ time) (hmax : time < i64Max) :
    ∃ outcome, transitionCommand command s (.requireManualReconciliation time) = .ok outcome ∧
      outcome.state.status = .manualReconciliationRequired := by
  have hcreated := hvalid.created
  have hupdated := hvalid.updated
  have hlatest : latestLifecycleEvidenceAt s ≤ time :=
    latestLifecycleEvidenceAt_le (by omega) fun t ht => by
      have := hvalid.window t ht
      omega
  have htarget : evidenceTarget command (CommandEvidence.requireManualReconciliation time : CommandEvidence F)
      = .ok (.manualReconciliationRequired, time) := by
    rw [evidenceTarget_ok]
    exact ⟨rfl, by show 0 ≤ time; omega⟩
  by_cases hmanual : s.status = .manualReconciliationRequired
  · refine ⟨.duplicate s, ?_, hmanual⟩
    simp only [transitionCommand, bind_ok, exists_unit, reject_ok, validateCommandState_ok]
    refine ⟨hvalid, _, htarget, Bool.false_ne_true, by dsimp only; omega, ?_⟩
    simp only [receiptEvidence, advanceCommand, bind_ok, exists_unit, reject_ok]
    refine ⟨by omega, ?_⟩
    rw [if_pos hmanual.symm]
    rfl
  · have hallowed := (awaitsManual_allowed hawaits).resolve_left hmanual
    have hversion : nextVersion s time = .ok (max (s.updatedAt + 1) time) := by
      have hadd : checkedAdd s.updatedAt 1 = some (s.updatedAt + 1) := by
        unfold checkedAdd
        rw [if_pos]
        unfold i64Max at hmax
        unfold i64Min i64Max
        omega
      unfold nextVersion
      rw [hadd]
      rfl
    refine ⟨.applied (manualState s time), ?_, rfl⟩
    simp only [transitionCommand, bind_ok, exists_unit, reject_ok, validateCommandState_ok]
    refine ⟨hvalid, _, htarget, Bool.false_ne_true, by dsimp only; omega, ?_⟩
    simp only [receiptEvidence, advanceCommand, bind_ok, exists_unit, reject_ok]
    refine ⟨by omega, ?_⟩
    rw [if_neg (Ne.symm hmanual)]
    simp only [bind_ok, exists_unit, reject_ok, pure_ok, validateCommandState_ok, hallowed]
    exact ⟨fun h => absurd h.1 Bool.false_ne_true, fun h => (by cases h), _, hversion, _, rfl,
      manualState_valid hvalid hawaits htime, rfl⟩

/-! ## the same scope, later -/

/-- the same command, its state moved on by the state machine -/
def Advanced (item item' : ReconciliationCommand F) : Prop :=
  item'.command = item.command ∧
    ReflTransGen (fun s s' => ∃ evidence outcome,
      transitionCommand item.command s evidence = .ok outcome ∧ s' = outcome.state)
      item.state item'.state

variable {context : ReconciliationRequestContext} {item item' : ReconciliationCommand F}
  {commands commands' indexed : List (ReconciliationCommand F)} {bound time : Int}

theorem Advanced.valid (h : Advanced item item') (hvalid : ValidState item.command item.state) :
    ValidState item'.command item'.state := by
  obtain ⟨hcommand, hsteps⟩ := h
  rw [hcommand]
  generalize item'.state = s' at hsteps
  induction hsteps with
  | refl => exact hvalid
  | tail _ hlast _ =>
    obtain ⟨evidence, outcome, hstep, rfl⟩ := hlast
    obtain ⟨hbefore, hcase⟩ := commandEffect hstep
    rcases hcase with ⟨rfl, -⟩ | ⟨s', rfl, -, hafter⟩
    · exact hbefore
    · exact hafter

theorem validateScopedCommand_ok :
    validateScopedCommand context bound item = .ok () ↔
      ValidState item.command item.state ∧ item.command.accountId = context.request.accountId ∧
      (context.request.terminalId.isSome = true →
        context.request.terminalId = item.command.terminalId) ∧
      (context.request.clientId.isSome = true →
        context.request.clientId = item.command.clientId) ∧
      item.state.updatedAt ≤ bound := by
  simp only [validateScopedCommand, validateRouteConstraint, bind_ok, exists_unit, reject_ok,
    mapError_ok, validateCommandState_ok, ne_eq, not_not, not_and, Int.not_lt, gt_iff_lt]

theorem forall₂_commandIds (h : List.Forall₂ Advanced commands commands') :
    commands'.map ReconciliationCommand.commandId = commands.map ReconciliationCommand.commandId := by
  induction h with
  | nil => rfl
  | cons hadvanced _ ih =>
    rw [List.map_cons, List.map_cons, ih]
    congr 1
    unfold ReconciliationCommand.commandId
    rw [hadvanced.1]

theorem InScope.later (h : InScope context bound commands indexed)
    (hadvanced : List.Forall₂ Advanced commands commands') (hbound : bound ≤ time)
    (hstates : ∀ item ∈ commands', item.state.updatedAt ≤ time) :
    InScope context time commands' (sortBy ReconciliationCommand.commandId commands') where
  request := h.request
  reached := h.reached.trans hbound
  distinct := by
    rw [forall₂_commandIds hadvanced]
    exact h.distinct
  valid := by
    intro item' hitem'
    obtain ⟨item, hitem, hmoved⟩ := forall₂_mem_right hadvanced hitem'
    obtain ⟨hvalid, haccount, hterminal, hclient, -⟩ := validateScopedCommand_ok.mp (h.valid item hitem)
    refine validateScopedCommand_ok.mpr ⟨hmoved.valid hvalid, ?_, ?_, ?_, hstates item' hitem'⟩
    · rw [hmoved.1]
      exact haccount
    · rw [hmoved.1]
      exact hterminal
    · rw [hmoved.1]
      exact hclient
  targeted := by
    intro scopedIds hscoped
    rw [map_sortBy, forall₂_commandIds hadvanced, ← map_sortBy, ← h.sorted]
    exact h.targeted scopedIds hscoped
  sorted := rfl

/-! ## the transitions of an escalation -/

/-- the transition that hands the command to an operator, with the state it was read in -/
structure Escalated (item : ReconciliationCommand F) (time : Int)
    (transition : ReconciliationCommandTransition) : Prop where
  commandId : transition.commandId = item.commandId
  expectedStatus : transition.expectedStatus = item.state.status
  expectedUpdatedAt : transition.expectedUpdatedAt = item.state.updatedAt
  awaits : awaitsManual item.state.status = true
  outcome : transitionCommand item.command item.state (.requireManualReconciliation time)
    = .ok transition.outcome
  manual : transition.outcome.state.status = .manualReconciliationRequired

/-- exactly the commands of the attention that wait for evidence are handed over, each once -/
structure Escalates (commands : List (ReconciliationCommand F)) (attention : CommandId → Prop)
    (time : Int) (transitions : List ReconciliationCommandTransition) : Prop where
  only : ∀ transition ∈ transitions,
    ∃ item ∈ commands, attention item.commandId ∧ Escalated item time transition
  all : ∀ item ∈ commands, attention item.commandId → awaitsManual item.state.status = true →
    ∃ transition ∈ transitions, Escalated item time transition
  ordered : (transitions.map ReconciliationCommandTransition.commandId).Pairwise (· < ·)

theorem planTransition_manual (hvalid : validateScopedCommand context time item = .ok ())
    (hawaits : awaitsManual item.state.status = true) (hmax : time < i64Max) :
    ∃ transition, planTransition item (.requireManualReconciliation time) = .ok transition ∧
      Escalated item time transition := by
  obtain ⟨hstate, -, -, -, htime⟩ := validateScopedCommand_ok.mp hvalid
  obtain ⟨outcome, houtcome, hmanual⟩ := transitionCommand_manual hstate hawaits htime hmax
  refine ⟨⟨item.commandId, item.state.status, item.state.updatedAt, outcome⟩, ?_,
    rfl, rfl, rfl, hawaits, houtcome, hmanual⟩
  simp only [planTransition, bind_ok, mapError_ok, pure_ok]
  exact ⟨outcome, houtcome, rfl⟩

theorem manualTransitions_ok {items : List (ReconciliationCommand F)}
    (hvalid : ∀ item ∈ items, validateScopedCommand context time item = .ok ())
    (hordered : (items.map ReconciliationCommand.commandId).Pairwise (· < ·)) (hmax : time < i64Max) :
    ∃ transitions, manualTransitions items time = .ok transitions ∧
      (∀ transition ∈ transitions, ∃ item ∈ items, Escalated item time transition) ∧
      (∀ item ∈ items, awaitsManual item.state.status = true →
        ∃ transition ∈ transitions, Escalated item time transition) ∧
      (transitions.map ReconciliationCommandTransition.commandId).Pairwise (· < ·) := by
  have hplan : ∀ item ∈ items.filter fun item => awaitsManual item.state.status,
      ∃ transition, planTransition item (.requireManualReconciliation time) = .ok transition ∧
        Escalated item time transition := by
    intro item hitem
    obtain ⟨hmem, hawaits⟩ := List.mem_filter.mp hitem
    exact planTransition_manual (hvalid item hmem) hawaits hmax
  obtain ⟨transitions, hall⟩ := exists_forall₂ hplan
  refine ⟨transitions, collect_ok.mpr (hall.imp fun _ _ h => h.1), fun transition hmem => ?_,
    fun item hitem hawaits => ?_, ?_⟩
  · obtain ⟨item, hitem, -, hescalated⟩ := forall₂_mem_right hall hmem
    exact ⟨item, (List.mem_filter.mp hitem).1, hescalated⟩
  · obtain ⟨transition, hmem, -, hescalated⟩ :=
      forall₂_mem_right hall.flip (List.mem_filter.mpr ⟨hitem, hawaits⟩)
    exact ⟨transition, hmem, hescalated⟩
  · have hids : transitions.map ReconciliationCommandTransition.commandId =
        (items.filter fun item => awaitsManual item.state.status).map
          ReconciliationCommand.commandId := by
      generalize items.filter (fun item => awaitsManual item.state.status) = waiting at hall
      clear hplan
      induction hall with
      | nil => rfl
      | cons h _ ih => rw [List.map_cons, List.map_cons, ih, h.2.commandId]
    rw [hids]
    exact hordered.sublist (List.filter_sublist.map _)

theorem commandAt_ok {commandId : CommandId} (h : commandAt indexed commandId = some item) :
    item ∈ indexed ∧ item.commandId = commandId := find_key h

theorem map_filterMap_commandAt (ids : List CommandId) :
    (ids.filterMap (commandAt indexed)).map ReconciliationCommand.commandId =
      ids.filter fun commandId => (commandAt indexed commandId).isSome := by
  induction ids with
  | nil => rfl
  | cons commandId ids ih =>
    cases hfound : commandAt indexed commandId with
    | none =>
      rw [List.filterMap_cons_none hfound, ih, List.filter_cons_of_neg]
      rw [hfound]
      exact Bool.false_ne_true
    | some item =>
      rw [List.filterMap_cons_some hfound, List.map_cons, ih, (commandAt_ok hfound).2,
        List.filter_cons_of_pos]
      rw [hfound]
      rfl

theorem mem_filterMap_commandAt (h : InScope context bound commands indexed) {ids : List CommandId} :
    item ∈ ids.filterMap (commandAt indexed) ↔ item ∈ commands ∧ item.commandId ∈ ids := by
  rw [List.mem_filterMap]
  constructor
  · rintro ⟨commandId, hmem, hfound⟩
    obtain ⟨hitem, rfl⟩ := commandAt_ok hfound
    exact ⟨h.mem.mp hitem, hmem⟩
  · rintro ⟨hitem, hmem⟩
    exact ⟨item.commandId, hmem, h.commandAt hitem⟩

variable {evidence : ManualEscalationEvidence} {result : ReconciliationResult F}
  {events : List (ExecutionEvent F)} {receivedAt : Int} {out : EvaluatedReconciliationResult F}

/-- the unknown commands of an evaluation are those its findings name, also against a later scope -/
theorem unknown_agrees
    (h : evaluateReconciliationResult context result commands events receivedAt = .ok out)
    (hadvanced : List.Forall₂ Advanced commands commands')
    (hscope : InScope context time commands' indexed) :
    orderedSet (out.evaluation.commandIds.filter fun commandId =>
        (commandAt indexed commandId).isNone) =
      orderedSet (out.evaluation.findings.filterMap unknownFindingCommand) := by
  obtain ⟨-, -, -, -, -, -, -, -, -, hids, hfindings⟩ := evaluate_ok h
  refine orderedSet_congr fun commandId => ?_
  have hsame : (∀ item ∈ commands', item.commandId ≠ commandId) ↔
      ∀ item ∈ commands, item.commandId ≠ commandId := by
    have hmem := congrArg (commandId ∈ ·) (forall₂_commandIds hadvanced)
    simp only [List.mem_map, eq_iff_iff] at hmem
    have hnot := not_congr hmem
    simpa only [not_exists, not_and] using hnot
  rw [List.mem_filter, hscope.commandAt_none, hsame, hfindings, hids]
  constructor
  · rintro ⟨⟨item, hitem, hid, -⟩ | hunknown, hnone⟩
    · exact absurd hid (hnone item hitem)
    · exact hunknown
  · intro hunknown
    exact ⟨.inr hunknown, hunknown.2.1⟩

theorem escalateManual_ok
    (h : evaluateReconciliationResult context result commands events receivedAt = .ok out)
    (hpending : out.evaluation.disposition = .pendingEvidence)
    (hadvanced : List.Forall₂ Advanced commands commands')
    (hrequest : evidence.requestId = context.request.requestId)
    (hreason : blank evidence.reason = false) (hreceived : receivedAt ≤ evidence.escalatedAt)
    (hstates : ∀ item ∈ commands', item.state.updatedAt ≤ evidence.escalatedAt)
    (hmax : evidence.escalatedAt < i64Max) :
    ∃ escalation,
      escalateManualReconciliation context out.evaluation commands' evidence = .ok escalation ∧
      Escalates commands' (· ∈ out.evaluation.commandIds) evidence.escalatedAt
        escalation.commandTransitions ∧
      escalation.evaluation = { out.evaluation with disposition := .manualRequired } := by
  obtain ⟨hvalid, indexed, hscope, -, hid, haccount, hobserved, hdisposition, hordered, hids, -⟩ :=
    evaluate_ok h
  have hlater := hscope.later hadvanced hreceived hstates
  simp only [validateResult, bind_ok, exists_unit, reject_ok, ne_eq, not_not, not_or,
    Int.not_lt, gt_iff_lt] at hvalid
  obtain ⟨-, hresult, hresultAccount, -, -, ⟨hsince, huntil⟩, -⟩ := hvalid
  have hsorted : ((out.evaluation.commandIds.filterMap (commandAt
      (sortBy ReconciliationCommand.commandId commands'))).map
        ReconciliationCommand.commandId).Pairwise (· < ·) := by
    rw [map_filterMap_commandAt]
    exact hordered.sublist List.filter_sublist
  obtain ⟨transitions, hok, honly, hall, hpairwise⟩ := manualTransitions_ok (fun item hitem =>
    hlater.valid item ((mem_filterMap_commandAt hlater).mp hitem).1) hsorted hmax
  refine ⟨⟨evidence, { out.evaluation with disposition := .manualRequired }, transitions⟩, ?_,
    ⟨fun transition hmem => ?_, fun item hitem hattention hawaits => ?_, hpairwise⟩, rfl⟩
  · simp only [escalateManualReconciliation, bind_ok, exists_unit, reject_ok, pure_ok, each_ok,
      not_or, not_exists, not_and, ne_eq, not_not]
    refine ⟨hscope.request, ⟨hrequest, hid.trans hresult, haccount.trans hresultAccount⟩, ?_, ?_,
      hpending, ?_, ⟨?_, ?_⟩, _, validateCommandScope_iff.mpr hlater, ?_,
      unknown_agrees h hadvanced hlater, transitions, hok, rfl⟩
    · rw [hreason]
      exact Bool.false_ne_true
    · rw [hobserved, Option.any_some, decide_eq_true_eq]
      have := hscope.reached
      omega
    · rw [hobserved]
      exact Bool.false_ne_true
    · intro hnil
      rw [hdisposition, if_pos hnil] at hpending
      cases hpending
    · exact hordered.isChain
    · intro scopedIds hscoped commandId hmem
      have htargeted := hscope.targeted scopedIds (Option.mem_toList.mp hscoped)
      rcases (hids commandId).mp hmem with ⟨item, hitem, rfl, -⟩ | hunknown
      · rw [← htargeted]
        exact List.mem_map_of_mem (hscope.mem.mpr hitem)
      · have hwide := hunknown.1
        rw [Option.mem_toList.mp hscoped] at hwide
        cases hwide
  · obtain ⟨item, hitem, hescalated⟩ := honly transition hmem
    obtain ⟨hcommand, hattention⟩ := (mem_filterMap_commandAt hlater).mp hitem
    exact ⟨item, hcommand, hattention, hescalated⟩
  · exact hall item ((mem_filterMap_commandAt hlater).mpr ⟨hitem, hattention⟩) hawaits

theorem escalateMissing_ok (h : validateCommandScope context commands bound = .ok indexed)
    (hadvanced : List.Forall₂ Advanced commands commands')
    (hrequest : evidence.requestId = context.request.requestId)
    (hreason : blank evidence.reason = false) (hbound : bound ≤ evidence.escalatedAt)
    (hstates : ∀ item ∈ commands', item.state.updatedAt ≤ evidence.escalatedAt)
    (hmax : evidence.escalatedAt < i64Max) :
    ∃ escalation,
      escalateMissingReconciliationResult context commands' evidence = .ok escalation ∧
      Escalates commands' (fun _ => True) evidence.escalatedAt escalation.commandTransitions ∧
      ∀ commandId, commandId ∈ escalation.evaluation.commandIds ↔
        ∃ item ∈ commands', item.commandId = commandId := by
  have hscope := validateCommandScope_iff.mp h
  have hlater := hscope.later hadvanced hbound hstates
  have hvalid : ∀ item ∈ sortBy ReconciliationCommand.commandId commands',
      validateScopedCommand context evidence.escalatedAt item = .ok () :=
    fun item hitem => hlater.valid item (mem_sortBy.mp hitem)
  obtain ⟨transitions, hok, honly, hall, hpairwise⟩ :=
    manualTransitions_ok hvalid (sortBy_strict hlater.distinct) hmax
  let evaluation : ReconciliationEvaluation :=
    { requestId := context.request.requestId
      accountId := context.request.accountId
      observedAt := none
      disposition := .manualRequired
      commandIds := (sortBy ReconciliationCommand.commandId commands').map
        ReconciliationCommand.commandId
      findings := [.reconciliationResultMissing evidence.escalatedAt] }
  refine ⟨⟨evidence, evaluation, transitions⟩, ?_,
    ⟨fun transition hmem => ?_, fun item hitem _ hawaits => ?_, hpairwise⟩, fun commandId => ?_⟩
  · simp only [escalateMissingReconciliationResult, bind_ok, exists_unit, reject_ok, pure_ok, ne_eq,
      not_not]
    refine ⟨hscope.request, hrequest, ?_, ?_, _, validateCommandScope_iff.mpr hlater, transitions, hok,
      rfl⟩
    · rw [hreason]
      exact Bool.false_ne_true
    · have := hscope.reached
      omega
  · obtain ⟨item, hitem, hescalated⟩ := honly transition hmem
    exact ⟨item, mem_sortBy.mp hitem, trivial, hescalated⟩
  · exact hall item (mem_sortBy.mpr hitem) hawaits
  · show commandId ∈ (sortBy _ _).map _ ↔ _
    rw [List.mem_map]
    simp only [mem_sortBy]

/-- **A pending reconciliation can always be escalated.**  With the same commands, each as it was or
moved on by the command state machine, and evidence for this request at a time that no state is newer
than, every pending evaluation escalates; so does a request whose result is missing, over its whole
scope.  The transitions are those of the commands that wait for evidence, each to the manual status
from the state that was read, and no others. -/
theorem pending_reconciliation_escalates (context : ReconciliationRequestContext)
    (commands commands' : List (ReconciliationCommand F)) (evidence : ManualEscalationEvidence)
    (hadvanced : List.Forall₂ Advanced commands commands')
    (hrequest : evidence.requestId = context.request.requestId)
    (hreason : blank evidence.reason = false)
    (hstates : ∀ item ∈ commands', item.state.updatedAt ≤ evidence.escalatedAt)
    (hmax : evidence.escalatedAt < i64Max) :
    (∀ result events receivedAt out,
      evaluateReconciliationResult context result commands events receivedAt = .ok out →
      out.evaluation.disposition = .pendingEvidence → receivedAt ≤ evidence.escalatedAt →
      ∃ escalation,
        escalateManualReconciliation context out.evaluation commands' evidence = .ok escalation ∧
        Escalates commands' (· ∈ out.evaluation.commandIds) evidence.escalatedAt
          escalation.commandTransitions ∧
        escalation.evaluation = { out.evaluation with disposition := .manualRequired }) ∧
    ∀ bound indexed, validateCommandScope context commands bound = .ok indexed →
      bound ≤ evidence.escalatedAt →
      ∃ escalation,
        escalateMissingReconciliationResult context commands' evidence = .ok escalation ∧
        Escalates commands' (fun _ => True) evidence.escalatedAt escalation.commandTransitions ∧
        ∀ commandId, commandId ∈ escalation.evaluation.commandIds ↔
          ∃ item ∈ commands', item.commandId = commandId := by
  constructor
  · intro result events receivedAt out h hpending hreceived
    exact escalateManual_ok h hpending hadvanced hrequest hreason hreceived hstates hmax
  · intro bound indexed h hbound
    exact escalateMissing_ok h hadvanced hrequest hreason hbound hstates hmax

end

/-! ## a command that becomes unconfirmed after its result was evaluated -/

def sampleUnconfirmed : ExecutionCommandState :=
  { sampleDispatched with
    status := .deliveryUnconfirmed, lastDeliveryError := some "timeout", updatedAt := 60 }

def sampleEscalation : ManualEscalationEvidence where
  requestId := "request"
  escalatedAt := 70
  reason := "no receipt"

theorem sample_advanced :
    List.Forall₂ Advanced sampleCommands [⟨sampleCommand, sampleUnconfirmed⟩] := by
  have hstep : transitionCommand sampleCommand sampleDispatched (.deliveryUnconfirmed 60 "timeout")
      = .ok (.applied sampleUnconfirmed) := by decide +kernel
  exact .cons ⟨rfl, .single ⟨_, _, hstep, rfl⟩⟩ .nil

theorem pending_reconciliation_escalates_sample :
    ∃ out escalation,
      evaluateReconciliationResult sampleContext sampleResult sampleCommands [] 50 = .ok out ∧
      escalateManualReconciliation sampleContext out.evaluation
        [⟨sampleCommand, sampleUnconfirmed⟩] sampleEscalation = .ok escalation ∧
      ∃ transition ∈ escalation.commandTransitions, transition.commandId = "cmd" ∧
        transition.outcome.state.status = .manualReconciliationRequired := by
  have hrun : (evaluateReconciliationResult sampleContext sampleResult sampleCommands [] 50).toOption.map
      (fun out => (out.evaluation.disposition, out.evaluation.commandIds))
        = some (.pendingEvidence, ["cmd", "stray"]) := by decide +kernel
  obtain ⟨out, hout, hpair⟩ := Option.map_eq_some_iff.mp hrun
  rw [Prod.mk.injEq] at hpair
  obtain ⟨hpending, hids⟩ := hpair
  obtain ⟨escalation, hok, hescalates, -⟩ :=
    (pending_reconciliation_escalates sampleContext sampleCommands [⟨sampleCommand, sampleUnconfirmed⟩]
      sampleEscalation sample_advanced rfl (by decide +kernel) (by decide +kernel)
      (by decide +kernel)).1 sampleResult [] 50 out (ok_of_toOption hout) hpending (by decide)
  obtain ⟨transition, hmem, hescalated⟩ := hescalates.all ⟨sampleCommand, sampleUnconfirmed⟩
    (List.mem_singleton.mpr rfl) (by rw [hids]; exact List.mem_cons_self) rfl
  exact ⟨out, escalation, ok_of_toOption hout, hok, transition, hmem, hescalated.commandId,
    hescalated.manual⟩

end Sinan.Reconciliation
