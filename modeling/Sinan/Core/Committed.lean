import Sinan.Core.Built
import Sinan.Store.Fresh

/-!
# Committing an approval

The checks of the store on the workflow of a built bundle, and the tables it is written to.  Whatever
the builder returns for an approved workflow passes the checks, provided the intent was recorded at a
server time; it is written if no row has an identity that it derives from its intent.  So one pass
over an approved intent ends in a committed workflow exactly when the workflow is executable and these
identities are free.
-/

namespace Sinan.Core

open Lib Breaker Risk Execution Store Protocol

theorem sameOptionalF64Bits_self (q : Option ℚ) : sameOptionalF64Bits q q = true := by
  cases q with
  | none => rfl
  | some q => exact sameF64Bits_exact.mpr rfl

theorem initialCommandState_pristine {command : ExecutionCommand ℚ} {createdAt : Int}
    {state : ExecutionCommandState} (h : initialCommandState command createdAt = .ok state)
    (riskId : RiskId) :
    state.commandId = command.commandId ∧
      validateInitialCommandState state ⟨command, riskId, createdAt⟩ = .ok () := by
  simp only [initialCommandState, bind_ok, exists_unit, pure_ok] at h
  obtain ⟨-, -, -, rfl⟩ := h
  refine ⟨rfl, ?_⟩
  simp only [validateInitialCommandState, bind_ok, exists_unit, reject_ok]
  simp

section
variable {snapshot : TrustedRiskSnapshot ℚ} {context : TrustedRiskWorkflowContext ℚ}
  {evaluatedAt : Int} {hash : String} {assembled : AssembledRiskWorkflow ℚ} {result : RiskResult ℚ}
  {planned : List (PlannedLeg snapshot context)} {adjusted : List (AdjustedRiskLeg ℚ)}
  {bound : List (SizingCandidateProvenance ℚ)}

/-! ## one leg -/

section
variable {x : PlannedLeg snapshot context} {a : AdjustedRiskLeg ℚ} {b : BuiltLeg ℚ} {expiresAt : Int}

theorem BuiltFrom.fields (h : BuiltFrom evaluatedAt assembled result expiresAt x a b) :
    b.command.commandId = initialCommandId snapshot.intent.intent.intentId x.leg.legId ∧
      b.command.idempotencyKey =
        initialCommandIdempotencyKey snapshot.intent.intent.intentId x.leg.legId ∧
      b.command.planId = some (initialPlanId assembled.request.intent.intentId) ∧
      b.command.legId = some x.leg.legId ∧
      b.command.accountId = assembled.request.intent.accountId ∧
      b.command.strategyId = assembled.request.intent.strategyId ∧
      b.command.expiresAt = expiresAt := by
  have hcommand := h.command
  exact ⟨congrArg ExecutionCommand.commandId hcommand,
    congrArg ExecutionCommand.idempotencyKey hcommand, congrArg ExecutionCommand.planId hcommand,
    congrArg ExecutionCommand.legId hcommand, congrArg ExecutionCommand.accountId hcommand,
    congrArg ExecutionCommand.strategyId hcommand, congrArg ExecutionCommand.expiresAt hcommand⟩

theorem BuiltFrom.matches_leg (h : BuiltFrom evaluatedAt assembled result expiresAt x a b) :
    commandMatchesLeg b.command b.leg.definition = true := by
  have hcommand := h.command
  have hsymbol : b.command.symbol = x.leg.symbol := congrArg ExecutionCommand.symbol hcommand
  have haction : b.command.action = AdjustedRiskLegAction.toExecution x.action :=
    congrArg ExecutionCommand.action hcommand
  have hlots : b.command.lots = some a.lots := congrArg ExecutionCommand.lots hcommand
  have hsl : b.command.sl = some a.approvedSl := congrArg ExecutionCommand.sl hcommand
  have htp : b.command.tp = x.leg.proposedTp := congrArg ExecutionCommand.tp hcommand
  unfold commandMatchesLeg
  rw [h.leg, hsymbol, haction, hlots, hsl, htp]
  simp only [Bool.and_eq_true, beq_iff_eq, decide_eq_true_eq]
  exact ⟨⟨⟨⟨rfl, rfl⟩, sameOptionalF64Bits_self _⟩, sameOptionalF64Bits_self _⟩,
    sameOptionalF64Bits_self _⟩

end

theorem expectedIntentLegTp_planned (h : ApprovedWorkflow snapshot context evaluatedAt hash assembled
      result planned adjusted bound) {x : PlannedLeg snapshot context} (hx : x ∈ planned) :
    expectedIntentLegTp assembled.request.intent x.leg.legId = .ok x.leg.proposedTp := by
  have hlegs := h.legs
  have hmem : x.leg ∈ legsOf snapshot.intent.intent := by
    rw [hlegs]
    exact List.mem_map_of_mem hx
  have hids : ((legsOf snapshot.intent.intent).map TradeIntentLeg.legId).Nodup := by
    rw [hlegs, List.map_map]
    exact h.legsDistinct
  rw [← h.intent] at hmem hids
  unfold expectedIntentLegTp
  unfold legsOf at hmem hids
  cases hproposed : assembled.request.intent.proposedLegs with
  | some legs =>
    rw [hproposed] at hmem hids
    have hfind : legs.find? (fun leg => leg.legId == x.leg.legId) = some x.leg :=
      find_key_self hids hmem
    simp only [hfind]
  | none =>
    rw [hproposed] at hmem
    rw [List.mem_singleton.mp hmem, if_pos rfl]

theorem validatePlanLegGraph_planned (h : ApprovedWorkflow snapshot context evaluatedAt hash
      assembled result planned adjusted bound) {x : PlannedLeg snapshot context} (hx : x ∈ planned)
    {a : AdjustedRiskLeg ℚ} (ha : a ∈ adjusted) (hleg : ApprovedLeg x a) :
    validatePlanLegGraph adjusted bound assembled.request.intent
      (executionLeg x.intended a x.resolved).definition = .ok () := by
  have hadjusted := find_key_self h.adjustedDistinct ha
  rw [hleg.legId] at hadjusted
  have hbound : bound.find? (fun c => c.legId == x.leg.legId) = some x.candidate.provenance :=
    find_key_self h.boundDistinct (h.provenance x hx)
  have hmatches : legMatchesApproval (executionLeg x.intended a x.resolved).definition a
      x.candidate.provenance = true := by
    unfold legMatchesApproval
    simp only [Bool.and_eq_true, beq_iff_eq, decide_eq_true_eq]
    refine ⟨⟨⟨⟨⟨hleg.symbol.symm, rfl⟩, ?_⟩, sameF64Bits_exact.mpr rfl⟩, sameF64Bits_exact.mpr rfl⟩,
      sameF64Bits_exact.mpr rfl⟩
    rw [hleg.action]
    rfl
  simp only [validatePlanLegGraph, bind_ok, exists_unit, need_ok, reject_ok, Bool.not_eq_false]
  exact ⟨a, hadjusted, x.candidate.provenance, hbound, hmatches, x.leg.proposedTp,
    expectedIntentLegTp_planned h hx, sameOptionalF64Bits_self _⟩

/-! ## the approval -/

theorem expectedLegAction_planned (x : PlannedLeg snapshot context) :
    expectedLegAction x.leg.action = .ok x.action := by
  have hopens := x.opens
  unfold expectedLegAction
  cases haction : x.leg.action with
  | buy =>
    rw [haction] at hopens
    exact congrArg Except.ok (Option.some.inj hopens)
  | sell =>
    rw [haction] at hopens
    exact congrArg Except.ok (Option.some.inj hopens)
  | close =>
    rw [haction] at hopens
    cases hopens

theorem candidateFits_planned (x : PlannedLeg snapshot context) :
    candidateFits x.candidate.provenance x.leg.symbol x.action x.leg.ratio x.stop = true := by
  unfold candidateFits riskShapeNumberMatches
  simp only [Bool.and_eq_true, beq_iff_eq, decide_eq_true_eq]
  exact ⟨⟨⟨rfl, rfl⟩, sameF64Bits_exact.mpr rfl⟩, sameF64Bits_exact.mpr rfl⟩

theorem planned_not_close (x : PlannedLeg snapshot context) : x.leg.action ≠ .close := by
  intro hclose
  have hopens := x.opens
  rw [hclose] at hopens
  cases hopens

theorem validateApprovedSizingShape_planned (h : ApprovedWorkflow snapshot context evaluatedAt hash
      assembled result planned adjusted bound)
    (haction : assembled.request.intent.action = .buy ∨ assembled.request.intent.action = .sell) :
    validateApprovedSizingShape result assembled.request.intent = .ok () := by
  have hlegs := h.legs
  rw [← h.intent] at hlegs
  unfold legsOf at hlegs
  unfold validateApprovedSizingShape
  rw [bind_ok]
  refine ⟨bound, need_ok.mpr h.boundCandidates, ?_⟩
  cases hproposed : assembled.request.intent.proposedLegs with
  | some legs =>
    rw [hproposed] at hlegs
    obtain rfl : legs = planned.map PlannedLeg.leg := hlegs
    simp only [bind_ok, exists_unit, reject_ok, eachApart_key_ok]
    refine ⟨?_, ?_, ?_, ?_⟩
    · rintro ⟨leg, hleg, hclose⟩
      obtain ⟨x, -, rfl⟩ := List.mem_map.mp hleg
      exact planned_not_close x hclose
    · rw [List.length_map, h.boundLength]
      exact fun hne => hne rfl
    · rw [List.map_map]
      exact h.legsDistinct
    · intro leg hleg
      obtain ⟨x, hx, rfl⟩ := List.mem_map.mp hleg
      refine ⟨trivial, ?_⟩
      simp only [validateLegShape, bind_ok, need_ok, reject_ok, Bool.not_eq_false]
      exact ⟨x.candidate.provenance, find_key_self h.boundDistinct (h.provenance x hx), x.action,
        expectedLegAction_planned x, x.stop, x.stopGiven, candidateFits_planned x⟩
  | none =>
    rw [hproposed] at hlegs
    obtain ⟨x, rfl, hx⟩ := List.map_eq_singleton_iff.mp hlegs.symm
    obtain ⟨c, rfl⟩ := List.length_eq_one_iff.mp h.boundLength
    obtain rfl := List.mem_singleton.mp (h.provenance x List.mem_cons_self)
    have hopens := x.opens
    have hstop := x.stopGiven
    have hfits := candidateFits_planned x
    have hid : x.candidate.provenance.legId = singleLegId assembled.request.intent.intentId := by
      show x.leg.legId = _
      rw [hx]
    rw [hx] at hopens hstop hfits
    show validateSingleShape [x.candidate.provenance] assembled.request.intent = _
    simp only [validateSingleShape, bind_ok, need_ok, reject_ok, not_or, not_not,
      Bool.not_eq_false, ne_eq]
    refine ⟨x.action, ?_, x.stop, hstop, hid, hfits⟩
    rcases haction with haction | haction
    all_goals
      rw [haction] at hopens ⊢
      exact congrArg Except.ok (Option.some.inj hopens)

theorem validateNewRiskResult_planned (h : ApprovedWorkflow snapshot context evaluatedAt hash
      assembled result planned adjusted bound)
    (haction : assembled.request.intent.action = .buy ∨ assembled.request.intent.action = .sell) :
    validateNewRiskResult result assembled.request.intent = .ok () := by
  have hne := planned_ne_nil h
  have hsizing : hasActionableSizing result = true := by
    unfold hasActionableSizing
    rw [h.boundCandidates, h.adjustedLegs, Option.any_some, Option.any_some, Bool.and_eq_true,
      Bool.not_eq_true', Bool.not_eq_true', List.isEmpty_eq_false_iff, List.isEmpty_eq_false_iff]
    constructor
    · rintro rfl
      exact hne (List.length_eq_zero_iff.mp h.boundLength.symm)
    · rintro rfl
      exact hne (List.length_eq_zero_iff.mp h.adjustedLength.symm)
  have hnoClose : ¬ (result.approved = true ∧ assembled.request.intent.proposedLegs.any fun legs =>
      legs.any fun leg => decide (leg.action = .close)) := by
    rintro ⟨-, hany⟩
    obtain ⟨legs, hlegs, hclose⟩ := Option.any_eq_true _ _ |>.mp hany
    obtain ⟨leg, hleg, hclose⟩ := List.any_eq_true.mp hclose
    have hplanned := h.legs
    rw [← h.intent] at hplanned
    unfold legsOf at hplanned
    rw [hlegs] at hplanned
    obtain rfl : legs = planned.map PlannedLeg.leg := hplanned
    obtain ⟨x, -, rfl⟩ := List.mem_map.mp hleg
    exact planned_not_close x (of_decide_eq_true hclose)
  have hbyAction : validateSizingOfAction result assembled.request.intent = .ok () := by
    unfold validateSizingOfAction
    rcases haction with haction | haction
    all_goals
      rw [haction]
      show reject (result.approved = true ∧ hasActionableSizing result = false) _ = .ok ()
      rw [reject_ok, hsizing]
      exact fun hfalse => by cases hfalse.2
  have hwindow : validateApprovedWindow result assembled.request.intent = .ok () := by
    simp only [validateApprovedWindow, bind_ok, exists_unit, reject_ok, h.identity.evaluatedAt,
      not_lt, not_le]
    exact ⟨h.checked.requestedAt, h.checked.open_, h.checked.validUntil.2⟩
  simp only [validateNewRiskResult, bind_ok, exists_unit, reject_ok, invalidRecordOf_ok, not_or,
    ne_eq, not_not]
  refine ⟨h.valid, ⟨h.identity.accountId.symm, h.identity.decisionId.symm⟩, ?_⟩
  simp only [validateRiskResultIntentContract, bind_ok, exists_unit, reject_ok]
  refine ⟨hnoClose, hbyAction, ?_⟩
  rw [if_neg (by rw [h.approved]; exact Bool.true_eq_false.mp), if_pos haction]
  simp only [bind_ok, exists_unit]
  exact ⟨validateApprovedSizingShape_planned h haction, hwindow⟩

/-! ## the workflow of a bundle -/

section
variable {bundle : ExecutionBundle ℚ} {built : List (BuiltLeg ℚ)} {expiresAt : Int}

/-- the plan around the built legs -/
def planOf (context : TrustedRiskWorkflowContext ℚ) (evaluatedAt : Int)
    (assembled : AssembledRiskWorkflow ℚ) (result : RiskResult ℚ) (built : List (BuiltLeg ℚ)) :
    ExecutionPlan ℚ :=
  pendingPlan (buildRequest context evaluatedAt assembled result) (built.map BuiltLeg.leg)

theorem planOf_ids
    (h : List.Forall₂ (fun x b => ∃ a ∈ adjusted, BuiltFrom evaluatedAt assembled result expiresAt
      x a b) planned built) :
    (built.map BuiltLeg.leg).map (fun leg => leg.definition.legId) =
      planned.map fun x => x.leg.legId := by
  have hfirst := congrArg (List.map Prod.fst) (builtFrom_graph h)
  rw [List.map_map, List.map_map] at hfirst
  rw [List.map_map]
  exact hfirst

theorem commands_distinct {κ : Type} {key : ExecutionCommand ℚ → κ}
    (hnodup : (planned.map fun x => x.leg.legId).Nodup)
    (h : List.Forall₂ (fun x b => ∃ a ∈ adjusted, BuiltFrom evaluatedAt assembled result expiresAt
      x a b) planned built)
    {name : LegId → κ} (hname : ∀ {i j : LegId}, name i = name j → i = j)
    (hkey : ∀ (x : PlannedLeg snapshot context) a b,
      BuiltFrom evaluatedAt assembled result expiresAt x a b →
        key b.command = name x.leg.legId) : (built.map fun b => key b.command).Nodup := by
  have heq : (built.map fun b => key b.command) = planned.map fun x => name x.leg.legId := by
    clear hnodup
    induction h with
    | nil => rfl
    | cons hb _ ih =>
      obtain ⟨a, -, hb⟩ := hb
      rw [List.map_cons, List.map_cons, ih, hkey _ a _ hb]
  rw [heq]
  have hcompose : (planned.map fun x => name x.leg.legId) =
      (planned.map fun x => x.leg.legId).map name := by
    rw [List.map_map]
    rfl
  rw [hcompose]
  exact hnodup.map fun i j hij => hname hij

theorem commandGraph_planned (h : ApprovedWorkflow snapshot context evaluatedAt hash assembled result
      planned adjusted bound) (httl : 0 < context.executionPolicy.maxCommandTtlMs)
    (hbuilt : List.Forall₂ (fun x b => ∃ a ∈ adjusted, BuiltFrom evaluatedAt assembled result
      (commandExpiry (buildRequest context evaluatedAt assembled result)) x a b) planned built)
    {b : BuiltLeg ℚ} (hb : b ∈ built) :
    validateExecutionCommandGraph b.command assembled.request.riskId evaluatedAt
      (planOf context evaluatedAt assembled result built) assembled.request.riskId evaluatedAt result
      assembled.request.intent = .ok () := by
  obtain ⟨x, hx, a, ha, hfrom⟩ := forall₂_mem_right hbuilt hb
  obtain ⟨-, -, hplan, hleg, haccount, hstrategy, hexpires⟩ := hfrom.fields
  have hid : b.leg.definition.legId = x.leg.legId := by
    rw [hfrom.leg]
    rfl
  have hfind : (built.map BuiltLeg.leg).find? (fun leg => leg.definition.legId == x.leg.legId) =
      some b.leg := by
    have hnodup : ((built.map BuiltLeg.leg).map fun leg => leg.definition.legId).Nodup := by
      rw [planOf_ids hbuilt]
      exact h.legsDistinct
    have hself := find_key_self hnodup (List.mem_map_of_mem hb)
    rw [hid] at hself
    exact hself
  have hahead := commandExpiry_ahead h httl
  have hnow := h.checked.evaluatedAt
  have hevaluated := h.identity.evaluatedAt
  rw [h.evaluatedAt] at hnow hevaluated
  have hbefore : commandExpiry (buildRequest context evaluatedAt assembled result) ≤
      min assembled.request.intent.signalExpiresAt result.validUntil := min_le_left _ _
  have hsignal := hbefore.trans (min_le_left _ _)
  have huntil := hbefore.trans (min_le_right _ _)
  simp only [validateExecutionCommandGraph, bind_ok, exists_unit, need_ok, reject_ok, not_or,
    not_not, ne_eq, Bool.not_eq_false]
  refine ⟨_, hplan, _, hleg, b.leg, hfind, ⟨rfl, trivial, h.identity.riskId.symm, haccount, ?_, haccount,
    hstrategy, hstrategy⟩, hfrom.matches_leg, ?_, ?_⟩
  · rw [haccount, h.identity.accountId]
  · rw [hexpires, hevaluated]
    omega
  · unfold isLowerHex64
    rw [hfrom.hmac.1, hfrom.hmac.2]
    rfl

theorem validateWorkflowRows_planned (h : ApprovedWorkflow snapshot context evaluatedAt hash assembled
      result planned adjusted bound) (httl : 0 < context.executionPolicy.maxCommandTtlMs)
    (hbuilt : List.Forall₂ (fun x b => ∃ a ∈ adjusted, BuiltFrom evaluatedAt assembled result
      (commandExpiry (buildRequest context evaluatedAt assembled result)) x a b) planned built) :
    validateWorkflowRows (newExecutionWorkflow evaluatedAt assembled result
      ⟨planOf context evaluatedAt assembled result built, built.map BuiltLeg.command,
        built.map BuiltLeg.state⟩) = .ok () := by
  have hcommands : (newExecutionWorkflow evaluatedAt assembled result
      ⟨planOf context evaluatedAt assembled result built, built.map BuiltLeg.command,
        built.map BuiltLeg.state⟩).commands =
          built.map fun b => ⟨b.command, assembled.request.riskId, evaluatedAt⟩ := by
    show (built.map BuiltLeg.command).map _ = _
    rw [List.map_map]
    rfl
  have hids : (built.map fun b => b.command.commandId).Nodup :=
    commands_distinct h.legsDistinct hbuilt initialCommandId_inj fun x a b hb => hb.fields.1
  have hkeys : (built.map fun b => b.command.idempotencyKey).Nodup :=
    commands_distinct h.legsDistinct hbuilt initialCommandIdempotencyKey_inj
      fun x a b hb => hb.fields.2.1
  have hlegs : (built.map fun b => b.command.legId).Nodup :=
    commands_distinct h.legsDistinct hbuilt Option.some.inj fun x a b hb => hb.fields.2.2.2.1
  have hpristine : ∀ b ∈ built, b.state.commandId = b.command.commandId ∧
      validateInitialCommandState b.state ⟨b.command, assembled.request.riskId, evaluatedAt⟩ =
        .ok () := by
    intro b hb
    obtain ⟨x, -, a, -, hfrom⟩ := forall₂_mem_right hbuilt hb
    exact initialCommandState_pristine hfrom.state _
  have hstateIds : (built.map BuiltLeg.state).map ExecutionCommandState.commandId =
      built.map fun b => b.command.commandId := by
    rw [List.map_map]
    exact List.map_congr_left fun b hb => (hpristine b hb).1
  simp only [validateWorkflowRows, bind_ok, exists_unit, reject_ok, each_ok, need_ok,
    eachApart_key_ok, not_or, not_not, ne_eq]
  refine ⟨?_, ⟨?_, ?_⟩, ⟨?_, fun _ _ => ⟨trivial, trivial⟩⟩, ?_, ?_⟩
  · rw [hcommands]
    refine validateNewCommands_ok.mpr ⟨fun c hc => ⟨?_, fun _ ho => absurd ho List.not_mem_nil⟩, ?_⟩
    · obtain ⟨b, hb, rfl⟩ := List.mem_map.mp hc
      exact commandGraph_planned h httl hbuilt hb
    · have hapart := (List.pairwise_map.mp hids).and
        ((List.pairwise_map.mp hkeys).and (List.pairwise_map.mp hlegs))
      exact List.pairwise_map.mpr hapart
  · rw [hcommands, List.length_map]
    exact (List.length_map _).symm
  · rw [Bool.not_eq_true, List.any_eq_false]
    intro leg hleg
    obtain ⟨b, hb, rfl⟩ := List.mem_map.mp hleg
    rw [Bool.not_eq_true, Bool.not_eq_false', hcommands, List.any_map, List.any_eq_true]
    obtain ⟨x, -, a, -, hfrom⟩ := forall₂_mem_right hbuilt hb
    refine ⟨b, hb, beq_iff_eq.mpr ?_⟩
    rw [hfrom.leg]
    exact hfrom.fields.2.2.2.1
  · show ((built.map BuiltLeg.state).map ExecutionCommandState.commandId).Nodup
    rw [hstateIds]
    exact hids
  · rw [hcommands, List.length_map]
    exact List.length_map _
  · rw [hcommands]
    intro c hc
    obtain ⟨b, hb, rfl⟩ := List.mem_map.mp hc
    refine ⟨b.state, ?_, (hpristine b hb).2⟩
    show (built.map BuiltLeg.state).find? (fun s => s.commandId == b.command.commandId) = _
    rw [← (hpristine b hb).1]
    refine find_key_self ?_ (List.mem_map_of_mem hb)
    rw [hstateIds]
    exact hids

theorem planGraph_planned (h : ApprovedWorkflow snapshot context evaluatedAt hash assembled result
      planned adjusted bound)
    (haction : assembled.request.intent.action = .buy ∨ assembled.request.intent.action = .sell)
    (hbuilt : List.Forall₂ (fun x b => ∃ a ∈ adjusted, BuiltFrom evaluatedAt assembled result
      expiresAt x a b) planned built) :
    validateExecutionPlanGraph (planOf context evaluatedAt assembled result built)
      assembled.request.riskId assembled.request.intent.intentId evaluatedAt result
      { intent := assembled.request.intent, status := .accepted } = .ok () := by
  have hwindow := h.checked.validUntil
  have hopen := h.checked.open_
  have hevaluated := h.identity.evaluatedAt
  rw [h.evaluatedAt] at hwindow hopen hevaluated
  have hlength : (built.map BuiltLeg.leg).length = planned.length := by
    rw [List.length_map, hbuilt.length_eq]
  simp only [validateExecutionPlanGraph, validatePlanHeaderGraph, bind_ok, exists_unit, reject_ok,
    need_ok, each_ok, not_or, not_not, ne_eq, Bool.not_eq_false]
  refine ⟨⟨⟨h.identity.riskId, h.identity.intentId, trivial, h.identity.accountId, rfl, rfl,
    h.identity.decisionId⟩, trivial, h.approved, ?_, ?_⟩, adjusted, h.adjustedLegs, bound,
    h.boundCandidates, ⟨?_, ?_⟩, ?_⟩
  · rw [hevaluated]
    omega
  · rintro ⟨hbuy, hsell⟩
    exact haction.elim hbuy hsell
  · exact h.adjustedLength.trans hlength.symm
  · exact h.boundLength.trans hlength.symm
  · intro leg hleg
    obtain ⟨_, hmem, rfl⟩ := List.mem_map.mp hleg
    obtain ⟨b, hb, rfl⟩ := List.mem_map.mp hmem
    obtain ⟨x, hx, a, ha, hfrom⟩ := forall₂_mem_right hbuilt hb
    rw [hfrom.leg]
    exact validatePlanLegGraph_planned h hx ha hfrom.approval

end

/-! ## the rows of a bundle -/

section
variable {P : Type} {t : WorkflowTables P ℚ} {built : List (BuiltLeg ℚ)} {expiresAt : Int}

/-- the workflow of the built legs -/
def workflowOf (context : TrustedRiskWorkflowContext ℚ) (evaluatedAt : Int)
    (assembled : AssembledRiskWorkflow ℚ) (result : RiskResult ℚ) (built : List (BuiltLeg ℚ)) :
    NewExecutionWorkflow ℚ :=
  newExecutionWorkflow evaluatedAt assembled result
    ⟨planOf context evaluatedAt assembled result built, built.map BuiltLeg.command,
      built.map BuiltLeg.state⟩

/-- no row has an identity that a workflow derives from its intent -/
structure IdsFree (intent : TradeIntent ℚ) (t : WorkflowTables P ℚ) : Prop where
  risk : t.risks.get (initialRiskId intent.intentId) = none
  plan : t.plans.get (initialPlanId intent.intentId) = none
  legs : ∀ leg ∈ legsOf intent, t.legs.get leg.legId = none
  commands : ∀ leg ∈ legsOf intent,
    t.commands.get (initialCommandId intent.intentId leg.legId) = none ∧
      t.commands.seek (initialCommandIdempotencyKey intent.intentId leg.legId) = none

/-- The workflow of a built bundle passes the checks when its intent was recorded at a server time. -/
theorem checked_planned (h : ApprovedWorkflow snapshot context evaluatedAt hash assembled result
      planned adjusted bound)
    (haction : assembled.request.intent.action = .buy ∨ assembled.request.intent.action = .sell)
    (httl : 0 < context.executionPolicy.maxCommandTtlMs)
    (hplan : (planOf context evaluatedAt assembled result built).validate = .ok ())
    (hbuilt : List.Forall₂ (fun x b => ∃ a ∈ adjusted, BuiltFrom evaluatedAt assembled result
      (commandExpiry (buildRequest context evaluatedAt assembled result)) x a b) planned built)
    (hcreated : 0 ≤ snapshot.intent.createdAt) :
    WorkflowChecked (workflowOf context evaluatedAt assembled result built) := by
  have hnow := h.checked.evaluatedAt
  rw [h.evaluatedAt] at hnow
  rw [← h.createdAt] at hcreated
  have hpending : ¬ ∃ leg ∈ built.map BuiltLeg.leg, leg.state.status ≠ .pending := by
    rintro ⟨leg, hleg, hstatus⟩
    obtain ⟨b, hb, rfl⟩ := List.mem_map.mp hleg
    obtain ⟨x, -, a, -, hfrom⟩ := forall₂_mem_right hbuilt hb
    rw [hfrom.leg] at hstatus
    exact hstatus rfl
  refine ⟨?_, ?_, validateNewRiskResult_planned h haction, ?_⟩
  · refine reject_ok.mpr ?_
    rw [not_or, not_lt, gt_iff_lt, not_lt]
    exact h.checked.decided
  · simp only [validateNewExecutionWorkflow, validateWorkflowGraph, bind_ok, exists_unit,
      invalidRecordOf_ok, reject_ok, not_lt]
    refine ⟨fun hne => hne rfl, hcreated, ?_, validateWorkflowRows_planned h httl hbuilt⟩
    rintro (hne | hne | hne)
    · exact hne rfl
    · exact hne h.identity.riskId.symm
    · exact hne h.identity.intentId
  · simp only [validateNewExecutionPlan, bind_ok, exists_unit, invalidRecordOf_ok, reject_ok, not_lt]
    refine ⟨hplan, hnow, ?_, planGraph_planned h haction hbuilt⟩
    rintro (hne | hne | hne | hne)
    · exact hne rfl
    · exact hne rfl
    · exact hne rfl
    · exact hpending hne

theorem createdAt_of_checked {bundle : ExecutionBundle ℚ}
    (h : ApprovedWorkflow snapshot context evaluatedAt hash assembled result planned adjusted bound)
    (hvalid : validateNewExecutionWorkflow
      (newExecutionWorkflow evaluatedAt assembled result bundle) = .ok ()) :
    0 ≤ snapshot.intent.createdAt := by
  simp only [validateNewExecutionWorkflow, validateWorkflowGraph, bind_ok, exists_unit,
    invalidRecordOf_ok, reject_ok, not_lt] at hvalid
  rw [← h.createdAt]
  exact hvalid.2.1

theorem room_planned (h : ApprovedWorkflow snapshot context evaluatedAt hash assembled result planned
      adjusted bound)
    (hrisk : assembled.request.riskId = initialRiskId snapshot.intent.intent.intentId)
    (hbuilt : List.Forall₂ (fun x b => ∃ a ∈ adjusted, BuiltFrom evaluatedAt assembled result expiresAt
      x a b) planned built) :
    Room (workflowOf context evaluatedAt assembled result built) t ↔
      IdsFree snapshot.intent.intent t := by
  have hplanId : (workflowOf context evaluatedAt assembled result built).plan.planId =
      initialPlanId snapshot.intent.intent.intentId :=
    congrArg (fun intent : TradeIntent ℚ => initialPlanId intent.intentId) h.intent
  have hriskId := h.identity.riskId.trans hrisk
  -- the legs of the plan and the commands are those of the intent
  have hleg : ∀ x ∈ planned, ∃ b ∈ built, b.leg.definition.legId = x.leg.legId ∧
      b.command.commandId = initialCommandId snapshot.intent.intent.intentId x.leg.legId ∧
      b.command.idempotencyKey =
        initialCommandIdempotencyKey snapshot.intent.intent.intentId x.leg.legId := by
    intro x hx
    obtain ⟨b, hb, a, -, hfrom⟩ := forall₂_mem_left hbuilt hx
    exact ⟨b, hb, by rw [hfrom.leg]; rfl, hfrom.fields.1, hfrom.fields.2.1⟩
  have hbuiltLeg : ∀ b ∈ built, ∃ x ∈ planned, b.leg.definition.legId = x.leg.legId ∧
      b.command.commandId = initialCommandId snapshot.intent.intent.intentId x.leg.legId ∧
      b.command.idempotencyKey =
        initialCommandIdempotencyKey snapshot.intent.intent.intentId x.leg.legId := by
    intro b hb
    obtain ⟨x, hx, a, -, hfrom⟩ := forall₂_mem_right hbuilt hb
    exact ⟨x, hx, by rw [hfrom.leg]; rfl, hfrom.fields.1, hfrom.fields.2.1⟩
  constructor
  · intro hroom
    refine ⟨hriskId ▸ hroom.risk, hplanId ▸ hroom.plan, fun leg hmem => ?_, fun leg hmem => ?_⟩
    all_goals
      rw [h.legs] at hmem
      obtain ⟨x, hx, rfl⟩ := List.mem_map.mp hmem
      obtain ⟨b, hb, hid, hcommand, hkey⟩ := hleg x hx
    · exact hid ▸ hroom.legs b.leg (List.mem_map_of_mem hb)
    · rw [← hcommand, ← hkey]
      exact hroom.commands _ (List.mem_map_of_mem (List.mem_map_of_mem hb))
  · intro hfree
    refine ⟨hriskId ▸ hfree.risk, hplanId ▸ hfree.plan, fun leg hmem => ?_, fun c hmem => ?_⟩
    · obtain ⟨b, hb, rfl⟩ := List.mem_map.mp hmem
      obtain ⟨x, hx, hid, -, -⟩ := hbuiltLeg b hb
      rw [hid]
      exact hfree.legs x.leg (h.legs ▸ List.mem_map_of_mem hx)
    · obtain ⟨_, hcommand, rfl⟩ := List.mem_map.mp hmem
      obtain ⟨b, hb, rfl⟩ := List.mem_map.mp hcommand
      obtain ⟨x, hx, -, hid, hkey⟩ := hbuiltLeg b hb
      show t.commands.get b.command.commandId = none ∧
        t.commands.seek b.command.idempotencyKey = none
      rw [hid, hkey]
      exact hfree.commands x.leg (h.legs ▸ List.mem_map_of_mem hx)

end

end

/-! ## one pass over an approved intent -/

theorem liftStage_ok {ε α : Type} {wrap : ε → RiskWorkflowError ℚ} {check : Except ε α} {value : α} :
    liftStage wrap check = .ok value ↔ check = .ok value := by
  cases check with
  | error e => exact ⟨fun h => (by cases h), fun h => (by cases h)⟩
  | ok a => exact ⟨fun h => by cases h; rfl, fun h => by cases h; rfl⟩

/-- the row of a loaded intent -/
def PendingIntent.row {F : Type} (pending : PendingIntent F) : IntentRow F :=
  ⟨pending.toStoredTradeIntent, pending.createdAt, pending.createdAt⟩

/-- the intent of the snapshot waits in the tables -/
structure Waiting {P : Type} (snapshot : TrustedRiskSnapshot ℚ) (t : WorkflowTables P ℚ) : Prop where
  row : snapshot.intent.row ∈ t.intents.rows
  accepted : snapshot.intent.status = .accepted
  noResult : ∀ result ∈ t.risks.rows, result.intentId ≠ snapshot.intent.intent.intentId

section
variable {P : Type} [DecidableEq P] (codec : JournalCodec P ℚ)
  (decode : String → Option CircuitBreakerSnapshotV1) (mac : Mac) (digest : RequestDigest ℚ)
  (snapshot : TrustedRiskSnapshot ℚ) (evaluatedAt : Int) (context : TrustedRiskWorkflowContext ℚ)
  (assembled : AssembledRiskWorkflow ℚ) (result : RiskResult ℚ) (t : WorkflowTables P ℚ)

/-- the approval is built, the store accepts its workflow, and the pass ends with its rows -/
def Commits : Prop :=
  ∃ bundle t',
    buildExecution mac digest (buildRequest context evaluatedAt assembled result) =
      .ok (.built bundle) ∧
    validateNewExecutionWorkflow (newExecutionWorkflow evaluatedAt assembled result bundle) =
      .ok () ∧
    validateExecutionPlanGraph bundle.plan assembled.request.riskId
      assembled.request.intent.intentId evaluatedAt result
      { intent := assembled.request.intent, status := .accepted } = .ok () ∧
    (∀ command ∈ (newExecutionWorkflow evaluatedAt assembled result bundle).commands,
      validateNewExecutionCommandGraph (newExecutionWorkflow evaluatedAt assembled result bundle)
        command = .ok ()) ∧
    finishInTransaction codec decode mac digest snapshot evaluatedAt context t =
      (.ok (.executionReady result bundle.plan bundle.commands), t') ∧
    Held codec (newExecutionWorkflow evaluatedAt assembled result bundle) t'

/-- the pass ends in an error, and the tables are what they were -/
def RollsBack : Prop :=
  ∃ error, finishInTransaction codec decode mac digest snapshot evaluatedAt context t =
    (.error error, t)

end

section
variable {P : Type} [DecidableEq P] {codec : JournalCodec P ℚ}
  {decode : String → Option CircuitBreakerSnapshotV1} {mac : Mac} {digest : RequestDigest ℚ}
  {snapshot : TrustedRiskSnapshot ℚ} {evaluatedAt : Int} {context : TrustedRiskWorkflowContext ℚ}
  {assembled : AssembledRiskWorkflow ℚ} {result : RiskResult ℚ} {t t' : WorkflowTables P ℚ}

theorem assembled_riskId
    (h : assembleRiskRequest decode snapshot evaluatedAt context = .ok assembled) :
    assembled.request.riskId = initialRiskId snapshot.intent.intent.intentId := by
  simp only [assembleRiskRequest, bind_ok, exists_unit, pure_ok] at h
  obtain ⟨_, -, -, _, -, _, -, rfl⟩ := h
  rfl

theorem finishInTransaction_approved
    (hassembled : assembleRiskRequest decode snapshot evaluatedAt context = .ok assembled)
    (hresult : evaluate digest assembled.request assembled.breaker = .ok result)
    (happroved : result.approved = true)
    (haction : assembled.request.intent.action = .buy ∨ assembled.request.intent.action = .sell)
    {outcome : RiskWorkflowOutcome ℚ} :
    finishInTransaction codec decode mac digest snapshot evaluatedAt context t = (.ok outcome, t') ↔
      ∃ bundle, buildExecution mac digest (buildRequest context evaluatedAt assembled result) =
          .ok (.built bundle) ∧
        (∃ written, commitExecutionWorkflowOn codec
          (newExecutionWorkflow evaluatedAt assembled result bundle) t = (.ok written, t')) ∧
        outcome = .executionReady result bundle.plan bundle.commands := by
  have hnow : 0 ≤ evaluatedAt := by
    have hchecked := (evaluate_opened hresult happroved haction).1.evaluatedAt
    rw [(assembled_request hassembled).2.2.1] at hchecked
    exact hchecked
  have hactionable : ¬ (result.approved = false ∨ assembled.request.intent.action = .hold) := by
    rw [happroved]
    rintro (hfalse | hhold)
    · exact Bool.noConfusion hfalse
    · rw [hhold] at haction
      exact haction.elim (fun h => (by cases h)) fun h => (by cases h)
  have hstarted : validateEvaluatedAt (F := ℚ) evaluatedAt = .ok () := reject_ok.mpr (Int.not_lt.mpr hnow)
  have hevaluated : liftStage RiskWorkflowError.riskEvaluation
      (evaluate digest assembled.request assembled.breaker) = .ok result := liftStage_ok.mpr hresult
  unfold finishInTransaction
  rw [Script.savepoint_run]
  unfold processInTransaction
  rw [Script.query_success (s := t) hstarted, Script.query_success (s := t) hassembled,
    Script.query_success (s := t) hevaluated, if_neg hactionable]
  simp only [Script.bind_run, Script.query_run, liftStage_ok]
  constructor
  · rintro ⟨built, _, ⟨hbuilt, rfl⟩, hcommit⟩
    cases built with
    | noOp =>
      -- only a HOLD is built as a no-op
      exfalso
      unfold buildExecution at hbuilt
      rw [bind_ok] at hbuilt
      obtain ⟨-, -, hbuilt⟩ := hbuilt
      have hrequest : (buildRequest context evaluatedAt assembled result).riskRequest.intent.action =
          assembled.request.intent.action := rfl
      rw [hrequest] at hbuilt
      rcases haction with haction | haction
      all_goals
        rw [haction] at hbuilt
        simp only [assemble, bind_ok, pure_ok, reduceCtorEq, and_false,
          exists_false] at hbuilt
    | built bundle =>
      simp only [Script.bind_run, Script.mapError_run, Script.pure_run] at hcommit
      obtain ⟨written, _, hcommit, rfl, rfl⟩ := hcommit
      exact ⟨bundle, hbuilt, ⟨written, hcommit⟩, rfl⟩
  · rintro ⟨bundle, hbuilt, ⟨written, hcommit⟩, rfl⟩
    refine ⟨.built bundle, t, ⟨hbuilt, rfl⟩, ?_⟩
    simp only [Script.bind_run, Script.mapError_run, Script.pure_run]
    exact ⟨written, t', hcommit, trivial, rfl⟩

/-- Under a well configured context a pass over an approved BUY or SELL that waits in the tables
commits its execution when the workflow is executable, its intent was recorded at a server time and
the identities it derives are free; in every other case it rolls back. -/
theorem approved_commits_iff
    (hassembled : assembleRiskRequest decode snapshot evaluatedAt context = .ok assembled)
    (hresult : evaluate digest assembled.request assembled.breaker = .ok result)
    (happroved : result.approved = true)
    (haction : assembled.request.intent.action = .buy ∨ assembled.request.intent.action = .sell)
    (hconfigured : WellConfigured context assembled.resolvedLegs) (hcodec : codec.Lawful)
    (hkeys : ForeignKeys t) (hwaiting : Waiting snapshot t) :
    (Commits codec decode mac digest snapshot evaluatedAt context assembled result t ↔
      Executable snapshot context evaluatedAt assembled.resolvedLegs
        (result.adjustedLegs.getD []) ∧ 0 ≤ snapshot.intent.createdAt ∧
      IdsFree snapshot.intent.intent t) ∧
    (RollsBack codec decode mac digest snapshot evaluatedAt context t ↔
      ¬ Commits codec decode mac digest snapshot evaluatedAt context assembled result t) := by
  obtain ⟨planned, adjusted, bound, h⟩ :=
    approved_workflow hassembled hresult happroved haction
  have hcommits : ∀ outcome t', finishInTransaction codec decode mac digest snapshot evaluatedAt
      context t = (.ok outcome, t') →
      Commits codec decode mac digest snapshot evaluatedAt context assembled result t := by
    intro outcome t' houtcome
    obtain ⟨bundle, hbuilt, ⟨written, hwritten⟩, rfl⟩ :=
      (finishInTransaction_approved hassembled hresult happroved haction).mp houtcome
    obtain ⟨-, built, rfl, hfrom⟩ := bundle_planned h hbuilt
    obtain ⟨_, c, -⟩ := commitExecutionWorkflowOn_ok.mp hwritten
    refine ⟨_, t', hbuilt, c.valid, planGraph_planned h haction hfrom, ?_, houtcome,
      held_of_read c.read⟩
    intro command hcommand
    obtain ⟨c, hc, rfl⟩ := List.mem_map.mp hcommand
    obtain ⟨b, hb, rfl⟩ := List.mem_map.mp hc
    exact commandGraph_planned h hconfigured.commandTtl hfrom hb
  refine ⟨⟨?_, ?_⟩, ⟨?_, ?_⟩⟩
  · rintro ⟨bundle, t', hbuilt, hvalid, -, -, hdone, -⟩
    obtain ⟨bundle', hbuilt', ⟨written, hwritten⟩, -⟩ :=
      (finishInTransaction_approved hassembled hresult happroved haction).mp hdone
    rw [hbuilt] at hbuilt'
    cases hbuilt'
    obtain ⟨-, built, rfl, hfrom⟩ := bundle_planned h hbuilt
    rw [h.adjustedLegs, Option.getD_some]
    refine ⟨(buildExecution_planned h haction hconfigured).mp ⟨_, hbuilt⟩,
      createdAt_of_checked h hvalid, (room_planned h (assembled_riskId hassembled) hfrom).mp ?_⟩
    refine room_of_commit hkeys (fun row hrow hsame => hwaiting.noResult row hrow ?_) hwritten
    rw [hsame, ← h.intent]
    exact h.identity.intentId
  · rintro ⟨hexecutable, hcreated, hfree⟩
    rw [h.adjustedLegs, Option.getD_some] at hexecutable
    obtain ⟨bundle, hbuilt⟩ := (buildExecution_planned h haction hconfigured).mpr hexecutable
    obtain ⟨hplan, built, rfl, hfrom⟩ := bundle_planned h hbuilt
    have hchecked := checked_planned h haction hconfigured.commandTtl hplan hfrom hcreated
    have hrow : (workflowOf context evaluatedAt assembled result built).intent.row ∈
        t.intents.rows := by
      have hstored : snapshot.intent.toStoredTradeIntent = ⟨assembled.request.intent, .accepted⟩ := by
        rw [h.intent, ← hwaiting.accepted]
      have hsame : snapshot.intent.row =
          (workflowOf context evaluatedAt assembled result built).intent.row := by
        unfold PendingIntent.row
        rw [hstored, ← h.createdAt]
        rfl
      exact hsame ▸ hwaiting.row
    obtain ⟨stored, t', hwritten⟩ := commit_fresh hcodec hchecked hkeys hrow
      ((room_planned h (assembled_riskId hassembled) hfrom).mpr hfree)
    exact hcommits _ t' ((finishInTransaction_approved hassembled hresult happroved haction).mpr
      ⟨_, hbuilt, ⟨_, hwritten⟩, rfl⟩)
  · rintro ⟨error, herror⟩ ⟨bundle, t', -, -, -, -, hdone, -⟩
    rw [herror] at hdone
    cases hdone
  · intro hnot
    cases hrun : finishInTransaction codec decode mac digest snapshot evaluatedAt context t with
    | mk outcome t' =>
      cases outcome with
      | ok outcome => exact absurd (hcommits outcome t' hrun) hnot
      | error error => exact ⟨error, hrun.trans (congrArg _ (Script.savepoint_error hrun))⟩

end

/-! ## gold and silver, and gold without a target

Each order is a stored intent, under a resolver that sends market orders.  A take profit of zero is
what a client without a target may send: the evaluator does not look at it. -/

/-- the request as the store would have loaded it -/
def snapshotOf (request : RiskRequest ℚ) : TrustedRiskSnapshot ℚ where
  intent := { intent := request.intent, status := .accepted, createdAt := 9600 }
  account := request.account
  checkpoint :=
    { positionsObservedAt := 9900, ordersObservedAt := 9900
      pendingCommandsReconciledAt := some 9900 }
  positions := []
  orders := []
  symbolMetadata := request.symbolMetadata
  markets := request.markets
  pendingCommands := []
  circuitBreaker := some "breaker-1"
  capacity := request.capacity

/-- the tables in which only the intent is stored -/
def tablesOf (request : RiskRequest ℚ) :
    WorkflowTables (ExecutionPlanJournal ℚ ⊕ ExecutionLegDefinition ℚ) ℚ where
  intents := (Table.empty.insert (snapshotOf request).intent.row).getD .empty
  risks := .empty
  plans := .empty
  legs := .empty
  commands := .empty
  states := .empty

/-- a payload is the value itself -/
def treeCodec : JournalCodec (ExecutionPlanJournal ℚ ⊕ ExecutionLegDefinition ℚ) ℚ where
  plan := Sum.getLeft?
  leg := Sum.getRight?
  canonical definition := some (.inr definition)
  journal journal := .ok (.inl journal)

theorem treeCodec_lawful : treeCodec.Lawful :=
  ⟨fun definition => ⟨.inr definition, rfl, rfl⟩, fun journal => ⟨.inl journal, rfl, rfl⟩⟩

/-- the stored payload is that of a breaker which never tripped -/
def goldDecode (_ : String) : Option CircuitBreakerSnapshotV1 :=
  some CircuitBreakerState.new.durableSnapshotV1

def goldContext : TrustedRiskWorkflowContext ℚ where
  riskPolicy := goldRequest.policy
  strategyPolicy := goldRequest.strategyPolicy
  executionPolicy := goldBuild.policy
  executionResolver := fun _ _ =>
    .ok { dependency := [], terminalId := some "terminal-1", clientId := none, orderType := .market
          price := none, deviationPoints := none, magic := 7, comment := none
          fillingPolicy := some .fok, timePolicy := none, expirationTime := none
          estimatedCostPerLot := 0 }
  signingSecret := goldBuild.signingSecret
  secretGiven := rfl

def resolvedOf (legId : LegId) : ResolvedLegExecution ℚ :=
  { goldLeg with
    legId := legId
    commandId := initialCommandId "intent-1" legId
    idempotencyKey := initialCommandIdempotencyKey "intent-1" legId
    deviationPoints := none }

def assembledOf (request : RiskRequest ℚ) (legIds : List LegId) : AssembledRiskWorkflow ℚ where
  request :=
    { request with
      requestId := "risk-request:intent-1:initial"
      riskId := "risk:intent-1:initial"
      decision := decisionOf request.intent }
  breaker := CircuitBreakerState.new
  resolvedLegs := legIds.map resolvedOf
  intentCreatedAt := 9600

def approvalOf (result : RiskResult ℚ) : RiskResult ℚ :=
  { result with requestId := "risk-request:intent-1:initial", riskId := "risk:intent-1:initial" }

theorem resolvedOf_configured (legIds : List LegId) :
    WellConfigured goldContext (legIds.map resolvedOf) := by
  refine ⟨by decide, by decide, ?_, ⟨fun _ => 0, ?_⟩, ?_⟩
  all_goals
    intro r hr
    obtain ⟨legId, -, rfl⟩ := List.mem_map.mp hr
  · exact ⟨List.nodup_nil, fun d hd => absurd hd List.not_mem_nil⟩
  · exact fun d hd => absurd hd List.not_mem_nil
  · exact fun _ => rfl

theorem tablesOf_waiting (request : RiskRequest ℚ) : Waiting (snapshotOf request) (tablesOf request) :=
  ⟨List.mem_singleton.mpr rfl, rfl, fun _ hresult => absurd hresult List.not_mem_nil⟩

theorem tablesOf_keys (request : RiskRequest ℚ) : ForeignKeys (tablesOf request) :=
  ⟨fun _ h => absurd h List.not_mem_nil, fun _ h => absurd h List.not_mem_nil,
    fun _ h => absurd h List.not_mem_nil, fun _ h => absurd h List.not_mem_nil⟩

theorem tablesOf_free (request : RiskRequest ℚ) (intent : TradeIntent ℚ) :
    IdsFree intent (tablesOf request) :=
  ⟨rfl, rfl, fun _ _ => rfl, fun _ _ => ⟨rfl, rfl⟩⟩

theorem metal_signable {metadata : SymbolMetadataSnapshot ℚ} {lots stop : ℚ} {target : Option ℚ}
    (hdigits : metadata.digits = 2) (hstep : metadata.volumeStep = 1 / 100)
    (hlots : ∃ k : Int, lots = k * (1 / 100) ∧ |k| ≤ 1000)
    (hprice : ∀ v, v = stop ∨ v ∈ target → ∃ n : Int, v * 100 = n ∧ |n| ≤ 1000000) :
    Signable metadata lots stop target none := by
  have hfixed : ∀ v, v = stop ∨ v ∈ target → FixedDecimal v metadata.digits := by
    intro v hv
    obtain ⟨n, hn, hbound⟩ := hprice v hv
    rw [hdigits]
    have hscaled : v * 10 ^ 2 = n := by
      rw [← hn]
      norm_num
    refine ⟨⟨n, hscaled⟩, ?_⟩
    have habs : |v| * 10 ^ 2 = |((n : Int) : ℚ)| := by
      rw [← hscaled, abs_mul]
      norm_num
    rw [habs]
    have hcast : |((n : Int) : ℚ)| ≤ 1000000 := by exact_mod_cast hbound
    exact hcast.trans (by norm_num [maxSafeScaledInteger])
  obtain ⟨k, rfl, hk⟩ := hlots
  refine ⟨by rw [hdigits]; decide, ⟨2, 1, k, ?_, whole_units rfl (by norm_num), ?_⟩,
    hfixed stop (.inl rfl), fun v hv => hfixed v (.inr hv), fun v hv => (by cases hv)⟩
  · rw [hstep]
    decide +kernel
  · have hcast : |((k : Int) : ℚ)| ≤ 1000 := by exact_mod_cast hk
    rw [abs_mul]
    norm_num [maxSafeScaledInteger]
    linarith

theorem pair_executable : Executable (snapshotOf pairRequest) goldContext 10000
    (["leg-gold", "leg-silver"].map resolvedOf) ((approvalOf pairResult).adjustedLegs.getD []) := by
  have hgold : Signable goldMetadata (1 / 20) 1990 (some (4041 / 2)) none := by
    refine metal_signable rfl rfl ⟨5, by norm_num, by norm_num⟩ ?_
    rintro v (rfl | hv)
    · exact ⟨199000, by norm_num, by norm_num⟩
    · cases hv
      exact ⟨202050, by norm_num, by norm_num⟩
  have hsilver : Signable silverMetadata (1 / 4) 26 none none := by
    refine metal_signable rfl rfl ⟨25, by norm_num, by norm_num⟩ ?_
    rintro v (rfl | hv)
    · exact ⟨2600, by norm_num, by norm_num⟩
    · cases hv
  refine ⟨by decide, by decide, ?_, ?_, ?_, ?_, ?_, ?_⟩
  · intro _ r hr
    obtain ⟨legId, -, rfl⟩ := List.mem_map.mp hr
    rfl
  · intro r hr
    obtain ⟨legId, -, rfl⟩ := List.mem_map.mp hr
    exact ⟨(by decide : blankOpt (some "terminal-1") = false), rfl⟩
  · intro r hr hmarket
    obtain ⟨legId, -, rfl⟩ := List.mem_map.mp hr
    exact absurd rfl hmarket
  · intro r hr t ht
    obtain ⟨legId, -, rfl⟩ := List.mem_map.mp hr
    cases ht
  · intro leg hleg tp htp
    rcases List.mem_pair.mp hleg with rfl | rfl
    · cases htp
      norm_num
    · cases htp
  · intro leg hleg m hm hsymbol r hr _ a ha hid
    obtain ⟨legId, -, rfl⟩ := List.mem_map.mp hr
    rcases List.mem_pair.mp hleg with rfl | rfl
    all_goals
      rcases List.mem_pair.mp hm with rfl | rfl
      all_goals rcases List.mem_pair.mp ha with rfl | rfl
    all_goals first
      | exact hgold
      | exact hsilver
      | exact absurd hid (by decide)
      | exact absurd hsymbol (by decide)

theorem pair_commits :
    assembleRiskRequest goldDecode (snapshotOf pairRequest) 10000 goldContext =
        .ok (assembledOf pairRequest ["leg-gold", "leg-silver"]) ∧
      evaluate goldDigest (assembledOf pairRequest ["leg-gold", "leg-silver"]).request
        CircuitBreakerState.new = .ok (approvalOf pairResult) ∧
      Commits treeCodec goldDecode goldMac goldDigest (snapshotOf pairRequest) 10000 goldContext
        (assembledOf pairRequest ["leg-gold", "leg-silver"]) (approvalOf pairResult)
        (tablesOf pairRequest) := by
  have hassembled : assembleRiskRequest goldDecode (snapshotOf pairRequest) 10000 goldContext =
      .ok (assembledOf pairRequest ["leg-gold", "leg-silver"]) := by decide +kernel
  have hresult : evaluate goldDigest (assembledOf pairRequest ["leg-gold", "leg-silver"]).request
      CircuitBreakerState.new = .ok (approvalOf pairResult) := by decide +kernel
  exact ⟨hassembled, hresult, (approved_commits_iff hassembled hresult rfl (.inl rfl)
    (resolvedOf_configured _) treeCodec_lawful (tablesOf_keys _) (tablesOf_waiting _)).1.mpr
    ⟨pair_executable, by decide, tablesOf_free _ _⟩⟩

/-- gold with a take profit of zero -/
def zeroTarget : RiskRequest ℚ :=
  { goldRequest with intent := { goldIntent with proposedTp := some 0 } }

/-- the order is approved, and the pass leaves it waiting: it can never be built -/
theorem zero_target_rolls_back :
    assembleRiskRequest goldDecode (snapshotOf zeroTarget) 10000 goldContext =
        .ok (assembledOf zeroTarget ["leg:intent-1:0"]) ∧
      evaluate goldDigest (assembledOf zeroTarget ["leg:intent-1:0"]).request
        CircuitBreakerState.new = .ok (approvalOf goldResult) ∧
      (approvalOf goldResult).approved = true ∧ zeroTarget.intent.action = .buy ∧
      WellConfigured goldContext (["leg:intent-1:0"].map resolvedOf) ∧ treeCodec.Lawful ∧
      ForeignKeys (tablesOf zeroTarget) ∧ Waiting (snapshotOf zeroTarget) (tablesOf zeroTarget) ∧
      IdsFree zeroTarget.intent (tablesOf zeroTarget) ∧
      ¬ Commits treeCodec goldDecode goldMac goldDigest (snapshotOf zeroTarget) 10000 goldContext
        (assembledOf zeroTarget ["leg:intent-1:0"]) (approvalOf goldResult) (tablesOf zeroTarget) ∧
      finishInTransaction treeCodec goldDecode goldMac goldDigest (snapshotOf zeroTarget) 10000
          goldContext (tablesOf zeroTarget) =
        (.error (.executionBuild (invalid "tp" "must be positive and finite when present")),
          tablesOf zeroTarget) := by
  have hbuild : buildExecution goldMac goldDigest (buildRequest goldContext 10000
      (assembledOf zeroTarget ["leg:intent-1:0"]) (approvalOf goldResult)) =
        .error (invalid "tp" "must be positive and finite when present") := by
    decide +kernel
  have herror : (finishInTransaction treeCodec goldDecode goldMac goldDigest (snapshotOf zeroTarget)
      10000 goldContext (tablesOf zeroTarget)).1 =
        .error (.executionBuild (invalid "tp" "must be positive and finite when present")) := by
    decide +kernel
  refine ⟨by decide +kernel, by decide +kernel, rfl, rfl, resolvedOf_configured _, treeCodec_lawful,
    tablesOf_keys _, tablesOf_waiting _, tablesOf_free _ _, ?_, ?_⟩
  · rintro ⟨bundle, -, hbuilt, -⟩
    rw [hbuild] at hbuilt
    cases hbuilt
  · exact Prod.ext herror (Script.savepoint_error (Prod.ext herror rfl))

end Sinan.Core
