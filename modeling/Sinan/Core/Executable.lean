import Sinan.Core.Approved
import Sinan.Execution.Bundle
import Sinan.Protocol.Decimals

/-!
# What the builder asks of an approval

The builder and the signer check more than the evaluator does.  Under a well configured context an
approved workflow is built exactly when it is `Executable`: each of its conditions is a guard of the
builder or of the signer, on data that the evaluator never looks at.
-/

namespace Sinan.Core

open Lib Breaker Risk Execution Store Protocol

/-! ## the conditions -/

/-- what a trusted configuration promises of its policy and of the legs it has resolved -/
structure WellConfigured (context : TrustedRiskWorkflowContext ℚ)
    (resolvedLegs : List (ResolvedLegExecution ℚ)) : Prop where
  timeout : 0 < context.executionPolicy.timeoutMs
  commandTtl : 0 < context.executionPolicy.maxCommandTtlMs
  dependencies : ∀ r ∈ resolvedLegs,
    dependenciesWellFormed (resolvedLegs.map ResolvedLegExecution.legId) r.legId r.dependency
  acyclic : ∃ rank : LegId → Nat, ∀ r ∈ resolvedLegs, ∀ d ∈ r.dependency, rank d < rank r.legId
  market : ∀ r ∈ resolvedLegs, r.orderType = .market → r.price = none

/-- what the builder and the signer ask for beyond the approval -/
structure Executable (snapshot : TrustedRiskSnapshot ℚ) (context : TrustedRiskWorkflowContext ℚ)
    (evaluatedAt : Int) (resolvedLegs : List (ResolvedLegExecution ℚ))
    (adjusted : List (AdjustedRiskLeg ℚ)) : Prop where
  retries : context.executionPolicy.rollbackPolicy.bind RollbackPolicy.maxRetryAttempts ≠ some 0
  expiry : (checkedAdd evaluatedAt context.executionPolicy.maxCommandTtlMs).isSome
  mode : context.executionPolicy.mode = .simultaneous → ∀ r ∈ resolvedLegs, r.dependency = []
  address : ∀ r ∈ resolvedLegs, blankOpt r.terminalId = false ∧ blankOpt r.clientId = false
  price : ∀ r ∈ resolvedLegs, r.orderType ≠ .market → r.price.isSome
  expiration : ∀ r ∈ resolvedLegs, ∀ t ∈ r.expirationTime, 0 ≤ t
  takeProfit : ∀ leg ∈ legsOf snapshot.intent.intent, ∀ tp ∈ leg.proposedTp, 0 < tp
  signable : ∀ leg ∈ legsOf snapshot.intent.intent,
    ∀ m ∈ snapshot.symbolMetadata, m.symbol = leg.symbol →
    ∀ r ∈ resolvedLegs, r.legId = leg.legId → ∀ a ∈ adjusted, a.legId = leg.legId →
      Signable m a.lots a.approvedSl leg.proposedTp r.price

section
variable {snapshot : TrustedRiskSnapshot ℚ} {context : TrustedRiskWorkflowContext ℚ}
  {evaluatedAt : Int} {hash : String} {assembled : AssembledRiskWorkflow ℚ} {result : RiskResult ℚ}
  {planned : List (PlannedLeg snapshot context)} {adjusted : List (AdjustedRiskLeg ℚ)}
  {bound : List (SizingCandidateProvenance ℚ)}

/-! ## identities -/

theorem planned_ids (planned : List (PlannedLeg snapshot context)) :
    IntentLeg.ids (planned.map PlannedLeg.intended) = planned.map fun x => x.leg.legId := by
  unfold IntentLeg.ids
  rw [List.map_map]
  rfl

theorem resolved_ids (planned : List (PlannedLeg snapshot context)) :
    (planned.map PlannedLeg.resolved).map ResolvedLegExecution.legId =
      planned.map fun x => x.leg.legId := by
  rw [List.map_map]
  rfl

theorem initialCommandId_inj {intentId : IntentId} {a b : LegId}
    (h : initialCommandId intentId a = initialCommandId intentId b) : a = b := by
  unfold initialCommandId at h
  exact (String.append_right_inj _).mp h

theorem initialCommandIdempotencyKey_inj {intentId : IntentId} {a b : LegId}
    (h : initialCommandIdempotencyKey intentId a = initialCommandIdempotencyKey intentId b) :
    a = b := by
  unfold initialCommandIdempotencyKey at h
  exact (String.append_right_inj _).mp ((String.append_left_inj _).mp h)

theorem blank_append {head tail : String} (h : blank head = false) : blank (head ++ tail) = false := by
  unfold blank at h ⊢
  rw [String.toList_append, List.all_append, h, Bool.false_and]

theorem initialCommandId_text (intentId : IntentId) (legId : LegId) :
    blank (initialCommandId intentId legId) = false := by
  unfold initialCommandId
  simp only [String.append_assoc]
  exact blank_append (by decide)

theorem initialCommandIdempotencyKey_text (intentId : IntentId) (legId : LegId) :
    blank (initialCommandIdempotencyKey intentId legId) = false := by
  unfold initialCommandIdempotencyKey
  simp only [String.append_assoc]
  exact blank_append (by decide)

variable {x : PlannedLeg snapshot context}

theorem resolvedClash_planned {y : PlannedLeg snapshot context} (h : x.leg.legId ≠ y.leg.legId) :
    resolvedClash x.resolved y.resolved = false := by
  simp only [resolvedClash, Bool.or_eq_false_iff, beq_eq_false_iff_ne, ne_eq]
  exact ⟨⟨fun hid => h (initialCommandId_inj hid),
    fun hkey => h (initialCommandIdempotencyKey_inj hkey)⟩, h⟩

/-! ## the maps of the builder -/

theorem intentLegs_planned (h : ApprovedWorkflow snapshot context evaluatedAt hash assembled result
      planned adjusted bound)
    (haction : assembled.request.intent.action = .buy ∨ assembled.request.intent.action = .sell) :
    intentLegs assembled.request = .ok (planned.map PlannedLeg.intended) := by
  have hlegs := h.legs
  rw [← h.intent] at hlegs
  unfold intentLegs
  unfold legsOf at hlegs
  cases hproposed : assembled.request.intent.proposedLegs with
  | some legs =>
    rw [hproposed] at hlegs
    show collect proposedLeg legs = _
    have hlegs' : legs = planned.map PlannedLeg.leg := hlegs
    rw [hlegs', collect_ok, List.forall₂_map_left_iff, List.forall₂_map_right_iff,
      List.forall₂_same]
    exact fun x _ => proposedLeg_planned x
  | none =>
    rw [hproposed] at hlegs
    obtain ⟨x, rfl, hx⟩ := List.map_eq_singleton_iff.mp hlegs.symm
    have hid : x.leg.legId = singleLegId assembled.request.intent.intentId := by rw [hx]
    have hfind : assembled.request.sizingCandidates.find?
        (fun c => c.legId == singleLegId assembled.request.intent.intentId) = some x.candidate := by
      rw [h.candidates]
      exact List.find?_cons_of_pos (beq_iff_eq.mpr hid)
    have hintended := proposedLeg_planned x
    simp only [bind_ok, need_ok, pure_ok]
    rcases haction with haction | haction
    all_goals
      rw [haction] at hx ⊢
      rw [hx] at hintended
      refine ⟨_, rfl, x.candidate, hfind, ?_⟩
      show [_] = [x.intended]
      rw [← Except.ok.inj hintended]
      show [IntentLeg.mk x.leg.legId _ _ _ _] = _
      rw [hid]

theorem topologyNodes_planned (planned : List (PlannedLeg snapshot context)) :
    topologyNodes (planned.map fun x => x.leg.legId) (planned.map PlannedLeg.resolved) =
      planned.map fun x => x.leg.legId := by
  unfold topologyNodes
  rw [List.filter_eq_nil_iff.mpr, List.append_nil]
  intro id hid hfresh
  rw [List.mem_dedup] at hid
  obtain ⟨edge, hedge, rfl⟩ := List.mem_map.mp hid
  obtain ⟨r, hr, hedge⟩ := List.mem_flatMap.mp hedge
  obtain ⟨d, -, rfl⟩ := List.mem_map.mp hedge
  obtain ⟨x, hx, rfl⟩ := List.mem_map.mp hr
  exact of_decide_eq_true hfresh (List.mem_map_of_mem hx)

theorem kahn_planned (hnodup : (planned.map fun x => x.leg.legId).Nodup)
    (hconfigured : WellConfigured context (planned.map PlannedLeg.resolved)) :
    kahn (planned.map fun x => x.leg.legId) (resolvedEdges (planned.map PlannedLeg.resolved)) =
      .ok (planned.map fun x => x.leg.legId).length := by
  obtain ⟨rank, hrank⟩ := hconfigured.acyclic
  have hdependencies := hconfigured.dependencies
  rw [resolved_ids] at hdependencies
  have hedges : ∀ e ∈ resolvedEdges (planned.map PlannedLeg.resolved),
      (e.1 ∈ planned.map (fun x => x.leg.legId) ∧ e.2 ∈ planned.map fun x => x.leg.legId) ∧
        rank e.1 < rank e.2 := by
    intro e he
    obtain ⟨r, hr, he⟩ := List.mem_flatMap.mp he
    obtain ⟨d, hd, rfl⟩ := List.mem_map.mp he
    refine ⟨⟨((hdependencies r hr).2 d hd).2, ?_⟩, hrank r hr d hd⟩
    rw [← resolved_ids]
    exact List.mem_map_of_mem hr
  exact kahn_acyclic hnodup (fun e he => (hedges e he).1) rank fun e he => (hedges e he).2

theorem validateTopology_planned (hnodup : (planned.map fun x => x.leg.legId).Nodup)
    (hconfigured : WellConfigured context (planned.map PlannedLeg.resolved))
    (hmode : context.executionPolicy.mode = .simultaneous →
      ∀ r ∈ planned.map PlannedLeg.resolved, r.dependency = []) :
    validateTopology context.executionPolicy.mode (planned.map PlannedLeg.intended)
      (planned.map PlannedLeg.resolved) = .ok () := by
  have hdependencies := hconfigured.dependencies
  rw [resolved_ids] at hdependencies
  simp only [validateTopology, bind_ok, exists_unit, reject_ok, each_ok, not_not, planned_ids]
  refine ⟨hnodup, ?_, hdependencies, ?_⟩
  · rintro ⟨hsimultaneous, hany⟩
    obtain ⟨r, hr, hsome⟩ := List.any_eq_true.mp hany
    rw [hmode hsimultaneous r hr] at hsome
    cases hsome
  · rw [topologyNodes_planned, kahn_planned hnodup hconfigured]
    exact reject_ok.mpr (not_not.mpr rfl)

theorem candidateMatches_self (c : PositionSizingCandidate ℚ) :
    candidateMatches c.provenance c = true := by
  have hsame : ∀ q : ℚ, sameF64 q q = true := fun q => sameF64Bits_exact.mpr rfl
  unfold candidateMatches
  simp only [Bool.and_eq_true, beq_iff_eq, decide_eq_true_eq]
  exact ⟨⟨⟨⟨⟨rfl, rfl⟩, hsame _⟩, hsame _⟩, hsame _⟩, hsame _⟩

theorem validateResultCandidates_planned (h : ApprovedWorkflow snapshot context evaluatedAt hash
      assembled result planned adjusted bound) :
    validateResultCandidates assembled.request result = .ok () := by
  simp only [validateResultCandidates, bind_ok, exists_unit, need_ok, reject_ok, each_ok, not_not,
    ne_eq, Bool.not_eq_false]
  refine ⟨bound, h.boundCandidates, ?_, ?_⟩
  · rw [h.candidates, List.length_map, h.boundLength]
  · intro c hc
    rw [h.candidates] at hc
    obtain ⟨x, hx, rfl⟩ := List.mem_map.mp hc
    exact ⟨x.candidate.provenance, find_key_self h.boundDistinct (h.provenance x hx),
      candidateMatches_self x.candidate⟩

theorem legsOf_required {request : RiskRequest ℚ} {leg : TradeIntentLeg ℚ}
    (h : leg ∈ legsOf request.intent) : leg.symbol ∈ requiredSymbols request := by
  unfold requiredSymbols sortedSet
  simp only [List.mem_insertionSort, List.mem_dedup, List.mem_append]
  refine .inl (.inl (.inl ?_))
  unfold legsOf at h
  cases hproposed : request.intent.proposedLegs with
  | some legs =>
    rw [hproposed] at h
    exact List.mem_map_of_mem h
  | none =>
    rw [hproposed] at h
    rw [List.mem_singleton.mp h]
    exact List.mem_singleton.mpr rfl

theorem planned_metadata
    (h : ApprovedWorkflow snapshot context evaluatedAt hash assembled result
      planned adjusted bound) (hx : x ∈ planned) :
    x.metadata.accountId = assembled.request.intent.accountId ∧
      blank x.metadata.brokerSymbol = false := by
  have hmem : x.metadata ∈ assembled.request.symbolMetadata := by
    rw [h.metadata]
    exact (find_key x.metadataFound).1
  refine ⟨h.checked.metadataAccount _ hmem, ?_⟩
  have hrequired : x.leg.symbol ∈ requiredSymbols assembled.request := by
    apply legsOf_required
    rw [h.intent, h.legs]
    exact List.mem_map_of_mem hx
  refine h.checked.brokerSymbol _ hrequired _ ?_
  unfold metadataOf
  rw [h.metadata]
  exact x.metadataFound

/-- the metadata map of planned legs; the source inserts in their order, the list holds the last
insert first -/
def metadataMap (planned : List (PlannedLeg snapshot context)) :
    List (LegId × SymbolMetadataSnapshot ℚ) :=
  (planned.map fun x => (x.leg.legId, x.metadata)).reverse

theorem indexMetadataLegs_planned {accountId : AccountId}
    (h : ∀ x ∈ planned, x.metadata.accountId = accountId ∧ blank x.metadata.brokerSymbol = false) :
    indexMetadataLegs accountId snapshot.symbolMetadata (planned.map PlannedLeg.intended) =
      .ok (metadataMap planned) := by
  induction planned with
  | nil => rfl
  | cons x planned ih =>
    obtain ⟨haccount, hbroker⟩ := h x List.mem_cons_self
    simp only [List.map_cons, indexMetadataLegs, bind_ok, exists_unit, need_ok, reject_ok, pure_ok,
      not_or, not_not, ne_eq, Bool.not_eq_true]
    refine ⟨x.metadata, x.metadataFound, ⟨haccount, hbroker⟩, metadataMap planned,
      ih fun y hy => h y (List.mem_cons_of_mem x hy), ?_⟩
    unfold metadataMap
    rw [List.map_cons, List.reverse_cons]
    rfl

theorem metadataMap_lookup (hnodup : (planned.map fun x => x.leg.legId).Nodup) (hx : x ∈ planned) :
    (metadataMap planned).lookup x.leg.legId = some x.metadata := by
  have hkey : x.leg.legId ∈ (metadataMap planned).map Prod.fst := by
    unfold metadataMap
    rw [List.map_reverse, List.mem_reverse, List.map_map]
    exact List.mem_map_of_mem hx
  obtain ⟨m, hm⟩ := exists_lookup hkey
  have hmem := lookup_mem hm
  unfold metadataMap at hmem
  rw [List.mem_reverse] at hmem
  obtain ⟨y, hy, hpair⟩ := List.mem_map.mp hmem
  have hid : y.leg.legId = x.leg.legId := congrArg Prod.fst hpair
  have hsame : y = x := List.inj_on_of_nodup_map hnodup hy hx hid
  have hmetadata : y.metadata = m := congrArg Prod.snd hpair
  rw [hm, ← hsame, hmetadata]

theorem indexMetadata_planned (h : ApprovedWorkflow snapshot context evaluatedAt hash assembled
      result planned adjusted bound) :
    indexMetadata assembled.request (planned.map PlannedLeg.intended) =
      .ok (metadataMap planned) := by
  simp only [indexMetadata, bind_ok, exists_unit, eachApart_key_ok]
  refine ⟨⟨h.checked.metadataDistinct, fun _ _ => ⟨trivial, trivial⟩⟩, ?_⟩
  rw [h.metadata]
  exact indexMetadataLegs_planned fun x hx => planned_metadata h hx

theorem nonEmpty_ok {field value : String} :
    nonEmpty (F := ℚ) field value = .ok () ↔ blank value = false := by
  unfold nonEmpty
  rw [reject_ok, Bool.not_eq_true]

theorem optionalNonEmpty_ok {field : String} {value : Option String} :
    optionalNonEmpty (F := ℚ) field value = .ok () ↔ blankOpt value = false := by
  unfold optionalNonEmpty
  rw [reject_ok, Bool.not_eq_true]

theorem indexResolved_planned (hnodup : (planned.map fun x => x.leg.legId).Nodup)
    (htext : ∀ x ∈ planned, blank x.leg.legId = false) {resolved : List (ResolvedLegExecution ℚ)} :
    indexResolved (planned.map PlannedLeg.resolved) (planned.map PlannedLeg.intended) =
        .ok resolved ↔
      (∀ r ∈ planned.map PlannedLeg.resolved,
        blankOpt r.terminalId = false ∧ blankOpt r.clientId = false) ∧
      resolved = planned.map PlannedLeg.resolved := by
  simp only [indexResolved, bind_ok, exists_unit, reject_ok, pure_ok, eachApart_ok, nonEmpty_ok,
    optionalNonEmpty_ok, List.length_map, ne_eq, not_not]
  constructor
  · rintro ⟨-, ⟨-, -, heach⟩, rfl⟩
    exact ⟨fun r hr => (heach r hr).1.2.2.2, rfl⟩
  · rintro ⟨haddress, rfl⟩
    refine ⟨trivial, ⟨?_, fun _ hy => absurd hy List.not_mem_nil, fun r hr => ?_⟩, rfl⟩
    · rw [List.pairwise_map]
      rw [List.Nodup, List.pairwise_map] at hnodup
      exact hnodup.imp fun hne => resolvedClash_planned hne
    · obtain ⟨x, hx, rfl⟩ := List.mem_map.mp hr
      exact ⟨⟨htext x hx, initialCommandId_text _ _, initialCommandIdempotencyKey_text _ _,
        haddress _ hr⟩, trivial⟩

/-! ## the request as a whole -/

theorem planned_legId
    (h : ApprovedWorkflow snapshot context evaluatedAt hash assembled result
      planned adjusted bound) (hx : x ∈ planned) :
    blank x.leg.legId = false ∧ blank x.leg.symbol = false := by
  have hmem : x.candidate ∈ assembled.request.sizingCandidates := by
    rw [h.candidates]
    exact List.mem_map_of_mem hx
  exact h.checked.candidateText _ hmem

theorem liftResult_ok {r : ResultCheck Unit} : liftResult (F := ℚ) r = .ok () ↔ r = .ok () := by
  cases r with
  | error e => exact ⟨fun h => (by cases h), fun h => (by cases h)⟩
  | ok u => exact ⟨fun _ => rfl, fun _ => rfl⟩

theorem validateCommon_planned {digest : RequestDigest ℚ}
    (h : ApprovedWorkflow snapshot context evaluatedAt (digest.hash assembled.request) assembled
      result planned adjusted bound)
    (hconfigured : WellConfigured context assembled.resolvedLegs) :
    validateCommon digest (buildRequest context evaluatedAt assembled result) = .ok () ↔
      context.executionPolicy.rollbackPolicy.bind RollbackPolicy.maxRetryAttempts ≠ some 0 := by
  have hplan : blank (initialPlanId assembled.request.intent.intentId) = false := by
    unfold initialPlanId
    rw [String.append_assoc]
    exact blank_append (by decide)
  have hwindow := h.checked.validUntil
  have hnow := h.checked.evaluatedAt
  have hsame := h.identity
  rw [h.evaluatedAt] at hwindow hnow
  simp only [validateCommon, bind_ok, exists_unit, reject_ok, nonEmpty_ok,
    liftResult_ok, ne_eq, not_or, not_not, not_lt, not_le, Bool.not_eq_true, Bool.not_eq_false]
  constructor
  · rintro ⟨-, -, -, hretries, -⟩
    exact hretries
  · intro hretries
    refine ⟨hplan, hnow, ⟨hconfigured.timeout, hconfigured.commandTtl⟩, hretries,
      context.secretGiven, h.valid, h.approved, ⟨hsame.riskId, hsame.requestId, hsame.intentId,
      hsame.accountId, hsame.decisionId, hsame.evaluatedAt⟩, hsame.requestHash.symm, ?_, hwindow.1⟩
    show result.evaluatedAt ≤ evaluatedAt
    rw [hsame.evaluatedAt, h.evaluatedAt]

/-- what the loop of the builder reads for a planned workflow -/
def preparedOf (planned : List (PlannedLeg snapshot context)) (adjusted : List (AdjustedRiskLeg ℚ))
    (expiresAt : Int) : Prepared ℚ where
  legs := planned.map PlannedLeg.intended
  adjusted := adjusted
  metadata := metadataMap planned
  resolved := planned.map PlannedLeg.resolved
  expiresAt := expiresAt

theorem prepare_planned (h : ApprovedWorkflow snapshot context evaluatedAt hash assembled result
      planned adjusted bound)
    (haction : assembled.request.intent.action = .buy ∨ assembled.request.intent.action = .sell)
    (hconfigured : WellConfigured context assembled.resolvedLegs)
    (hexecutable : Executable snapshot context evaluatedAt assembled.resolvedLegs adjusted) :
    prepare (buildRequest context evaluatedAt assembled result) =
      .ok (preparedOf planned adjusted
        (commandExpiry (buildRequest context evaluatedAt assembled result))) := by
  have hmode := hexecutable.mode
  have haddress := hexecutable.address
  rw [h.resolved] at hconfigured hmode haddress
  obtain ⟨ttl, httl⟩ := Option.isSome_iff_exists.mp hexecutable.expiry
  have hwindow := h.checked.validUntil
  have hopen := h.checked.open_
  rw [h.evaluatedAt] at hwindow hopen
  have httl' := checkedAdd_some httl
  have hpositive := hconfigured.commandTtl
  rw [prepare_ok]
  refine ⟨intentLegs_planned h haction, ?_, h.adjustedLegs, ?_, h.adjustedDistinct,
    validateResultCandidates_planned h, indexMetadata_planned h, ?_, ⟨ttl, httl, ?_⟩, ?_⟩
  · show validateTopology _ _ assembled.resolvedLegs = _
    rw [h.resolved]
    exact validateTopology_planned h.legsDistinct hconfigured hmode
  · show adjusted.length = (planned.map PlannedLeg.intended).length
    rw [List.length_map, h.adjustedLength]
  · show indexResolved assembled.resolvedLegs _ = _
    rw [h.resolved]
    exact (indexResolved_planned h.legsDistinct fun x hx => (planned_legId h hx).1).mpr
      ⟨haddress, rfl⟩
  · show commandExpiry _ = _
    unfold commandExpiry
    rw [httl']
    rfl
  · show evaluatedAt < min (min assembled.request.intent.signalExpiresAt result.validUntil)
      (evaluatedAt + context.executionPolicy.maxCommandTtlMs)
    rw [lt_min_iff, lt_min_iff]
    exact ⟨⟨hopen, hwindow.1⟩, by omega⟩

end

end Sinan.Core
