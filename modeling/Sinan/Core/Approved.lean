import Sinan.Core.Planned
import Sinan.Risk.Approval

/-!
# The approval of a workflow

An approved BUY or SELL that was assembled from a trusted snapshot: one planned leg for each leg of
the intent, and for each of them one approved leg, with the stop of the intent, the entry of the
candidate and lots that are a multiple of the volume step.
-/

namespace Sinan.Core

open Lib Breaker Risk Execution Store Protocol

/-! ## numbers that are exact -/

theorem decimal_exact {name : String} {q d : ℚ} (h : decimal name q = .ok d) : d = q := by
  simp only [decimal, bind_ok, exists_unit, need_ok] at h
  exact (Option.some.inj h.2).symm

theorem requiredF64_exact {q x : ℚ} (h : (requiredF64 q : Evaluation ℚ) = .ok x) : x = q := by
  simp only [requiredF64, need_ok, decimalToF64, Option.filter_eq_some_iff] at h
  exact (Option.some.inj h.1).symm

theorem sameF64Bits_exact {a b : ℚ} : sameF64Bits a b = true ↔ a = b := by
  unfold sameF64Bits F64.sameBits
  show (true && true && (if a = b then 0 else 256) == 0) = true ↔ a = b
  by_cases h : a = b
  · rw [if_pos h]
    exact ⟨fun _ => h, fun _ => rfl⟩
  · rw [if_neg h]
    exact ⟨fun h' => (nomatch h'), fun h' => absurd h' h⟩

theorem notPositive_exact {q : ℚ} : notPositive q = false ↔ 0 < q := by
  unfold notPositive
  show (!true || decide (q ≤ ((0 : Int) : ℚ))) = false ↔ 0 < q
  simp only [Bool.not_true, Bool.false_or, decide_eq_false_iff_not, Int.cast_zero, not_le]

/-! ## one leg -/

theorem sizedAs_exact {p : PreparedLeg ℚ} {a : AdjustedRiskLeg ℚ} (h : SizedAs p a) :
    (a.legId = p.provenance.legId ∧ a.symbol = p.provenance.symbol ∧
      a.action = p.provenance.action) ∧ a.sizingEntryPrice = p.entry ∧ a.approvedSl = p.stop ∧
      0 < a.lots ∧ ∃ k : Int, a.lots = k * p.volumeStep := by
  obtain ⟨scale, base, s, hs, ha⟩ := h
  simp only [sizeLeg, normalizeExecutableLots, bind_ok, exists_unit, reject_ok, pure_ok, not_or,
    not_le, Prod.mk.injEq, Prod.exists] at hs
  obtain ⟨floored, hfloored, lots, executable, ⟨_, hexecutable, _, hlots, ⟨hpositive, -⟩, _, -, -,
    rfl, rfl⟩, -, -, _, -, -, rfl⟩ := hs
  simp only [adjustLeg, bind_ok, pure_ok] at ha
  obtain ⟨_, -, _, -, _, -, entry, hentry, sl, hsl, _, -, rfl⟩ := ha
  have hsame := decimal_exact hlots
  rw [hsame] at hpositive
  refine ⟨⟨rfl, rfl, rfl⟩, requiredF64_exact hentry, requiredF64_exact hsl, hpositive, ?_⟩
  simp only [floorToStep, checkedDiv, bind_ok, exists_unit, pure_ok] at hfloored
  obtain ⟨-, units, -, hunits⟩ := hfloored
  refine ⟨⌊units⌋, ?_⟩
  rw [hunits]
  exact requiredF64_exact hexecutable

section
variable {snapshot : TrustedRiskSnapshot ℚ} {context : TrustedRiskWorkflowContext ℚ}

/-- an approved leg beside the leg it approves -/
structure ApprovedLeg (x : PlannedLeg snapshot context) (a : AdjustedRiskLeg ℚ) : Prop where
  legId : a.legId = x.leg.legId
  symbol : a.symbol = x.leg.symbol
  action : a.action = x.action
  entry : a.sizingEntryPrice = x.candidate.worstEntryPrice
  stop : a.approvedSl = x.stop
  stopPositive : 0 < x.stop
  ratioPositive : 0 < x.leg.ratio
  lotsPositive : 0 < a.lots
  lots : ∃ k : Int, a.lots = k * x.metadata.volumeStep

theorem prepareLeg_planned {request : RiskRequest ℚ} {x : PlannedLeg snapshot context}
    {p : PreparedLeg ℚ} (hmetadata : request.symbolMetadata = snapshot.symbolMetadata)
    (hnodup : (request.sizingCandidates.map PositionSizingCandidate.legId).Nodup)
    (hmem : x.candidate ∈ request.sizingCandidates) (h : prepareLeg request x.expected = .ok p) :
    p.provenance = x.candidate.provenance ∧ p.entry = x.candidate.worstEntryPrice ∧
      p.stop = x.stop ∧ p.volumeStep = x.metadata.volumeStep ∧ 0 < x.stop ∧ 0 < x.leg.ratio := by
  simp only [prepareLeg, bind_ok, exists_unit, reject_ok, need_ok, pure_ok, not_or, not_le] at h
  obtain ⟨candidate, hcandidate, -, ratio, hratio, _, -, ⟨hpositive, -⟩, -, _, -, _, -, entry, hentry,
    stop, hstop, _, -, ⟨-, hstopPositive, -⟩, metadata, hfound, _, -, -, _, -, _, -, -, _, -, _, -,
    _, -, _, -, _, -, _, -, step, hstep, rfl⟩ := h
  have hself : request.sizingCandidates.find? (fun c => c.legId == x.expected.legId)
      = some x.candidate := find_key_self hnodup hmem
  rw [hself] at hcandidate
  cases hcandidate
  have hsame : metadata = x.metadata := by
    unfold metadataOf at hfound
    rw [hmetadata] at hfound
    exact Option.some.inj (hfound.symm.trans x.metadataFound)
  subst hsame
  refine ⟨rfl, decimal_exact hentry, decimal_exact hstop, decimal_exact hstep, ?_, ?_⟩
  · rw [decimal_exact hstop] at hstopPositive
    exact hstopPositive
  · rw [decimal_exact hratio] at hpositive
    exact hpositive

/-! ## the workflow -/

/-- an assembled request that was approved, leg by leg -/
structure ApprovedWorkflow (snapshot : TrustedRiskSnapshot ℚ) (context : TrustedRiskWorkflowContext ℚ)
    (evaluatedAt : Int) (hash : String) (assembled : AssembledRiskWorkflow ℚ)
    (result : RiskResult ℚ) (planned : List (PlannedLeg snapshot context))
    (adjusted : List (AdjustedRiskLeg ℚ)) (bound : List (SizingCandidateProvenance ℚ)) : Prop where
  intent : assembled.request.intent = snapshot.intent.intent
  metadata : assembled.request.symbolMetadata = snapshot.symbolMetadata
  evaluatedAt : assembled.request.evaluatedAt = evaluatedAt
  createdAt : assembled.intentCreatedAt = snapshot.intent.createdAt
  checked : Checked assembled.request result
  identity : SameIdentity assembled.request hash result
  valid : result.validate = .ok ()
  approved : result.approved = true
  legs : legsOf snapshot.intent.intent = planned.map PlannedLeg.leg
  legsDistinct : (planned.map fun x => x.leg.legId).Nodup
  candidates : assembled.request.sizingCandidates = planned.map PlannedLeg.candidate
  resolved : assembled.resolvedLegs = planned.map PlannedLeg.resolved
  adjustedLegs : result.adjustedLegs = some adjusted
  adjustedDistinct : (adjusted.map AdjustedRiskLeg.legId).Nodup
  adjustedLength : adjusted.length = planned.length
  approval : ∀ x ∈ planned, ∃ a ∈ adjusted, ApprovedLeg x a
  boundCandidates : result.sizingCandidates = some bound
  boundDistinct : (bound.map SizingCandidateProvenance.legId).Nodup
  boundLength : bound.length = planned.length
  provenance : ∀ x ∈ planned, x.candidate.provenance ∈ bound

variable {decode : String → Option CircuitBreakerSnapshotV1} {assembled : AssembledRiskWorkflow ℚ}

theorem assembled_request {evaluatedAt : Int}
    (h : assembleRiskRequest decode snapshot evaluatedAt context = .ok assembled) :
    assembled.request.intent = snapshot.intent.intent ∧
      assembled.request.symbolMetadata = snapshot.symbolMetadata ∧
      assembled.request.evaluatedAt = evaluatedAt ∧
      assembled.intentCreatedAt = snapshot.intent.createdAt := by
  simp only [assembleRiskRequest, bind_ok, exists_unit, pure_ok] at h
  obtain ⟨_, -, -, _, -, _, -, rfl⟩ := h
  exact ⟨rfl, rfl, rfl, rfl⟩

theorem valid_distinct {result : RiskResult ℚ} {adjusted : List (AdjustedRiskLeg ℚ)}
    {bound : List (SizingCandidateProvenance ℚ)} (hvalid : result.validate = .ok ())
    (happroved : result.approved = true) (hadjusted : result.adjustedLegs = some adjusted)
    (hbound : result.sizingCandidates = some bound) :
    (adjusted.map AdjustedRiskLeg.legId).Nodup ∧
      (bound.map SizingCandidateProvenance.legId).Nodup := by
  obtain ⟨_, _, _, _, candidates, hcandidates, hsizing⟩ :=
    RiskResult.validate_sizing hvalid happroved hadjusted
  rw [hbound] at hcandidates
  cases hcandidates
  simp only [validateSizing, validateSizingLegs, bind_ok, exists_unit, eachApart_key_ok] at hsizing
  obtain ⟨-, -, -, -, -, -, -, -, -, ⟨hdistinct, -⟩, _, hsum, -⟩ := hsizing
  exact ⟨(sumAdjustedRisk_ok hsum).1, hdistinct⟩

theorem approved_workflow {evaluatedAt : Int} {digest : RequestDigest ℚ} {result : RiskResult ℚ}
    (h : assembleRiskRequest decode snapshot evaluatedAt context = .ok assembled)
    (hresult : evaluate digest assembled.request assembled.breaker = .ok result)
    (happroved : result.approved = true)
    (haction : assembled.request.intent.action = .buy ∨ assembled.request.intent.action = .sell) :
    ∃ planned adjusted bound, ApprovedWorkflow snapshot context evaluatedAt
      (digest.hash assembled.request) assembled result planned adjusted bound := by
  obtain ⟨hintent, hmetadata, hevaluated, hcreated⟩ := assembled_request h
  obtain ⟨hchecked, hidentity, hvalid, expected, hsized⟩ := evaluate_opened hresult happroved haction
  obtain ⟨prepared, adjusted, hprepared, hadjusted, hlegs, hbound⟩ := hsized.legs
  obtain ⟨planned, hplanned, rfl, hcandidates, hresolved⟩ :=
    assembled_planned h hsized.expects hsized.length
  obtain ⟨hdistinct, hboundDistinct⟩ := valid_distinct hvalid happroved hlegs hbound
  have hlength : prepared.length = planned.length := by
    rw [← hprepared.length_eq, List.length_insertionSort, List.length_map]
  have hleg : ∀ x ∈ planned, ∃ p ∈ prepared, prepareLeg assembled.request x.expected = .ok p := by
    intro x hx
    have hmem : x.expected ∈ (planned.map PlannedLeg.expected).insertionSort
        fun x y => x.legId ≤ y.legId := (List.mem_insertionSort _).mpr (List.mem_map_of_mem hx)
    exact forall₂_mem_right hprepared.flip hmem
  have hread : ∀ x ∈ planned, ∀ p, prepareLeg assembled.request x.expected = .ok p → _ :=
    fun x hx p hp => prepareLeg_planned hmetadata hchecked.candidateIds
      (by rw [hcandidates]; exact List.mem_map_of_mem hx) hp
  refine ⟨planned, adjusted, prepared.map PreparedLeg.provenance, hintent, hmetadata, hevaluated,
    hcreated, hchecked, hidentity, hvalid, happroved, hplanned, ?_, hcandidates, hresolved, hlegs,
    hdistinct, ?_, ?_, hbound, hboundDistinct, ?_, ?_⟩
  · have hids := (expectedLegs_ok hsized.expects).1
    rw [hintent, hplanned, List.map_map] at hids
    exact hids
  · rw [← hadjusted.length_eq, hlength]
  · intro x hx
    obtain ⟨p, hp, hprepare⟩ := hleg x hx
    obtain ⟨hprovenance, hentry, hstop, hstep, hstopPositive, hratio⟩ := hread x hx p hprepare
    obtain ⟨a, ha, has⟩ := forall₂_mem_right hadjusted.flip hp
    obtain ⟨⟨hid, hsymbol, haction⟩, haentry, hasl, hlots, k, hk⟩ := sizedAs_exact has
    rw [hprovenance] at hid hsymbol haction
    exact ⟨a, ha, hid, hsymbol, haction, haentry.trans hentry, hasl.trans hstop, hstopPositive, hratio,
      hlots, k, hk.trans (by rw [hstep])⟩
  · rw [List.length_map, hlength]
  · intro x hx
    obtain ⟨p, hp, hprepare⟩ := hleg x hx
    rw [← (hread x hx p hprepare).1]
    exact List.mem_map_of_mem hp

end

end Sinan.Core
