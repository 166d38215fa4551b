import Sinan.Execution.Builder

/-!
# The joins of the builder

What holds when `build_execution` enters its loop.  The three maps are built against different
reference sets: the metadata map from the intended legs themselves, the approved and the resolved
map from lists of their own, of which only the length is compared with the intended legs.  So the
first is always complete, and the other two are exactly when the leg ids agree (`Covered`).
-/

set_option linter.unusedSectionVars false

namespace Sinan.Execution

open Lib Protocol Risk

section
variable {F : Type} [F64 F]

/-- control reaches the loop, with `p` -/
structure Reaches (digest : RequestDigest F) (request : ExecutionBuildRequest F)
    (p : Prepared F) : Prop where
  common : validateCommon digest request = .ok ()
  action : request.riskRequest.intent.action = .buy ∨ request.riskRequest.intent.action = .sell
  prepared : prepare request = .ok p

/-- what `prepare` has checked -/
structure Joined (request : ExecutionBuildRequest F) (p : Prepared F) : Prop where
  legs : intentLegs request.riskRequest = .ok p.legs
  topology : validateTopology request.policy.mode p.legs request.resolvedLegs = .ok ()
  adjusted : request.riskResult.adjustedLegs = some p.adjusted
  adjustedLength : p.adjusted.length = p.legs.length
  adjustedDistinct : (p.adjusted.map AdjustedRiskLeg.legId).Nodup
  candidates : validateResultCandidates request.riskRequest request.riskResult = .ok ()
  metadata : indexMetadata request.riskRequest p.legs = .ok p.metadata
  resolved : indexResolved request.resolvedLegs p.legs = .ok p.resolved
  expiry : ∃ ttl, checkedAdd request.nowMs request.policy.maxCommandTtlMs = some ttl ∧
    p.expiresAt = min (min request.riskRequest.intent.signalExpiresAt
      request.riskResult.validUntil) ttl
  window : request.nowMs < p.expiresAt

variable {legs : List (IntentLeg F)} {request : ExecutionBuildRequest F} {p : Prepared F}
  {digest : RequestDigest F}

theorem indexAdjustedLegs_ok {result : RiskResult F} {adjusted : List (AdjustedRiskLeg F)} :
    indexAdjustedLegs result legs = .ok adjusted ↔
      result.adjustedLegs = some adjusted ∧ adjusted.length = legs.length ∧
        (adjusted.map AdjustedRiskLeg.legId).Nodup := by
  simp only [indexAdjustedLegs, bind_ok, exists_unit, need_ok, reject_ok, pure_ok,
    eachApart_key_ok, ne_eq, not_not]
  constructor
  · rintro ⟨a, hadjusted, hlength, ⟨hdistinct, -⟩, rfl⟩
    exact ⟨hadjusted, hlength, hdistinct⟩
  · rintro ⟨hadjusted, hlength, hdistinct⟩
    exact ⟨adjusted, hadjusted, hlength, ⟨hdistinct, fun _ _ => ⟨trivial, trivial⟩⟩, rfl⟩

theorem prepare_ok :
    prepare request = .ok p ↔ Joined request p := by
  simp only [prepare, bind_ok, exists_unit, reject_ok, need_ok, pure_ok, indexAdjustedLegs_ok]
  constructor
  · rintro ⟨legs, hlegs, htopology, adjusted, ⟨hadjusted, hlength, hdistinct⟩, hcandidates,
      metadata, hmetadata, resolved, hresolved, ttl, httl, hwindow, rfl⟩
    exact ⟨hlegs, htopology, hadjusted, hlength, hdistinct, hcandidates, hmetadata, hresolved,
      ⟨ttl, httl, rfl⟩, Int.not_le.mp hwindow⟩
  · rintro ⟨hlegs, htopology, hadjusted, hlength, hdistinct, hcandidates, hmetadata, hresolved,
      ⟨ttl, httl, hexpiry⟩, hwindow⟩
    refine ⟨p.legs, hlegs, htopology, p.adjusted, ⟨hadjusted, hlength, hdistinct⟩, hcandidates,
      p.metadata, hmetadata, p.resolved, hresolved, ttl, httl, ?_, ?_⟩
    · rw [← hexpiry]
      exact Int.not_le.mpr hwindow
    · rw [← hexpiry]

theorem buildExecution_reaches {mac : Mac} (h : Reaches digest request p) :
    buildExecution mac digest request = assemble mac request p := by
  unfold buildExecution
  rw [h.common]
  rcases h.action with haction | haction
  all_goals
    rw [haction]
    show (prepare request >>= fun p => assemble mac request p) = _
    rw [h.prepared]
    rfl

/-! ## the intended ids -/

/-- the ids of the legs the intent asks for -/
def intendedIds (request : RiskRequest F) : List LegId :=
  match request.intent.proposedLegs with
  | some legs => legs.map TradeIntentLeg.legId
  | none => [singleLegId request.intent.intentId]

theorem proposedLeg_id {leg : TradeIntentLeg F} {intent : IntentLeg F}
    (h : proposedLeg leg = .ok intent) : intent.legId = leg.legId := by
  unfold proposedLeg at h
  split at h
  all_goals cases h
  all_goals rfl

theorem proposedLegs_ids {legs : List (TradeIntentLeg F)} {intents : List (IntentLeg F)}
    (h : collect proposedLeg legs = .ok intents) :
    IntentLeg.ids intents = legs.map TradeIntentLeg.legId := by
  have hforall := collect_ok.mp h
  clear h
  induction hforall with
  | nil => rfl
  | cons hleg _ ih =>
    show _ :: IntentLeg.ids _ = _ :: _
    rw [proposedLeg_id hleg, ih]

theorem intentLegs_ids {request : RiskRequest F} (h : intentLegs request = .ok legs) :
    IntentLeg.ids legs = intendedIds request := by
  unfold intentLegs at h
  unfold intendedIds
  cases hproposed : request.intent.proposedLegs with
  | some proposed =>
    simp only [hproposed] at h
    exact proposedLegs_ids h
  | none =>
    simp only [hproposed, bind_ok, need_ok, pure_ok] at h
    obtain ⟨action, -, candidate, hfound, rfl⟩ := h
    have hid : candidate.legId = singleLegId request.intent.intentId := (find_key hfound).2
    show [candidate.legId] = _
    rw [hid]

theorem single_candidate {request : RiskRequest F} (h : intentLegs request = .ok legs)
    (hnone : request.intent.proposedLegs = none) :
    ∃ c ∈ request.sizingCandidates, c.legId = singleLegId request.intent.intentId := by
  unfold intentLegs at h
  rw [hnone] at h
  simp only [bind_ok, need_ok, pure_ok] at h
  obtain ⟨action, -, candidate, hfound, -⟩ := h
  exact ⟨candidate, find_key hfound⟩

/-! ## topology -/

theorem topologyNodes_nodup {ids : List LegId} (h : ids.Nodup)
    (resolved : List (ResolvedLegExecution F)) : (topologyNodes ids resolved).Nodup := by
  unfold topologyNodes
  rw [List.nodup_append]
  refine ⟨h, (List.nodup_dedup _).filter _, ?_⟩
  rintro a ha b hb rfl
  exact of_decide_eq_true (List.mem_filter.mp hb).2 ha

theorem topologyNodes_closed (ids : List LegId) (resolved : List (ResolvedLegExecution F)) :
    ∀ e ∈ resolvedEdges resolved, e.2 ∈ topologyNodes ids resolved := by
  intro e he
  unfold topologyNodes
  rw [List.mem_append]
  by_cases hid : e.2 ∈ ids
  · exact .inl hid
  · refine .inr (List.mem_filter.mpr ⟨?_, decide_eq_true hid⟩)
    exact List.mem_dedup.mpr (List.mem_map_of_mem he)

/-- `validate_topology` returns: its target lookup finds every key, and no degree is lowered below
zero -/
theorem validateTopology_returns (mode : ExecutionPlanMode) (legs : List (IntentLeg F))
    (resolved : List (ResolvedLegExecution F)) :
    Refuses (fun h => Halt.crashes h = false) (validateTopology mode legs resolved) := by
  unfold validateTopology
  refine Refuses.bind (Refuses.reject rfl) fun _ hids => ?_
  refine Refuses.check rfl ?_
  refine Refuses.bind (Refuses.each fun leg _ => Refuses.reject rfl) fun _ _ => ?_
  rw [reject_ok, not_not] at hids
  obtain ⟨done, hkahn, -⟩ := kahn_ok (topologyNodes_nodup hids resolved)
    (topologyNodes_closed (IntentLeg.ids legs) resolved)
  rw [hkahn]
  exact Refuses.reject rfl

/-! ## the maps -/

theorem indexMetadataLegs_keys {accountId : AccountId} {metadata : List (SymbolMetadataSnapshot F)}
    {map : List (LegId × SymbolMetadataSnapshot F)}
    (h : indexMetadataLegs accountId metadata legs = .ok map) :
    map.map Prod.fst = (IntentLeg.ids legs).reverse := by
  induction legs generalizing map with
  | nil => cases h; rfl
  | cons leg legs ih =>
    simp only [indexMetadataLegs, bind_ok, exists_unit, need_ok, reject_ok, pure_ok] at h
    obtain ⟨found, -, -, others, hothers, rfl⟩ := h
    rw [List.map_append, ih hothers]
    show _ = (leg.legId :: IntentLeg.ids legs).reverse
    rw [List.reverse_cons]
    rfl

theorem exists_lookup {β : Type} {k : LegId} {xs : List (LegId × β)} (h : k ∈ xs.map Prod.fst) :
    ∃ b, xs.lookup k = some b := by
  induction xs with
  | nil => exact absurd h List.not_mem_nil
  | cons x xs ih =>
    rw [List.lookup_cons]
    by_cases hk : k = x.1
    · subst hk
      exact ⟨x.2, by rw [beq_self_eq_true]⟩
    · rw [beq_false_of_ne hk]
      rw [List.map_cons, List.mem_cons] at h
      exact ih (h.resolve_left hk)

theorem Joined.metadata_complete (h : Joined request p) {leg : IntentLeg F} (hleg : leg ∈ p.legs) :
    ∃ m, p.metadata.lookup leg.legId = some m := by
  have hmetadata := h.metadata
  simp only [indexMetadata, bind_ok, exists_unit] at hmetadata
  apply exists_lookup
  rw [indexMetadataLegs_keys hmetadata.2, List.mem_reverse]
  exact List.mem_map_of_mem hleg

theorem Joined.resolved_eq (h : Joined request p) : p.resolved = request.resolvedLegs := by
  have hresolved := h.resolved
  simp only [indexResolved, bind_ok, exists_unit, pure_ok] at hresolved
  exact hresolved.2.2.symm

/-- Each leg id the intent asks for is an id of the approval and of the resolved legs.  An intent
without proposed legs has its one leg among the candidates, and so among the approved legs. -/
structure Covered (request : ExecutionBuildRequest F) : Prop where
  approved : ∀ legs, request.riskRequest.intent.proposedLegs = some legs →
    ∀ leg ∈ legs, ∃ a ∈ request.riskResult.adjustedLegs.getD [], a.legId = leg.legId
  resolved : ∀ id ∈ intendedIds request.riskRequest, ∃ r ∈ request.resolvedLegs, r.legId = id

theorem validateCommon_result (h : validateCommon digest request = .ok ()) :
    request.riskResult.validate = .ok () ∧ request.riskResult.approved = true := by
  simp only [validateCommon, bind_ok, exists_unit, reject_ok] at h
  obtain ⟨-, -, -, -, -, hvalid, happroved, -⟩ := h
  refine ⟨?_, by simpa using happroved⟩
  unfold liftResult at hvalid
  split at hvalid
  case h_1 hok => exact hok
  case h_2 => cases hvalid

theorem candidate_bound {request : RiskRequest F} {result : RiskResult F}
    {approved : List (SizingCandidateProvenance F)}
    (h : validateResultCandidates request result = .ok ())
    (happroved : result.sizingCandidates = some approved) {c : PositionSizingCandidate F}
    (hc : c ∈ request.sizingCandidates) :
    c.legId ∈ approved.map SizingCandidateProvenance.legId := by
  simp only [validateResultCandidates, bind_ok, exists_unit, need_ok, each_ok] at h
  obtain ⟨bound, hbound, -, heach⟩ := h
  rw [happroved] at hbound
  cases hbound
  obtain ⟨b, hfound, -⟩ := heach c hc
  obtain ⟨hmem, hkey⟩ := find_key hfound
  rw [← hkey]
  exact List.mem_map_of_mem hmem

theorem single_approved (hcommon : validateCommon digest request = .ok ()) (h : Joined request p)
    (hnone : request.riskRequest.intent.proposedLegs = none) :
    singleLegId request.riskRequest.intent.intentId ∈ p.adjusted.map AdjustedRiskLeg.legId := by
  obtain ⟨hvalid, happroved⟩ := validateCommon_result hcommon
  obtain ⟨_, _, _, _, candidates, hcandidates, hsizing⟩ :=
    RiskResult.validate_sizing hvalid happroved h.adjusted
  obtain ⟨c, hc, hid⟩ := single_candidate h.legs hnone
  rw [validateSizing_ids hsizing, ← hid]
  exact candidate_bound h.candidates hcandidates hc

theorem covered_iff (hcommon : validateCommon digest request = .ok ()) (h : Joined request p) :
    Covered request ↔ ∀ leg ∈ p.legs, leg.legId ∈ p.adjusted.map AdjustedRiskLeg.legId ∧
      leg.legId ∈ p.resolved.map ResolvedLegExecution.legId := by
  have hids := intentLegs_ids h.legs
  rw [h.resolved_eq]
  constructor
  · intro hcovered leg hleg
    have hid : leg.legId ∈ intendedIds request.riskRequest := by
      rw [← hids]
      exact List.mem_map_of_mem hleg
    refine ⟨?_, List.mem_map.mpr (hcovered.resolved _ hid)⟩
    cases hproposed : request.riskRequest.intent.proposedLegs with
    | none =>
      unfold intendedIds at hid
      rw [hproposed] at hid
      rw [List.mem_singleton.mp hid]
      exact single_approved hcommon h hproposed
    | some legs =>
      unfold intendedIds at hid
      rw [hproposed] at hid
      obtain ⟨proposed, hmem, hsame⟩ := List.mem_map.mp hid
      have happroved := hcovered.approved legs hproposed proposed hmem
      rw [h.adjusted, Option.getD_some, hsame] at happroved
      exact List.mem_map.mpr happroved
  · intro hmaps
    have hintended : ∀ id ∈ intendedIds request.riskRequest, ∃ leg ∈ p.legs, leg.legId = id := by
      intro id hid
      rw [← hids] at hid
      exact List.mem_map.mp hid
    refine ⟨fun legs hproposed proposed hmem => ?_, fun id hid => ?_⟩
    · have hid : proposed.legId ∈ intendedIds request.riskRequest := by
        unfold intendedIds
        rw [hproposed]
        exact List.mem_map_of_mem hmem
      obtain ⟨leg, hleg, hsame⟩ := hintended _ hid
      rw [h.adjusted, Option.getD_some, ← hsame]
      exact List.mem_map.mp (hmaps leg hleg).1
    · obtain ⟨leg, hleg, rfl⟩ := hintended id hid
      exact List.mem_map.mp (hmaps leg hleg).2

end

end Sinan.Execution
