import Sinan.Risk.Monotone

/-!
# Approvals over exact numbers

With exact numbers an approval always is a valid result, so the evaluator never takes one back: its
amounts are the products and quotients that the validation asks for, its risk is within the budget and
the budget within the base.
-/

namespace Sinan.Risk

open Lib
open Breaker

theorem approximatelyEqual_self (q : ℚ) : approximatelyEqual q q = true := by
  unfold approximatelyEqual
  show (if (!true || !true) = true then false else if decide (q = q) = true then true else _) = true
  rw [decide_eq_true rfl]
  rfl

theorem sameF64Bits_self (q : ℚ) : sameF64Bits q q = true := by
  unfold sameF64Bits F64.sameBits
  show (true && true && (if q = q then 0 else 256) == 0) = true
  rw [if_pos rfl]
  rfl

theorem validatePositiveFinite_rat {field : String} {q : ℚ} :
    validatePositiveFinite field q = .ok () ↔ 0 < q := by
  have hpositive : ¬ F64.positive q = false ↔ 0 < q := by
    show ¬ decide (((0 : Int) : ℚ) < q) = false ↔ 0 < q
    rw [Int.cast_zero, decide_eq_false_iff_not, not_not]
  rw [validatePositiveFinite, bind_ok, exists_unit, validateFinite, reject_ok, reject_ok, hpositive]
  exact and_iff_right Bool.noConfusion

theorem exceedsHundred_rat {q : ℚ} : ¬ exceedsHundred q = true ↔ q ≤ 100 := by
  show ¬ decide (((100 : Int) : ℚ) < q) = true ↔ q ≤ 100
  rw [decide_eq_true_eq, not_lt]
  norm_num

/-! ## prepared legs -/

/-- what a prepared leg says of its candidate -/
structure Certified (leg : PreparedLeg ℚ) : Prop where
  named : blank leg.provenance.legId = false
  symbol : blank leg.provenance.symbol = false
  ratio : 0 < leg.provenance.ratio
  entry : 0 < leg.provenance.worstEntryPrice
  stop : 0 < leg.provenance.stopLossPrice
  direction : stopIsValid leg.provenance = true
  sameEntry : leg.entry = leg.provenance.worstEntryPrice
  sameStop : leg.stop = leg.provenance.stopLossPrice

section
variable {request : RiskRequest ℚ}

theorem prepareLeg_id {e : ExpectedLeg ℚ} {leg : PreparedLeg ℚ}
    (h : prepareLeg request e = .ok leg) :
    leg.provenance.legId = e.legId ∧ ∃ c ∈ request.sizingCandidates, leg.provenance = c.provenance := by
  simp only [prepareLeg, bind_ok, exists_unit, need_ok, pure_ok] at h
  obtain ⟨candidate, hfound, -, _, -, _, -, -, -, _, -, _, -, _, -, _, -, _, -, -, _, -, _, -, -, _, -,
    _, -, -, _, -, _, -, _, -, _, -, _, -, _, -, _, -, rfl⟩ := h
  obtain ⟨hmem, hid⟩ := find_key hfound
  exact ⟨hid, candidate, hmem, rfl⟩

theorem prepareLeg_certified {e : ExpectedLeg ℚ} {leg : PreparedLeg ℚ}
    (htext : ∀ c ∈ request.sizingCandidates, blank c.legId = false ∧ blank c.symbol = false)
    (h : prepareLeg request e = .ok leg) : Certified leg := by
  obtain ⟨-, c, hc, hprovenance⟩ := prepareLeg_id h
  obtain ⟨hnamed, hsymbol⟩ := htext c hc
  simp only [prepareLeg, decimal_rat, bind_ok, exists_unit, need_ok, reject_ok, pure_ok, not_or,
    not_le, Except.ok.injEq, exists_eq_left', Bool.not_eq_false] at h
  obtain ⟨candidate, -, -, ⟨hratio, -⟩, -, _, -, ⟨hentry, hstop, -⟩, _, -, _, -, -, hdirection, _, -,
    _, -, _, -, rfl⟩ := h
  refine ⟨?_, ?_, hratio, hentry, hstop, ?_, rfl, rfl⟩
  · rw [hprovenance]
    exact hnamed
  · rw [hprovenance]
    exact hsymbol
  · simp only [stopIsValid, directionValid, PositionSizingCandidate.provenance] at hdirection ⊢
    cases haction : candidate.action with
    | buy =>
      rw [haction] at hdirection
      exact decide_eq_true (of_decide_eq_true hdirection).1
    | sell =>
      rw [haction] at hdirection
      exact decide_eq_true (of_decide_eq_true hdirection).1

theorem prepareLegs_certified {prepared : List (PreparedLeg ℚ)}
    (h : prepareLegs request = .ok prepared) :
    (prepared.map fun leg => leg.provenance.legId).Nodup ∧ ∀ leg ∈ prepared, Certified leg := by
  obtain ⟨-, htext, expected, hexpected, -, hlegs⟩ := prepareLegs_ok h
  have hnodup : (expected.map ExpectedLeg.legId).Nodup := expectedLegs_nodup hexpected
  have hids : (prepared.map fun leg => leg.provenance.legId)
      = (expected.insertionSort fun x y => x.legId ≤ y.legId).map ExpectedLeg.legId := by
    rw [← List.forall₂_eq_eq_eq, List.forall₂_map_left_iff, List.forall₂_map_right_iff]
    exact hlegs.flip.imp fun _ _ hleg => (prepareLeg_id hleg).1
  refine ⟨?_, fun leg hleg => ?_⟩
  · rw [hids]
    exact ((List.perm_insertionSort _ expected).map _).nodup_iff.mpr hnodup
  · obtain ⟨e, -, he⟩ := forall₂_mem_right hlegs hleg
    exact prepareLeg_certified htext he

end

/-! ## adjusted legs -/

/-- what the validation of a result asks for of one adjusted leg -/
structure Adjusted (candidates : List (SizingCandidateProvenance ℚ)) (base : ℚ)
    (leg : AdjustedRiskLeg ℚ) : Prop where
  named : blank leg.legId = false
  symbol : blank leg.symbol = false
  numbers : validateAdjustedNumbers leg = .ok ()
  binding : validateAdjustedBinding candidates leg = .ok ()
  amounts : validateAdjustedAmounts base leg = .ok ()

theorem sumAdjustedRisk_rat {candidates : List (SizingCandidateProvenance ℚ)} {base total : ℚ}
    {seen : List LegId} {legs : List (AdjustedRiskLeg ℚ)}
    (hnodup : (legs.map AdjustedRiskLeg.legId).Nodup) (hseen : ∀ leg ∈ legs, leg.legId ∉ seen)
    (hlegs : ∀ leg ∈ legs, Adjusted candidates base leg) :
    sumAdjustedRisk candidates base seen total legs
      = .ok (total + (legs.map AdjustedRiskLeg.riskAmount).sum) := by
  induction legs generalizing seen total with
  | nil => exact congrArg Except.ok (add_zero total).symm
  | cons leg legs ih =>
    rw [List.map_cons, List.nodup_cons] at hnodup
    rw [List.forall_mem_cons] at hseen hlegs
    obtain ⟨hleg, hrest⟩ := hlegs
    have hfresh : ∀ other ∈ legs, other.legId ∉ seen ++ [leg.legId] := by
      intro other hother hmem
      rcases List.mem_append.mp hmem with hmem | hmem
      · exact hseen.2 other hother hmem
      · exact hnodup.1 (List.mem_map.mpr ⟨other, hother, List.mem_singleton.mp hmem⟩)
    simp only [sumAdjustedRisk, validateNonEmpty, bind_ok, exists_unit, reject_ok, Bool.not_eq_true]
    refine ⟨hleg.named, hleg.symbol, hseen.1, hleg.numbers, hleg.binding, hleg.amounts,
      Bool.noConfusion, ?_⟩
    rw [ih hnodup.2 hfresh hrest, List.map_cons, List.sum_cons, ← add_assoc]
    rfl

theorem adjustedWith_valid {leg : PreparedLeg ℚ} {prepared : List (PreparedLeg ℚ)} {base lots : ℚ}
    (hcertified : Certified leg) (hloading : Loading leg)
    (hnodup : (prepared.map fun leg => leg.provenance.legId).Nodup) (hmem : leg ∈ prepared)
    (hbase : 0 < base) (hlots : 0 < lots) (hwithin : lots * leg.lossPerLot ≤ base) :
    Adjusted (prepared.map PreparedLeg.provenance) base (adjustedWith base lots leg) := by
  have hamount : 0 < lots * leg.lossPerLot := mul_pos hlots hloading.loss
  have hpct : lots * leg.lossPerLot / base * 100 ≤ 100 := by
    have hshare : lots * leg.lossPerLot / base ≤ 1 := (div_le_one hbase).mpr hwithin
    linarith
  refine ⟨hcertified.named, hcertified.symbol, ?_, ?_, ?_⟩
  · have hpositive : 0 < lots * leg.lossPerLot / base * 100 :=
      mul_pos (div_pos hamount hbase) (by norm_num)
    simp only [validateAdjustedNumbers, validatePositiveFinite_rat, bind_ok, exists_unit, reject_ok,
      exceedsHundred_rat]
    refine ⟨hlots, hamount, hpositive, ?_, ?_, hloading.loss, hpct, Bool.false_ne_true⟩
    · rw [adjustedWith, hcertified.sameEntry]
      exact hcertified.entry
    · rw [adjustedWith, hcertified.sameStop]
      exact hcertified.stop
  · have hfind : (prepared.map PreparedLeg.provenance).find? (fun c => c.legId == leg.provenance.legId)
        = some leg.provenance := by
      refine find_key_self ?_ (List.mem_map_of_mem hmem)
      rw [List.map_map]
      exact hnodup
    simp only [validateAdjustedBinding, bind_ok, exists_unit, need_ok, reject_ok]
    refine ⟨leg.provenance, hfind, not_or.mpr ⟨fun h => h rfl, fun h => h rfl⟩, ?_⟩
    rw [adjustedWith, hcertified.sameEntry, hcertified.sameStop, sameF64Bits_self, sameF64Bits_self]
    decide
  · simp only [validateAdjustedAmounts, bind_ok, exists_unit, reject_ok, Bool.not_eq_false]
    exact ⟨approximatelyEqual_self _, approximatelyEqual_self _⟩

/-! ## results -/

theorem validatePercentage_rat {name : String} {q : ℚ} (h : validatePercentage name q true = .ok ()) :
    q ≤ 100 := by
  simp only [validatePercentage, decimal_rat, bind_ok, reject_ok, not_or, not_lt, Except.ok.injEq,
    exists_eq_left'] at h
  exact h.2.2

section
variable {request : RiskRequest ℚ} {prepared : List (PreparedLeg ℚ)}
  {active : List (ExecutionCommand ℚ × ExecutionCommandState)} {ages : AuditAges} {validUntil : Int}
  {capped : Capped}

theorem Opened.budget_le (h : Opened request prepared active ages validUntil capped) :
    capped.riskBudget ≤ riskBase request := by
  obtain ⟨-, hbase, -⟩ := validatePolicyAndInputs_ok h.inputs
  have hread := (capScales_iff.mp h.caps).1.read (activePendingCommands_iff.mpr h.tracked)
  have hpolicy : request.policy.maxRiskPerTradePct ≤ 100 := by
    have hinputs := h.inputs
    simp only [validatePolicyAndInputs, validatePercentages, bind_ok, exists_unit, each_ok,
      List.forall_mem_cons] at hinputs
    obtain ⟨-, ⟨⟨hfirst, -⟩, -⟩, -⟩ := hinputs
    exact validatePercentage_rat hfirst
  have hpct : riskPct request ≤ 100 := by
    calc riskPct request ≤ num request.policy.maxRiskPerTradePct :=
          (min_le_left _ _).trans ((min_le_left _ _).trans ((min_le_left _ _).trans (min_le_right _ _)))
      _ ≤ 100 := hpolicy
  rw [hread.budget]
  calc ofBase (riskBase request) (riskPct request) ≤ ofBase (riskBase request) 100 :=
        ofBase_mono hbase hpct
    _ = riskBase request := mul_div_cancel_right₀ _ (by norm_num)

theorem Opened.risk_le (h : Opened request prepared active ages validUntil capped) :
    riskAt capped.scale.value prepared ≤ capped.riskBudget := by
  have hfinal := h.final
  simp only [FinalChecked, validateFinal, bind_ok, exists_unit, reject_ok, not_lt] at hfinal
  rw [← actualRisk_sizedAt]
  exact hfinal.1

theorem Opened.nonempty (h : Opened request prepared active ages validUntil capped) :
    prepared ≠ [] := by
  obtain ⟨⟨_, _, _, hrisk, -⟩, -⟩ := (capScales_iff.mp h.caps).1
  obtain ⟨-, hcoefficient, -⟩ := riskScale_ok hrisk
  rintro rfl
  exact lt_irrefl _ hcoefficient

theorem Opened.sizing_valid (h : Opened request prepared active ages validUntil capped) :
    let approval := approvalAt request prepared capped.riskBudget capped.scale.value ages validUntil
    validateSizing approval.sizingVersion approval.riskBase approval.riskBudget approval.actualRiskPct
      approval.candidates approval.legs = .ok () := by
  intro approval
  obtain ⟨-, hbase, -⟩ := validatePolicyAndInputs_ok h.inputs
  obtain ⟨hnodup, hcertified⟩ := prepareLegs_certified h.prepares
  have hloading := prepareLegs_loading h.prepares h.symbols
  have hversion : request.policy.positionSizingVersion = positionSizingVersionV1 := by
    have hinputs := h.inputs
    simp only [validatePolicyAndInputs, validatePolicySwitches, bind_ok, exists_unit, reject_ok, ne_eq,
      not_not] at hinputs
    exact hinputs.1.1
  have hamounts : ∀ leg ∈ prepared, 0 < flooredLots capped.scale.value leg * leg.lossPerLot :=
    fun leg hleg => mul_pos (h.sizable leg hleg).positive (hloading leg hleg).loss
  have hwithin : ∀ leg ∈ prepared,
      flooredLots capped.scale.value leg * leg.lossPerLot ≤ riskAt capped.scale.value prepared := by
    intro leg hleg
    refine List.single_le_sum (fun amount hamount => ?_) _ (List.mem_map_of_mem hleg)
    obtain ⟨other, hother, rfl⟩ := List.mem_map.mp hamount
    exact (hamounts other hother).le
  have hrisk : 0 < riskAt capped.scale.value prepared := by
    obtain ⟨leg, hleg⟩ := List.exists_mem_of_ne_nil _ h.nonempty
    exact (hamounts leg hleg).trans_le (hwithin leg hleg)
  have hspent := h.risk_le
  have hbudget := h.budget_le
  have hpct : riskAt capped.scale.value prepared / riskBase request * 100 ≤ 100 := by
    have hshare : riskAt capped.scale.value prepared / riskBase request ≤ 1 :=
      (div_le_one hbase).mpr (hspent.trans hbudget)
    linarith
  have hadjusted : ∀ leg ∈ approval.legs, Adjusted approval.candidates approval.riskBase leg := by
    intro adjusted hmem
    obtain ⟨leg, hleg, rfl⟩ := List.mem_map.mp hmem
    exact adjustedWith_valid (hcertified leg hleg) (hloading leg hleg) hnodup hleg hbase
      (h.sizable leg hleg).positive ((hwithin leg hleg).trans (hspent.trans hbudget))
  have hids : (approval.legs.map AdjustedRiskLeg.legId).Nodup := by
    show ((prepared.map _).map _).Nodup
    rw [List.map_map]
    exact hnodup
  have hsum : sumAdjustedRisk approval.candidates approval.riskBase [] F64.zero approval.legs
      = .ok (riskAt capped.scale.value prepared) := by
    rw [sumAdjustedRisk_rat hids (fun _ _ => List.not_mem_nil) hadjusted]
    show Except.ok (((0 : Int) : ℚ) + ((prepared.map _).map _).sum) = _
    rw [Int.cast_zero, zero_add, List.map_map]
    rfl
  have hcandidates : eachApart (fun y x => decide (y.legId = x.legId))
      (fun c => do
        validateNonEmpty "sizing_candidates[].leg_id" c.legId
        validateNonEmpty "sizing_candidates[].symbol" c.symbol)
      (fun c => (⟨"sizing_candidates[].leg_id", "must be unique; duplicate " ++ c.legId⟩ :
        RiskResultValidationError))
      validateCandidate [] approval.candidates = .ok () := by
    rw [eachApart_key_ok]
    refine ⟨?_, fun c hc => ?_⟩
    · show ((prepared.map _).map _).Nodup
      rw [List.map_map]
      exact hnodup
    · obtain ⟨leg, hleg, rfl⟩ := List.mem_map.mp hc
      have hleg := hcertified leg hleg
      simp only [validateNonEmpty, validateCandidate, validatePositiveFinite_rat, validateFinite,
        bind_ok, exists_unit, reject_ok, Bool.not_eq_true, Bool.not_eq_false]
      exact ⟨⟨hleg.named, hleg.symbol⟩, hleg.ratio, hleg.entry, hleg.stop, rfl, hleg.direction⟩
  simp only [validateSizing, validateSizingLegs, validateNonEmpty, validatePositiveFinite_rat, bind_ok,
    exists_unit, reject_ok, exceedsHundred_rat]
  have hsome : prepared.isEmpty = false := by
    rw [← Bool.not_eq_true, List.isEmpty_iff]
    exact h.nonempty
  refine ⟨?_, hbase, hrisk.trans_le hspent, mul_pos (div_pos hrisk hbase) (by norm_num), ?_, hpct, ?_,
    ?_, ?_, hcandidates, _, hsum, ?_, ?_⟩
  · show ¬ blank request.policy.positionSizingVersion = true
    rw [hversion]
    decide
  · exact fun hlt => absurd (of_decide_eq_true hlt) (not_lt.mpr hbudget)
  · show ¬ (prepared.map _).isEmpty = true
    rw [List.isEmpty_map, hsome]
    exact Bool.false_ne_true
  · show ¬ (prepared.map _).isEmpty = true
    rw [List.isEmpty_map, hsome]
    exact Bool.false_ne_true
  · show ¬ (prepared.map _).length ≠ (prepared.map _).length
    rw [List.length_map, List.length_map]
    exact fun hne => hne rfl
  · exact fun hover => absurd (of_decide_eq_true hover.1) (not_lt.mpr hspent)
  · rw [Bool.not_eq_false]
    exact approximatelyEqual_self _

theorem Opened.valid (h : Opened request prepared active ages validUntil capped)
    (digest : RequestDigest ℚ) (hnameable : Nameable request) :
    (actionableResult request (digest.hash request)
      (approvalAt request prepared capped.riskBudget capped.scale.value ages validUntil)).validate
      = .ok () := by
  have hages := validateFreshness_nonneg h.fresh
  obtain ⟨hopen, -⟩ := approvalValidUntil_ok h.ends
  have hheader := @validateHeader_ok ℚ _ request digest
    (actionableResult request (digest.hash request)
      (approvalAt request prepared capped.riskBudget capped.scale.value ages validUntil)) hnameable
    ⟨rfl, rfl, rfl, rfl, rfl, rfl, rfl⟩
    ⟨hages.snapshot, hages.metadata, hages.market, hages.capacity⟩ hopen.le
  unfold RiskResult.validate
  rw [bind_ok, exists_unit]
  refine ⟨hheader, ?_⟩
  simp only [actionableResult, Bool.true_eq_false, if_false, bind_ok, exists_unit]
  exact ⟨reject_ok.mpr fun h => h rfl, reject_ok.mpr hopen.ne', h.sizing_valid⟩

end

/-! ## the evaluation of an eased request -/

/-- the second result has the legs of the first, none with fewer lots -/
def LotsGrow (result later : RiskResult ℚ) : Prop :=
  Option.Rel (List.Forall₂ fun leg leg' => leg'.legId = leg.legId ∧ leg.lots ≤ leg'.lots)
    result.adjustedLegs later.adjustedLegs

section
variable {request : RiskRequest ℚ} {v : Shape} {digest : RequestDigest ℚ} {breaker : CircuitBreakerState}

theorem evaluateInner_shaped_eased (heased : Eased request v) (h : Shaped request) :
    Shaped (request.reshape v) :=
  ⟨validateRequestIdentity_eased heased h.1, validateActionShape_eased heased h.2⟩

theorem Opened.evaluated {prepared : List (PreparedLeg ℚ)}
    {active : List (ExecutionCommand ℚ × ExecutionCommandState)} {ages : AuditAges} {validUntil : Int}
    {capped : Capped} (h : Opened request prepared active ages validUntil capped)
    (hnameable : Nameable request) (hshaped : Shaped request)
    (haction : request.intent.action = .buy ∨ request.intent.action = .sell)
    (hallowed : (breaker.authorize .riskIncreasingTradeIntent).allowed = true) :
    evaluate digest request breaker = .ok (actionableResult request (digest.hash request)
      (approvalAt request prepared capped.riskBudget capped.scale.value ages validUntil)) := by
  have hinner : evaluateInner request breaker = .ok (.actionable
      (approvalAt request prepared capped.riskBudget capped.scale.value ages validUntil)) := by
    rw [evaluateInner_opening hshaped haction hallowed,
      evaluateOpening_iff.mpr ⟨prepared, active, ages, validUntil, capped, h, rfl⟩]
    rfl
  have hresult := @evaluate_valid ℚ _ request digest breaker hnameable (by
    rw [hinner]
    exact h.valid digest hnameable)
  rw [hinner] at hresult
  exact hresult

theorem evaluate_eased {result : RiskResult ℚ} (h : evaluate digest request breaker = .ok result)
    (happroved : result.approved = true) (heased : Eased request v) :
    ∃ later, evaluate digest (request.reshape v) breaker = .ok later ∧ later.approved = true ∧
      LotsGrow result later := by
  have hnameable := evaluate_isNameable h
  have hnameable' := hnameable.eased (v := v)
  obtain ⟨approval, hinner, rfl, -⟩ := evaluate_approved h happroved
  have hshaped := evaluateInner_shaped hinner
  have hshaped' := evaluateInner_shaped_eased heased hshaped
  cases approval with
  | noOp validUntil =>
    have haction := evaluateInner_noOp hinner
    obtain ⟨hcontrol, _, huntil, heq⟩ := (evaluateInner_hold hshaped haction).mp hinner
    obtain ⟨-, -, hopen⟩ := holdValidUntil_iff.mp huntil
    have hinner' : evaluateInner (request.reshape v) breaker = .ok (.noOp _) :=
      (evaluateInner_hold hshaped' haction).mpr ⟨hcontrol, _, huntil, rfl⟩
    have hresult := @evaluate_valid ℚ _ (request.reshape v) digest breaker hnameable' (by
      rw [hinner']
      exact noOpResult_valid hnameable' hopen)
    rw [hinner'] at hresult
    exact ⟨_, hresult, rfl, Option.Rel.none⟩
  | actionable approval =>
    obtain ⟨haction, hallowed, hopening⟩ := evaluateInner_actionable hinner
    obtain ⟨prepared, active, ages, validUntil, capped, hopened, rfl⟩ := evaluateOpening_iff.mp hopening
    obtain ⟨kept, ages', later, capped', hopened', -, -, -, hscale⟩ := hopened.eased heased
    refine ⟨_, Opened.evaluated hopened' hnameable' hshaped' haction hallowed, rfl,
      Option.Rel.some ?_⟩
    show List.Forall₂ _ (prepared.map _) (prepared.map _)
    rw [List.forall₂_map_left_iff, List.forall₂_map_right_iff, List.forall₂_same]
    intro leg hleg
    have hratio := (prepareLegs_loading hopened.prepares hopened.symbols leg hleg).ratio
    exact ⟨rfl, flooredLots_mono (hopened.sizable leg hleg).step hratio hscale⟩

end

end Sinan.Risk
