import Sinan.Risk.Caps
import Sinan.Risk.Evaluator

/-!
# Sizing is sound and maximal

Whatever the evaluator approves respects every cap, and its lots are the floors of the largest common
scale under the caps.
-/

namespace Sinan.Risk

open Lib
open Breaker

section
variable {F : Type} [F64 F]

/-! ## prepared legs -/

theorem prepareLeg_positive {request : RiskRequest F} {expected : ExpectedLeg F}
    {leg : PreparedLeg F} (h : prepareLeg request expected = .ok leg) :
    0 < leg.ratio ∧ 0 < leg.notionalPerLot := by
  simp only [prepareLeg, bind_ok, exists_unit, reject_ok, need_ok, pure_ok, not_or, not_le] at h
  obtain ⟨candidate, -, -, ratio, -, _, -, ⟨hratio, -⟩, -, _, -, _, -, entry, hentry, _, -, _, -,
    -, metadata, -, market, -, -, _, -, _, -, -, _, -, notional, hnotional, _, -, _, -, _, -, _, -,
    _, -, rfl⟩ := h
  refine ⟨hratio, ?_⟩
  have hprice : (some candidate.worstEntryPrice).map num = some entry := by
    rw [decimal_num hentry]
    rfl
  rw [← hprice] at hnotional
  exact (notionalPerLot_num hnotional).2

theorem prepareLegs_exposing {request : RiskRequest F} {legs : List (PreparedLeg F)}
    (h : prepareLegs request = .ok legs) : Exposing legs := by
  simp only [prepareLegs, bind_ok, exists_unit, collect_ok] at h
  obtain ⟨-, _, -, -, hlegs⟩ := h
  intro leg hleg
  obtain ⟨expected, -, hprepared⟩ := forall₂_mem_right hlegs hleg
  exact prepareLeg_positive hprepared

/-! ## the scale -/

/-- what the sizing read is what the caps of the request say -/
structure CapsRead (request : RiskRequest F) (capped : Capped) : Prop where
  budget : capped.riskBudget = (riskCap request).limit
  symbolLimit : capped.symbolCap = ofBase (riskBase request) (num request.policy.maxSymbolExposurePct)
  totalLimit : capped.totalCap = (totalCap request).limit
  existing : ∀ symbol, capped.existing.get symbol = heldNotional request symbol
  existingTotal : capped.existing.total = totalNotional request
  pending : capped.margins.pending = heldMargin request
  free : capped.margins.free = (freeMarginCap request).limit
  account : capped.margins.account = num request.account.margin
  marginLimit : capped.margins.cap = (marginUsageCap request).limit

/-- a scale of the legs under every upper limit -/
structure Under {K : Type} [Field K] [LinearOrder K] (request : RiskRequest F)
    (legs : List (PreparedLeg F)) (t : K) : Prop where
  risk : (riskCap request).Holds (scaled PreparedLeg.ratio legs t)
  volume : ∀ leg ∈ legs, t * (leg.ratio : K) ≤ (leg.volumeMax : K)
  symbol : ∀ leg ∈ legs,
    (symbolCap request leg.provenance.symbol).Holds (scaled PreparedLeg.ratio legs t)
  total : (totalCap request).Holds (scaled PreparedLeg.ratio legs t)
  freeMargin : (freeMarginCap request).Holds (scaled PreparedLeg.ratio legs t)
  marginUsage : (marginUsageCap request).Holds (scaled PreparedLeg.ratio legs t)

theorem riskScale_ok {request : RiskRequest F} {legs : List (PreparedLeg F)} {budget : ℚ}
    {scale : Scale} (h : riskScale request legs (riskBase request) = .ok (budget, scale)) :
    budget = (riskCap request).limit ∧
      0 < (riskCap request).coefficient PreparedLeg.ratio legs ∧
      scale.value = budget / (riskCap request).coefficient PreparedLeg.ratio legs := by
  simp only [riskScale, approvedPct, bind_ok, exists_unit, reject_ok, pure_ok, checkedDiv_ok,
    not_or, not_le, Prod.mk.injEq] at h
  obtain ⟨pct, ⟨proposed, hproposed, policy, hpolicy, strategy, hstrategy, account, haccount,
    portfolio, hportfolio, -, rfl⟩, ⟨hloss, -⟩, value, ⟨-, rfl⟩, rfl, rfl⟩ := h
  refine ⟨?_, hloss, rfl⟩
  rw [decimal_num hproposed, decimal_num hpolicy, decimal_num hstrategy, decimal_num haccount,
    decimal_num hportfolio]
  rfl

theorem readMargins_ok {request : RiskRequest F}
    {active : List (ExecutionCommand F × ExecutionCommandState)} {base : ℚ} {margins : Margins}
    (hactive : activePendingCommands request = .ok active)
    (h : readMargins request (active.map Prod.fst) base = .ok margins) :
    margins.pending = heldMargin request ∧ margins.free = num request.account.freeMargin ∧
      margins.account = num request.account.margin ∧
      margins.cap = ofBase base (num request.policy.maxMarginUsagePct) := by
  simp only [readMargins, bind_ok, pure_ok] at h
  obtain ⟨pending, hpending, free, hfree, account, haccount, pct, hpct, rfl⟩ := h
  refine ⟨pendingMargin_held hactive hpending, decimal_num hfree, decimal_num haccount, ?_⟩
  rw [decimal_num hpct]

/-- what `cap_scales` has computed, but for its last check -/
structure Lowered (request : RiskRequest F) (legs : List (PreparedLeg F))
    (active : List (ExecutionCommand F)) (capped : Capped) : Prop where
  steps : ∃ first second third, riskScale request legs (riskBase request)
      = .ok (capped.riskBudget, first) ∧
    legs.foldlM volumeScale first = .ok second ∧
    exposureScale capped.existing capped.symbolCap capped.totalCap legs second = .ok third ∧
    marginScale capped.margins legs third = .ok capped.scale
  existing : existingExposure request active = .ok capped.existing
  symbolLimit : ∃ pct, decimal "max_symbol_exposure_pct" request.policy.maxSymbolExposurePct = .ok pct ∧
    capped.symbolCap = ofBase (riskBase request) pct
  totalLimit : ∃ pct, decimal "max_total_exposure_pct" request.policy.maxTotalExposurePct = .ok pct ∧
    capped.totalCap = ofBase (riskBase request) pct
  margins : readMargins request active (riskBase request) = .ok capped.margins

theorem capScales_iff {request : RiskRequest F} {legs : List (PreparedLeg F)}
    {active : List (ExecutionCommand F)} {capped : Capped} :
    capScales request legs active (riskBase request) = .ok capped ↔
      Lowered request legs active capped ∧ 0 < capped.scale.value := by
  simp only [capScales, bind_ok, exists_unit, pure_ok, reject_ok, not_le]
  constructor
  · rintro ⟨⟨budget, first⟩, hrisk, second, hvolume, existing, hexisting, symbolPct, hsymbolPct,
      totalPct, htotalPct, third, hexposure, margins, hmargins, fourth, hmargin, hpositive, rfl⟩
    exact ⟨⟨⟨first, second, third, hrisk, hvolume, hexposure, hmargin⟩, hexisting,
      ⟨symbolPct, hsymbolPct, rfl⟩, ⟨totalPct, htotalPct, rfl⟩, hmargins⟩, hpositive⟩
  · rintro ⟨⟨⟨first, second, third, hrisk, hvolume, hexposure, hmargin⟩, hexisting,
      ⟨symbolPct, hsymbolPct, hsymbolCap⟩, ⟨totalPct, htotalPct, htotalCap⟩, hmargins⟩, hpositive⟩
    rw [hsymbolCap, htotalCap] at hexposure
    refine ⟨(capped.riskBudget, first), hrisk, second, hvolume, capped.existing, hexisting, symbolPct,
      hsymbolPct, totalPct, htotalPct, third, hexposure, capped.margins, hmargins, capped.scale,
      hmargin, hpositive, ?_⟩
    rw [← hsymbolCap, ← htotalCap]

section
variable {request : RiskRequest F} {legs : List (PreparedLeg F)}
  {active : List (ExecutionCommand F × ExecutionCommandState)} {capped : Capped}

theorem Lowered.read (hactive : activePendingCommands request = .ok active)
    (h : Lowered request legs (active.map Prod.fst) capped) : CapsRead request capped := by
  obtain ⟨⟨first, second, third, hrisk, -, -, -⟩, hexisting, ⟨symbolPct, hsymbolPct, hsymbolCap⟩,
    ⟨totalPct, htotalPct, htotalCap⟩, hmargins⟩ := h
  obtain ⟨hbudget, -, -⟩ := riskScale_ok hrisk
  obtain ⟨hpending, hfree, haccount, hcap⟩ := readMargins_ok hactive hmargins
  rw [decimal_num hsymbolPct] at hsymbolCap
  rw [decimal_num htotalPct] at htotalCap
  exact ⟨hbudget, hsymbolCap, htotalCap, existingExposure_get hactive hexisting,
    existingExposure_total hactive hexisting, hpending, hfree, haccount, hcap⟩

theorem Lowered.le_iff {K : Type} [Field K] [LinearOrder K] [IsStrictOrderedRing K]
    (hexposing : Exposing legs) (hactive : activePendingCommands request = .ok active)
    (h : Lowered request legs (active.map Prod.fst) capped) (t : K) :
    t ≤ (capped.scale.value : K) ↔ Under request legs t := by
  have hread := h.read hactive
  obtain ⟨⟨first, second, third, hrisk, hvolume, hexposure, hmargin⟩, hexisting, -, -, hmargins⟩ := h
  obtain ⟨hbudget, hcoefficient, hfirst⟩ := riskScale_ok hrisk
  have htotalLimit : capped.totalCap
      = ofBase (riskBase request) (num request.policy.maxTotalExposurePct) := hread.totalLimit
  rw [hread.symbolLimit, htotalLimit] at hexposure
  have hne : legs ≠ [] := by
    rintro rfl
    exact lt_irrefl _ hcoefficient
  have hrisks : t ≤ (first.value : K) ↔
      (riskCap request).Holds (scaled PreparedLeg.ratio legs t) := by
    rw [Cap.holds_scaled_iff _ hcoefficient, hfirst, hbudget]
    show _ ↔ t ≤ (((_ - 0) / _ : ℚ) : K)
    rw [sub_zero]
  rw [marginScale_le_iff hread.pending hread.free hread.account hread.marginLimit hmargin,
    exposureScale_le_iff hexposing hne hread.existing hread.existingTotal hexposure,
    volumeScales_le_iff hexposing hvolume, hrisks]
  constructor
  · rintro ⟨⟨⟨hr, hv⟩, hs, ht⟩, hf, hu⟩
    exact ⟨hr, hv, hs, ht, hf, hu⟩
  · rintro ⟨hr, hv, hs, ht, hf, hu⟩
    exact ⟨⟨⟨hr, hv⟩, hs, ht⟩, hf, hu⟩

theorem capScales_ok (hexposing : Exposing legs)
    (hactive : activePendingCommands request = .ok active)
    (h : capScales request legs (active.map Prod.fst) (riskBase request) = .ok capped) :
    CapsRead request capped ∧
      ∀ t : ℝ, t ≤ (capped.scale.value : ℝ) ↔ Under request legs t := by
  have hlowered := (capScales_iff.mp h).1
  exact ⟨hlowered.read hactive, fun t => hlowered.le_iff hexposing hactive t⟩

end

/-! ## lots -/

/-- the conversion of decimals to `f64` and back loses nothing -/
def ExactConversion (F : Type) [F64 F] : Prop :=
  ∀ (q : ℚ) (x : F), F64.ofDecimal q = some x → F64.toDecimal x = some q

theorem floorToStep_ok {x step q : ℚ} (h : floorToStep x step = .ok q) :
    0 < step ∧ q = ⌊x / step⌋ * step := by
  simp only [floorToStep, bind_ok, exists_unit, reject_ok, pure_ok, checkedDiv_ok, not_or, not_lt,
    not_le] at h
  obtain ⟨⟨-, hstep⟩, units, ⟨-, rfl⟩, rfl⟩ := h
  exact ⟨hstep, rfl⟩

theorem requiredF64_num (hexact : ExactConversion F) {q : ℚ} {x : F}
    (h : (requiredF64 q : Evaluation F) = .ok x) : num x = q := by
  simp only [requiredF64, need_ok, decimalToF64, Option.filter_eq_some_iff] at h
  rw [num, hexact q x h.1, Option.getD_some]

/-- a leg at a scale: its lots are the scaled ratio, floored to the step -/
structure SizedAt (scale : ℚ) (s : SizedLeg F) : Prop where
  step : 0 < s.leg.volumeStep
  lots : s.lots = ⌊scale * s.leg.ratio / s.leg.volumeStep⌋ * s.leg.volumeStep
  least : s.leg.volumeMin ≤ s.lots
  most : s.lots ≤ s.leg.volumeMax
  executable : num s.executableLots = s.lots
  amount : s.riskAmount = s.lots * s.leg.lossPerLot

variable {s : SizedLeg F}

theorem sizeLeg_ok (hexact : ExactConversion F) {scale : Scale} {leg : PreparedLeg F}
    (h : sizeLeg scale leg = .ok s) : s.leg = leg ∧ SizedAt scale.value s := by
  simp only [sizeLeg, normalizeExecutableLots, bind_ok, exists_unit, reject_ok, pure_ok, not_lt,
    Prod.mk.injEq, Prod.exists] at h
  obtain ⟨floored, hfloor, lots, executable, ⟨_, hrequired, _, hback, -, _, -, -, rfl, rfl⟩, hmin,
    hmax, _, -, -, rfl⟩ := h
  obtain ⟨hstep, hfloored⟩ := floorToStep_ok hfloor
  have hsame := requiredF64_num hexact hrequired
  rw [← decimal_num hback] at hsame
  exact ⟨rfl, hstep, hsame.trans hfloored, hmin, hmax, (decimal_num hback).symm, rfl⟩

theorem SizedAt.lots_le {scale : ℚ} (h : SizedAt scale s) :
    s.lots ≤ scale * s.leg.ratio := by
  rw [h.lots]
  exact sub_nonneg.mp (Int.sub_floor_div_mul_nonneg _ h.step)

/-- the sizing of the sized legs -/
def sizingOf (sized : List (SizedLeg F)) : List (PreparedLeg F × ℚ) :=
  sized.map fun s => (s.leg, s.lots)

/-! ## the final checks -/

section
variable {request : RiskRequest F} {capped : Capped} {sized : List (SizedLeg F)}

theorem finalExposure_get (hread : CapsRead request capped) (symbol : SymbolCode) :
    (finalExposure capped.existing sized).get symbol = (symbolCap request symbol).used +
      ((sizingOf sized).map fun x => x.2 * (symbolCap request symbol).load x.1).sum := by
  rw [finalExposure, Amounts.get_addAll, hread.existing, sum_map_filter, sizingOf, List.map_map]
  refine congrArg _ (congrArg List.sum (List.map_congr_left fun s _ => ?_))
  exact (mul_ite_zero _ _ _).symm

theorem finalExposure_total (hread : CapsRead request capped) :
    (finalExposure capped.existing sized).total = (totalCap request).used +
      ((sizingOf sized).map fun x => x.2 * (totalCap request).load x.1).sum := by
  rw [finalExposure, Amounts.total_addAll, hread.existingTotal, sizingOf, List.map_map]
  rfl

theorem validateFinal_ok {scale : ℚ} (hread : CapsRead request capped) (hbase : 0 < riskBase request)
    (hpct : 0 < num request.policy.maxSymbolExposurePct) (hsized : ∀ s ∈ sized, SizedAt scale s)
    (h : validateFinal capped.riskBudget capped.symbolCap capped.totalCap capped.existing
      capped.margins sized = .ok ()) :
    Within request (sizingOf sized) := by
  simp only [validateFinal, bind_ok, exists_unit, reject_ok, not_or, not_lt, not_exists,
    not_and] at h
  obtain ⟨hrisk, ⟨hsymbols, htotal⟩, hfree, husage⟩ := h
  refine ⟨?_, fun symbol => ?_, ?_, ?_, ?_, ?_⟩
  · rw [Cap.holds_rat_iff]
    have hsum : actualRisk sized =
        ((sizingOf sized).map fun x => x.2 * (riskCap request).load x.1).sum := by
      rw [actualRisk, sizingOf, List.map_map]
      exact congrArg List.sum (List.map_congr_left fun s hs => (hsized s hs).amount)
    show 0 + _ ≤ _
    rw [zero_add, ← hsum, ← hread.budget]
    exact hrisk
  · rw [Cap.holds_rat_iff, ← finalExposure_get hread]
    have hlimit : (symbolCap request symbol).limit = capped.symbolCap := hread.symbolLimit.symm
    rw [hlimit]
    by_cases hkey : symbol ∈ (finalExposure capped.existing sized).entries.map Prod.fst
    · obtain ⟨entry, hentry, rfl⟩ := List.mem_map.mp hkey
      rw [Amounts.get_of_mem hentry]
      exact hsymbols entry hentry
    · rw [Amounts.get_of_not_mem hkey, hread.symbolLimit, ofBase]
      exact div_nonneg (mul_nonneg hbase.le hpct.le) (by norm_num)
  · rw [Cap.holds_rat_iff, ← finalExposure_total hread, ← hread.totalLimit]
    exact htotal
  · rw [Cap.holds_rat_iff, ← hread.free]
    rw [hread.pending, newMargin] at hfree
    rw [sizingOf, List.map_map]
    exact hfree
  · rw [Cap.holds_rat_iff, ← hread.marginLimit]
    rw [hread.pending, hread.account, newMargin, ← add_assoc] at husage
    rw [sizingOf, List.map_map]
    exact husage
  · intro x hx
    obtain ⟨s, hs, rfl⟩ := List.mem_map.mp hx
    rw [Rat.cast_id, Rat.cast_id]
    exact ⟨(hsized s hs).least, (hsized s hs).most⟩

end

/-! ## approvals -/

theorem validatePolicyAndInputs_ok {request : RiskRequest F} {base : ℚ}
    (h : validatePolicyAndInputs request = .ok base) :
    base = riskBase request ∧ 0 < riskBase request ∧
      0 < num request.policy.maxSymbolExposurePct := by
  simp only [validatePolicyAndInputs, validatePercentages, bind_ok, exists_unit, reject_ok, pure_ok,
    not_le, each_ok, List.forall_mem_cons] at h
  obtain ⟨-, ⟨-, -, -, -, ⟨⟨pct, hpct, hpositive⟩, -⟩, -⟩, _, -, -, -, -, balance, hbalance, equity,
    hequity, _, -, _, -, -, hbase, rfl⟩ := h
  rw [decimal_num hbalance, decimal_num hequity] at hbase ⊢
  rw [decimal_num hpct] at hpositive
  exact ⟨rfl, hbase, hpositive⟩

/-- an adjusted leg of the result, beside the prepared leg it sizes -/
structure AdjustedAt (scale : ℚ) (p : PreparedLeg F) (leg : AdjustedRiskLeg F) : Prop where
  identity : leg.legId = p.provenance.legId ∧ leg.symbol = p.provenance.symbol ∧
    leg.action = p.provenance.action
  lossPerLot : num leg.lossPerLot = p.lossPerLot
  step : 0 < p.volumeStep
  lots : num leg.lots = ⌊scale * p.ratio / p.volumeStep⌋ * p.volumeStep

theorem adjustLeg_ok (hexact : ExactConversion F) {base scale : ℚ} {leg : AdjustedRiskLeg F}
    (hs : SizedAt scale s) (h : adjustLeg base s = .ok leg) :
    AdjustedAt scale s.leg leg ∧ num leg.lots = s.lots := by
  simp only [adjustLeg, bind_ok, pure_ok] at h
  obtain ⟨_, -, _, -, _, -, _, -, _, -, loss, hloss, rfl⟩ := h
  have hlots := hs.executable.trans hs.lots
  exact ⟨⟨⟨rfl, rfl, rfl⟩, requiredF64_num hexact hloss, hs.step, hlots⟩, hs.executable⟩

/-- a scale at which the sizing holds and which bounds the scales under the upper limits is the
largest one -/
theorem isGreatest_scale {request : RiskRequest F} {sized : List (SizedLeg F)} {scale : ℚ}
    (hsized : ∀ s ∈ sized, SizedAt scale s) (hwithin : Within request (sizingOf sized))
    (hscale : ∀ t : ℝ, t ≤ (scale : ℝ) ↔ Under request (sized.map SizedLeg.leg) t) :
    IsGreatest {t : ℝ | Within request (scaled PreparedLeg.ratio (sized.map SizedLeg.leg) t)}
      (scale : ℝ) := by
  constructor
  · have hunder := (hscale scale).mp le_rfl
    refine ⟨hunder.risk, fun symbol => ?_, hunder.total, hunder.freeMargin, hunder.marginUsage, ?_⟩
    · by_cases hleg : ∃ leg ∈ sized.map SizedLeg.leg, leg.provenance.symbol = symbol
      · obtain ⟨leg, hmem, rfl⟩ := hleg
        exact hunder.symbol leg hmem
      · -- a symbol without a new leg: the lots of the sizing do not touch its cap either
        have hload : ∀ leg ∈ sized.map SizedLeg.leg, (symbolCap request symbol).load leg = 0 :=
          fun leg hmem => if_neg fun hsame => hleg ⟨leg, hmem, hsame⟩
        refine Cap.holds_scaled_of_untouched _ hload ?_ _
        have hholds := (Cap.holds_rat_iff _ _).mp (hwithin.symbol symbol)
        have hzero : ((sizingOf sized).map
            fun x => x.2 * (symbolCap request symbol).load x.1).sum = 0 := by
          refine List.sum_eq_zero fun y hy => ?_
          obtain ⟨x, hx, rfl⟩ := List.mem_map.mp hy
          obtain ⟨s, hs, rfl⟩ := List.mem_map.mp hx
          show s.lots * _ = 0
          rw [hload s.leg (List.mem_map_of_mem hs), mul_zero]
        rwa [hzero, add_zero] at hholds
    · intro x hx
      obtain ⟨leg, hleg, rfl⟩ := List.mem_map.mp hx
      refine ⟨?_, hunder.volume leg hleg⟩
      obtain ⟨s, hs, rfl⟩ := List.mem_map.mp hleg
      have hlots := (hsized s hs).least.trans (hsized s hs).lots_le
      show (s.leg.volumeMin : ℝ) ≤ (scale : ℝ) * (s.leg.ratio : ℝ)
      exact_mod_cast hlots
  · intro t ht
    refine (hscale t).mpr ⟨ht.risk, fun leg hleg => ?_, fun leg _ => ht.symbol _, ht.total,
      ht.freeMargin, ht.marginUsage⟩
    exact (ht.volume (leg, t * leg.ratio) (List.mem_map_of_mem hleg)).2

/-- What the evaluator approves with adjusted legs is a BUY or a SELL the breaker lets through, its
lots are within every cap, and they are the floors of the largest scale whose lots are. -/
theorem evaluate_sound_and_maximal (hexact : ExactConversion F) {digest : RequestDigest F}
    {request : RiskRequest F} {breaker : CircuitBreakerState} {result : RiskResult F}
    {legs : List (AdjustedRiskLeg F)} (h : evaluate digest request breaker = .ok result)
    (happroved : result.approved = true) (hlegs : result.adjustedLegs = some legs) :
    (request.intent.action = .buy ∨ request.intent.action = .sell) ∧
      (breaker.authorize .riskIncreasingTradeIntent).allowed = true ∧
      ∃ prepared scale, prepareLegs request = .ok prepared ∧
        List.Forall₂ (AdjustedAt scale) prepared legs ∧
        Within request (prepared.zip (legs.map fun leg => num leg.lots)) ∧
        IsGreatest {t : ℝ | Within request (scaled PreparedLeg.ratio prepared t)} (scale : ℝ) := by
  obtain ⟨approval, hinner, -, rfl, -⟩ := evaluate_sized h happroved hlegs
  obtain ⟨haction, hallowed, hopening⟩ := evaluateInner_actionable hinner
  refine ⟨haction, hallowed, ?_⟩
  simp only [evaluateOpening, bind_ok, exists_unit] at hopening
  obtain ⟨-, -, -, ages, -, base, hbase, -, prepared, hprepared, -, active, hactive, -, -,
    validUntil, -, hsizing⟩ := hopening
  obtain ⟨rfl, hpositive, hpct⟩ := validatePolicyAndInputs_ok hbase
  simp only [sizeAndCap, bind_ok, exists_unit, pure_ok, collect_ok] at hsizing
  obtain ⟨capped, hcapped, sized, hsized, hfinal, _, -, adjusted, hadjusted, rfl⟩ := hsizing
  obtain ⟨hread, hscale⟩ := capScales_ok (prepareLegs_exposing hprepared) hactive hcapped
  have hat : ∀ s ∈ sized, SizedAt capped.scale.value s := by
    intro s hs
    obtain ⟨leg, -, hleg⟩ := forall₂_mem_right hsized hs
    exact (sizeLeg_ok hexact hleg).2
  have hprep : prepared = sized.map SizedLeg.leg := by
    rw [← List.forall₂_eq_eq_eq, List.forall₂_map_right_iff]
    exact hsized.imp fun leg s hs => (sizeLeg_ok hexact hs).1.symm
  subst hprep
  have hwithin := validateFinal_ok hread hpositive hpct hat hfinal
  have hlegs := ((List.forall₂_and_left _ _).mpr ⟨hat, hadjusted⟩).imp
    fun s leg hs => adjustLeg_ok hexact hs.1 hs.2
  have hlots : adjusted.map (fun leg => num leg.lots) = sized.map SizedLeg.lots := by
    rw [← List.forall₂_eq_eq_eq, List.forall₂_map_right_iff, List.forall₂_map_left_iff]
    exact hlegs.flip.imp fun leg s hs => hs.2
  refine ⟨sized.map SizedLeg.leg, capped.scale.value, hprepared, ?_, ?_,
    isGreatest_scale hat hwithin hscale⟩
  · rw [List.forall₂_map_left_iff]
    exact hlegs.imp fun s leg hs => hs.1
  · rw [hlots, List.zip_map']
    exact hwithin

/-- a twentieth of a lot of gold and a quarter of silver, at the largest scale there is -/
theorem gold_sound_and_maximal :
    evaluate goldDigest pairRequest CircuitBreakerState.new = .ok pairResult ∧
      ∃ prepared scale, prepareLegs pairRequest = .ok prepared ∧ prepared.length = 2 ∧
        Within pairRequest (prepared.zip [(1 / 20 : ℚ), 1 / 4]) ∧
        IsGreatest {t : ℝ | Within pairRequest (scaled PreparedLeg.ratio prepared t)}
          ((scale : ℚ) : ℝ) := by
  have hpair : evaluate goldDigest pairRequest CircuitBreakerState.new = .ok pairResult := by
    decide +kernel
  have hexact : ExactConversion ℚ := fun q x h => by cases h; rfl
  refine ⟨hpair, ?_⟩
  obtain ⟨-, -, prepared, scale, hprepared, hlegs, hwithin, hgreatest⟩ :=
    evaluate_sound_and_maximal hexact hpair rfl rfl
  exact ⟨prepared, scale, hprepared, hlegs.length_eq, hwithin, hgreatest⟩

end

end Sinan.Risk
