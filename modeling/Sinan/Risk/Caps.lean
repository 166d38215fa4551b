import Sinan.Risk.Holdings

/-!
# The caps of a sizing

Every limit the evaluator sets to a sizing of the prepared legs is a linear cap.  The scale that
`cap_scales` arrives at bounds exactly the scales under all of them.
-/

set_option linter.unusedSectionVars false

namespace Sinan.Risk

open Lib

section
variable {F : Type} [F64 F]

def riskBase (request : RiskRequest F) : ℚ :=
  riskBaseOf (num request.account.balance) (num request.account.equity)

/-- the least of the five risk percentages -/
def riskPct (request : RiskRequest F) : ℚ :=
  min (min (min (min (num request.intent.proposedRiskPct) (num request.policy.maxRiskPerTradePct))
    (num request.strategyPolicy.maxRiskPerTradePct)) (num request.capacity.remainingAccountRiskPct))
    (num request.capacity.remainingPortfolioRiskPct)

def riskCap (request : RiskRequest F) : Cap (PreparedLeg F) where
  used := 0
  load := PreparedLeg.lossPerLot
  limit := ofBase (riskBase request) (riskPct request)

def symbolCap (request : RiskRequest F) (symbol : SymbolCode) : Cap (PreparedLeg F) where
  used := heldNotional request symbol
  load := fun leg => if leg.provenance.symbol = symbol then leg.notionalPerLot else 0
  limit := ofBase (riskBase request) (num request.policy.maxSymbolExposurePct)

def totalCap (request : RiskRequest F) : Cap (PreparedLeg F) where
  used := totalNotional request
  load := PreparedLeg.notionalPerLot
  limit := ofBase (riskBase request) (num request.policy.maxTotalExposurePct)

def freeMarginCap (request : RiskRequest F) : Cap (PreparedLeg F) where
  used := heldMargin request
  load := PreparedLeg.marginPerLot
  limit := num request.account.freeMargin

def marginUsageCap (request : RiskRequest F) : Cap (PreparedLeg F) where
  used := num request.account.margin + heldMargin request
  load := PreparedLeg.marginPerLot
  limit := ofBase (riskBase request) (num request.policy.maxMarginUsagePct)

/-- a sizing of the legs, by lots in an ordered field, under every limit of the request -/
structure Within {K : Type} [Field K] [LinearOrder K] (request : RiskRequest F)
    (sizing : List (PreparedLeg F × K)) : Prop where
  risk : (riskCap request).Holds sizing
  symbol : ∀ symbol, (symbolCap request symbol).Holds sizing
  total : (totalCap request).Holds sizing
  freeMargin : (freeMarginCap request).Holds sizing
  marginUsage : (marginUsageCap request).Holds sizing
  volume : ∀ x ∈ sizing, (x.1.volumeMin : K) ≤ x.2 ∧ x.2 ≤ (x.1.volumeMax : K)

/-- legs with a positive ratio and a positive notional -/
def Exposing (legs : List (PreparedLeg F)) : Prop :=
  ∀ leg ∈ legs, 0 < leg.ratio ∧ 0 < leg.notionalPerLot

/-! ## lowering the scale -/

section
variable {K : Type} [Field K] [LinearOrder K] [IsStrictOrderedRing K]

theorem Scale.le_cap_iff (scale : Scale) (candidate : ℚ) (limiter : ScaleLimiter) (t : K) :
    t ≤ ((scale.cap candidate limiter).value : K) ↔ t ≤ (scale.value : K) ∧ t ≤ (candidate : K) := by
  have hmin : (scale.cap candidate limiter).value = min scale.value candidate := by
    unfold Scale.cap
    by_cases h : candidate < scale.value
    · rw [if_pos h, min_eq_right h.le]
    · rw [if_neg h, min_eq_left (not_lt.mp h)]
  rw [hmin, Rat.cast_min, le_min_iff]

theorem foldlM_le_iff {α : Type} {f : Scale → α → Evaluation Scale} {Q : α → Prop} {t : K}
    {xs : List α} {scale scale' : Scale}
    (hstep : ∀ x ∈ xs, ∀ scale scale', f scale x = .ok scale' →
      (t ≤ (scale'.value : K) ↔ t ≤ (scale.value : K) ∧ Q x))
    (h : xs.foldlM f scale = .ok scale') :
    t ≤ (scale'.value : K) ↔ t ≤ (scale.value : K) ∧ ∀ x ∈ xs, Q x := by
  induction xs generalizing scale with
  | nil =>
    cases h
    simp
  | cons x xs ih =>
    rw [List.foldlM_cons, bind_ok] at h
    obtain ⟨next, hnext, hrest⟩ := h
    rw [ih (fun y hy => hstep y (List.mem_cons_of_mem x hy)) hrest,
      hstep x List.mem_cons_self scale next hnext, and_assoc]
    simp only [List.mem_cons, forall_eq_or_imp]

theorem volumeScale_le_iff {scale scale' : Scale} {leg : PreparedLeg F} (hratio : 0 < leg.ratio)
    (h : volumeScale scale leg = .ok scale') (t : K) :
    t ≤ (scale'.value : K) ↔
      t ≤ (scale.value : K) ∧ t * (leg.ratio : K) ≤ (leg.volumeMax : K) := by
  simp only [volumeScale, bind_ok, pure_ok, checkedDiv_ok] at h
  obtain ⟨bound, ⟨-, rfl⟩, rfl⟩ := h
  have hpos : (0 : K) < (leg.ratio : K) := by exact_mod_cast hratio
  rw [Scale.le_cap_iff, Rat.cast_div, le_div_iff₀ hpos]

theorem volumeScales_le_iff {scale scale' : Scale} {legs : List (PreparedLeg F)}
    (hexposing : Exposing legs) (h : legs.foldlM volumeScale scale = .ok scale') (t : K) :
    t ≤ (scale'.value : K) ↔ t ≤ (scale.value : K) ∧
      ∀ leg ∈ legs, t * (leg.ratio : K) ≤ (leg.volumeMax : K) := by
  refine foldlM_le_iff ?_ h
  intro leg hleg sc sc' hs
  exact volumeScale_le_iff (hexposing leg hleg).1 hs t

end

/-! ## exposure -/

theorem symbolCap_coefficient (request : RiskRequest F) (symbol : SymbolCode)
    (legs : List (PreparedLeg F)) :
    (symbolCap request symbol).coefficient PreparedLeg.ratio legs =
      ((legs.filter fun leg => leg.provenance.symbol = symbol).map
        fun leg => leg.ratio * leg.notionalPerLot).sum := by
  rw [sum_map_filter]
  refine congrArg List.sum (List.map_congr_left fun leg _ => ?_)
  exact mul_ite_zero _ _ _

theorem newExposureBySymbol_get (request : RiskRequest F) (legs : List (PreparedLeg F))
    (symbol : SymbolCode) :
    (newExposureBySymbol legs).get symbol =
      (symbolCap request symbol).coefficient PreparedLeg.ratio legs := by
  rw [newExposureBySymbol, Amounts.get_addAll, symbolCap_coefficient]
  exact zero_add _

theorem newExposureBySymbol_total (request : RiskRequest F) (legs : List (PreparedLeg F)) :
    (newExposureBySymbol legs).total = (totalCap request).coefficient PreparedLeg.ratio legs := by
  rw [newExposureBySymbol, Amounts.total_addAll]
  exact zero_add _

theorem symbolCap_coefficient_pos {request : RiskRequest F} {legs : List (PreparedLeg F)}
    (h : Exposing legs) {leg : PreparedLeg F} (hleg : leg ∈ legs) :
    0 < (symbolCap request leg.provenance.symbol).coefficient PreparedLeg.ratio legs := by
  rw [symbolCap_coefficient]
  refine List.sum_pos _ (fun x hx => ?_) (List.ne_nil_of_mem (List.mem_map_of_mem
    (List.mem_filter.mpr ⟨hleg, decide_eq_true rfl⟩)))
  obtain ⟨other, hother, rfl⟩ := List.mem_map.mp hx
  obtain ⟨hratio, hnotional⟩ := h other (List.mem_of_mem_filter hother)
  exact mul_pos hratio hnotional

theorem totalCap_coefficient_pos {request : RiskRequest F} {legs : List (PreparedLeg F)}
    (h : Exposing legs) (hne : legs ≠ []) :
    0 < (totalCap request).coefficient PreparedLeg.ratio legs := by
  refine List.sum_pos _ (fun x hx => ?_) (fun hnil => hne (List.map_eq_nil_iff.mp hnil))
  obtain ⟨leg, hleg, rfl⟩ := List.mem_map.mp hx
  obtain ⟨hratio, hnotional⟩ := h leg hleg
  exact mul_pos hratio hnotional

section
variable {K : Type} [Field K] [LinearOrder K] [IsStrictOrderedRing K] {existing : Exposure}
  {scale scale' : Scale}

theorem symbolScale_le_iff {cap : ℚ} {entry : SymbolCode × ℚ}
    (h : symbolScale existing cap scale entry = .ok scale') (t : K) :
    t ≤ (scale'.value : K) ↔
      t ≤ (scale.value : K) ∧ t ≤ (((cap - existing.get entry.1) / entry.2 : ℚ) : K) := by
  simp only [symbolScale, bind_ok, exists_unit, reject_ok, pure_ok, checkedDiv_ok] at h
  obtain ⟨-, bound, ⟨-, rfl⟩, rfl⟩ := h
  exact Scale.le_cap_iff _ _ _ _

theorem symbolScales_le_iff {cap : ℚ} {entries : List (SymbolCode × ℚ)}
    (h : entries.foldlM (symbolScale existing cap) scale = .ok scale') (t : K) :
    t ≤ (scale'.value : K) ↔ t ≤ (scale.value : K) ∧
      ∀ entry ∈ entries, t ≤ (((cap - existing.get entry.1) / entry.2 : ℚ) : K) := by
  refine foldlM_le_iff ?_ h
  intro entry _ sc sc' hs
  exact symbolScale_le_iff hs t

theorem exposureScale_le_iff {request : RiskRequest F} {legs : List (PreparedLeg F)}
    (hexposing : Exposing legs) (hne : legs ≠ [])
    (hget : ∀ symbol, existing.get symbol = heldNotional request symbol)
    (htotal : existing.total = totalNotional request)
    (h : exposureScale existing
      (ofBase (riskBase request) (num request.policy.maxSymbolExposurePct))
      (ofBase (riskBase request) (num request.policy.maxTotalExposurePct)) legs scale = .ok scale')
    (t : K) :
    t ≤ (scale'.value : K) ↔ t ≤ (scale.value : K) ∧
      (∀ leg ∈ legs,
        (symbolCap request leg.provenance.symbol).Holds (scaled PreparedLeg.ratio legs t)) ∧
      (totalCap request).Holds (scaled PreparedLeg.ratio legs t) := by
  simp only [exposureScale, bind_ok, exists_unit, reject_ok, pure_ok, checkedDiv_ok] at h
  obtain ⟨middle, hmiddle, -, bound, ⟨-, rfl⟩, rfl⟩ := h
  have hsymbols := symbolScales_le_iff hmiddle t
  rw [Scale.le_cap_iff, hsymbols, newExposureBySymbol_total request, htotal, and_assoc]
  rw [Cap.holds_scaled_iff (totalCap request) (totalCap_coefficient_pos hexposing hne)]
  refine and_congr_right fun _ => and_congr_left fun _ => ?_
  -- one entry for each symbol of the legs, with the coefficient of its cap
  constructor
  · intro hentries leg hleg
    rw [Cap.holds_scaled_iff _ (symbolCap_coefficient_pos hexposing hleg)]
    have hkey : leg.provenance.symbol ∈ (newExposureBySymbol legs).entries.map Prod.fst :=
      (Amounts.mem_keys_addAll _ _ _).mpr (.inr (List.mem_map_of_mem hleg))
    obtain ⟨entry, hentry, hsymbol⟩ := List.mem_map.mp hkey
    have hbound := hentries entry hentry
    rw [← Amounts.get_of_mem hentry, hsymbol, newExposureBySymbol_get request, hget] at hbound
    exact hbound
  · intro hholds entry hentry
    have hkey := (Amounts.mem_keys_addAll Amounts.empty legs entry.1).mp (List.mem_map_of_mem hentry)
    rcases hkey with hempty | hkey
    · exact absurd hempty List.not_mem_nil
    · obtain ⟨leg, hleg, hsymbol⟩ := List.mem_map.mp hkey
      have hcap := hholds leg hleg
      rw [Cap.holds_scaled_iff _ (symbolCap_coefficient_pos hexposing hleg)] at hcap
      rw [← Amounts.get_of_mem hentry, newExposureBySymbol_get request, ← hsymbol, hget]
      exact hcap

/-! ## margin -/

theorem marginScale_le_iff {request : RiskRequest F} {legs : List (PreparedLeg F)}
    {margins : Margins} (hpending : margins.pending = heldMargin request)
    (hfree : margins.free = num request.account.freeMargin)
    (haccount : margins.account = num request.account.margin)
    (hcap : margins.cap = ofBase (riskBase request) (num request.policy.maxMarginUsagePct))
    (h : marginScale margins legs scale = .ok scale') (t : K) :
    t ≤ (scale'.value : K) ↔ t ≤ (scale.value : K) ∧
      (freeMarginCap request).Holds (scaled PreparedLeg.ratio legs t) ∧
      (marginUsageCap request).Holds (scaled PreparedLeg.ratio legs t) := by
  simp only [marginScale, bind_ok, exists_unit, reject_ok, pure_ok, checkedDiv_ok, not_le] at h
  obtain ⟨-, hpos, bound, ⟨-, rfl⟩, rfl⟩ := h
  have hfreePos : 0 < (freeMarginCap request).coefficient PreparedLeg.ratio legs := hpos
  have husagePos : 0 < (marginUsageCap request).coefficient PreparedLeg.ratio legs := hpos
  have hquotients : min (margins.free - margins.pending)
      (margins.cap - margins.account - margins.pending) /
        (legs.map fun leg => leg.ratio * leg.marginPerLot).sum =
      min (((freeMarginCap request).limit - (freeMarginCap request).used) /
          (freeMarginCap request).coefficient PreparedLeg.ratio legs)
        (((marginUsageCap request).limit - (marginUsageCap request).used) /
          (marginUsageCap request).coefficient PreparedLeg.ratio legs) := by
    rw [hpending, hfree, haccount, hcap, sub_sub]
    exact (min_div_div_right hpos.le _ _).symm
  rw [Scale.le_cap_iff, Cap.holds_scaled_iff _ hfreePos, Cap.holds_scaled_iff _ husagePos,
    hquotients, Rat.cast_min, le_min_iff]

end

end

end Sinan.Risk
