import Sinan.Lib.Check
import Sinan.Lib.Hex
import Sinan.Types.Dto

/-!
# Risk results: validation

`RiskResult.validate` is the contract between the evaluator and everything behind it: identities,
times, and for an actionable approval the arithmetic that ties lots, loss per lot, risk amounts and
percentages together.
-/

namespace Sinan

open Lib

structure RiskResultValidationError where
  field : String
  reason : String
  deriving DecidableEq

abbrev ResultCheck := Except RiskResultValidationError

def validateNonEmpty (field value : String) : ResultCheck Unit :=
  reject (blank value) ⟨field, "must not be empty"⟩

/-- 64 lower-case hexadecimal characters -/
def isSha256 (value : String) : Bool := value.toList.length == 64 && isLowerHex value

def validateSha256 (field value : String) : ResultCheck Unit :=
  reject (isSha256 value = false) ⟨field, "must be a 64-character lowercase SHA-256 hex digest"⟩

def validateNonNegative (field : String) (value : Int) : ResultCheck Unit :=
  reject (value < 0) ⟨field, "must be non-negative"⟩

section
variable {F : Type} [F64 F]

def validateFinite (field : String) (value : F) : ResultCheck Unit :=
  reject (F64.isFinite value = false) ⟨field, "must be finite"⟩

def validatePositiveFinite (field : String) (value : F) : ResultCheck Unit := do
  validateFinite field value
  reject (F64.positive value = false) ⟨field, "must be greater than zero"⟩

/-- equal, or finite of one sign and at most 128 units in the last place apart -/
def approximatelyEqual (left right : F) : Bool :=
  if !F64.isFinite left || !F64.isFinite right then false
  else if F64.eq left right then true
  else if F64.isSignNegative left != F64.isSignNegative right then false
  else F64.bitDistance left right ≤ 128

def sameF64Bits (left right : F) : Bool :=
  F64.isFinite left && F64.isFinite right && F64.sameBits left right

/-- `value > 100.0` -/
def exceedsHundred (value : F) : Bool := F64.lt (F64.ofInt 100) value

/-- `part / whole * 100.0` -/
def percentOf (part whole : F) : F := F64.mul (F64.div part whole) (F64.ofInt 100)

/-! ## candidates -/

def stopIsValid (c : SizingCandidateProvenance F) : Bool :=
  match c.action with
  | .buy => F64.lt c.stopLossPrice c.worstEntryPrice
  | .sell => F64.lt c.worstEntryPrice c.stopLossPrice

def validateCandidate (c : SizingCandidateProvenance F) : ResultCheck Unit := do
  validatePositiveFinite "sizing_candidates[].ratio" c.ratio
  validatePositiveFinite "sizing_candidates[].worst_entry_price" c.worstEntryPrice
  validatePositiveFinite "sizing_candidates[].stop_loss_price" c.stopLossPrice
  validateFinite "sizing_candidates[].estimated_cost_per_lot" c.estimatedCostPerLot
  reject (stopIsValid c = false)
    ⟨"sizing_candidates[].stop_loss_price", "must be below BUY entry or above SELL entry"⟩

/-! ## adjusted legs -/

/-- the numbers of an adjusted leg on their own -/
def validateAdjustedNumbers (leg : AdjustedRiskLeg F) : ResultCheck Unit := do
  validatePositiveFinite "adjusted_legs[].lots" leg.lots
  validatePositiveFinite "adjusted_legs[].risk_amount" leg.riskAmount
  validatePositiveFinite "adjusted_legs[].risk_pct" leg.riskPct
  validatePositiveFinite "adjusted_legs[].sizing_entry_price" leg.sizingEntryPrice
  validatePositiveFinite "adjusted_legs[].approved_sl" leg.approvedSl
  validatePositiveFinite "adjusted_legs[].loss_per_lot" leg.lossPerLot
  reject (exceedsHundred leg.riskPct) ⟨"adjusted_legs[].risk_pct", "must not exceed 100"⟩
  reject (leg.reason.any fun reason => reason.asStr != "OK")
    ⟨"adjusted_legs[].reason", "must be absent or OK for an approved leg"⟩

/-- an adjusted leg against its candidate -/
def validateAdjustedBinding (candidates : List (SizingCandidateProvenance F))
    (leg : AdjustedRiskLeg F) : ResultCheck Unit := do
  let candidate ← need (candidates.find? fun c => c.legId == leg.legId)
    ⟨"adjusted_legs[].leg_id", "has no sizing candidate for " ++ leg.legId⟩
  reject (candidate.symbol ≠ leg.symbol ∨ candidate.action ≠ leg.action)
    ⟨"adjusted_legs", "identity for " ++ leg.legId ++ " must match its sizing candidate"⟩
  reject (sameF64Bits leg.sizingEntryPrice candidate.worstEntryPrice = false ∨
      sameF64Bits leg.approvedSl candidate.stopLossPrice = false)
    ⟨"adjusted_legs", "entry and stop for " ++ leg.legId ++ " must match its sizing candidate"⟩

/-- the amounts of an adjusted leg -/
def validateAdjustedAmounts (riskBase : F) (leg : AdjustedRiskLeg F) : ResultCheck Unit := do
  reject (approximatelyEqual leg.riskAmount (F64.mul leg.lots leg.lossPerLot) = false)
    ⟨"adjusted_legs[].risk_amount", "must equal lots * loss_per_lot"⟩
  reject (approximatelyEqual leg.riskPct (percentOf leg.riskAmount riskBase) = false)
    ⟨"adjusted_legs[].risk_pct", "must equal risk_amount / risk_base_amount * 100"⟩

/-- the loop over the adjusted legs; `total` is the risk of those already seen -/
def sumAdjustedRisk (candidates : List (SizingCandidateProvenance F)) (riskBase : F)
    (seen : List LegId) (total : F) : List (AdjustedRiskLeg F) → ResultCheck F
  | [] => .ok total
  | leg :: rest => do
    validateNonEmpty "adjusted_legs[].leg_id" leg.legId
    validateNonEmpty "adjusted_legs[].symbol" leg.symbol
    reject (leg.legId ∈ seen)
      ⟨"adjusted_legs[].leg_id", "must be unique; duplicate " ++ leg.legId⟩
    validateAdjustedNumbers leg
    validateAdjustedBinding candidates leg
    validateAdjustedAmounts riskBase leg
    reject (F64.isFinite (F64.add total leg.riskAmount) = false)
      ⟨"adjusted_legs[].risk_amount", "sum must remain finite"⟩
    sumAdjustedRisk candidates riskBase (seen ++ [leg.legId]) (F64.add total leg.riskAmount) rest

def validateSizingLegs (candidates : List (SizingCandidateProvenance F))
    (adjustedLegs : List (AdjustedRiskLeg F)) (riskBase riskBudget adjustedRiskPct : F) :
    ResultCheck Unit := do
  reject candidates.isEmpty
    ⟨"sizing_candidates", "must not be empty for an actionable approval"⟩
  reject adjustedLegs.isEmpty ⟨"adjusted_legs", "must not be empty for an actionable approval"⟩
  reject (candidates.length ≠ adjustedLegs.length)
    ⟨"adjusted_legs", "must correspond one-to-one with sizing_candidates"⟩
  eachApart (fun y x => decide (y.legId = x.legId))
    (fun c => do
      validateNonEmpty "sizing_candidates[].leg_id" c.legId
      validateNonEmpty "sizing_candidates[].symbol" c.symbol)
    (fun c => ⟨"sizing_candidates[].leg_id", "must be unique; duplicate " ++ c.legId⟩)
    validateCandidate [] candidates
  let actualRisk ← sumAdjustedRisk candidates riskBase [] F64.zero adjustedLegs
  reject (F64.lt riskBudget actualRisk ∧ approximatelyEqual actualRisk riskBudget = false)
    ⟨"adjusted_legs[].risk_amount", "sum must not exceed risk_budget_amount"⟩
  reject (approximatelyEqual adjustedRiskPct (percentOf actualRisk riskBase) = false)
    ⟨"adjusted_risk_pct", "must equal total adjusted leg risk / risk_base_amount * 100"⟩

/-! ## the whole result -/

/-- which of the six sizing fields are present -/
def RiskResult.sizingFields (r : RiskResult F) : List Bool :=
  [r.sizingVersion.isSome, r.riskBaseAmount.isSome, r.riskBudgetAmount.isSome,
   r.adjustedRiskPct.isSome, r.sizingCandidates.isSome, r.adjustedLegs.isSome]

/-- identities, ages and times -/
def RiskResult.validateHeader (r : RiskResult F) : ResultCheck Unit := do
  validateNonEmpty "risk_id" r.riskId
  validateNonEmpty "request_id" r.requestId
  validateNonEmpty "intent_id" r.intentId
  validateNonEmpty "account_id" r.accountId
  validateNonEmpty "decision_id" r.decisionId
  validateSha256 "risk_request_hash" r.riskRequestHash
  validateNonNegative "snapshot_age_ms" r.snapshotAgeMs
  validateNonNegative "symbol_metadata_age_ms" r.symbolMetadataAgeMs
  validateNonNegative "market_snapshot_age_ms" r.marketSnapshotAgeMs
  validateNonNegative "capacity_age_ms" r.capacityAgeMs
  validateNonNegative "evaluated_at" r.evaluatedAt
  reject (r.validUntil < r.evaluatedAt) ⟨"valid_until", "must not precede evaluated_at"⟩

def ErrorCodeOrString.isKnown : ErrorCodeOrString → Bool
  | .known _ => true
  | .other _ => false

def RiskResult.validateRejected (r : RiskResult F) : ResultCheck Unit := do
  reject (r.reason.asStr = "OK") ⟨"reason", "must be an error code when approved is false"⟩
  reject (r.reason.isKnown = false)
    ⟨"reason", "must be a centrally managed error code when approved is false"⟩
  reject (r.sizingFields.any id) ⟨"sizing", "must be absent when approved is false"⟩

/-- the sizing of an approval, all six fields being present -/
def validateSizing (version : String) (riskBase riskBudget adjustedRiskPct : F)
    (candidates : List (SizingCandidateProvenance F)) (adjustedLegs : List (AdjustedRiskLeg F)) :
    ResultCheck Unit := do
  validateNonEmpty "sizing_version" version
  validatePositiveFinite "risk_base_amount" riskBase
  validatePositiveFinite "risk_budget_amount" riskBudget
  validatePositiveFinite "adjusted_risk_pct" adjustedRiskPct
  reject (F64.lt riskBase riskBudget)
    ⟨"risk_budget_amount", "must not exceed risk_base_amount"⟩
  reject (exceedsHundred adjustedRiskPct) ⟨"adjusted_risk_pct", "must not exceed 100"⟩
  validateSizingLegs candidates adjustedLegs riskBase riskBudget adjustedRiskPct

def RiskResult.validate (r : RiskResult F) : ResultCheck Unit := do
  r.validateHeader
  if r.approved = false then r.validateRejected
  else do
    reject (r.reason.asStr ≠ "OK") ⟨"reason", "must be OK when approved is true"⟩
    reject (r.validUntil = r.evaluatedAt)
      ⟨"valid_until", "must follow evaluated_at when approved is true"⟩
    match r.sizingVersion, r.riskBaseAmount, r.riskBudgetAmount, r.adjustedRiskPct,
        r.sizingCandidates, r.adjustedLegs with
    | none, none, none, none, none, none => .ok ()
    | some version, some riskBase, some riskBudget, some pct, some candidates, some legs =>
      validateSizing version riskBase riskBudget pct candidates legs
    | _, _, _, _, _, _ =>
      .error ⟨"sizing", "must contain every sizing field or none of them"⟩

/-! ## what an accepted approval satisfies -/

variable {legs : List (AdjustedRiskLeg F)}

theorem RiskResult.validate_sizing {r : RiskResult F} (h : r.validate = .ok ())
    (happroved : r.approved = true) (hlegs : r.adjustedLegs = some legs) :
    ∃ version base budget pct candidates, r.sizingCandidates = some candidates ∧
      validateSizing version base budget pct candidates legs = .ok () := by
  unfold RiskResult.validate at h
  simp only [bind_ok, exists_unit, happroved, Bool.true_eq_false, if_false, hlegs] at h
  obtain ⟨-, -, -, h⟩ := h
  split at h
  case h_1 hnone => cases hnone
  case h_2 version base budget pct candidates legs' _ _ _ _ hcandidates hsome =>
    cases hsome
    exact ⟨version, base, budget, pct, candidates, hcandidates, h⟩
  case h_3 => cases h

variable {candidates : List (SizingCandidateProvenance F)}

theorem sumAdjustedRisk_ok {base : F} {seen : List LegId} {total sum : F}
    (h : sumAdjustedRisk candidates base seen total legs = .ok sum) :
    (legs.map AdjustedRiskLeg.legId).Nodup ∧ (∀ leg ∈ legs, leg.legId ∉ seen) ∧
      ∀ leg ∈ legs, validateAdjustedNumbers leg = .ok () ∧
        validateAdjustedBinding candidates leg = .ok () := by
  induction legs generalizing seen total with
  | nil =>
    exact ⟨List.nodup_nil, fun _ hl => absurd hl List.not_mem_nil,
      fun _ hl => absurd hl List.not_mem_nil⟩
  | cons leg legs ih =>
    simp only [sumAdjustedRisk, bind_ok, exists_unit, reject_ok] at h
    obtain ⟨-, -, hfresh, hnumbers, hbinding, -, -, hrest⟩ := h
    obtain ⟨hnodup, hunseen, hchecked⟩ := ih hrest
    refine ⟨?_, ?_, ?_⟩
    · rw [List.map_cons, List.nodup_cons]
      refine ⟨?_, hnodup⟩
      rw [List.mem_map]
      rintro ⟨other, hother, hsame⟩
      refine hunseen other hother (List.mem_append.mpr (.inr ?_))
      rw [hsame]
      exact List.mem_singleton.mpr rfl
    · rintro other hother
      rcases List.mem_cons.mp hother with rfl | hother
      · exact hfresh
      · exact fun hseen => hunseen other hother (List.mem_append.mpr (.inl hseen))
    · rintro other hother
      rcases List.mem_cons.mp hother with rfl | hother
      · exact ⟨hnumbers, hbinding⟩
      · exact hchecked other hother

theorem validateSizing_ids {version : String} {base budget pct : F}
    (h : validateSizing version base budget pct candidates legs = .ok ()) (id : LegId) :
    id ∈ legs.map AdjustedRiskLeg.legId ↔ id ∈ candidates.map SizingCandidateProvenance.legId := by
  simp only [validateSizing, validateSizingLegs, bind_ok, exists_unit, reject_ok, ne_eq,
    not_not] at h
  obtain ⟨-, -, -, -, -, -, -, -, hlength, -, sum, hsum, -⟩ := h
  obtain ⟨hnodup, -, hchecked⟩ := sumAdjustedRisk_ok hsum
  have hsub : legs.map AdjustedRiskLeg.legId ⊆ candidates.map SizingCandidateProvenance.legId := by
    intro id hid
    obtain ⟨leg, hleg, rfl⟩ := List.mem_map.mp hid
    have hbinding := (hchecked leg hleg).2
    simp only [validateAdjustedBinding, bind_ok, need_ok] at hbinding
    obtain ⟨candidate, hfound, -⟩ := hbinding
    obtain ⟨hmem, hkey⟩ := find_key hfound
    rw [← hkey]
    exact List.mem_map_of_mem hmem
  have hperm : (legs.map AdjustedRiskLeg.legId).Perm
      (candidates.map SizingCandidateProvenance.legId) := by
    refine (List.subperm_of_subset hnodup hsub).perm_of_length_le ?_
    rw [List.length_map, List.length_map, hlength]
  exact hperm.mem_iff

end

end Sinan
