import Sinan.Lib.Amounts
import Sinan.Risk.Prepare

/-!
# Sizing

`size_and_cap`: one scale for all legs, lowered by every cap in turn, then floored to the volume step
of each leg, and the floored lots checked against every cap once more.  The sums a loop of the source
accumulates are taken over its results here.
-/

namespace Sinan.Risk

open Lib

inductive ScaleLimiter where
  | riskBudget
  | volume
  | exposure
  | margin
  deriving DecidableEq

/-- the scale so far and what limits it -/
structure Scale where
  value : ℚ
  limiter : ScaleLimiter

/-- `cap_scale` -/
def Scale.cap (scale : Scale) (candidate : ℚ) (limiter : ScaleLimiter) : Scale :=
  if candidate < scale.value then ⟨candidate, limiter⟩ else scale

def rejectionForLimiter : ScaleLimiter → Rejection
  | .riskBudget | .volume =>
    ⟨.invalidVolume, "global scale floors at least one required leg below volume_min"⟩
  | .exposure =>
    ⟨.exposureLimitExceeded, "exposure cap floors at least one required leg below volume_min"⟩
  | .margin =>
    ⟨.insufficientMargin, "margin cap floors at least one required leg below volume_min"⟩

abbrev Exposure := Amounts SymbolCode ℚ

/-- percentage points of the risk base -/
def ofBase (riskBase pct : ℚ) : ℚ := riskBase * pct / 100

section
variable {F : Type} [F64 F]

/-! ## the risk budget -/

/-- the least of the five percentages, which is positive -/
def approvedPct (request : RiskRequest F) : Evaluation ℚ := do
  let proposed ← decimal "proposed_risk_pct" request.intent.proposedRiskPct
  let policy ← decimal "max_risk_per_trade_pct" request.policy.maxRiskPerTradePct
  let strategy ← decimal "strategy.max_risk_per_trade_pct"
    request.strategyPolicy.maxRiskPerTradePct
  let account ← decimal "remaining_account_risk_pct" request.capacity.remainingAccountRiskPct
  let portfolio ← decimal "remaining_portfolio_risk_pct"
    request.capacity.remainingPortfolioRiskPct
  let pct := min (min (min (min proposed policy) strategy) account) portfolio
  reject (pct ≤ 0) ⟨.riskLimitExceeded, "approved risk percentage is not positive"⟩
  return pct

/-- the budget, and the scale at which the legs lose all of it -/
def riskScale (request : RiskRequest F) (legs : List (PreparedLeg F)) (riskBase : ℚ) :
    Evaluation (ℚ × Scale) := do
  let pct ← approvedPct request
  let riskBudget := ofBase riskBase pct
  let weightedLoss : ℚ := (legs.map fun leg => leg.ratio * leg.lossPerLot).sum
  reject (weightedLoss ≤ 0 ∨ riskBudget ≤ 0)
    ⟨.riskLimitExceeded, "risk budget or bounded loss is not positive"⟩
  let scale ← checkedDiv riskBudget weightedLoss
  return (riskBudget, ⟨scale, .riskBudget⟩)

def volumeScale (scale : Scale) (leg : PreparedLeg F) : Evaluation Scale := do
  let maximumScale ← checkedDiv leg.volumeMax leg.ratio
  return scale.cap maximumScale .volume

/-! ## exposure -/

def exposePosition (request : RiskRequest F) (exposure : Exposure)
    (position : PositionSnapshot F) : Evaluation Exposure := do
  let lots ← validatePosition position
  let metadata ← requiredMetadata request position.symbol
  let market ← requiredMarket request position.symbol
  let openPrice ← decimal "position.open_price" position.openPrice
  let perLot ← notionalPerLot metadata market (some openPrice)
  return exposure.add position.symbol (lots * perLot)

def exposeOrder (request : RiskRequest F) (exposure : Exposure) (order : OrderSnapshot F) :
    Evaluation Exposure :=
  if orderIsActive order.status = false then .ok exposure
  else do
    let lots ← validateOrder order
    if lots = 0 then return exposure
    else do
      let metadata ← requiredMetadata request order.symbol
      let market ← requiredMarket request order.symbol
      let price ← decimalOpt "order.price" order.price
      let perLot ← notionalPerLot metadata market price
      return exposure.add order.symbol (lots * perLot)

def exposeCommand (request : RiskRequest F) (exposure : Exposure)
    (command : ExecutionCommand F) : Evaluation Exposure :=
  if command.action.isOpening = false then .ok exposure
  else do
    let lots ← positiveOptionalDecimal "command.lots" command.lots
    let metadata ← requiredMetadata request command.symbol
    let market ← requiredMarket request command.symbol
    let price ← decimalOpt "command.price" command.price
    let perLot ← notionalPerLot metadata market price
    return exposure.add command.symbol (lots * perLot)

def existingExposure (request : RiskRequest F) (active : List (ExecutionCommand F)) :
    Evaluation Exposure := do
  let positions ← request.positions.foldlM (exposePosition request) Amounts.empty
  let orders ← request.orders.foldlM (exposeOrder request) positions
  active.foldlM (exposeCommand request) orders

/-- what one unit of scale adds to each symbol -/
def newExposureBySymbol (legs : List (PreparedLeg F)) : Exposure :=
  Amounts.addAll (fun leg => leg.provenance.symbol) (fun leg => leg.ratio * leg.notionalPerLot)
    Amounts.empty legs

def symbolScale (existing : Exposure) (symbolCap : ℚ) (scale : Scale) (entry : SymbolCode × ℚ) :
    Evaluation Scale := do
  let available := symbolCap - existing.get entry.1
  reject (available ≤ 0)
    ⟨.exposureLimitExceeded, "existing exposure consumes the symbol cap for " ++ entry.1⟩
  let maximumScale ← checkedDiv available entry.2
  return scale.cap maximumScale .exposure

def exposureScale (existing : Exposure) (symbolCap totalCap : ℚ) (legs : List (PreparedLeg F))
    (scale : Scale) : Evaluation Scale := do
  let scale ← (newExposureBySymbol legs).entries.foldlM (symbolScale existing symbolCap) scale
  let totalAvailable := totalCap - existing.total
  reject (totalAvailable ≤ 0)
    ⟨.exposureLimitExceeded, "existing exposure consumes the total exposure cap"⟩
  let maximumScale ← checkedDiv totalAvailable (newExposureBySymbol legs).total
  return scale.cap maximumScale .exposure

/-! ## margin -/

def orderMargin (request : RiskRequest F) (total : ℚ) (order : OrderSnapshot F) : Evaluation ℚ :=
  if orderIsActive order.status = false then .ok total
  else do
    let lots ← validateOrder order
    let metadata ← requiredMetadata request order.symbol
    let margin ← positiveOptionalDecimal "metadata.margin_initial" metadata.marginInitial
    return total + lots * margin

def commandMargin (request : RiskRequest F) (total : ℚ) (command : ExecutionCommand F) :
    Evaluation ℚ :=
  if command.action.isOpening = false then .ok total
  else do
    let lots ← positiveOptionalDecimal "command.lots" command.lots
    let metadata ← requiredMetadata request command.symbol
    let margin ← positiveOptionalDecimal "metadata.margin_initial" metadata.marginInitial
    return total + lots * margin

def pendingMargin (request : RiskRequest F) (active : List (ExecutionCommand F)) :
    Evaluation ℚ := do
  let orders ← request.orders.foldlM (orderMargin request) 0
  active.foldlM (commandMargin request) orders

structure Margins where
  pending : ℚ
  free : ℚ
  account : ℚ
  cap : ℚ

def readMargins (request : RiskRequest F) (active : List (ExecutionCommand F)) (riskBase : ℚ) :
    Evaluation Margins := do
  let pending ← pendingMargin request active
  let free ← decimal "account.free_margin" request.account.freeMargin
  let account ← decimal "account.margin" request.account.margin
  let pct ← decimal "max_margin_usage_pct" request.policy.maxMarginUsagePct
  return { pending, free, account, cap := ofBase riskBase pct }

def marginScale (margins : Margins) (legs : List (PreparedLeg F)) (scale : Scale) :
    Evaluation Scale := do
  let freeAvailable := margins.free - margins.pending
  let usageAvailable := margins.cap - margins.account - margins.pending
  reject (freeAvailable ≤ 0 ∨ usageAvailable ≤ 0)
    ⟨.insufficientMargin, "pending margin consumes available margin capacity"⟩
  let marginCoefficient : ℚ := (legs.map fun leg => leg.ratio * leg.marginPerLot).sum
  reject (marginCoefficient ≤ 0) (inputInvalid "new margin coefficient is invalid")
  let maximumScale ← checkedDiv (min freeAvailable usageAvailable) marginCoefficient
  return scale.cap maximumScale .margin

/-! ## lots -/

def floorToStep (value step : ℚ) : Evaluation ℚ := do
  reject (value < 0 ∨ step ≤ 0)
    (inputInvalid "volume and volume_step must be valid positive decimals")
  let units ← checkedDiv value step
  return ⌊units⌋ * step

/-- `decimal_to_f64` -/
def decimalToF64 (value : ℚ) : Option F := (F64.ofDecimal value).filter F64.isFinite

def requiredF64 (value : ℚ) : Evaluation F :=
  need (decimalToF64 value)
    (inputInvalid "decimal result cannot be represented as a finite f64 audit value")

/-- the lots as an `f64`, and the decimal this `f64` stands for -/
def normalizeExecutableLots (lots volumeStep : ℚ) : Evaluation (ℚ × F) := do
  let refused : Rejection :=
    ⟨.invalidVolume, "f64 executable lots would round up or violate volume_step"⟩
  let executable ← requiredF64 lots
  let roundTrip ← decimal "executable lots" executable
  reject (roundTrip ≤ 0 ∨ roundTrip > lots) refused
  let floored ← floorToStep roundTrip volumeStep
  reject (floored ≠ roundTrip) refused
  return (roundTrip, executable)

structure SizedLeg (F : Type) where
  leg : PreparedLeg F
  lots : ℚ
  executableLots : F
  riskAmount : ℚ

def sizeLeg (scale : Scale) (leg : PreparedLeg F) : Evaluation (SizedLeg F) := do
  let violates : Rejection := ⟨.invalidVolume,
    "final lots violate broker volume constraints for " ++ leg.provenance.legId⟩
  let floored ← floorToStep (scale.value * leg.ratio) leg.volumeStep
  let (lots, executableLots) ← normalizeExecutableLots floored leg.volumeStep
  reject (lots < leg.volumeMin) (rejectionForLimiter scale.limiter)
  reject (lots > leg.volumeMax) violates
  let again ← floorToStep lots leg.volumeStep
  reject (again ≠ lots) violates
  return { leg, lots, executableLots, riskAmount := lots * leg.lossPerLot }

def actualRisk (sized : List (SizedLeg F)) : ℚ := (sized.map SizedLeg.riskAmount).sum

def finalExposure (existing : Exposure) (sized : List (SizedLeg F)) : Exposure :=
  Amounts.addAll (fun s => s.leg.provenance.symbol) (fun s => s.lots * s.leg.notionalPerLot)
    existing sized

def newMargin (sized : List (SizedLeg F)) : ℚ :=
  (sized.map fun s => s.lots * s.leg.marginPerLot).sum

/-- the floored lots against every cap -/
def validateFinal (riskBudget symbolCap totalCap : ℚ) (existing : Exposure) (margins : Margins)
    (sized : List (SizedLeg F)) : Evaluation Unit := do
  reject (actualRisk sized > riskBudget)
    ⟨.riskLimitExceeded, "final step-normalized risk exceeds its budget"⟩
  reject ((∃ entry ∈ (finalExposure existing sized).entries, entry.2 > symbolCap) ∨
      (finalExposure existing sized).total > totalCap)
    ⟨.exposureLimitExceeded, "final exposure exceeds a hard cap"⟩
  let incrementalMargin := margins.pending + newMargin sized
  reject (incrementalMargin > margins.free ∨ margins.account + incrementalMargin > margins.cap)
    ⟨.insufficientMargin, "final lots exceed free-margin or usage capacity"⟩

def adjustLeg (riskBase : ℚ) (sized : SizedLeg F) : Evaluation (AdjustedRiskLeg F) := do
  let share ← checkedDiv sized.riskAmount riskBase
  let riskAmount ← requiredF64 sized.riskAmount
  let riskPct ← requiredF64 (share * 100)
  let sizingEntryPrice ← requiredF64 sized.leg.entry
  let approvedSl ← requiredF64 sized.leg.stop
  let lossPerLot ← requiredF64 sized.leg.lossPerLot
  return { legId := sized.leg.provenance.legId, symbol := sized.leg.provenance.symbol
           action := sized.leg.provenance.action, lots := sized.executableLots, riskAmount, riskPct
           sizingEntryPrice, approvedSl, lossPerLot, reason := some (.other "OK") }

structure ActionableApproval (F : Type) where
  sizingVersion : String
  riskBase : ℚ
  riskBudget : ℚ
  actualRiskPct : ℚ
  candidates : List (SizingCandidateProvenance F)
  legs : List (AdjustedRiskLeg F)
  ages : AuditAges
  validUntil : Int

/-- the scale under every cap, with what the final checks compare against -/
structure Capped where
  riskBudget : ℚ
  scale : Scale
  existing : Exposure
  symbolCap : ℚ
  totalCap : ℚ
  margins : Margins

def capScales (request : RiskRequest F) (legs : List (PreparedLeg F))
    (active : List (ExecutionCommand F)) (riskBase : ℚ) : Evaluation Capped := do
  let (riskBudget, scale) ← riskScale request legs riskBase
  let scale ← legs.foldlM volumeScale scale
  let existing ← existingExposure request active
  let symbolPct ← decimal "max_symbol_exposure_pct" request.policy.maxSymbolExposurePct
  let totalPct ← decimal "max_total_exposure_pct" request.policy.maxTotalExposurePct
  let symbolCap := ofBase riskBase symbolPct
  let totalCap := ofBase riskBase totalPct
  let scale ← exposureScale existing symbolCap totalCap legs scale
  let margins ← readMargins request active riskBase
  let scale ← marginScale margins legs scale
  reject (scale.value ≤ 0) (rejectionForLimiter scale.limiter)
  return { riskBudget, scale, existing, symbolCap, totalCap, margins }

def sizeAndCap (request : RiskRequest F) (legs : List (PreparedLeg F))
    (active : List (ExecutionCommand F)) (riskBase : ℚ) (ages : AuditAges) (validUntil : Int) :
    Evaluation (ActionableApproval F) := do
  let capped ← capScales request legs active riskBase
  let sized ← collect (sizeLeg capped.scale) legs
  validateFinal capped.riskBudget capped.symbolCap capped.totalCap capped.existing capped.margins
    sized
  let share ← checkedDiv (actualRisk sized) riskBase
  let adjusted ← collect (adjustLeg riskBase) sized
  return { sizingVersion := request.policy.positionSizingVersion, riskBase
           riskBudget := capped.riskBudget, actualRiskPct := share * 100
           candidates := sized.map fun s => s.leg.provenance, legs := adjusted, ages, validUntil }

end

end Sinan.Risk
