import Sinan.Execution.Builder

/-!
# The graph checks of the store

A plan is tied to the intent and the approval it came from, and each command to its plan leg.  The
same checks run when a workflow is committed and whenever a row is decoded.
-/

namespace Sinan.Store

open Lib Execution

inductive StoreError where
  | identityConflict (entity key : String)
  | notFound (entity key : String)
  | staleWrite (entity key : String)
  | invalidRecord (entity key reason : String)
  | corruptData (entity key reason : String)
  | invalidInteger (field : String) (value : Nat)
  | invalidSequence (field : String)
  | database
  deriving DecidableEq

abbrev StoreCheck := Except StoreError

/-- a check that names only its reason -/
abbrev GraphCheck := Except String Unit

structure StoredTradeIntent (F : Type) where
  intent : TradeIntent F
  status : TradeIntentStatus
  deriving DecidableEq

section
variable {F : Type} [F64 F]

def sameOptionalF64Bits : Option F → Option F → Bool
  | some left, some right => sameF64Bits left right
  | none, none => true
  | _, _ => false

def expectedIntentLegTp (intent : TradeIntent F) (legId : LegId) : Except String (Option F) :=
  match intent.proposedLegs with
  | some legs =>
    match legs.find? fun leg => leg.legId == legId with
    | some leg => .ok leg.proposedTp
    | none => .error ("intent has no proposed leg " ++ legId)
  | none =>
    if legId = singleLegId intent.intentId then .ok intent.proposedTp
    else .error ("single-leg intent does not own leg " ++ legId)

/-- the leg carries the approved lots, stop and ratio -/
def legMatchesApproval (leg : ExecutionLegDefinition F) (approved : AdjustedRiskLeg F)
    (candidate : SizingCandidateProvenance F) : Bool :=
  leg.symbol == approved.symbol && leg.symbol == candidate.symbol &&
  decide (leg.action = AdjustedRiskLegAction.toExecution approved.action) &&
  (leg.lots.any fun lots => sameF64Bits lots approved.lots) &&
  (leg.sl.any fun sl => sameF64Bits sl approved.approvedSl) &&
  sameF64Bits leg.ratio candidate.ratio

def validatePlanLegGraph (adjusted : List (AdjustedRiskLeg F))
    (candidates : List (SizingCandidateProvenance F)) (intent : TradeIntent F)
    (leg : ExecutionLegDefinition F) : GraphCheck := do
  let approved ← need (adjusted.find? fun a => a.legId == leg.legId)
    ("plan leg " ++ leg.legId ++ " has no risk approval")
  let candidate ← need (candidates.find? fun c => c.legId == leg.legId)
    ("plan leg " ++ leg.legId ++ " has no sizing provenance")
  reject (legMatchesApproval leg approved candidate = false)
    ("plan leg " ++ leg.legId ++ " drifts from its exact risk approval")
  let expectedTp ← expectedIntentLegTp intent leg.legId
  reject (sameOptionalF64Bits leg.tp expectedTp = false)
    ("plan leg " ++ leg.legId ++ " take-profit drifts from its intent")

/-- identities, statuses and times; only the definition of the plan is read -/
def validatePlanHeaderGraph (definition : ExecutionPlanDefinition) (riskId : RiskId)
    (intentId : IntentId) (createdAt : Int) (risk : RiskResult F) (intent : StoredTradeIntent F) :
    GraphCheck := do
  reject (risk.riskId ≠ riskId ∨ risk.intentId ≠ intentId ∨ intent.intent.intentId ≠ intentId ∨
      risk.accountId ≠ definition.accountId ∨ intent.intent.accountId ≠ definition.accountId ∨
      intent.intent.strategyId ≠ definition.strategyId ∨
      risk.decisionId ≠ intent.intent.decisionId)
    "plan identity differs from its intent or risk approval"
  reject (intent.status ≠ .accepted)
    ("parent intent status " ++ intent.status.asStr ++ " is not executable")
  reject (risk.approved = false) "execution plan cannot reference a rejected risk result"
  reject (createdAt < risk.evaluatedAt ∨ createdAt ≥ risk.validUntil ∨
      createdAt ≥ intent.intent.signalExpiresAt)
    "plan was not created within the approved execution window"
  reject (¬ (intent.intent.action = .buy ∨ intent.intent.action = .sell))
    "only actionable BUY/SELL intents may create a plan"

def validateExecutionPlanGraph (plan : ExecutionPlan F) (riskId : RiskId) (intentId : IntentId)
    (createdAt : Int) (risk : RiskResult F) (intent : StoredTradeIntent F) : GraphCheck := do
  validatePlanHeaderGraph plan.definition riskId intentId createdAt risk intent
  let adjusted ← need risk.adjustedLegs "approved risk result has no adjusted legs"
  let candidates ← need risk.sizingCandidates "approved risk result has no sizing candidates"
  reject (adjusted.length ≠ plan.legs.length ∨ candidates.length ≠ plan.legs.length)
    "plan legs do not correspond one-to-one with risk legs"
  each (plan.legs.map ExecutionLeg.definition)
    (validatePlanLegGraph adjusted candidates intent.intent)

theorem validateExecutionPlanGraph_definition {plan plan' : ExecutionPlan F}
    (hdefinition : plan'.definition = plan.definition)
    (hlegs : plan'.legs.map ExecutionLeg.definition = plan.legs.map ExecutionLeg.definition)
    (riskId : RiskId) (intentId : IntentId) (createdAt : Int) (risk : RiskResult F)
    (intent : StoredTradeIntent F) :
    validateExecutionPlanGraph plan' riskId intentId createdAt risk intent
      = validateExecutionPlanGraph plan riskId intentId createdAt risk intent := by
  have hlength : plan'.legs.length = plan.legs.length := by
    rw [← List.length_map ExecutionLeg.definition, hlegs, List.length_map]
  unfold validateExecutionPlanGraph
  rw [hdefinition, hlegs, hlength]

end

end Sinan.Store
