import Sinan.Lib.Kahn
import Sinan.Types.Dto

/-!
# Execution plans: validation and the derived status

`ExecutionPlan.validate` accepts a plan whose legs are well formed and pairwise distinct, whose
dependencies are known, unique and acyclic, and whose summary lists and status are exactly those
derived from the projected legs.
-/

namespace Sinan

open Lib

/-- `field` and `reason` of a refused plan -/
structure ExecutionPlanValidationError where
  field : String
  reason : String
  deriving DecidableEq

abbrev PlanCheck := Except ExecutionPlanValidationError Unit

def validateExecutionNonEmpty (field value : String) : PlanCheck :=
  reject (blank value) ⟨field, "must not be empty"⟩

section
variable {F : Type}

def legIds (legs : List (ExecutionLeg F)) : List LegId := legs.map fun leg => leg.definition.legId

/-! ## the derived status and summaries -/

def ExecutionLegStatus.isTerminal : ExecutionLegStatus → Bool
  | .rejected | .filled | .failed | .expired | .cancelled => true
  | _ => false

/-- the statuses of `filled_legs` -/
def ExecutionLegStatus.isFilled : ExecutionLegStatus → Bool
  | .partiallyFilled | .filled => true
  | _ => false

/-- the statuses of `failed_legs` -/
def ExecutionLegStatus.isFailed : ExecutionLegStatus → Bool
  | .rejected | .failed => true
  | _ => false

def ExecutionLegStatus.isUnsettled : ExecutionLegStatus → Bool
  | .deliveryUnconfirmed | .reconciling => true
  | _ => false

def deriveExecutionPlanStatus (legs : List (ExecutionLeg F)) : ExecutionPlanStatus :=
  let statuses := legs.map fun leg => leg.state.status
  let all (status : ExecutionLegStatus) : Bool := statuses.all (· == status)
  let any (status : ExecutionLegStatus) : Bool := statuses.any (· == status)
  if legs.isEmpty then .pending
  else if all .filled then .completed
  else if all .cancelled then .cancelled
  else if all .expired then .expired
  else if any .manualReconciliationRequired then .manualReconciliationRequired
  else if any .partiallyFilled || (any .filled && !all .filled) then .partiallyDone
  else if statuses.all ExecutionLegStatus.isTerminal then .failed
  else if statuses.any ExecutionLegStatus.isUnsettled then .reconciling
  else .pending

/-- ids of the legs whose status satisfies `expected`, in plan order -/
def summaryOf (expected : ExecutionLegStatus → Bool) (legs : List (ExecutionLeg F)) : List LegId :=
  legIds (legs.filter fun leg => expected leg.state.status)

def validateExecutionSummary (field : String) (summary : List LegId)
    (legs : List (ExecutionLeg F)) (expected : ExecutionLegStatus → Bool) : PlanCheck :=
  reject (summary ≠ summaryOf expected legs)
    ⟨field, "must exactly match projected legs in plan order"⟩

/-! ## dependencies -/

/-- one edge from each dependency to its leg -/
def dependencyEdges (legs : List (ExecutionLeg F)) : List (LegId × LegId) :=
  legs.flatMap fun leg => leg.definition.dependency.map fun d => (d, leg.definition.legId)

/-- known, not the leg itself, and not repeated -/
def dependenciesWellFormed (ids : List LegId) (legId : LegId) (dependency : List LegId) : Prop :=
  dependency.Nodup ∧ ∀ d ∈ dependency, d ≠ legId ∧ d ∈ ids

instance (ids : List LegId) (legId : LegId) (dependency : List LegId) :
    Decidable (dependenciesWellFormed ids legId dependency) :=
  inferInstanceAs (Decidable (_ ∧ _))

/-- The two `expect`s of the source are the stops of `kahn`, which the graph of distinct legs never
takes (`dependencies_counted`). -/
def validateExecutionDependencies (legs : List (ExecutionLeg F)) (ids : List LegId) : PlanCheck := do
  each legs fun leg =>
    reject (¬ dependenciesWellFormed ids leg.definition.legId leg.definition.dependency)
      ⟨"legs[].dependency", "must be unique, known, and not self-referential"⟩
  reject (kahn ids (dependencyEdges legs) ≠ .ok ids.length)
    ⟨"legs[].dependency", "must form an acyclic graph"⟩

theorem legIds_definition (legs : List (ExecutionLeg F)) :
    legIds legs = (legs.map ExecutionLeg.definition).map ExecutionLegDefinition.legId := by
  unfold legIds
  rw [List.map_map]
  rfl

theorem dependencyEdges_definition (legs : List (ExecutionLeg F)) :
    dependencyEdges legs = (legs.map ExecutionLeg.definition).flatMap fun leg =>
      leg.dependency.map fun d => (d, leg.legId) := by
  unfold dependencyEdges
  rw [List.flatMap_map]

theorem dependencies_counted {legs : List (ExecutionLeg F)} (h : (legIds legs).Nodup) :
    ∃ n, kahn (legIds legs) (dependencyEdges legs) = .ok n := by
  have hclosed : ∀ e ∈ dependencyEdges legs, e.2 ∈ legIds legs := by
    intro e he
    obtain ⟨leg, hleg, hedge⟩ := List.mem_flatMap.mp he
    obtain ⟨d, -, rfl⟩ := List.mem_map.mp hedge
    exact List.mem_map_of_mem hleg
  obtain ⟨done, hkahn, -⟩ := kahn_ok h hclosed
  exact ⟨done.length, hkahn⟩

/-! ## validation -/

variable [F64 F]

def validateExecutionPositive (field : String) (value : F) : PlanCheck :=
  reject (¬ (F64.isFinite value ∧ F64.positive value)) ⟨field, "must be positive and finite"⟩

/-- the check of an optional number -/
def validateExecutionPositiveOpt (field : String) : Option F → PlanCheck
  | some value => validateExecutionPositive field value
  | none => .ok ()

def ExecutionAction.isOpening : ExecutionAction → Bool
  | .buy | .sell => true
  | _ => false

def ExecutionLeg.validate (leg : ExecutionLeg F) : PlanCheck := do
  validateExecutionNonEmpty "legs[].leg_id" leg.definition.legId
  validateExecutionNonEmpty "legs[].symbol" leg.definition.symbol
  validateExecutionPositive "legs[].ratio" leg.definition.ratio
  validateExecutionPositiveOpt "legs[].lots" leg.definition.lots
  validateExecutionPositiveOpt "legs[].sl" leg.definition.sl
  validateExecutionPositiveOpt "legs[].tp" leg.definition.tp
  reject (leg.definition.action.isOpening ∧ leg.definition.lots.isNone)
    ⟨"legs[].lots", "is required for BUY/SELL"⟩

def ExecutionPlan.validate (plan : ExecutionPlan F) : PlanCheck := do
  validateExecutionNonEmpty "plan_id" plan.definition.planId
  validateExecutionNonEmpty "account_id" plan.definition.accountId
  validateExecutionNonEmpty "strategy_id" plan.definition.strategyId
  reject plan.legs.isEmpty ⟨"legs", "must not be empty"⟩
  eachApart (fun y x => decide (y.definition.legId = x.definition.legId))
    ExecutionLeg.validate
    (fun leg => ⟨"legs[].leg_id", "must be unique; duplicate " ++ leg.definition.legId⟩)
    (fun _ => .ok ()) [] plan.legs
  reject (plan.definition.mode = .simultaneous ∧
      plan.legs.any fun leg => !leg.definition.dependency.isEmpty)
    ⟨"legs[].dependency", "must be empty for simultaneous plans"⟩
  validateExecutionDependencies plan.legs (legIds plan.legs)
  validateExecutionSummary "filled_legs" plan.state.filledLegs plan.legs
    ExecutionLegStatus.isFilled
  validateExecutionSummary "failed_legs" plan.state.failedLegs plan.legs
    ExecutionLegStatus.isFailed
  reject (plan.state.status ≠ deriveExecutionPlanStatus plan.legs)
    ⟨"status", "must be " ++ (deriveExecutionPlanStatus plan.legs).asStr ++
      " for the current leg projections"⟩

/-! ## the validation, read as a conjunction -/

/-- the part of a valid plan that does not depend on the projected leg states -/
structure WellFormedPlan (definition : ExecutionPlanDefinition)
    (legs : List (ExecutionLegDefinition F)) : Prop where
  planId : blank definition.planId = false
  accountId : blank definition.accountId = false
  strategyId : blank definition.strategyId = false
  nonempty : legs ≠ []
  eachLeg : ∀ leg ∈ legs, ExecutionLeg.validate ⟨leg, ⟨.pending⟩⟩ = .ok ()
  distinct : (legs.map ExecutionLegDefinition.legId).Nodup
  mode : definition.mode = .simultaneous → ∀ leg ∈ legs, leg.dependency = []
  dependencies : ∀ leg ∈ legs,
    dependenciesWellFormed (legs.map ExecutionLegDefinition.legId) leg.legId leg.dependency
  acyclic : kahn (legs.map ExecutionLegDefinition.legId)
    (legs.flatMap fun leg => leg.dependency.map fun d => (d, leg.legId)) = .ok legs.length

/-- the summaries and the status of a plan are the derived ones -/
structure Derived (plan : ExecutionPlan F) : Prop where
  filled : plan.state.filledLegs = summaryOf ExecutionLegStatus.isFilled plan.legs
  failed : plan.state.failedLegs = summaryOf ExecutionLegStatus.isFailed plan.legs
  status : plan.state.status = deriveExecutionPlanStatus plan.legs

theorem ExecutionLeg.validate_definition (leg : ExecutionLeg F) (state : ExecutionLegState) :
    leg.validate = ExecutionLeg.validate ⟨leg.definition, state⟩ := rfl

theorem validateExecutionNonEmpty_ok {field value : String} {u : Unit} :
    validateExecutionNonEmpty field value = .ok u ↔ blank value = false := by
  unfold validateExecutionNonEmpty
  rw [reject_ok, Bool.not_eq_true]

theorem ExecutionPlan.validate_ok {plan : ExecutionPlan F} :
    plan.validate = .ok () ↔
      WellFormedPlan plan.definition (plan.legs.map ExecutionLeg.definition) ∧ Derived plan := by
  unfold ExecutionPlan.validate validateExecutionDependencies validateExecutionSummary
  simp only [bind_ok, exists_unit, reject_ok, each_ok, not_not, validateExecutionNonEmpty_ok,
    eachApart_key_ok, and_true, ne_eq]
  constructor
  · rintro ⟨hplan, haccount, hstrategy, hne, ⟨hdistinct, hlegs⟩, hmode, ⟨hdeps, hacyclic⟩, hfilled,
      hfailed, hstatus⟩
    refine ⟨⟨hplan, haccount, hstrategy, ?_, ?_, ?_, ?_, ?_, ?_⟩, hfilled, hfailed, hstatus⟩
    · intro h
      rw [List.map_eq_nil_iff.mp h] at hne
      exact hne rfl
    · intro leg hleg
      obtain ⟨l, hl, rfl⟩ := List.mem_map.mp hleg
      exact hlegs l hl
    · rw [← legIds_definition]
      exact hdistinct
    · intro hsim leg hleg
      obtain ⟨l, hl, rfl⟩ := List.mem_map.mp hleg
      by_contra hdep
      refine hmode ⟨hsim, List.any_eq_true.mpr ⟨l, hl, ?_⟩⟩
      rw [Bool.not_eq_true', List.isEmpty_eq_false_iff]
      exact hdep
    · intro leg hleg
      obtain ⟨l, hl, rfl⟩ := List.mem_map.mp hleg
      rw [← legIds_definition]
      exact hdeps l hl
    · rw [← legIds_definition, ← dependencyEdges_definition, hacyclic]
      simp only [legIds, List.length_map]
  · rintro ⟨hwf, hderived⟩
    refine ⟨hwf.planId, hwf.accountId, hwf.strategyId, ?_, ⟨?_, ?_⟩, ?_, ⟨?_, ?_⟩,
      hderived.filled, hderived.failed, hderived.status⟩
    · intro h
      exact hwf.nonempty (by rw [List.isEmpty_iff.mp h]; rfl)
    · have := hwf.distinct
      rw [← legIds_definition] at this
      exact this
    · exact fun leg hleg => hwf.eachLeg leg.definition (List.mem_map_of_mem hleg)
    · rintro ⟨hsim, hany⟩
      obtain ⟨leg, hleg, hdep⟩ := List.any_eq_true.mp hany
      rw [hwf.mode hsim leg.definition (List.mem_map_of_mem hleg)] at hdep
      cases hdep
    · intro leg hleg
      rw [legIds_definition]
      exact hwf.dependencies leg.definition (List.mem_map_of_mem hleg)
    · rw [legIds_definition, dependencyEdges_definition, hwf.acyclic]
      simp only [List.length_map]

end

end Sinan
