import Sinan.Store.Graph

/-!
# Stored plans

The rows of `execution_plans` and `execution_legs`, and their decoding.  The immutable part of a plan
is a journal in a payload column; the statuses are columns of their own, and the summaries are
recomputed from the leg rows on every read.  How a payload is written and read is a parameter
(`PayloadCodec`): a lifecycle update never touches it.
-/

set_option linter.unusedSectionVars false

namespace Sinan.Store

open Lib

/-- the immutable part of a plan -/
structure ExecutionPlanJournal (F : Type) where
  riskId : RiskId
  intentId : IntentId
  definition : ExecutionPlanDefinition
  legs : List (ExecutionLegDefinition F)
  deriving DecidableEq

/-- decoding of the payload columns, and the canonical payload of a leg; `none` is a failure -/
structure PayloadCodec (P F : Type) where
  plan : P → Option (ExecutionPlanJournal F)
  leg : P → Option (ExecutionLegDefinition F)
  canonical : ExecutionLegDefinition F → Option P

structure PlanRow (P : Type) where
  planId : PlanId
  riskId : RiskId
  intentId : IntentId
  accountId : AccountId
  strategyId : StrategyId
  status : ExecutionPlanStatus
  mode : ExecutionPlanMode
  failurePolicy : ExecutionFailurePolicy
  payload : P
  createdAt : Int
  updatedAt : Int
  deriving DecidableEq

structure LegRow (P : Type) where
  legId : LegId
  planId : PlanId
  symbol : SymbolCode
  action : ExecutionAction
  status : ExecutionLegStatus
  payload : P
  updatedAt : Int
  deriving DecidableEq

/-- the two tables with their primary keys, and the parents as they decode -/
structure Tables (P F : Type) where
  plans : List (PlanRow P)
  legs : List (LegRow P)
  risk : RiskId → StoreCheck (Option (RiskResult F))
  intent : IntentId → StoreCheck (Option (StoredTradeIntent F))
  planKey : (plans.map PlanRow.planId).Nodup
  legKey : (legs.map LegRow.legId).Nodup

structure StoredExecutionLeg (P F : Type) where
  planId : PlanId
  leg : ExecutionLeg F
  payload : P
  updatedAt : Int
  deriving DecidableEq

structure StoredExecutionPlan (P F : Type) where
  plan : ExecutionPlan F
  riskId : RiskId
  intentId : IntentId
  payload : P
  createdAt : Int
  updatedAt : Int
  deriving DecidableEq

def StoredExecutionLeg.legId {P F : Type} (s : StoredExecutionLeg P F) : LegId :=
  s.leg.definition.legId

section
variable {P F : Type} [DecidableEq P] [DecidableEq F] [F64 F]

def validateColumn {α : Type} [DecidableEq α] (entity key column : String) (stored payload : α) :
    StoreCheck Unit :=
  reject (stored ≠ payload) (.corruptData entity key (column ++ " does not match payload_json"))

/-- a refused plan or leg, as the reason of a corrupt row -/
def semanticCheck (entity key : String) (r : PlanCheck) : StoreCheck Unit :=
  match r with
  | .ok u => .ok u
  | .error e => .error (.corruptData entity key
      ("payload failed semantic validation: " ++ e.field ++ " " ++ e.reason))

def executionLegFromRow (codec : PayloadCodec P F) (row : LegRow P) :
    StoreCheck (StoredExecutionLeg P F) := do
  let definition ← need (codec.leg row.payload)
    (.corruptData "execution_leg" row.legId "payload_json DTO mismatch")
  validateColumn "execution_leg" row.legId "leg_id" row.legId definition.legId
  validateColumn "execution_leg" row.legId "symbol" row.symbol definition.symbol
  validateColumn "execution_leg" row.legId "action" row.action definition.action
  reject (row.updatedAt < 0)
    (.corruptData "execution_leg" row.legId "updated_at must be non-negative")
  let leg : ExecutionLeg F := ⟨definition, ⟨row.status⟩⟩
  semanticCheck "execution_leg" row.legId leg.validate
  return ⟨row.planId, leg, row.payload, row.updatedAt⟩

/-- a leg row of a plan that was created at `createdAt` -/
def planLegFromRow (codec : PayloadCodec P F) (createdAt : Int) (row : LegRow P) :
    StoreCheck (StoredExecutionLeg P F) := do
  let stored ← executionLegFromRow codec row
  reject (stored.updatedAt < createdAt)
    (.corruptData "execution_leg" stored.legId "updated_at precedes parent plan created_at")
  return stored

/-- the legs in the order of the journal; each stored leg is taken out of the map once -/
def matchJournalLegs (codec : PayloadCodec P F) (key : String) :
    List (StoredExecutionLeg P F) → List (ExecutionLegDefinition F) →
      StoreCheck (List (ExecutionLeg F))
  | _, [] => .ok []
  | stored, expected :: rest => do
    let found ← need (stored.find? fun s => s.legId == expected.legId)
      (.corruptData "execution_plan" key ("missing journal leg " ++ expected.legId))
    let payload ← need (codec.canonical expected)
      (.corruptData "execution_plan" key "journal leg cannot canonicalize")
    reject (found.payload ≠ payload)
      (.corruptData "execution_plan" key
        ("leg " ++ expected.legId ++ " differs from the immutable journal"))
    let others ← matchJournalLegs codec key (stored.filter fun s => s.legId != expected.legId) rest
    return found.leg :: others

/-- The decoder counts only FILLED legs as filled. -/
def planFromLegs (definition : ExecutionPlanDefinition) (status : ExecutionPlanStatus)
    (legs : List (ExecutionLeg F)) : ExecutionPlan F where
  definition := definition
  legs := legs
  state :=
    { status := status
      filledLegs := summaryOf (fun s => s == .filled) legs
      failedLegs := summaryOf ExecutionLegStatus.isFailed legs }

/-- the columns of a plan row against its journal -/
def validatePlanColumns (row : PlanRow P) (journal : ExecutionPlanJournal F) : StoreCheck Unit := do
  validateColumn "execution_plan" row.planId "risk_id" row.riskId journal.riskId
  validateColumn "execution_plan" row.planId "intent_id" row.intentId journal.intentId
  validateColumn "execution_plan" row.planId "plan_id" row.planId journal.definition.planId
  validateColumn "execution_plan" row.planId "account_id" row.accountId journal.definition.accountId
  validateColumn "execution_plan" row.planId "strategy_id" row.strategyId
    journal.definition.strategyId
  validateColumn "execution_plan" row.planId "mode" row.mode journal.definition.mode
  validateColumn "execution_plan" row.planId "failure_policy" row.failurePolicy
    journal.definition.failurePolicy

/-- the plan against its parents -/
def validatePlanParents (tables : Tables P F) (key : String) (journal : ExecutionPlanJournal F)
    (createdAt : Int) (plan : ExecutionPlan F) : StoreCheck Unit := do
  let foundRisk ← tables.risk journal.riskId
  let risk ← need foundRisk (.corruptData "execution_plan" key
    ("parent risk result " ++ journal.riskId ++ " is missing"))
  let foundIntent ← tables.intent journal.intentId
  let intent ← need foundIntent (.corruptData "execution_plan" key
    ("parent trade intent " ++ journal.intentId ++ " is missing"))
  match validateExecutionPlanGraph plan journal.riskId journal.intentId createdAt risk intent with
  | .ok u => .ok u
  | .error reason => .error (.corruptData "execution_plan" key reason)

def planLegRows (tables : Tables P F) (planId : PlanId) : List (LegRow P) :=
  tables.legs.filter fun row => row.planId == planId

def sameLegId (x y : StoredExecutionLeg P F) : Bool := x.legId == y.legId

/-- the decoded leg rows of a plan -/
def storedLegs (codec : PayloadCodec P F) (tables : Tables P F) (planId : PlanId)
    (createdAt : Int) : StoreCheck (List (StoredExecutionLeg P F)) :=
  collectApart sameLegId (planLegFromRow codec createdAt)
    (fun _ => .corruptData "execution_plan" planId "contains duplicate leg rows") []
    (planLegRows tables planId)

def executionPlanFromRow (codec : PayloadCodec P F) (tables : Tables P F) (row : PlanRow P) :
    StoreCheck (StoredExecutionPlan P F) := do
  let journal ← need (codec.plan row.payload)
    (.corruptData "execution_plan" row.planId "payload_json DTO mismatch")
  validatePlanColumns row journal
  reject (row.createdAt < 0 ∨ row.updatedAt < row.createdAt)
    (.corruptData "execution_plan" row.planId "created_at/updated_at lifecycle is invalid")
  let stored ← storedLegs codec tables row.planId row.createdAt
  reject (stored.length ≠ journal.legs.length)
    (.corruptData "execution_plan" row.planId "leg rows do not match the immutable plan journal")
  let legs ← matchJournalLegs codec row.planId stored journal.legs
  let plan := planFromLegs journal.definition row.status legs
  semanticCheck "execution_plan" row.planId plan.validate
  validatePlanParents tables row.planId journal row.createdAt plan
  return ⟨plan, journal.riskId, journal.intentId, row.payload, row.createdAt, row.updatedAt⟩

def fetchExecutionPlanById (codec : PayloadCodec P F) (tables : Tables P F) (planId : PlanId) :
    StoreCheck (Option (StoredExecutionPlan P F)) :=
  match tables.plans.find? fun row => row.planId == planId with
  | some row => do
    let stored ← executionPlanFromRow codec tables row
    return some stored
  | none => .ok none

/-- On validated legs `==` on their numbers is equality. -/
def fetchExecutionLegById (codec : PayloadCodec P F) (tables : Tables P F) (legId : LegId) :
    StoreCheck (Option (StoredExecutionLeg P F)) :=
  match tables.legs.find? fun row => row.legId == legId with
  | none => .ok none
  | some row => do
    let leg ← executionLegFromRow codec row
    let found ← fetchExecutionPlanById codec tables leg.planId
    let parent ← need found
      (.corruptData "execution_leg" legId "parent execution plan is missing")
    reject (leg.leg ∉ parent.plan.legs)
      (.corruptData "execution_leg" legId "leg is not part of its parent plan journal")
    return some leg

/-! ## decoded rows -/

/-- what a decoded plan row has passed -/
structure Decodes (codec : PayloadCodec P F) (tables : Tables P F) (row : PlanRow P)
    (journal : ExecutionPlanJournal F) (rows : List (StoredExecutionLeg P F))
    (legs : List (ExecutionLeg F)) : Prop where
  payload : codec.plan row.payload = some journal
  columns : validatePlanColumns row journal = .ok ()
  created : 0 ≤ row.createdAt
  updated : row.createdAt ≤ row.updatedAt
  stored : storedLegs codec tables row.planId row.createdAt = .ok rows
  count : rows.length = journal.legs.length
  matched : matchJournalLegs codec row.planId rows journal.legs = .ok legs
  valid : (planFromLegs journal.definition row.status legs).validate = .ok ()
  parents : validatePlanParents tables row.planId journal row.createdAt
    (planFromLegs journal.definition row.status legs) = .ok ()

theorem semanticCheck_ok {entity key : String} {r : PlanCheck} :
    semanticCheck entity key r = .ok () ↔ r = .ok () := by
  cases r with
  | error e => exact ⟨fun h => (by cases h), fun h => (by cases h)⟩
  | ok u => exact ⟨fun _ => rfl, fun _ => rfl⟩

variable {codec : PayloadCodec P F} {tables : Tables P F} {stored : StoredExecutionPlan P F}

theorem executionPlanFromRow_ok {row : PlanRow P} :
    executionPlanFromRow codec tables row = .ok stored ↔
      ∃ journal rows legs, Decodes codec tables row journal rows legs ∧
        stored = ⟨planFromLegs journal.definition row.status legs, journal.riskId, journal.intentId,
          row.payload, row.createdAt, row.updatedAt⟩ := by
  simp only [executionPlanFromRow, bind_ok, exists_unit, need_ok, reject_ok, pure_ok,
    semanticCheck_ok, not_or, not_not, ne_eq, not_lt]
  constructor
  · rintro ⟨journal, hjournal, hcolumns, ⟨hcreated, hupdated⟩, rows, hrows, hcount, legs, hlegs,
      hvalid, hparents, rfl⟩
    exact ⟨journal, rows, legs, ⟨hjournal, hcolumns, hcreated, hupdated, hrows, hcount, hlegs,
      hvalid, hparents⟩, rfl⟩
  · rintro ⟨journal, rows, legs, h, rfl⟩
    exact ⟨journal, h.payload, h.columns, ⟨h.created, h.updated⟩, rows, h.stored, h.count, legs,
      h.matched, h.valid, h.parents, rfl⟩

theorem fetchExecutionPlanById_ok {planId : PlanId} :
    fetchExecutionPlanById codec tables planId = .ok (some stored) ↔
      ∃ row, (tables.plans.find? fun row => row.planId == planId) = some row ∧
        executionPlanFromRow codec tables row = .ok stored := by
  unfold fetchExecutionPlanById
  cases hfound : tables.plans.find? fun row => row.planId == planId with
  | none =>
    constructor
    · intro h
      cases h
    · rintro ⟨_, h, _⟩
      cases h
  | some row =>
    simp only [bind_ok, pure_ok, Option.some.injEq]
    constructor
    · rintro ⟨s, hs, heq⟩
      exact ⟨row, rfl, heq ▸ hs⟩
    · rintro ⟨_, hrow, hs⟩
      exact ⟨stored, hrow ▸ hs, rfl⟩

/-- a readable plan has no leg that is PARTIALLY_FILLED: the decoder leaves such a leg out of
`filled_legs`, and the validation asks for it -/
theorem Decodes.not_partiallyFilled {row : PlanRow P} {journal : ExecutionPlanJournal F}
    {rows : List (StoredExecutionLeg P F)} {legs : List (ExecutionLeg F)}
    (h : Decodes codec tables row journal rows legs) {leg : ExecutionLeg F} (hleg : leg ∈ legs) :
    leg.state.status ≠ .partiallyFilled := by
  intro hpart
  obtain ⟨hwf, hderived⟩ := ExecutionPlan.validate_ok.mp h.valid
  have hfilled : summaryOf (fun s => s == .filled) legs
      = summaryOf ExecutionLegStatus.isFilled legs := hderived.filled
  have hmem : leg.definition.legId ∈ summaryOf (fun s => s == .filled) legs := by
    rw [hfilled]
    refine List.mem_map.mpr ⟨leg, List.mem_filter.mpr ⟨hleg, ?_⟩, rfl⟩
    rw [hpart]
    rfl
  -- the id belongs to a FILLED leg, and ids are distinct
  obtain ⟨other, hother, hid⟩ := List.mem_map.mp hmem
  obtain ⟨hmem', hstatus⟩ := List.mem_filter.mp hother
  have hdistinct := hwf.distinct
  rw [← legIds_definition] at hdistinct
  have hsame : other = leg := List.inj_on_of_nodup_map hdistinct hmem' hleg hid
  rw [hsame, hpart] at hstatus
  cases hstatus

end

end Sinan.Store
