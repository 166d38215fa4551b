import Sinan.Execution.Projector
import Sinan.Store.Plans

/-!
# Writing a projection

`updateExecutionLifecycle` moves the statuses of a plan and of some of its legs in one savepoint: it
compares the expected versions, validates the plan that would result, writes the rows and reads the
plan back.  An error rolls the savepoint back, so a result carries the tables only on success.
`persistPlanProjection` builds such an update from a projection.
-/

set_option linter.unusedSectionVars false

namespace Sinan.Store

open Lib Execution

structure PlanStateUpdate where
  planId : PlanId
  expectedStatus : ExecutionPlanStatus
  expectedUpdatedAt : Int
  state : ExecutionPlanState
  updatedAt : Int
  deriving DecidableEq

structure LegStateUpdate where
  planId : PlanId
  legId : LegId
  expectedStatus : ExecutionLegStatus
  expectedUpdatedAt : Int
  state : ExecutionLegState
  updatedAt : Int
  deriving DecidableEq

structure ExecutionLifecycleUpdate where
  plan : PlanStateUpdate
  legs : List LegStateUpdate
  deriving DecidableEq

section
variable {P F : Type} [DecidableEq P] [DecidableEq F] [F64 F]

def lifecycleKey (planId : PlanId) : String := "plan_id=" ++ planId
def legKey (legId : LegId) : String := "leg_id=" ++ legId

def validateExecutionLifecycleUpdateShape (update : ExecutionLifecycleUpdate) :
    StoreCheck Unit := do
  reject update.legs.isEmpty (.invalidRecord "execution_lifecycle" (lifecycleKey update.plan.planId)
    "at least one leg update is required")
  eachApart (fun y x => decide (y.legId = x.legId))
    (fun leg => reject (leg.planId ≠ update.plan.planId)
      (.invalidRecord "execution_lifecycle" (lifecycleKey update.plan.planId)
        ("leg " ++ leg.legId ++ " belongs to another plan")))
    (fun leg => .invalidRecord "execution_lifecycle" (lifecycleKey update.plan.planId)
      ("duplicate leg update for " ++ leg.legId))
    (fun _ => .ok ()) [] update.legs

/-! ## the rows -/

/-- the `WHERE` clause of a leg update -/
def LegStateUpdate.hits (u : LegStateUpdate) (row : LegRow P) : Bool :=
  row.planId == u.planId && row.legId == u.legId && decide (row.status = u.expectedStatus) &&
  decide (row.updatedAt = u.expectedUpdatedAt) && decide (row.updatedAt < u.updatedAt)

/-- the `SET` clause of a leg update -/
def LegStateUpdate.write (u : LegStateUpdate) (row : LegRow P) : LegRow P :=
  if u.hits row then { row with status := u.state.status, updatedAt := u.updatedAt } else row

theorem LegStateUpdate.write_legId (u : LegStateUpdate) (row : LegRow P) :
    (u.write row).legId = row.legId := by
  unfold LegStateUpdate.write
  split <;> rfl

/-- an `UPDATE` of one leg, which has to affect one row -/
def updateLegRow (tables : Tables P F) (u : LegStateUpdate) : StoreCheck (Tables P F) := do
  reject (tables.legs.countP u.hits ≠ 1) (.staleWrite "execution_lifecycle" (legKey u.legId))
  return { tables with
    legs := tables.legs.map u.write
    legKey := by
      have hsame : LegRow.legId ∘ u.write = (LegRow.legId : LegRow P → LegId) :=
        funext fun row => u.write_legId row
      rw [List.map_map, hsame]
      exact tables.legKey }

def updateLegRows (tables : Tables P F) : List LegStateUpdate → StoreCheck (Tables P F)
  | [] => .ok tables
  | u :: rest => do
    let next ← updateLegRow tables u
    updateLegRows next rest

def PlanStateUpdate.hits (u : PlanStateUpdate) (row : PlanRow P) : Bool :=
  row.planId == u.planId && decide (row.status = u.expectedStatus) &&
  decide (row.updatedAt = u.expectedUpdatedAt) && decide (row.updatedAt < u.updatedAt)

def PlanStateUpdate.write (u : PlanStateUpdate) (row : PlanRow P) : PlanRow P :=
  if u.hits row then { row with status := u.state.status, updatedAt := u.updatedAt } else row

theorem PlanStateUpdate.write_planId (u : PlanStateUpdate) (row : PlanRow P) :
    (u.write row).planId = row.planId := by
  unfold PlanStateUpdate.write
  split <;> rfl

def updatePlanRow (tables : Tables P F) (u : PlanStateUpdate) : StoreCheck (Tables P F) := do
  reject (tables.plans.countP u.hits ≠ 1)
    (.staleWrite "execution_lifecycle" (lifecycleKey u.planId))
  return { tables with
    plans := tables.plans.map u.write
    planKey := by
      have hsame : PlanRow.planId ∘ u.write = (PlanRow.planId : PlanRow P → PlanId) :=
        funext fun row => u.write_planId row
      rw [List.map_map, hsame]
      exact tables.planKey }

/-! ## the checks -/

/-- the update repeats what is stored -/
def exactReplay (current : StoredExecutionPlan P F) (stored : List (StoredExecutionLeg P F))
    (update : ExecutionLifecycleUpdate) : Bool :=
  decide (current.plan.state = update.plan.state) &&
  decide (current.updatedAt = update.plan.updatedAt) &&
  update.legs.all fun leg => (stored.find? fun s => s.legId == leg.legId).any fun s =>
    s.planId == leg.planId && decide (s.leg.state = leg.state) &&
    decide (s.updatedAt = leg.updatedAt)

def validateLegVersion (stored : List (StoredExecutionLeg P F)) (leg : LegStateUpdate) :
    StoreCheck Unit := do
  let found ← need (stored.find? fun s => s.legId == leg.legId)
    (.notFound "execution_leg" (legKey leg.legId))
  reject (found.planId ≠ leg.planId) (.identityConflict "execution_lifecycle" (legKey leg.legId))
  reject (found.leg.state.status ≠ leg.expectedStatus ∨ found.updatedAt ≠ leg.expectedUpdatedAt ∨
      leg.updatedAt ≤ leg.expectedUpdatedAt)
    (.staleWrite "execution_lifecycle" (legKey leg.legId))

/-- `iter_mut().find(..)` and an assignment: the first leg of that id gets the state -/
def setLegState (legId : LegId) (state : ExecutionLegState) :
    List (ExecutionLeg F) → Option (List (ExecutionLeg F))
  | [] => none
  | leg :: rest =>
    if leg.definition.legId = legId then some ({ leg with state := state } :: rest)
    else (setLegState legId state rest).map fun rest' => leg :: rest'

def applyLegUpdates (planId : PlanId) :
    List (ExecutionLeg F) → List LegStateUpdate → StoreCheck (List (ExecutionLeg F))
  | legs, [] => .ok legs
  | legs, u :: rest => do
    let next ← need (setLegState u.legId u.state legs)
      (.corruptData "execution_plan" planId ("plan journal is missing leg " ++ u.legId))
    applyLegUpdates planId next rest

/-- the latest version of a leg after the update -/
def latestLegUpdate (current : StoredExecutionPlan P F) (stored : List (StoredExecutionLeg P F))
    (update : ExecutionLifecycleUpdate) : Int :=
  let others := stored.filter fun s => !update.legs.any fun leg => leg.legId == s.legId
  ((update.legs.map LegStateUpdate.updatedAt) ++ others.map StoredExecutionLeg.updatedAt).max?.getD
    current.createdAt

def semanticRecord (planId : PlanId) (r : PlanCheck) : StoreCheck Unit :=
  match r with
  | .ok u => .ok u
  | .error e => .error (.invalidRecord "execution_lifecycle" (lifecycleKey planId)
      (e.field ++ " " ++ e.reason))

/-- the checks on an update that is not a replay, ending in the plan it would leave -/
def validateLifecycleUpdate (current : StoredExecutionPlan P F)
    (stored : List (StoredExecutionLeg P F)) (update : ExecutionLifecycleUpdate) :
    StoreCheck Unit := do
  let planId := update.plan.planId
  reject (current.plan.state.status ≠ update.plan.expectedStatus ∨
      current.updatedAt ≠ update.plan.expectedUpdatedAt ∨
      update.plan.updatedAt ≤ update.plan.expectedUpdatedAt)
    (.staleWrite "execution_lifecycle" (lifecycleKey planId))
  each update.legs (validateLegVersion stored)
  let legs ← applyLegUpdates planId current.plan.legs update.legs
  let finalPlan : ExecutionPlan F := { current.plan with legs := legs, state := update.plan.state }
  semanticRecord planId finalPlan.validate
  reject (update.plan.updatedAt < latestLegUpdate current stored update)
    (.invalidRecord "execution_lifecycle" (lifecycleKey planId)
      "plan updated_at must not precede any final leg projection")

/-! ## the update -/

def fetchRequiredPlan (codec : PayloadCodec P F) (tables : Tables P F) (planId : PlanId) :
    StoreCheck (StoredExecutionPlan P F) := do
  let found ← fetchExecutionPlanById codec tables planId
  need found (.notFound "execution_plan" (lifecycleKey planId))

def updateExecutionLifecycleInSavepoint (codec : PayloadCodec P F) (tables : Tables P F)
    (update : ExecutionLifecycleUpdate) : StoreCheck (Tables P F × StoredExecutionPlan P F) := do
  let current ← fetchRequiredPlan codec tables update.plan.planId
  let stored ← collect (executionLegFromRow codec) (planLegRows tables update.plan.planId)
  if exactReplay current stored update then
    return (tables, current)
  else do
    validateLifecycleUpdate current stored update
    let legsWritten ← updateLegRows tables update.legs
    let written ← updatePlanRow legsWritten update.plan
    let final ← fetchRequiredPlan codec written update.plan.planId
    return (written, final)

def updateExecutionLifecycle (codec : PayloadCodec P F) (tables : Tables P F)
    (update : ExecutionLifecycleUpdate) : StoreCheck (Tables P F × StoredExecutionPlan P F) := do
  validateExecutionLifecycleUpdateShape update
  updateExecutionLifecycleInSavepoint codec tables update

/-! ## persisting a projection -/

inductive PersistError where
  | projection (error : ProjectionError)
  | terminal (reason : String)
  | store (error : StoreError)
  deriving DecidableEq

abbrev Persist := Except PersistError

def liftStore {α : Type} (r : StoreCheck α) : Persist α :=
  match r with
  | .ok a => .ok a
  | .error e => .error (.store e)

def liftProjection {α : Type} (r : Projection α) : Persist α :=
  match r with
  | .ok a => .ok a
  | .error e => .error (.projection e)

/-- the legs whose projected state differs from the stored one, with their rows -/
def changedLegs (codec : PayloadCodec P F) (tables : Tables P F)
    (current : StoredExecutionPlan P F) :
    List (ExecutionLeg F) → Persist (List (StoredExecutionLeg P F × ExecutionLegState))
  | [] => .ok []
  | projected :: rest => do
    let currentLeg ← need
      (current.plan.legs.find? fun leg => leg.definition.legId == projected.definition.legId)
      (.terminal "projected execution leg is outside the stored plan")
    if projected.state = currentLeg.state then changedLegs codec tables current rest
    else do
      let found ← liftStore (fetchExecutionLegById codec tables projected.definition.legId)
      let stored ← need found (.terminal "stored execution leg does not exist")
      let others ← changedLegs codec tables current rest
      return (stored, projected.state) :: others

/-- the latest version the new one has to follow -/
def latestProjectionAt (current : StoredExecutionPlan P F)
    (changed : List (StoredExecutionLeg P F × ExecutionLegState)) (evidenceAt : Int) : Int :=
  max (changed.foldl (fun latest c => max latest c.1.updatedAt) current.updatedAt) evidenceAt

/-- the update of one changed leg -/
def legStateUpdate (updatedAt : Int) (c : StoredExecutionLeg P F × ExecutionLegState) :
    LegStateUpdate where
  planId := c.1.planId
  legId := c.1.legId
  expectedStatus := c.1.leg.state.status
  expectedUpdatedAt := c.1.updatedAt
  state := c.2
  updatedAt := updatedAt

def lifecycleUpdate (current : StoredExecutionPlan P F)
    (changed : List (StoredExecutionLeg P F × ExecutionLegState)) (state : ExecutionPlanState)
    (updatedAt : Int) : ExecutionLifecycleUpdate where
  plan :=
    { planId := current.plan.definition.planId
      expectedStatus := current.plan.state.status
      expectedUpdatedAt := current.updatedAt
      state := state
      updatedAt := updatedAt }
  legs := changed.map (legStateUpdate updatedAt)

/-- the tables after the projection of `current` is written; `current` is the plan as it is stored -/
def persistPlanProjection (codec : PayloadCodec P F) (tables : Tables P F)
    (current : StoredExecutionPlan P F) (commandStates : List ExecutionCommandState)
    (events : List (ExecutionEvent F)) (evidenceAt : Int) : Persist (Tables P F) := do
  let projected ← liftProjection (projectPlan current.plan commandStates events)
  let changed ← changedLegs codec tables current projected.legs
  if changed = [] then return tables
  else do
    let updatedAt ← need (checkedAdd (latestProjectionAt current changed evidenceAt) 1)
      (.terminal "execution projection timestamp overflow")
    let updated ← liftStore (updateExecutionLifecycle codec tables
      (lifecycleUpdate current changed projected.state updatedAt))
    return updated.1

end

end Sinan.Store
