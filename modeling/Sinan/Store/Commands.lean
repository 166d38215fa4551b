import Sinan.Lib.Table
import Sinan.Store.Commit
import Sinan.Store.Lifecycle
import Mathlib.Data.List.Sort

/-!
# Stored commands

The rows of `execution_commands` and `execution_command_states`, beside the plans.  A command row does
not change, and is held decoded.  A state is changed by comparing the version that was read; which
state may follow which is for the caller to decide.
-/

namespace Sinan.Store

open Lib Execution

structure CommandRow (F : Type) extends StoredExecutionCommand F where
  riskId : RiskId
  deriving DecidableEq

abbrev CommandTable (F : Type) :=
  Table (fun c : CommandRow F => c.command.commandId) (fun c => some c.command.idempotencyKey)

abbrev StateTable :=
  Table (fun s : ExecutionCommandState => s.commandId) (fun _ => (none : Option Unit))

structure CommandTables (P F : Type) where
  commands : CommandTable F
  states : StateTable
  plans : Tables P F
  events : List (ExecutionEvent F)

structure CommandStateUpdate where
  expectedStatus : ExecutionCommandStatus
  expectedUpdatedAt : Int
  state : ExecutionCommandState
  deriving DecidableEq

structure StoredExecutionWorkflow (P F : Type) where
  intent : StoredTradeIntent F
  riskResult : RiskResult F
  plan : StoredExecutionPlan P F
  commands : List (CommandRow F)
  commandStates : List ExecutionCommandState
  deriving DecidableEq

structure ExecutionProjectionSnapshot (P F : Type) where
  workflow : StoredExecutionWorkflow P F
  events : List (ExecutionEvent F)
  deriving DecidableEq

/-! ## states -/

def sameCommandStateIdentity (existing proposed : ExecutionCommandState) : Bool :=
  existing.commandId == proposed.commandId && existing.accountId == proposed.accountId &&
  existing.planId == proposed.planId && existing.legId == proposed.legId &&
  existing.createdAt == proposed.createdAt

/-- the `WHERE` clause of a state update -/
def CommandStateUpdate.hits (u : CommandStateUpdate) (row : ExecutionCommandState) : Bool :=
  sameCommandStateIdentity row u.state && decide (row.status = u.expectedStatus) &&
  decide (row.updatedAt = u.expectedUpdatedAt) && decide (row.updatedAt < u.state.updatedAt)

def stateKey (commandId : CommandId) : String := "command_id=" ++ commandId

/-- On a row that is hit every column but the identity is set. -/
def updateExecutionCommandState (states : StateTable) (u : CommandStateUpdate) :
    StoreCheck StateTable := do
  let row ← need (states.get u.state.commandId)
    (.notFound "execution_command_state" (stateKey u.state.commandId))
  if u.hits row then need (states.put u.state) .database
  else do
    reject (row ≠ u.state ∧ sameCommandStateIdentity row u.state = false)
      (.identityConflict "execution_command_state" (stateKey u.state.commandId))
    reject (row ≠ u.state) (.staleWrite "execution_command_state" (stateKey u.state.commandId))
    return states

section
variable {P F : Type} [DecidableEq P] [DecidableEq F] [F64 F]

/-! ## workflows -/

/-- the commands of a plan, each checked against the plan; `seen` are those of other legs -/
def collectCommands (plan : StoredExecutionPlan P F) (risk : RiskResult F)
    (intent : StoredTradeIntent F) (seen : List (CommandRow F)) :
    List (CommandRow F) → StoreCheck (List (CommandRow F))
  | [] => .ok seen
  | row :: rest => do
    match validateExecutionCommandGraph row.command row.riskId row.createdAt plan.plan plan.riskId
        plan.createdAt risk intent.intent with
    | .error reason => .error (.corruptData "execution_command" row.command.commandId reason)
    | .ok _ =>
      reject row.command.legId.isNone (.corruptData "execution_workflow" plan.plan.definition.planId
        ("command " ++ row.command.commandId ++ " has no leg_id"))
      reject (∃ other ∈ seen, other.command.legId = row.command.legId)
        (.corruptData "execution_workflow" plan.plan.definition.planId
          "multiple commands reference the same plan leg")
      collectCommands plan risk intent (seen ++ [row]) rest

/-- the state of a stored command -/
def commandState (states : StateTable) (planId : PlanId) (row : CommandRow F) :
    StoreCheck ExecutionCommandState := do
  let state ← need (states.get row.command.commandId)
    (.corruptData "execution_workflow" planId
      ("command " ++ row.command.commandId ++ " has no lifecycle state"))
  match validatePersistedCommandState state row.toStoredExecutionCommand with
  | .error reason => .error (.corruptData "execution_command_state" row.command.commandId reason)
  | .ok _ => .ok state

/-- the command of a leg with its state -/
def legCommand (states : StateTable) (planId : PlanId) (rows : List (CommandRow F))
    (leg : ExecutionLeg F) : StoreCheck (CommandRow F × ExecutionCommandState) := do
  let row ← need (rows.find? fun row => row.command.legId == some leg.definition.legId)
    (.corruptData "execution_workflow" planId
      ("plan leg " ++ leg.definition.legId ++ " has no command"))
  let state ← commandState states planId row
  return (row, state)

def fetchExecutionWorkflowByPlanId (codec : PayloadCodec P F) (tables : CommandTables P F)
    (planId : PlanId) : StoreCheck (Option (StoredExecutionWorkflow P F)) := do
  let found ← fetchExecutionPlanById codec tables.plans planId
  match found with
  | none => return none
  | some plan => do
    let foundRisk ← tables.plans.risk plan.riskId
    let risk ← need foundRisk (.corruptData "execution_workflow" planId
      ("parent risk result " ++ plan.riskId ++ " is missing"))
    let foundIntent ← tables.plans.intent plan.intentId
    let intent ← need foundIntent (.corruptData "execution_workflow" planId
      ("parent trade intent " ++ plan.intentId ++ " is missing"))
    let rows ← collectCommands plan risk intent []
      (tables.commands.rows.filter fun row => row.command.planId == some planId)
    reject (rows.length ≠ plan.plan.legs.length) (.corruptData "execution_workflow" planId
      "commands do not correspond one-to-one with plan legs")
    let commands ← collect (legCommand tables.states planId rows) plan.plan.legs
    return some ⟨intent, risk, plan, commands.map Prod.fst, commands.map Prod.snd⟩

/-- `ORDER BY event_at, execution_id` -/
def eventBefore (x y : ExecutionEvent F) : Prop :=
  x.eventAt < y.eventAt ∨ (x.eventAt = y.eventAt ∧ x.executionId ≤ y.executionId)

instance : DecidableRel (@eventBefore F) := fun x y => by
  unfold eventBefore
  infer_instance

def loadPlanEvents (tables : CommandTables P F) (planId : PlanId) : List (ExecutionEvent F) :=
  (tables.events.filter fun event => event.planId == some planId).insertionSort eventBefore

def projectionSnapshot (codec : PayloadCodec P F) (tables : CommandTables P F)
    (commandId : CommandId) (planId : PlanId) :
    StoreCheck (Option (ExecutionProjectionSnapshot P F)) := do
  let found ← fetchExecutionWorkflowByPlanId codec tables planId
  let workflow ← need found (.corruptData "execution_projection_snapshot" commandId
    ("parent workflow " ++ planId ++ " is missing"))
  reject (∀ row ∈ workflow.commands, row.command.commandId ≠ commandId)
    (.corruptData "execution_projection_snapshot" commandId
      ("command is not part of parent workflow " ++ planId))
  return some ⟨workflow, loadPlanEvents tables planId⟩

def loadExecutionProjection (codec : PayloadCodec P F) (tables : CommandTables P F)
    (commandId : CommandId) : StoreCheck (Option (ExecutionProjectionSnapshot P F)) :=
  match (tables.commands.get commandId).bind fun row => row.command.planId with
  | none => .ok none
  | some planId => projectionSnapshot codec tables commandId planId

end

end Sinan.Store
