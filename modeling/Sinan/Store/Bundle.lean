import Sinan.Lib.Script
import Sinan.Store.Commands
import Sinan.Types.Delivery

/-!
# The rows of a workflow

`commit_execution_workflow` writes five kinds of rows under one savepoint.  Every insert is an
insert-or-compare: a row of the same identity is accepted when its immutable part is the same, and
refused otherwise.  At the end the workflow is read back and compared as a whole.
-/

namespace Sinan.Store

open Lib Execution

/-- a row of `trade_intents` -/
structure IntentRow (F : Type) extends StoredTradeIntent F where
  createdAt : Int
  updatedAt : Int
  deriving DecidableEq

abbrev IntentTable (F : Type) :=
  Table (fun r : IntentRow F => r.intent.intentId) (fun r => some r.intent.idempotencyKey)

abbrev RiskTable (F : Type) :=
  Table (fun r : RiskResult F => r.riskId) (fun _ => (none : Option Unit))

abbrev PlanTable (P : Type) :=
  Table (fun r : PlanRow P => r.planId) (fun _ => (none : Option Unit))

abbrev LegTable (P : Type) :=
  Table (fun r : LegRow P => r.legId) (fun _ => (none : Option Unit))

structure WorkflowTables (P F : Type) where
  intents : IntentTable F
  risks : RiskTable F
  plans : PlanTable P
  legs : LegTable P
  commands : CommandTable F
  states : StateTable

/-- the canonical payload of a plan journal besides the decoding of payloads -/
structure JournalCodec (P F : Type) extends PayloadCodec P F where
  journal : ExecutionPlanJournal F → StoreCheck P

def NewTradeIntent.row {F : Type} (new : NewTradeIntent F) : IntentRow F where
  intent := new.intent
  status := new.initialStatus
  createdAt := new.recordedAt
  updatedAt := new.recordedAt

def NewExecutionCommand.row {F : Type} (new : NewExecutionCommand F) : CommandRow F where
  command := new.command
  createdAt := new.createdAt
  riskId := new.riskId

def NewExecutionPlan.journal {F : Type} (new : NewExecutionPlan F) : ExecutionPlanJournal F where
  riskId := new.riskId
  intentId := new.intentId
  definition := new.plan.definition
  legs := new.plan.legs.map ExecutionLeg.definition

def NewExecutionPlan.planId {F : Type} (new : NewExecutionPlan F) : PlanId :=
  new.plan.definition.planId

def NewExecutionPlan.row {P F : Type} (new : NewExecutionPlan F) (payload : P) : PlanRow P where
  planId := new.plan.definition.planId
  riskId := new.riskId
  intentId := new.intentId
  accountId := new.plan.definition.accountId
  strategyId := new.plan.definition.strategyId
  status := new.plan.state.status
  mode := new.plan.definition.mode
  failurePolicy := new.plan.definition.failurePolicy
  payload := payload
  createdAt := new.recordedAt
  updatedAt := new.recordedAt

section
variable {P F : Type} [DecidableEq P] [DecidableEq F] [F64 F]

/-! ## reading -/

def WorkflowTables.fetchTradeIntentById (t : WorkflowTables P F) (intentId : IntentId) :
    StoreCheck (Option (StoredTradeIntent F)) :=
  .ok ((t.intents.get intentId).map IntentRow.toStoredTradeIntent)

/-- `risk_result_from_row`: the row with the intent it joins -/
def riskResultFromRow (t : WorkflowTables P F) (row : RiskResult F) :
    StoreCheck (RiskResult F) := do
  let corrupt := StoreError.corruptData "risk_result" row.riskId
  row.validate.mapError fun e =>
    corrupt ("payload failed semantic validation: " ++ e.field ++ " " ++ e.reason)
  let parent ← need (t.intents.get row.intentId) (corrupt "parent trade_intent is missing")
  validateColumn "risk_result" row.riskId "parent intent account_id" parent.intent.accountId
    row.accountId
  validateColumn "risk_result" row.riskId "parent intent decision_id" parent.intent.decisionId
    row.decisionId
  (validateRiskResultIntentContract row parent.intent).mapError fun reason =>
    corrupt ("parent trade_intent contract mismatch: " ++ reason)
  return row

def WorkflowTables.fetchRiskResultById (t : WorkflowTables P F) (riskId : RiskId) :
    StoreCheck (Option (RiskResult F)) :=
  match t.risks.get riskId with
  | none => .ok none
  | some row => (riskResultFromRow t row).map some

/-- the plans and legs with their parents -/
def WorkflowTables.lifecycle (t : WorkflowTables P F) : Tables P F where
  plans := t.plans.rows
  legs := t.legs.rows
  risk := t.fetchRiskResultById
  intent := t.fetchTradeIntentById
  planKey := t.plans.keyed
  legKey := t.legs.keyed

/-- the tables a workflow is read back from -/
def WorkflowTables.readback (t : WorkflowTables P F) : CommandTables P F where
  commands := t.commands
  states := t.states
  plans := t.lifecycle
  events := []

/-! ## the inserts; each says whether it wrote a row -/

abbrev Statement (P F : Type) := Script (WorkflowTables P F) StoreError

def intentConflicts (t : WorkflowTables P F) (intent : TradeIntent F) : List (IntentRow F) :=
  t.intents.rows.filter fun row =>
    row.intent.intentId == intent.intentId || row.intent.idempotencyKey == intent.idempotencyKey

def intentConflict (existing : List (IntentRow F)) (intent : TradeIntent F) : StoreError :=
  .identityConflict "trade_intent"
    (if existing.any fun row => row.intent.intentId == intent.intentId then
      "intent_id=" ++ intent.intentId
    else "idempotency_key=" ++ intent.idempotencyKey)

/-- the `CHECK` on `decision_timestamp` -/
def checkDecisionTimestamp (intent : TradeIntent F) : StoreCheck Unit :=
  reject (intent.decisionTimestamp < 0 ∨ intent.decisionTimestamp > intent.requestedAt) .database

/-- `insert_trade_intent_on`; neither the status nor the times are compared -/
def insertTradeIntent (new : NewTradeIntent F) : Statement P F Bool := do
  Script.query fun _ => checkDecisionTimestamp new.intent
  Script.write fun t =>
    match t.intents.insert new.row with
    | some intents => .ok (true, { t with intents })
    | none =>
      match intentConflicts t new.intent with
      | [existing] =>
        if existing.intent = new.intent then .ok (false, t)
        else .error (intentConflict [existing] new.intent)
      | existing => .error (intentConflict existing new.intent)

def validateRiskResultIntentIdentity (t : WorkflowTables P F) (result : RiskResult F) :
    StoreCheck Unit := do
  let found ← t.fetchTradeIntentById result.intentId
  let parent ← need found (.notFound "trade_intent" ("intent_id=" ++ result.intentId))
  reject (parent.intent.accountId ≠ result.accountId ∨ parent.intent.decisionId ≠ result.decisionId)
    (.identityConflict "risk_result"
      ("risk_id=" ++ result.riskId ++ ", intent_id=" ++ result.intentId))
  invalidRecordOf "risk_result" ("risk_id=" ++ result.riskId) id
    (validateRiskResultIntentContract result parent.intent)

/-- `insert_risk_result_on` -/
def insertRiskResult (result : RiskResult F) : Statement P F Bool := do
  let conflict := StoreError.identityConflict "risk_result" ("risk_id=" ++ result.riskId)
  Script.query fun _ => invalidRecordOf "risk_result" ("risk_id=" ++ result.riskId)
    (fun e : RiskResultValidationError => e.field ++ " " ++ e.reason) result.validate
  let existing ← Script.query fun t => t.fetchRiskResultById result.riskId
  match existing with
  | some existing =>
    Script.query fun _ => reject (existing ≠ result) conflict
    return false
  | none =>
    Script.query fun t => validateRiskResultIntentIdentity t result
    Script.write fun t => do
      let risks ← need (t.risks.insert result) conflict
      return (true, { t with risks })

def validateExecutionPlanParents (t : WorkflowTables P F) (new : NewExecutionPlan F) :
    StoreCheck Unit := do
  let foundRisk ← t.fetchRiskResultById new.riskId
  let risk ← need foundRisk (.notFound "risk_result" ("risk_id=" ++ new.riskId))
  let foundIntent ← t.fetchTradeIntentById new.intentId
  let intent ← need foundIntent (.notFound "trade_intent" ("intent_id=" ++ new.intentId))
  validateNewExecutionPlan new risk intent

def planConflict (planId : PlanId) : StoreError :=
  .identityConflict "execution_plan" ("plan_id=" ++ planId)

/-- `resolve_execution_plan_replay` -/
def sameExecutionPlan (existing : StoredExecutionPlan P F) (incoming : NewExecutionPlan F)
    (payload : P) : Bool :=
  existing.riskId == incoming.riskId && existing.intentId == incoming.intentId &&
  decide (existing.payload = payload) && decide (existing.createdAt = incoming.recordedAt)

def insertExecutionLeg (codec : JournalCodec P F) (new : NewExecutionPlan F)
    (leg : ExecutionLeg F) : Statement P F Unit :=
  Script.write fun t => do
    let payload ← need (codec.canonical leg.definition) .database
    let legs ← need (t.legs.insert
        { legId := leg.definition.legId
          planId := new.planId
          symbol := leg.definition.symbol
          action := leg.definition.action
          status := leg.state.status
          payload := payload
          updatedAt := new.recordedAt })
      (.identityConflict "execution_leg" ("leg_id=" ++ leg.definition.legId))
    return ((), { t with legs })

/-- the plan row and one row for each leg, read back -/
def insertPlanRows (codec : JournalCodec P F) (new : NewExecutionPlan F) (payload : P) :
    Statement P F Bool := do
  Script.write fun t => do
    let plans ← need (t.plans.insert (new.row payload)) (planConflict new.planId)
    return ((), { t with plans })
  Script.forEach (insertExecutionLeg codec new) new.plan.legs
  let stored ← Script.query fun t =>
    fetchExecutionPlanById codec.toPayloadCodec t.lifecycle new.planId
  Script.query fun _ => reject stored.isNone
    (.corruptData "execution_plan" new.planId "inserted plan could not be read back")
  return true

/-- `insert_execution_plan_on` -/
def insertExecutionPlan (codec : JournalCodec P F) (new : NewExecutionPlan F) :
    Statement P F Bool := do
  Script.query fun t => validateExecutionPlanParents t new
  let payload ← Script.query fun _ => codec.journal new.journal
  let existing ← Script.query fun t =>
    fetchExecutionPlanById codec.toPayloadCodec t.lifecycle new.planId
  match existing with
  | some existing =>
    Script.query fun _ =>
      reject (sameExecutionPlan existing new payload = false) (planConflict new.planId)
    return false
  | none => insertPlanRows codec new payload

def commandConflicts (t : WorkflowTables P F) (command : ExecutionCommand F) :
    List (CommandRow F) :=
  t.commands.rows.filter fun row =>
    row.command.commandId == command.commandId ||
    row.command.idempotencyKey == command.idempotencyKey

def commandConflict (existing : List (CommandRow F)) (command : ExecutionCommand F) : StoreError :=
  .identityConflict "execution_command"
    (if existing.any fun row => row.command.commandId == command.commandId then
      "command_id=" ++ command.commandId
    else "idempotency_key=" ++ command.idempotencyKey)

/-- `insert_execution_command_on`; `created_at` is not compared -/
def insertExecutionCommand (new : NewExecutionCommand F) : Statement P F Bool :=
  Script.write fun t =>
    match t.commands.insert new.row with
    | some commands => .ok (true, { t with commands })
    | none =>
      match commandConflicts t new.command with
      | [existing] =>
        if existing.riskId = new.riskId ∧ existing.command = new.command then .ok (false, t)
        else .error (commandConflict [existing] new.command)
      | existing => .error (commandConflict existing new.command)

def validateCommandStateIdentity (t : WorkflowTables P F) (state : ExecutionCommandState) :
    StoreCheck Unit := do
  let row ← need (t.commands.get state.commandId)
    (.notFound "execution_command" (stateKey state.commandId))
  reject (row.command.accountId ≠ state.accountId ∨ row.command.planId ≠ state.planId ∨
      row.command.legId ≠ state.legId ∨ row.createdAt ≠ state.createdAt)
    (.identityConflict "execution_command_state" (stateKey state.commandId))

/-- the stored state is the incoming one, or a later one of the same command -/
def acceptsState (existing incoming : ExecutionCommandState) : Bool :=
  decide (existing = incoming) ||
  sameCommandStateIdentity existing incoming && decide (existing.updatedAt > incoming.updatedAt)

/-- `insert_execution_command_state_on` -/
def insertExecutionCommandState (state : ExecutionCommandState) : Statement P F Bool := do
  Script.query fun t => validateCommandStateIdentity t state
  Script.write fun t =>
    match t.states.insert state with
    | some states => .ok (true, { t with states })
    | none => do
      let conflict := StoreError.identityConflict "execution_command_state"
        (stateKey state.commandId)
      let existing ← need (t.states.get state.commandId) conflict
      reject (acceptsState existing state = false) conflict
      return (false, t)

/-! ## the commit -/

def workflowConflict (workflow : NewExecutionWorkflow F) : StoreError :=
  .identityConflict "execution_workflow" ("plan_id=" ++ workflow.plan.planId)

/-- the stored command is the incoming one -/
def replaysCommand (stored : List (CommandRow F)) (incoming : NewExecutionCommand F) : Bool :=
  (stored.find? fun row => row.command.commandId == incoming.command.commandId).any fun existing =>
    existing.riskId == incoming.riskId && decide (existing.command = incoming.command) &&
    decide (existing.createdAt = incoming.createdAt)

/-- the stored state belongs to the incoming one and is not behind it -/
def replaysState (stored : List ExecutionCommandState) (incoming : ExecutionCommandState) : Bool :=
  (stored.find? fun s => s.commandId == incoming.commandId).any fun existing =>
    sameCommandStateIdentity existing incoming && decide (incoming.updatedAt ≤ existing.updatedAt)

/-- `validate_execution_workflow_replay`; `intent` is the stored intent with its times -/
def validateExecutionWorkflowReplay (codec : JournalCodec P F)
    (intent : IntentRow F) (stored : StoredExecutionWorkflow P F)
    (incoming : NewExecutionWorkflow F) : StoreCheck Unit := do
  let payload ← codec.journal incoming.plan.journal
  reject (intent.intent ≠ incoming.intent.intent ∨ intent.status ≠ incoming.intent.initialStatus ∨
      intent.createdAt ≠ incoming.intent.recordedAt ∨
      intent.updatedAt ≠ incoming.intent.recordedAt ∨
      stored.riskResult ≠ incoming.riskResult ∨ stored.plan.payload ≠ payload ∨
      stored.plan.riskId ≠ incoming.plan.riskId ∨ stored.plan.intentId ≠ incoming.plan.intentId ∨
      stored.plan.createdAt ≠ incoming.plan.recordedAt)
    (workflowConflict incoming)
  reject (stored.commands.length ≠ incoming.commands.length) (workflowConflict incoming)
  each incoming.commands fun command =>
    reject (replaysCommand stored.commands command = false) (workflowConflict incoming)
  reject (stored.commandStates.length ≠ incoming.commandStates.length) (workflowConflict incoming)
  each incoming.commandStates fun state =>
    reject (replaysState stored.commandStates state = false) (workflowConflict incoming)

def readBackWorkflow (codec : JournalCodec P F) (workflow : NewExecutionWorkflow F)
    (t : WorkflowTables P F) : StoreCheck (StoredExecutionWorkflow P F) := do
  let planId := workflow.plan.planId
  let missing := StoreError.corruptData "execution_workflow" planId
    "committed workflow could not be read back"
  let found ← fetchExecutionWorkflowByPlanId codec.toPayloadCodec t.readback planId
  let stored ← need found missing
  let intent ← need (t.intents.get stored.plan.intentId) missing
  validateExecutionWorkflowReplay codec intent stored workflow
  return stored

def commitExecutionWorkflowInSavepoint (codec : JournalCodec P F)
    (workflow : NewExecutionWorkflow F) :
    Statement P F (WriteOutcome (StoredExecutionWorkflow P F)) := do
  let intent ← insertTradeIntent workflow.intent
  let risk ← insertRiskResult workflow.riskResult
  let plan ← insertExecutionPlan codec workflow.plan
  let commands ← Script.anyOf insertExecutionCommand workflow.commands
  let states ← Script.anyOf insertExecutionCommandState workflow.commandStates
  let stored ← Script.query (readBackWorkflow codec workflow)
  return if intent || risk || plan || commands || states then .inserted stored
    else .duplicate stored

/-- `commit_execution_workflow_on` -/
def commitExecutionWorkflowOn (codec : JournalCodec P F) (workflow : NewExecutionWorkflow F) :
    Statement P F (WriteOutcome (StoredExecutionWorkflow P F)) := do
  Script.query fun _ => validateNewExecutionWorkflow workflow
  Script.savepoint (commitExecutionWorkflowInSavepoint codec workflow)

end

end Sinan.Store
