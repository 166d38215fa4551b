import Sinan.Store.Graph

/-!
# Committing an execution workflow

The checks `commit_execution_workflow` makes on a whole new workflow before it writes a row: one
graph of intent, approval and plan, one command for each plan leg, one pristine state for each
command.
-/

namespace Sinan.Store

open Lib Execution

structure NewTradeIntent (F : Type) where
  intent : TradeIntent F
  initialStatus : TradeIntentStatus
  recordedAt : Int
  deriving DecidableEq

structure NewExecutionPlan (F : Type) where
  plan : ExecutionPlan F
  riskId : RiskId
  intentId : IntentId
  recordedAt : Int
  deriving DecidableEq

structure NewExecutionCommand (F : Type) where
  command : ExecutionCommand F
  riskId : RiskId
  createdAt : Int
  deriving DecidableEq

structure NewExecutionWorkflow (F : Type) where
  intent : NewTradeIntent F
  riskResult : RiskResult F
  plan : NewExecutionPlan F
  commands : List (NewExecutionCommand F)
  commandStates : List ExecutionCommandState
  deriving DecidableEq

section
variable {F : Type} [F64 F]

def isLowerHex64 (value : String) : Bool := value.toList.length == 64 && isLowerHex value

/-- the command carries the numbers of its plan leg -/
def commandMatchesLeg (command : ExecutionCommand F) (leg : ExecutionLegDefinition F) : Bool :=
  command.symbol == leg.symbol && decide (command.action = leg.action) &&
  sameOptionalF64Bits command.lots leg.lots && sameOptionalF64Bits command.sl leg.sl &&
  sameOptionalF64Bits command.tp leg.tp

def validateExecutionCommandGraph (command : ExecutionCommand F) (commandRiskId : RiskId)
    (commandCreatedAt : Int) (plan : ExecutionPlan F) (planRiskId : RiskId) (planCreatedAt : Int)
    (risk : RiskResult F) (intent : TradeIntent F) : GraphCheck := do
  let planId ← need command.planId "workflow command has no plan_id"
  let legId ← need command.legId "workflow command has no leg_id"
  let leg ← need (plan.legs.find? fun leg => leg.definition.legId == legId)
    ("command references unknown plan leg " ++ legId)
  reject (planId ≠ plan.definition.planId ∨ commandRiskId ≠ planRiskId ∨
      planRiskId ≠ risk.riskId ∨ command.accountId ≠ plan.definition.accountId ∨
      command.accountId ≠ risk.accountId ∨ command.accountId ≠ intent.accountId ∨
      command.strategyId ≠ plan.definition.strategyId ∨ command.strategyId ≠ intent.strategyId)
    "command identity differs from its plan or approval"
  reject (commandMatchesLeg command leg.definition = false)
    ("command " ++ command.commandId ++ " drifts from approved plan leg " ++ legId)
  reject (commandCreatedAt < planCreatedAt ∨ commandCreatedAt < risk.evaluatedAt ∨
      commandCreatedAt < 0 ∨ command.expiresAt ≤ commandCreatedAt ∨
      command.expiresAt > risk.validUntil ∨ command.expiresAt > intent.signalExpiresAt)
    "command lifecycle is outside the approved execution window"
  reject (isLowerHex64 command.hmac = false) "command hmac must be lowercase 64-character hex"

def validateNewExecutionCommandGraph (workflow : NewExecutionWorkflow F)
    (command : NewExecutionCommand F) : GraphCheck :=
  validateExecutionCommandGraph command.command command.riskId command.createdAt workflow.plan.plan
    workflow.plan.riskId workflow.plan.recordedAt workflow.riskResult workflow.intent.intent

def validateInitialCommandState (state : ExecutionCommandState) (command : NewExecutionCommand F) :
    GraphCheck := do
  reject (state.commandId ≠ command.command.commandId ∨
      state.accountId ≠ command.command.accountId ∨ state.planId ≠ command.command.planId ∨
      state.legId ≠ command.command.legId ∨ state.createdAt ≠ command.createdAt ∨
      state.updatedAt ≠ command.createdAt)
    ("initial state identity differs from command " ++ command.command.commandId)
  reject (state.status ≠ .created ∨ state.deliveryAttempts ≠ 0 ∨ state.lastDeliveryError.isSome ∨
      state.dispatchedAt.isSome ∨ state.commandReceivedAt.isSome ∨ state.reconcilingAt.isSome ∨
      state.completedAt.isSome)
    ("command " ++ command.command.commandId ++ " must start in a pristine CREATED state")

/-- the loop over the commands; `seen` are those already checked, by id, key and leg -/
def validateNewCommands (workflow : NewExecutionWorkflow F) (seen : List (NewExecutionCommand F)) :
    List (NewExecutionCommand F) → GraphCheck
  | [] => .ok ()
  | command :: rest => do
    validateNewExecutionCommandGraph workflow command
    reject (∃ other ∈ seen, other.command.commandId = command.command.commandId)
      ("duplicate command_id " ++ command.command.commandId)
    reject (∃ other ∈ seen, other.command.idempotencyKey = command.command.idempotencyKey)
      ("duplicate command idempotency_key " ++ command.command.idempotencyKey)
    -- the graph check has made sure of a leg id
    reject (∃ other ∈ seen, other.command.legId = command.command.legId)
      ("multiple commands reference plan leg " ++ command.command.legId.getD "")
    validateNewCommands workflow (seen ++ [command]) rest

/-- the checks on the commands and on their states -/
def validateWorkflowRows (workflow : NewExecutionWorkflow F) : GraphCheck := do
  validateNewCommands workflow [] workflow.commands
  reject (workflow.commands.length ≠ workflow.plan.plan.legs.length ∨
      workflow.plan.plan.legs.any fun leg =>
        !workflow.commands.any fun c => c.command.legId == some leg.definition.legId)
    "commands must correspond one-to-one with plan legs"
  eachApart (fun y x => decide (y.commandId = x.commandId)) (fun _ => .ok ())
    (fun state => "duplicate command state for " ++ state.commandId) (fun _ => .ok ()) []
    workflow.commandStates
  reject (workflow.commandStates.length ≠ workflow.commands.length)
    "every command must have exactly one initial state"
  each workflow.commands fun command => do
    let state ← need
      (workflow.commandStates.find? fun s => s.commandId == command.command.commandId)
      ("command " ++ command.command.commandId ++ " has no initial state")
    validateInitialCommandState state command

def validateWorkflowGraph (workflow : NewExecutionWorkflow F) : GraphCheck := do
  reject (workflow.intent.initialStatus ≠ .accepted)
    "workflow intent must have initial status ACCEPTED"
  reject (workflow.intent.recordedAt < 0) "intent recorded_at must be non-negative"
  reject (workflow.plan.intentId ≠ workflow.intent.intent.intentId ∨
      workflow.plan.riskId ≠ workflow.riskResult.riskId ∨
      workflow.riskResult.intentId ≠ workflow.intent.intent.intentId)
    "intent, risk result, and plan identities do not form one graph"
  validateWorkflowRows workflow

/-- a refused check, reported against a record -/
def invalidRecordOf {ε : Type} (entity key : String) (reason : ε → String) :
    Except ε Unit → StoreCheck Unit
  | .ok () => .ok ()
  | .error e => .error (.invalidRecord entity key (reason e))

theorem invalidRecordOf_ok {ε : Type} {entity key : String} {reason : ε → String}
    {check : Except ε Unit} : invalidRecordOf entity key reason check = .ok () ↔ check = .ok () := by
  cases check with
  | error e => exact ⟨fun h => (nomatch h), fun h => (nomatch h)⟩
  | ok u => exact ⟨fun _ => rfl, fun _ => rfl⟩

def validateNewExecutionWorkflow (workflow : NewExecutionWorkflow F) : StoreCheck Unit :=
  invalidRecordOf "execution_workflow" ("plan_id=" ++ workflow.plan.plan.definition.planId) id
    (validateWorkflowGraph workflow)

/-! ## the plan -/

/-- the checks of a new plan against the approval and the intent already stored -/
def validateNewExecutionPlan (new : NewExecutionPlan F) (risk : RiskResult F)
    (intent : StoredTradeIntent F) : StoreCheck Unit := do
  let key := "plan_id=" ++ new.plan.definition.planId
  invalidRecordOf "execution_plan" key (fun e => e.field ++ " " ++ e.reason) new.plan.validate
  reject (new.recordedAt < 0)
    (.invalidRecord "execution_plan" key "recorded_at must be non-negative")
  reject (new.plan.state.status ≠ .pending ∨ new.plan.state.filledLegs ≠ [] ∨
      new.plan.state.failedLegs ≠ [] ∨ ∃ leg ∈ new.plan.legs, leg.state.status ≠ .pending)
    (.invalidRecord "execution_plan" key
      "new plan and every leg must be in the initial PENDING state")
  invalidRecordOf "execution_plan" key id
    (validateExecutionPlanGraph new.plan new.riskId new.intentId new.recordedAt risk intent)

/-! ## the approval -/

def riskShapeNumberMatches (left right : F) : Bool := sameF64Bits left right

/-- the candidate is for this symbol, action, ratio and stop -/
def candidateFits (candidate : SizingCandidateProvenance F) (symbol : SymbolCode)
    (action : AdjustedRiskLegAction) (ratio stop : F) : Bool :=
  candidate.symbol == symbol && decide (candidate.action = action) &&
  riskShapeNumberMatches candidate.ratio ratio && riskShapeNumberMatches candidate.stopLossPrice stop

def expectedSingleAction : TradeIntentAction → Except String AdjustedRiskLegAction
  | .buy => .ok .buy
  | .sell => .ok .sell
  | action => .error (action.asStr ++ " intent cannot have actionable sizing")

def expectedLegAction : TradeIntentLegAction → Except String AdjustedRiskLegAction
  | .buy => .ok .buy
  | .sell => .ok .sell
  | .close => .error "intent containing a CLOSE leg cannot be approved"

def validateSingleShape (candidates : List (SizingCandidateProvenance F)) (intent : TradeIntent F) :
    GraphCheck :=
  match candidates with
  | [candidate] => do
    let action ← expectedSingleAction intent.action
    let stop ← need intent.proposedSl
      "approved single-leg intent must define proposed_sl for sizing provenance"
    reject (candidate.legId ≠ singleLegId intent.intentId ∨
        candidateFits candidate intent.symbol action (F64.ofInt 1) stop = false)
      ("single-leg sizing candidate must match the derived leg id and intent symbol, action, " ++
        "ratio=1 and proposed_sl")
  | _ => .error ("approved single-leg intent must contain exactly one sizing candidate, found " ++
      toString candidates.length)

def validateLegShape (candidates : List (SizingCandidateProvenance F)) (leg : TradeIntentLeg F) :
    GraphCheck := do
  let candidate ← need (candidates.find? fun c => c.legId == leg.legId)
    ("approved multi-leg sizing is missing proposed leg " ++ leg.legId)
  let action ← expectedLegAction leg.action
  let stop ← need leg.proposedSl
    ("approved proposed leg " ++ leg.legId ++ " must define proposed_sl for sizing provenance")
  reject (candidateFits candidate leg.symbol action leg.ratio stop = false)
    ("sizing candidate " ++ candidate.legId ++
      " must match its proposed leg symbol, action, ratio and proposed_sl")

def validateApprovedSizingShape (result : RiskResult F) (intent : TradeIntent F) : GraphCheck := do
  let candidates ← need result.sizingCandidates
    "approved actionable intent is missing sizing candidates"
  match intent.proposedLegs with
  | none => validateSingleShape candidates intent
  | some legs => do
    reject (∃ leg ∈ legs, leg.action = .close) "intent containing a CLOSE leg cannot be approved"
    reject (candidates.length ≠ legs.length)
      ("approved multi-leg intent requires one sizing candidate per proposed leg; expected " ++
        toString legs.length ++ ", found " ++ toString candidates.length)
    eachApart (fun y x => decide (y.legId = x.legId)) (fun _ => .ok ())
      (fun leg => "proposed multi-leg intent contains duplicate leg_id " ++ leg.legId)
      (validateLegShape candidates) [] legs

/-- at least one candidate and one adjusted leg -/
def hasActionableSizing (result : RiskResult F) : Bool :=
  (result.sizingCandidates.any fun candidates => !candidates.isEmpty) &&
  (result.adjustedLegs.any fun legs => !legs.isEmpty)

def validateApprovedWindow (result : RiskResult F) (intent : TradeIntent F) : GraphCheck := do
  reject (result.evaluatedAt < intent.requestedAt)
    ("approved result evaluated_at " ++ toString result.evaluatedAt ++
      " precedes intent requested_at " ++ toString intent.requestedAt)
  reject (result.evaluatedAt ≥ intent.signalExpiresAt)
    ("approved result evaluated_at " ++ toString result.evaluatedAt ++
      " must precede intent signal_expires_at " ++ toString intent.signalExpiresAt)
  reject (result.validUntil > intent.signalExpiresAt)
    ("approved result valid_until " ++ toString result.validUntil ++
      " exceeds intent signal_expires_at " ++ toString intent.signalExpiresAt)

/-- which sizing the action of the intent allows -/
def validateSizingOfAction (result : RiskResult F) (intent : TradeIntent F) : GraphCheck :=
  match intent.action with
  | .buy | .sell =>
    reject (result.approved = true ∧ hasActionableSizing result = false)
      ("approved " ++ intent.action.asStr ++ " intent must contain actionable sizing")
  | .hold => reject (result.sizingFields.any id) "HOLD intent must not contain sizing"
  | .close => do
    reject result.approved "CLOSE intent cannot be approved in the first implementation"
    reject (result.sizingFields.any id) "CLOSE intent must not contain sizing"

def validateRiskResultIntentContract (result : RiskResult F) (intent : TradeIntent F) :
    GraphCheck := do
  reject (result.approved = true ∧
      intent.proposedLegs.any fun legs => legs.any fun leg => decide (leg.action = .close))
    "intent containing a CLOSE leg cannot be approved"
  validateSizingOfAction result intent
  if result.approved = false then .ok ()
  else do
    if intent.action = .buy ∨ intent.action = .sell then validateApprovedSizingShape result intent
    else .ok ()
    validateApprovedWindow result intent

/-- the checks of a new risk result against the intent already stored -/
def validateNewRiskResult (result : RiskResult F) (intent : TradeIntent F) : StoreCheck Unit := do
  let key := "risk_id=" ++ result.riskId
  invalidRecordOf "risk_result" key (fun e => e.field ++ " " ++ e.reason) result.validate
  reject (intent.accountId ≠ result.accountId ∨ intent.decisionId ≠ result.decisionId)
    (.identityConflict "risk_result" (key ++ ", intent_id=" ++ result.intentId))
  invalidRecordOf "risk_result" key id (validateRiskResultIntentContract result intent)

end

end Sinan.Store
