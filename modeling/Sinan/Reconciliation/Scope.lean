import Sinan.Core.Processor
import Sinan.Reconciliation.Attention
import Sinan.Store.Claims

/-!
# The commands of a stored run

What the store loads for the evaluation of a client's result: the run, the commands in its scope with
their states and events.  An account-wide run includes a command whose own payload names the route of
the run, or one that was delivered on a session of that route.

The tables change with the commands, their states, the deliveries and the runs.  Every change of a
state is a transition of the lifecycle, whichever component makes it.
-/

namespace Sinan.Reconciliation

open Lib Execution Store Sinan.Core

/-- what the evaluation reads of a row of `reconciliation_runs` -/
structure StoredRun (F : Type) where
  request : ReconciliationRequest
  requestedAt : Int
  result : Option (ReconciliationResult F)
  deriving DecidableEq

abbrev RunTable (F : Type) :=
  Table (fun r : StoredRun F => r.request.requestId) (fun _ => (none : Option Unit))

def StoredRun.context {F : Type} (run : StoredRun F) : ReconciliationRequestContext :=
  ⟨run.request, run.requestedAt⟩

structure ScopeTables (P F : Type) where
  core : OutboundTables P F (RunTable F)
  delivery : DeliveryTables P

structure StoredExecutionCommandLifecycle (F : Type) where
  command : CommandRow F
  state : ExecutionCommandState
  deriving DecidableEq

def StoredExecutionCommandLifecycle.commandId {F : Type}
    (item : StoredExecutionCommandLifecycle F) : CommandId := item.command.command.commandId

structure ReconciliationEvaluationSnapshot (F : Type) where
  run : StoredRun F
  commands : List (StoredExecutionCommandLifecycle F)
  events : List (ExecutionEvent F)
  deriving DecidableEq

/-! ## the run -/

def invalidRequest {α : Type} (key reason : String) : StoreCheck α :=
  .error (.invalidRecord "reconciliation_request" key reason)

def validateNonempty (value field : String) : StoreCheck Unit :=
  if blank value then invalidRequest value (field ++ " must not be empty") else .ok ()

/-- the store's own check of a request -/
def validateRequest (request : ReconciliationRequest) (requestedAt : Int) : StoreCheck Unit := do
  validateNonempty request.requestId "request_id"
  validateNonempty request.accountId "account_id"
  reject (request.terminalId.any blank = true ∨ request.clientId.any blank = true)
    (.invalidRecord "reconciliation_request" request.requestId
      "terminal_id and client_id must be non-empty when present")
  reject (∃ ids ∈ request.commandIds, ids = [] ∨ ¬ ids.IsChain (· < ·) ∨ ∃ id ∈ ids, blank id = true)
    (.invalidRecord "reconciliation_request" request.requestId
      "command_ids must be None or a non-empty unique sorted list")
  reject (requestedAt < 0) (.invalidRecord "reconciliation_request" request.requestId
    "requested_at must be non-negative")
  reject (request.sinceServerTime.any (fun since => since < 0 || since > requestedAt) = true)
    (.invalidRecord "reconciliation_request" request.requestId
      "since_server_time must be non-negative and not exceed requested_at")

def corruptFromInvalid (key : String) : StoreError → StoreError
  | .invalidRecord _ _ reason | .corruptData _ _ reason =>
    .corruptData "reconciliation_run" key reason
  | .identityConflict entity _ =>
    .corruptData "reconciliation_run" key (entity ++ " identity aliases do not match")
  | other => other

section
variable {P F : Type}

def fetchReconciliationRun (runs : RunTable F) (requestId : RequestId) :
    StoreCheck (Option (StoredRun F)) :=
  match runs.get requestId with
  | none => .ok none
  | some run => do
    (validateRequest run.request run.requestedAt).mapError (corruptFromInvalid requestId)
    return some run

/-! ## the route -/

/-- `? IS NULL OR column = ?` -/
def sqlMatches (requested column : Option String) : Bool :=
  requested.all fun value => column == some value

/-- the command's own payload names the route -/
def payloadRouteMatches (run : StoredRun F) (command : ExecutionCommand F) : Bool :=
  sqlMatches run.request.terminalId command.terminalId &&
    sqlMatches run.request.clientId command.clientId

/-- `JOIN execution_client_sessions` on the session of the attempt -/
def attemptOnRoute (d : DeliveryTables P) (run : StoredRun F) (attempt : StoredDeliveryAttempt P) :
    Bool :=
  (attempt.sessionId.bind d.sessions.get).any fun session =>
    session.accountId == run.request.accountId &&
      sqlMatches run.request.terminalId session.terminalId &&
      sqlMatches run.request.clientId (some session.clientId)

def hasDeliveryRouteProof (d : DeliveryTables P) (run : StoredRun F) (commandId : CommandId) : Bool :=
  d.attempts.rows.any fun attempt =>
    attempt.subject.commandId == some commandId && attemptOnRoute d run attempt

/-- `… ORDER BY commands.command_id` -/
def loadRouteCommandIds (t : ScopeTables P F) (run : StoredRun F) : List CommandId :=
  sortBy id ((t.core.commands.rows.filter fun row =>
    row.command.accountId == run.request.accountId &&
      (payloadRouteMatches run row.command ||
        hasDeliveryRouteProof t.delivery run row.command.commandId)).map
    fun row => row.command.commandId)

def corruptSnapshot (run : StoredRun F) (reason : String) : StoreError :=
  .corruptData "reconciliation_evaluation_snapshot" run.request.requestId reason

def validateReconciliationCommandRoute (d : DeliveryTables P) (run : StoredRun F)
    (command : ExecutionCommand F) : StoreCheck Unit :=
  let accountMatches := command.accountId == run.request.accountId
  let routeMatches :=
    if accountMatches && !payloadRouteMatches run command then
      hasDeliveryRouteProof d run command.commandId
    else accountMatches
  reject (routeMatches = false) (corruptSnapshot run
    ("scoped command " ++ command.commandId ++ " is outside the request route"))

/-! ## the snapshot -/

/-- one command of the scope with its state -/
def scopedCommand (t : ScopeTables P F) (run : StoredRun F) (commandId : CommandId) :
    StoreCheck (StoredExecutionCommandLifecycle F) := do
  let command ← need (t.core.commands.get commandId)
    (corruptSnapshot run ("scoped command " ++ commandId ++ " is missing"))
  validateReconciliationCommandRoute t.delivery run command.command
  let state ← need (t.core.states.get commandId)
    (corruptSnapshot run ("scoped command " ++ commandId ++ " has no lifecycle state"))
  (validatePersistedCommandState state command.toStoredExecutionCommand).mapError fun reason =>
    .corruptData "execution_command_state" commandId reason
  return ⟨command, state⟩

def loadCommandEvents (t : ScopeTables P F) (commandId : CommandId) : List (ExecutionEvent F) :=
  (t.core.events.filter fun event => event.commandId == commandId).insertionSort eventBefore

def scopedIds (t : ScopeTables P F) (run : StoredRun F) : List CommandId :=
  run.request.commandIds.getD (loadRouteCommandIds t run)

def loadReconciliationEvaluationSnapshot (t : ScopeTables P F) (requestId : RequestId) :
    StoreCheck (Option (ReconciliationEvaluationSnapshot F)) := do
  let found ← fetchReconciliationRun t.core.runs requestId
  match found with
  | none => return none
  | some run => do
    let commands ← collect (scopedCommand t run) (scopedIds t run)
    return some ⟨run, sortBy StoredExecutionCommandLifecycle.commandId commands,
      sortBy eventKey ((scopedIds t run).flatMap (loadCommandEvents t))⟩

/-- the commands as the evaluation takes them -/
def ReconciliationEvaluationSnapshot.scope (snapshot : ReconciliationEvaluationSnapshot F) :
    List (ReconciliationCommand F) :=
  snapshot.commands.map fun item => ⟨item.command.command, item.state⟩

/-! ## the handler -/

inductive ResultError where
  | store (source : StoreError)
  | terminal (reason : String)
  | evaluation (source : ReconciliationError)
  deriving DecidableEq

variable [F64 F] [DecidableEq F]

/-- `handle_reconciliation_result` between the decoding of the message and the commit; a result that
is stored already is not evaluated again -/
def evaluateStoredRun (t : ScopeTables P F) (result : ReconciliationResult F) (receivedAt : Int) :
    Except ResultError (Option (EvaluatedReconciliationResult F)) := do
  let found ← (loadReconciliationEvaluationSnapshot t result.requestId).mapError .store
  let snapshot ← need found (.terminal "reconciliation.result request does not exist")
  match snapshot.run.result with
  | some existing => do
    reject (existing ≠ result)
      (.terminal "reconciliation.result conflicts with the completed durable run")
    return none
  | none => do
    let evaluated ← (evaluateReconciliationResult snapshot.run.context result snapshot.scope
      snapshot.events receivedAt).mapError .evaluation
    return some evaluated

/-! ## the changes of the tables -/

variable [DecidableEq P] (codec : WireCodec P)

inductive ScopeCall (P F : Type) where
  | command (row : CommandRow F)
  | evidence (commandId : CommandId) (evidence : CommandEvidence F)
  | delivery (call : StoreCall P)
  | request (request : ReconciliationRequest) (requestedAt : Int)
  | result (result : ReconciliationResult F)
  | others (plans : Tables P F) (events : List (ExecutionEvent F)) (works : WorkTable)

/-- the command of a workflow is written with its initial state -/
def commitCommand (t : OutboundTables P F (RunTable F)) (row : CommandRow F) :
    Outbound (OutboundTables P F (RunTable F)) := do
  let state ← ofCommand (initialCommandState row.command row.createdAt)
  insertCommand t row state

/-- `create_reconciliation_run`: a run that is there already must be the same one -/
def createReconciliationRun (runs : RunTable F) (request : ReconciliationRequest)
    (requestedAt : Int) : StoreCheck (RunTable F) := do
  validateRequest request requestedAt
  match runs.insert ⟨request, requestedAt, none⟩ with
  | some runs => return runs
  | none => do
    let found ← fetchReconciliationRun runs request.requestId
    let stored ← need found (.notFound "reconciliation_run" request.requestId)
    reject (stored.request ≠ request ∨ stored.requestedAt ≠ requestedAt)
      (.identityConflict "reconciliation_run" request.requestId)
    return runs

/-- the result of a run is stored once -/
def storeResult (runs : RunTable F) (result : ReconciliationResult F) : StoreCheck (RunTable F) := do
  let run ← need (runs.get result.requestId) (.notFound "reconciliation_run" result.requestId)
  reject (run.result.isSome = true) (.staleWrite "reconciliation_run" result.requestId)
  need (runs.put { run with result := some result }) .database

/-- a call that fails leaves the tables as they were -/
def scopeStep (t : ScopeTables P F) : ScopeCall P F → ScopeTables P F
  | .command row => { t with core := (commitCommand t.core row).toOption.getD t.core }
  | .evidence commandId evidence =>
    { t with core := (applyEvidence t.core commandId evidence).toOption.getD t.core }
  | .delivery call => { t with delivery := storeStep codec t.delivery call }
  | .request request requestedAt =>
    { t with core := { t.core with
        runs := (createReconciliationRun t.core.runs request requestedAt).toOption.getD t.core.runs } }
  | .result result =>
    { t with core := { t.core with
        runs := (storeResult t.core.runs result).toOption.getD t.core.runs } }
  | .others plans events works =>
    { t with core := { t.core with plans := plans, events := events, works := works } }

def emptyScope (plans : Tables P F) (parents : Parents P) : ScopeTables P F :=
  ⟨{ commands := .empty, states := .empty, plans := plans, events := [], runs := .empty,
     works := .empty }, ⟨.empty, .empty, .empty, parents⟩⟩

/-- the tables in front of the `k`-th call -/
def scopeAt (plans : Tables P F) (parents : Parents P) (calls : List (ScopeCall P F)) (k : Nat) :
    ScopeTables P F :=
  before (scopeStep codec) (emptyScope plans parents) calls k

end

end Sinan.Reconciliation
