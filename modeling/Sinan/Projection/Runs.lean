import Sinan.Projection.Durable
import Sinan.Reconciliation.Scope

/-!
# Projections: the reconciliation runs

A run is created with its request, is given one result, and may be escalated to a person.  Whoever reads
a run checks the whole row again: the request, the events it points to, the result against the request,
the evidence of an escalation, the status against all of these (`fetchReconciliationRun`).

The columns of a result are null together, and so are those of an escalation.
-/

namespace Sinan.Projection

open Lib Store Reconciliation

inductive ReconciliationRunStatus where
  | requested
  | pendingEvidence
  | completed
  | manualReconciliationRequired
  deriving DecidableEq

structure ReconciliationCompleteness where
  symbolMetadataComplete : Bool
  commandScopeComplete : Bool
  deriving DecidableEq

structure ManualReconciliationEvidence where
  requestId : RequestId
  escalatedAt : Int
  reason : String
  deriving DecidableEq

structure NewReconciliationRun where
  request : ReconciliationRequest
  requestedAt : Int
  eventMetadata : CoreEventMetadata
  deriving DecidableEq

structure NewReconciliationResult (F : Type) where
  result : ReconciliationResult F
  evaluation : ReconciliationEvaluation
  completeness : ReconciliationCompleteness
  eventMetadata : CoreEventMetadata
  deriving DecidableEq

structure NewManualReconciliationEscalation where
  evidence : ManualReconciliationEvidence
  evaluation : ReconciliationEvaluation
  updatedAt : Int
  deriving DecidableEq

/-- the columns that a result fills -/
structure ResultColumns (F : Type) where
  eventId : String
  result : ReconciliationResult F
  evaluation : ReconciliationEvaluation
  completeness : ReconciliationCompleteness
  deriving DecidableEq

/-- the columns that an escalation fills -/
structure ManualColumns where
  evidence : ManualReconciliationEvidence
  evaluation : ReconciliationEvaluation
  deriving DecidableEq

structure RunRow (F : Type) where
  request : ReconciliationRequest
  requestEventId : String
  requestedAt : Int
  status : ReconciliationRunStatus
  result : Option (ResultColumns F)
  manual : Option ManualColumns
  createdAt : Int
  updatedAt : Int
  deriving DecidableEq

/-- `reconciliation_runs`; a request event belongs to one run -/
abbrev ReconciliationRuns (F : Type) :=
  Table (fun r : RunRow F => r.request.requestId) fun r => some r.requestEventId

structure StoredReconciliationRun (F : Type) extends RunRow F where
  requestEvent : StoredCoreEvent F
  resultEvent : Option (StoredCoreEvent F)
  deriving DecidableEq

structure ProjectionStore (F D : Type) where
  events : EventTable F
  runs : ReconciliationRuns F
  projections : Projections F D
  deriving DecidableEq

def ProjectionStore.empty (F D : Type) : ProjectionStore F D where
  events := .empty
  runs := .empty
  projections :=
    { accounts := .empty
      symbols := .empty
      positions := ⟨.empty, .empty⟩
      orders := ⟨.empty, .empty⟩
      checkpoints := .empty
      bars := .empty }

def invalidRecord (entity key reason : String) : ProjectionError :=
  .store (.invalidRecord entity key reason)

def staleRun (requestId : RequestId) : ProjectionError :=
  .store (.staleWrite "reconciliation_run" requestId)

def runNotFound (requestId : RequestId) : ProjectionError :=
  .store (.notFound "reconciliation_run" requestId)

/-- `corrupt_from_invalid` -/
def corruptStored (key : String) : ProjectionError → ProjectionError
  | .store source => .store (corruptFromInvalid key source)
  | other => other

/-! ## the checks -/

/-- `values.windows(2).all(|pair| key(&pair[0]) < key(&pair[1]))` -/
def strictlySortedUniqueBy {α : Type} (values : List α) (key : α → String) : Bool :=
  decide ((values.map key).IsChain (· < ·))

section
variable {F : Type}

def validateResultMembers {S : Type} (requestId : RequestId) (reason : String) (values : List S)
    (key : S → AccountId × String) (observedAt : S → Int) (result : ReconciliationResult F) :
    ProjectionCheck Unit :=
  reject (strictlySortedUniqueBy values (fun s => (key s).2) = false ∨
      ∃ s ∈ values, blank (key s).2 = true ∨ (key s).1 ≠ result.accountId ∨
        observedAt s ≠ result.observedAt)
    (invalidRecord "reconciliation_result" requestId reason)

def validateResultSets (result : ReconciliationResult F) (target : Option (List CommandId)) :
    ProjectionCheck Unit := do
  reject (∃ account ∈ result.account,
      account.accountId ≠ result.accountId ∨ account.observedAt ≠ result.observedAt)
    (invalidRecord "reconciliation_result" result.requestId
      "account snapshot must match result account_id and observed_at")
  validateResultMembers result.requestId
    "positions must be a unique sorted full set for the result account and observed_at"
    result.positions positionKey PositionSnapshot.observedAt result
  validateResultMembers result.requestId
    "orders must be a unique sorted full set for the result account and observed_at"
    result.orders orderKey OrderSnapshot.observedAt result
  validateResultMembers result.requestId
    "symbol_metadata must be unique, sorted, and match account_id and observed_at"
    result.symbolMetadata symbolKey SymbolMetadataSnapshot.observedAt result
  reject (strictlySortedUniqueBy result.unresolvedCommandIds id = false ∨
      ∃ commandId ∈ result.unresolvedCommandIds, blank commandId = true)
    (invalidRecord "reconciliation_result" result.requestId
      "unresolved_command_ids must be unique and sorted")
  reject (∃ targets ∈ target, ∃ commandId ∈ result.unresolvedCommandIds, commandId ∉ targets)
    (invalidRecord "reconciliation_result" result.requestId
      "targeted result contains an unresolved command outside request scope")

def validateEvaluation (evaluation : ReconciliationEvaluation) (request : ReconciliationRequest)
    (expectedObservedAt : Option Int) : ProjectionCheck Unit := do
  reject (evaluation.requestId ≠ request.requestId ∨ evaluation.accountId ≠ request.accountId ∨
      evaluation.observedAt ≠ expectedObservedAt)
    (identityConflict "reconciliation_evaluation" request.requestId)
  reject (strictlySortedUniqueBy evaluation.commandIds id = false ∨
      ∃ commandId ∈ evaluation.commandIds, blank commandId = true)
    (invalidRecord "reconciliation_evaluation" request.requestId
      "command_ids must be unique and sorted")
  reject (evaluation.disposition = .completed ∧ evaluation.commandIds ≠ [])
    (invalidRecord "reconciliation_evaluation" request.requestId
      "completed evaluation cannot retain attention commands")
  reject (evaluation.disposition = .pendingEvidence ∧ evaluation.commandIds = [])
    (invalidRecord "reconciliation_evaluation" request.requestId
      "pending evaluation must retain at least one attention command")
  reject (∃ targets ∈ request.commandIds, ∃ commandId ∈ evaluation.commandIds, commandId ∉ targets)
    (invalidRecord "reconciliation_evaluation" request.requestId
      "evaluation command is outside targeted request scope")

def validateCompleteness (completeness : ReconciliationCompleteness)
    (request : ReconciliationRequest) : ProjectionCheck Unit :=
  reject (completeness.commandScopeComplete = true ∧ request.commandIds.isSome = true)
    (invalidRecord "reconciliation_completeness" request.requestId
      "command_scope_complete requires an account-wide request")

def validateResultEvaluationLink (result : ReconciliationResult F)
    (evaluation : ReconciliationEvaluation) : ProjectionCheck Unit := do
  reject (result.unresolvedCommandIds ≠ [] ∧ evaluation.disposition = .completed)
    (invalidRecord "reconciliation_evaluation" result.requestId
      "a result with unresolved commands cannot be Completed")
  reject (∃ commandId ∈ result.unresolvedCommandIds, commandId ∉ evaluation.commandIds)
    (invalidRecord "reconciliation_evaluation" result.requestId
      "unresolved commands must be included in evaluation.command_ids")

def validateEventMetadata (metadata : CoreEventMetadata) (eventType : String) (requestId : RequestId)
    (accountId : AccountId) (terminalId : Option TerminalId) (clientId : Option ClientId)
    (eventAt : Int) : ProjectionCheck Unit :=
  reject (metadata.eventType ≠ eventType ∨ metadata.aggregateType ≠ "reconciliation" ∨
      metadata.aggregateId ≠ requestId ∨ metadata.eventAt ≠ eventAt ∨ metadata.eventAt < 0 ∨
      metadata.receivedAt < metadata.eventAt ∨ metadata.createdAt < metadata.receivedAt ∨
      ¬ (metadata.accountId = some accountId ∧ metadata.terminalId = terminalId ∧
        metadata.clientId = clientId) ∨
      metadata.strategyId.isSome = true ∨ metadata.intentId.isSome = true ∨
      metadata.planId.isSome = true ∨ metadata.legId.isSome = true ∨
      metadata.commandId.isSome = true ∨ metadata.idempotencyKey.isSome = true ∨
      blank metadata.eventId = true ∨ blank metadata.schemaVersion = true ∨
      blank metadata.source = true)
    (identityConflict "reconciliation_core_event" metadata.eventId)

variable [DecidableEq F]

def validateStoredEvent (event : StoredCoreEvent F) (eventType : String) (requestId : RequestId)
    (accountId : AccountId) (terminalId : Option TerminalId) (clientId : Option ClientId)
    (eventAt : Int) (payload : EventPayload F) : ProjectionCheck Unit := do
  validateEventMetadata event.metadata eventType requestId accountId terminalId clientId eventAt
  reject (event.payload ≠ payload)
    (identityConflict "reconciliation_core_event.payload" event.metadata.eventId)

/-- `result` answers `request` -/
def sameRoute (result : ReconciliationResult F) (request : ReconciliationRequest) : Prop :=
  result.requestId = request.requestId ∧ result.accountId = request.accountId ∧
    result.terminalId = request.terminalId ∧ result.clientId = request.clientId

instance (result : ReconciliationResult F) (request : ReconciliationRequest) :
    Decidable (sameRoute result request) := inferInstanceAs (Decidable (_ ∧ _))

def validateResultColumns (request : ReconciliationRequest) (columns : ResultColumns F) :
    ProjectionCheck Unit := do
  reject (¬ sameRoute columns.result request) (corrupt "reconciliation_run" request.requestId
    "result payload aliases do not match columns or request")
  (do
    validateResultSets columns.result request.commandIds
    validateEvaluation columns.evaluation request (some columns.result.observedAt)
    validateCompleteness columns.completeness request
    validateResultEvaluationLink columns.result columns.evaluation).mapError
      (corruptStored request.requestId)

/-- the evaluation of an escalation repeats that of the result, but for the disposition -/
def escalates (evaluation resultEvaluation : ReconciliationEvaluation) : Prop :=
  resultEvaluation.disposition = .pendingEvidence ∧
    evaluation = { resultEvaluation with disposition := evaluation.disposition }

instance (evaluation resultEvaluation : ReconciliationEvaluation) :
    Decidable (escalates evaluation resultEvaluation) := inferInstanceAs (Decidable (_ ∧ _))

def validateManualColumns (row : RunRow F) : ProjectionCheck Unit :=
  match row.manual with
  | none =>
    reject (row.status = .manualReconciliationRequired)
      (corrupt "reconciliation_run" row.request.requestId
        "manual status requires explicit evidence")
  | some manual => do
    reject (row.status ≠ .manualReconciliationRequired ∨
        manual.evidence.requestId ≠ row.request.requestId ∨ blank manual.evidence.reason = true ∨
        manual.evidence.escalatedAt < row.requestedAt ∨
        (∃ columns ∈ row.result, manual.evidence.escalatedAt < columns.result.observedAt) ∨
        manual.evaluation.disposition ≠ .manualRequired ∨
        ∃ columns ∈ row.result, ¬ escalates manual.evaluation columns.evaluation)
      (corrupt "reconciliation_run" row.request.requestId
        "manual evidence aliases or state are invalid")
    (validateEvaluation manual.evaluation row.request
      (row.result.map fun columns => columns.result.observedAt)).mapError
        (corruptStored row.request.requestId)

/-- `status_time_valid` -/
def statusTimeValid (row : RunRow F) (resultEvent : Option (StoredCoreEvent F)) : Bool :=
  match row.status with
  | .requested => row.updatedAt == row.createdAt
  | .pendingEvidence | .completed =>
    resultEvent.any fun event => row.updatedAt == event.metadata.createdAt
  | .manualReconciliationRequired =>
    (row.manual.any fun manual => manual.evidence.escalatedAt ≤ row.updatedAt) &&
      resultEvent.all fun event => event.metadata.createdAt ≤ row.updatedAt

def validRunState (row : RunRow F) : Bool :=
  match row.status with
  | .requested => row.result.isNone && row.manual.isNone
  | .pendingEvidence =>
    (row.result.any fun columns => columns.evaluation.disposition == .pendingEvidence) &&
      row.manual.isNone
  | .completed =>
    (row.result.any fun columns => columns.evaluation.disposition == .completed) &&
      row.manual.isNone
  | .manualReconciliationRequired =>
    row.manual.any fun manual => manual.evaluation.disposition == .manualRequired

/-! ## reading a run -/

def runCorrupt (row : RunRow F) (reason : String) : ProjectionError :=
  corrupt "reconciliation_run" row.request.requestId reason

def fetchResultEvent (events : EventTable F) (row : RunRow F) :
    ProjectionCheck (Option (StoredCoreEvent F)) :=
  match row.result with
  | none => .ok none
  | some columns => do
    validateResultColumns row.request columns
    let event ← need (events.get columns.eventId) (runCorrupt row "result event is missing")
    (validateStoredEvent event "reconciliation.result" columns.result.requestId
      columns.result.accountId columns.result.terminalId columns.result.clientId
      columns.result.observedAt (.result columns.result)).mapError
        (corruptStored row.request.requestId)
    return some event

def readRun (events : EventTable F) (row : RunRow F) : ProjectionCheck (StoredReconciliationRun F) := do
  (validateRequest row.request row.requestedAt).mapError fun source =>
    corruptStored row.request.requestId (.store source)
  let requestEvent ← need (events.get row.requestEventId) (runCorrupt row "request event is missing")
  (validateStoredEvent requestEvent "reconciliation.request" row.request.requestId
    row.request.accountId row.request.terminalId row.request.clientId row.requestedAt
    (.request row.request)).mapError (corruptStored row.request.requestId)
  let resultEvent ← fetchResultEvent events row
  validateManualColumns row
  reject (row.createdAt ≠ requestEvent.metadata.createdAt ∨ row.createdAt < row.requestedAt ∨
      row.updatedAt < row.createdAt ∨ statusTimeValid row resultEvent = false)
    (runCorrupt row "created_at/updated_at aliases are not monotonic")
  reject (validRunState row = false)
    (runCorrupt row "status does not match durable result/manual evidence")
  return { row with requestEvent := requestEvent, resultEvent := resultEvent }

/-- `fetch_reconciliation_run_on` -/
def fetchReconciliationRun (events : EventTable F) (runs : ReconciliationRuns F)
    (requestId : RequestId) : ProjectionCheck (Option (StoredReconciliationRun F)) :=
  match runs.get requestId with
  | none => .ok none
  | some row => do
    let run ← readRun events row
    return some run

/-- a run that must be there -/
def fetchRequiredRun (events : EventTable F) (runs : ReconciliationRuns F) (requestId : RequestId)
    (missing : ProjectionError) : ProjectionCheck (StoredReconciliationRun F) := do
  let found ← fetchReconciliationRun events runs requestId
  need found missing

/-! ## creating and escalating a run -/

/-- `same_event_semantics` -/
def sameEventSemantics (left right : CoreEventMetadata) : Bool :=
  left.eventId == right.eventId && left.eventType == right.eventType &&
    left.aggregateType == right.aggregateType && left.aggregateId == right.aggregateId &&
    left.messageId == right.messageId && left.schemaVersion == right.schemaVersion &&
    left.correlationId == right.correlationId && left.causationId == right.causationId &&
    left.accountId == right.accountId && left.clientId == right.clientId &&
    left.terminalId == right.terminalId && left.eventAt == right.eventAt &&
    left.source == right.source

theorem sameEventSemantics_refl (metadata : CoreEventMetadata) :
    sameEventSemantics metadata metadata = true := by
  unfold sameEventSemantics
  simp only [beq_self_eq_true, Bool.and_self]

def sameRequestRun (stored : StoredReconciliationRun F) (incoming : NewReconciliationRun) : Bool :=
  decide (stored.request = incoming.request) && stored.requestedAt == incoming.requestedAt &&
    sameEventSemantics stored.requestEvent.metadata incoming.eventMetadata

def newRunRow (newRun : NewReconciliationRun) : RunRow F where
  request := newRun.request
  requestEventId := newRun.eventMetadata.eventId
  requestedAt := newRun.requestedAt
  status := .requested
  result := none
  manual := none
  createdAt := newRun.eventMetadata.createdAt
  updatedAt := newRun.eventMetadata.createdAt

/-- `INSERT INTO reconciliation_runs … ON CONFLICT DO NOTHING`, and whether it inserted -/
def insertRun (runs : ReconciliationRuns F) (row : RunRow F) : ReconciliationRuns F × Bool :=
  match runs.insert row with
  | some inserted => (inserted, true)
  | none => (runs, false)

variable {D : Type}

def createReconciliationRun (s : ProjectionStore F D) (newRun : NewReconciliationRun) :
    ProjectionCheck (ProjectionStore F D × WriteOutcome (StoredReconciliationRun F)) := do
  (validateRequest newRun.request newRun.requestedAt).mapError .store
  validateEventMetadata newRun.eventMetadata "reconciliation.request" newRun.request.requestId
    newRun.request.accountId newRun.request.terminalId newRun.request.clientId newRun.requestedAt
  let (events, eventOutcome) ←
    appendCoreEvent s.events ⟨newRun.eventMetadata, .request newRun.request⟩
  let (runs, inserted) := insertRun s.runs (newRunRow newRun)
  let stored ← fetchRequiredRun events runs newRun.request.requestId
    (runNotFound newRun.request.requestId)
  if inserted = true ∧ WriteOutcome.wasInserted eventOutcome = true then
    return ({ s with events := events, runs := runs }, .inserted stored)
  else if inserted = false ∧ WriteOutcome.wasInserted eventOutcome = false ∧
      sameRequestRun stored newRun = true then
    return ({ s with events := events, runs := runs }, .duplicate stored)
  else
    throw (identityConflict "reconciliation_run" newRun.request.requestId)

def validateManualEscalation (run : StoredReconciliationRun F)
    (escalation : NewManualReconciliationEscalation) : ProjectionCheck Unit := do
  let requestId := escalation.evidence.requestId
  reject (requestId ≠ run.request.requestId)
    (identityConflict "manual_reconciliation_evidence" requestId)
  reject (blank escalation.evidence.reason = true)
    (invalidRecord "manual_reconciliation_evidence" requestId "reason must not be empty")
  reject (escalation.evidence.escalatedAt < run.requestedAt ∨
      (∃ columns ∈ run.result, escalation.evidence.escalatedAt < columns.result.observedAt) ∨
      escalation.updatedAt < escalation.evidence.escalatedAt ∨ escalation.updatedAt < run.updatedAt)
    (invalidRecord "manual_reconciliation_evidence" requestId
      "escalation timestamps must not predate request or result")
  reject (escalation.evaluation.disposition ≠ .manualRequired)
    (invalidRecord "manual_reconciliation_evidence" requestId
      "evaluation disposition must be MANUAL_REQUIRED")
  reject (∃ columns ∈ run.result, ¬ escalates escalation.evaluation columns.evaluation)
    (invalidRecord "manual_reconciliation_evidence" requestId
      "manual evaluation may only change a pending result disposition")
  validateEvaluation escalation.evaluation run.request
    (run.result.map fun columns => columns.result.observedAt)

def escalateReconciliationManual (s : ProjectionStore F D)
    (escalation : NewManualReconciliationEscalation) :
    ProjectionCheck (ProjectionStore F D × WriteOutcome (StoredReconciliationRun F)) := do
  let requestId := escalation.evidence.requestId
  let existing ← fetchRequiredRun s.events s.runs requestId (runNotFound requestId)
  validateManualEscalation existing escalation
  match existing.manual with
  | some manual =>
    if manual = ⟨escalation.evidence, escalation.evaluation⟩ ∧
        existing.updatedAt = escalation.updatedAt then
      return (s, .duplicate existing)
    else throw (identityConflict "manual_reconciliation_evidence" requestId)
  | none => do
    reject (existing.status = .completed) (staleRun requestId)
    let runs ← need (s.runs.put { existing.toRunRow with
      status := .manualReconciliationRequired
      manual := some ⟨escalation.evidence, escalation.evaluation⟩
      updatedAt := escalation.updatedAt }) (.store .database)
    let stored ← fetchRequiredRun s.events runs requestId (runNotFound requestId)
    return ({ s with runs := runs }, .inserted stored)

end

end Sinan.Projection
