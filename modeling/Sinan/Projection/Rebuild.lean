import Sinan.Projection.Runs

/-!
# Projections: results, checkpoints and the rebuild

A committed result replaces the account's full sets and advances its checkpoint, whose row is compared
with the run it names, the other runs of the account and the tables each time it is read.
`rebuildIngestProjections` empties the tables and replays the events in the order of their receive
times: first the facts, then facts and results.  `projectionCall` is one call of the store.
-/

namespace Sinan.Projection

open Lib Store Reconciliation

def checkpointCorrupt {D : Type} (checkpoint : AccountReconciliationCheckpoint D) (reason : String) :
    ProjectionError :=
  corrupt "account_reconciliation_checkpoint" checkpoint.accountId reason

/-! ## the checkpoint of an account -/

section
variable {D S : Type} [DecidableEq D] {key : S → AccountId × String}

def memberCorrupt (kind : SetKind D key) (checkpoint : AccountReconciliationCheckpoint D)
    (row : MemberRow S) (reason : String) : ProjectionError :=
  corrupt ("reconciliation_" ++ kind.noun ++ "_set_member")
    (pairText (checkpoint.accountId, (key row.payload).2)) reason

def validateMemberRow (kind : SetKind D key) (tables : SetTables key)
    (checkpoint : AccountReconciliationCheckpoint D) (row : MemberRow S) : ProjectionCheck Unit := do
  reject (row.setObservedAt ≠ kind.watermark checkpoint ∨
      kind.observedAt row.payload ≠ row.setObservedAt ∨
      (key row.payload).1 ≠ checkpoint.accountId)
    (memberCorrupt kind checkpoint row "membership aliases do not match payload or checkpoint")
  reject ((tables.latest.get (checkpoint.accountId, (key row.payload).2)).all (fun latest =>
      decide (kind.observedAt latest.payload < row.setObservedAt ∨
        (kind.observedAt latest.payload = row.setObservedAt ∧
          kind.digest latest.payload ≠ kind.digest row.payload))) = true)
    (memberCorrupt kind checkpoint row "latest projection disagrees with full-set membership")

/-- the members of the account, `ORDER BY` their id -/
def memberRows (tables : SetTables key) (accountId : AccountId) : List (MemberRow S) :=
  sortBy (fun row : MemberRow S => (key row.payload).2)
    (tables.members.rows.filter fun row => row.accountId == accountId)

/-- `validate_position_membership`, `validate_order_membership` -/
def validateMembership (kind : SetKind D key) (tables : SetTables key)
    (checkpoint : AccountReconciliationCheckpoint D) : ProjectionCheck Unit := do
  let rows := memberRows tables checkpoint.accountId
  each rows (validateMemberRow kind tables checkpoint)
  reject (kind.setDigest (rows.map MemberRow.payload) ≠ kind.setHash checkpoint)
    (checkpointCorrupt checkpoint (kind.noun ++ "s_set_hash does not match membership"))
  reject (∃ latest ∈ tables.latest.rows, (key latest.payload).1 = checkpoint.accountId ∧
      kind.observedAt latest.payload ≤ kind.watermark checkpoint ∧
      (key latest.payload).2 ∉ rows.map fun row => (key row.payload).2)
    (checkpointCorrupt checkpoint
      (kind.noun ++ " projection contains a row tombstoned by the full set"))

inductive FullSetDecision where
  | applied
  | ignoredOlder
  | unchanged
  deriving DecidableEq

def compareFullSet (entity accountId : String) (observedAt : Int) (setHash : D)
    (existing : Option (Int × D)) : ProjectionCheck FullSetDecision :=
  match existing with
  | none => .ok .applied
  | some (watermark, existingHash) =>
    if watermark < observedAt then .ok .applied
    else if observedAt < watermark then .ok .ignoredOlder
    else if existingHash = setHash then .ok .unchanged
    else .error (.observationConflict entity accountId observedAt)

/-- the rows that the full set ends -/
def tombstoned (kind : SetKind D key) (accountId : AccountId) (observedAt : Int) (set : List S)
    (row : LatestRow S) : Bool :=
  decide ((key row.payload).1 = accountId ∧ kind.observedAt row.payload ≤ observedAt ∧
    (key row.payload).2 ∉ set.map fun snapshot => (key snapshot).2)

/-- the part of a full set that replaces what the account had -/
def replaceFullSet (kind : SetKind D key)
    (checkpoint : Option (AccountReconciliationCheckpoint D)) (tables : SetTables key)
    (accountId : AccountId) (observedAt : Int) (set : List S) (updatedAt : Int) :
    ProjectionCheck (SetTables key) := do
  let applied ← set.foldlM (fun tables snapshot => do
    let (tables, _) ← applyMember kind checkpoint tables snapshot updatedAt
    return tables) tables
  let cleared := applied.members.erase fun row => row.accountId == accountId
  let members ← set.foldlM (fun (members : MemberTable key) snapshot =>
    need (members.insert ⟨accountId, observedAt, snapshot⟩) (.store .database)) cleared
  return ⟨applied.latest.erase (tombstoned kind accountId observedAt set), members⟩

/-- `apply_position_full_set`, `apply_order_full_set` -/
def applyFullSet (kind : SetKind D key) (checkpoint : Option (AccountReconciliationCheckpoint D))
    (tables : SetTables key) (accountId : AccountId) (observedAt : Int) (set : List S)
    (updatedAt : Int) : ProjectionCheck (SetTables key) := do
  let decision ← compareFullSet ("reconciliation_" ++ kind.noun ++ "s") accountId observedAt
    (kind.setDigest set) (checkpoint.map fun c => (kind.watermark c, kind.setHash c))
  if decision = .applied then
    replaceFullSet kind checkpoint tables accountId observedAt set updatedAt
  else return tables

end

def maxOptional (left right : Option Int) : Option Int :=
  match left, right with
  | some left, some right => some (max left right)
  | some value, none | none, some value => some value
  | none, none => none

section
variable {F D : Type} [DecidableEq F] [DecidableEq D] (digests : Digests F D) (events : EventTable F)
  (runs : ReconciliationRuns F)

def validateCheckpointTimes (checkpoint : AccountReconciliationCheckpoint D) :
    ProjectionCheck Unit :=
  reject (checkpoint.resultObservedAt < 0 ∨ checkpoint.updatedAt < checkpoint.resultObservedAt ∨
      checkpoint.positionsObservedAt ≠ checkpoint.resultObservedAt ∨
      checkpoint.ordersObservedAt ≠ checkpoint.resultObservedAt ∨
      ∃ value ∈ [checkpoint.accountRefreshedAt, some checkpoint.positionsObservedAt,
          some checkpoint.ordersObservedAt, checkpoint.symbolMetadataRefreshedAt,
          checkpoint.pendingCommandsReconciledAt].filterMap id,
        value < 0 ∨ checkpoint.resultObservedAt < value)
    (checkpointCorrupt checkpoint "timestamps or full-set hashes are invalid")

def validateCheckpointSource (checkpoint : AccountReconciliationCheckpoint D)
    (source : StoredReconciliationRun F) : ProjectionCheck Unit := do
  reject (source.request.accountId ≠ checkpoint.accountId ∨
      (source.result.map fun columns => columns.result.observedAt) ≠
        some checkpoint.resultObservedAt)
    (checkpointCorrupt checkpoint
      "source run does not match checkpoint account and result watermark")
  let columns ← need source.result
    (checkpointCorrupt checkpoint "source reconciliation run has no durable result")
  reject (digests.positions columns.result.positions ≠ checkpoint.positionsSetHash ∨
      digests.orders columns.result.orders ≠ checkpoint.ordersSetHash)
    (checkpointCorrupt checkpoint "full-set hashes do not match the source reconciliation result")

/-- `fetch_reconciliation_runs_at` -/
def fetchReconciliationRunsAt (checkpoint : AccountReconciliationCheckpoint D) (observedAt : Int) :
    ProjectionCheck (List (StoredReconciliationRun F)) :=
  collect (fun row : RunRow F => fetchRequiredRun events runs row.request.requestId
      (checkpointCorrupt checkpoint "readiness source run disappeared"))
    (sortBy (fun row : RunRow F => row.request.requestId) (runs.rows.filter fun row =>
      decide (row.request.accountId = checkpoint.accountId ∧
        (row.result.map fun columns => columns.result.observedAt) = some observedAt)))

/-- one of the account's results of that time proves the refresh -/
def requireReadiness (checkpoint : AccountReconciliationCheckpoint D) (refreshedAt : Option Int)
    (proves : StoredReconciliationRun F → Bool) (reason : String) : ProjectionCheck Unit :=
  match refreshedAt with
  | none => .ok ()
  | some observedAt => do
    let found ← fetchReconciliationRunsAt events runs checkpoint observedAt
    reject (found.any proves = false) (checkpointCorrupt checkpoint reason)

/-- a request for all commands of the account, on any route -/
def accountWide (request : ReconciliationRequest) : Bool :=
  request.commandIds.isNone && request.terminalId.isNone && request.clientId.isNone

def provesPendingCommands (run : StoredReconciliationRun F) : Bool :=
  decide (run.status = .completed) && accountWide run.request &&
    run.result.any fun columns =>
      decide (columns.evaluation.disposition = .completed) &&
        columns.completeness.commandScopeComplete

def validateCheckpointReadiness (checkpoint : AccountReconciliationCheckpoint D) :
    ProjectionCheck Unit := do
  requireReadiness events runs checkpoint checkpoint.accountRefreshedAt
    (fun run => run.result.any fun columns => columns.result.account.isSome)
    "account_refreshed_at has no durable account snapshot evidence"
  requireReadiness events runs checkpoint checkpoint.symbolMetadataRefreshedAt
    (fun run => run.result.any fun columns => columns.completeness.symbolMetadataComplete)
    "symbol_metadata_refreshed_at has no explicit completeness evidence"
  requireReadiness events runs checkpoint checkpoint.pendingCommandsReconciledAt
    provesPendingCommands
    "pending_commands_reconciled_at has no account-wide completeness evidence"

def validateCheckpointIntegrity (p : Projections F D)
    (checkpoint : AccountReconciliationCheckpoint D) : ProjectionCheck Unit := do
  validateCheckpointTimes checkpoint
  let source ← fetchRequiredRun events runs checkpoint.sourceRequestId
    (checkpointCorrupt checkpoint "source reconciliation run is missing")
  validateCheckpointSource digests checkpoint source
  validateCheckpointReadiness events runs checkpoint
  validateMembership (positionKind digests) p.positions checkpoint
  validateMembership (orderKind digests) p.orders checkpoint

/-- `fetch_checkpoint_on` -/
def fetchCheckpoint (p : Projections F D) (accountId : AccountId) :
    ProjectionCheck (Option (AccountReconciliationCheckpoint D)) :=
  match p.checkpoints.get accountId with
  | none => .ok none
  | some checkpoint => do
    validateCheckpointIntegrity digests events runs p checkpoint
    return some checkpoint

/-! ## applying a result -/

/-- what a result is applied with -/
structure AppliedResult (F : Type) where
  request : ReconciliationRequest
  result : ReconciliationResult F
  evaluation : ReconciliationEvaluation
  completeness : ReconciliationCompleteness
  deriving DecidableEq

def AppliedResult.accountRefresh (r : AppliedResult F) : Option Int :=
  if r.result.account.isSome then some r.result.observedAt else none

def AppliedResult.symbolRefresh (r : AppliedResult F) : Option Int :=
  if r.completeness.symbolMetadataComplete then some r.result.observedAt else none

def AppliedResult.pendingRefresh (r : AppliedResult F) : Option Int :=
  if accountWide r.request && decide (r.evaluation.disposition = .completed) &&
      r.completeness.commandScopeComplete then
    some r.result.observedAt
  else none

/-- the row that `advance_checkpoint` writes -/
def advancedCheckpoint (r : AppliedResult F) (updatedAt : Int) :
    Option (AccountReconciliationCheckpoint D) → AccountReconciliationCheckpoint D
  | none =>
    { accountId := r.result.accountId
      sourceRequestId := r.result.requestId
      resultObservedAt := r.result.observedAt
      accountRefreshedAt := r.accountRefresh
      positionsObservedAt := r.result.observedAt
      positionsSetHash := digests.positions r.result.positions
      ordersObservedAt := r.result.observedAt
      ordersSetHash := digests.orders r.result.orders
      symbolMetadataRefreshedAt := r.symbolRefresh
      pendingCommandsReconciledAt := r.pendingRefresh
      updatedAt := updatedAt }
  | some existing =>
    let incomingIsSource := existing.resultObservedAt < r.result.observedAt ∨
      (r.result.observedAt = existing.resultObservedAt ∧
        r.result.requestId < existing.sourceRequestId)
    let laterPositions := existing.positionsObservedAt < r.result.observedAt
    let laterOrders := existing.ordersObservedAt < r.result.observedAt
    { accountId := existing.accountId
      sourceRequestId := if incomingIsSource then r.result.requestId else existing.sourceRequestId
      resultObservedAt := max existing.resultObservedAt r.result.observedAt
      accountRefreshedAt := maxOptional existing.accountRefreshedAt r.accountRefresh
      positionsObservedAt :=
        if laterPositions then r.result.observedAt else existing.positionsObservedAt
      positionsSetHash :=
        if laterPositions then digests.positions r.result.positions else existing.positionsSetHash
      ordersObservedAt := if laterOrders then r.result.observedAt else existing.ordersObservedAt
      ordersSetHash :=
        if laterOrders then digests.orders r.result.orders else existing.ordersSetHash
      symbolMetadataRefreshedAt := maxOptional existing.symbolMetadataRefreshedAt r.symbolRefresh
      pendingCommandsReconciledAt :=
        maxOptional existing.pendingCommandsReconciledAt r.pendingRefresh
      updatedAt := max existing.updatedAt updatedAt }

/-- the account snapshot and the symbols of a result -/
def applyResultSnapshots (p : Projections F D) (result : ReconciliationResult F) (updatedAt : Int) :
    ProjectionCheck (Projections F D) := do
  let accounts ← result.account.toList.foldlM (fun accounts account => do
    let (accounts, _) ← applyLatest (accountKind digests) accounts account updatedAt
    return accounts) p.accounts
  let symbols ← result.symbolMetadata.foldlM (fun symbols symbol => do
    let (symbols, _) ← applyLatest (symbolKind digests) symbols symbol updatedAt
    return symbols) p.symbols
  return { p with accounts := accounts, symbols := symbols }

/-- `apply_result_projections` -/
def applyResult (p : Projections F D) (r : AppliedResult F) (updatedAt : Int) :
    ProjectionCheck (Projections F D) := do
  let existing ← fetchCheckpoint digests events runs p r.result.accountId
  let p ← applyResultSnapshots digests p r.result updatedAt
  let positions ← applyFullSet (positionKind digests) (p.checkpoints.get r.result.accountId)
    p.positions r.result.accountId r.result.observedAt r.result.positions updatedAt
  let orders ← applyFullSet (orderKind digests) (p.checkpoints.get r.result.accountId)
    p.orders r.result.accountId r.result.observedAt r.result.orders updatedAt
  return { p with
    positions := positions
    orders := orders
    checkpoints := p.checkpoints.replace (advancedCheckpoint digests r updatedAt existing) }

/-! ## the replay -/

/-- `… ORDER BY received_at, created_at, event_id` -/
def replayOrder (events : List (StoredCoreEvent F)) : List (StoredCoreEvent F) :=
  sortBy (fun e : StoredCoreEvent F =>
    toLex (e.metadata.receivedAt, toLex (e.metadata.createdAt, e.metadata.eventId))) events

def ensureFactAccount (event : StoredCoreEvent F) (accountId : AccountId)
    (value : DurableProjection F) (reason : String) : ProjectionCheck Unit :=
  reject (∃ payloadAccountId ∈ value.accountId, accountId ≠ payloadAccountId)
    (corrupt "core_event" event.metadata.eventId reason)

structure StateIngestProjectionRebuildReport where
  replayedFacts : Nat
  applied : Nat
  ignoredOlder : Nat
  unchanged : Nat
  deriving DecidableEq

def StateIngestProjectionRebuildReport.count (report : StateIngestProjectionRebuildReport) :
    ApplyDecision → StateIngestProjectionRebuildReport
  | .applied =>
    { report with replayedFacts := report.replayedFacts + 1, applied := report.applied + 1 }
  | .ignoredOlder =>
    { report with replayedFacts := report.replayedFacts + 1, ignoredOlder := report.ignoredOlder + 1 }
  | .unchanged =>
    { report with replayedFacts := report.replayedFacts + 1, unchanged := report.unchanged + 1 }

/-- one row of the loop of `rebuild_ingest_projections_on` -/
def replayFact (state : Projections F D × StateIngestProjectionRebuildReport)
    (event : StoredCoreEvent F) :
    ProjectionCheck (Projections F D × StateIngestProjectionRebuildReport) := do
  let accountId ← need event.metadata.accountId
    (corrupt "core_event" event.metadata.eventId "account_id is required for projection")
  let payload ← decodeEvent event
  match payload with
  | .fact value => do
    ensureFactAccount event accountId value "payload account_id does not match fact account_id"
    let (p, decision) ← applyProjection digests state.1 value event.metadata
    return (p, state.2.count decision)
  | _ => return state

def factEventTypes : List String :=
  ["account.snapshot", "symbol.metadata", "position.snapshot", "order.snapshot", "market.bar"]

def emptyProjections (F D : Type) : Projections F D := (ProjectionStore.empty F D).projections

/-- `rebuild_ingest_projections_on` -/
def rebuildFacts : ProjectionCheck (Projections F D × StateIngestProjectionRebuildReport) := do
  validateAllDurable digests events
  (replayOrder (events.rows.filter fun e => factEventTypes.contains e.metadata.eventType)).foldlM
    (replayFact digests) (emptyProjections F D, ⟨0, 0, 0, 0⟩)

/-- the run that a replayed result belongs to -/
def replayedResult (event : StoredCoreEvent F) (result : ReconciliationResult F) :
    ProjectionCheck (AppliedResult F) := do
  let run ← fetchRequiredRun events runs result.requestId
    (corrupt "core_event" event.metadata.eventId "reconciliation result has no durable run")
  let columns ← need (run.result.filter fun columns =>
      decide (columns.result = result) &&
        run.resultEvent.any fun stored => stored.metadata.eventId == event.metadata.eventId)
    (corrupt "core_event" event.metadata.eventId
      "reconciliation result does not match run aliases")
  return ⟨run.request, result, columns.evaluation, columns.completeness⟩

structure ReconciliationProjectionRebuildReport where
  replayedSnapshotFacts : Nat
  replayedReconciliationResults : Nat
  deriving DecidableEq

/-- one event of `replay_reconciliation_event_ids` -/
def replayEvent (state : Projections F D × ReconciliationProjectionRebuildReport)
    (event : StoredCoreEvent F) :
    ProjectionCheck (Projections F D × ReconciliationProjectionRebuildReport) := do
  let accountId ← need event.metadata.accountId
    (corrupt "core_event" event.metadata.eventId
      "account_id is required for reconciliation projection rebuild")
  let payload ← decodeEvent event
  match payload with
  | .fact value => do
    ensureFactAccount event accountId value "payload account_id does not match event metadata"
    let (p, _) ← applyProjection digests state.1 value event.metadata
    return (p, { state.2 with replayedSnapshotFacts := state.2.replayedSnapshotFacts + 1 })
  | .result result => do
    let r ← replayedResult events runs event result
    let p ← applyResult digests events runs state.1 r event.metadata.receivedAt
    return (p, { state.2 with
      replayedReconciliationResults := state.2.replayedReconciliationResults + 1 })
  | .request _ => return state

def replayEventTypes : List String :=
  ["account.snapshot", "symbol.metadata", "position.snapshot", "order.snapshot",
    "reconciliation.result"]

def replayEvents (p : Projections F D) (rows : List (StoredCoreEvent F)) :
    ProjectionCheck (Projections F D × ReconciliationProjectionRebuildReport) :=
  (replayOrder (rows.filter fun e => replayEventTypes.contains e.metadata.eventType)).foldlM
    (replayEvent digests events runs) (p, ⟨0, 0⟩)

/-- `rebuild_reconciliation_projections_on`: every table but the bars -/
def rebuildReconciliation (p : Projections F D) :
    ProjectionCheck (Projections F D × ReconciliationProjectionRebuildReport) := do
  validateAllDurable digests events
  replayEvents digests events runs { emptyProjections F D with bars := p.bars } events.rows

/-- `DELETE FROM … WHERE account_id = ?` -/
def eraseAccount (p : Projections F D) (accountId : AccountId) : Projections F D where
  accounts := p.accounts.erase fun row => accountKey row.payload == accountId
  symbols := p.symbols.erase fun row => (symbolKey row.payload).1 == accountId
  positions :=
    { latest := p.positions.latest.erase fun row => (positionKey row.payload).1 == accountId
      members := p.positions.members.erase fun row => row.accountId == accountId }
  orders :=
    { latest := p.orders.latest.erase fun row => (orderKey row.payload).1 == accountId
      members := p.orders.members.erase fun row => row.accountId == accountId }
  checkpoints := p.checkpoints.erase fun row => row.accountId == accountId
  bars := p.bars

/-- `rebuild_reconciliation_account_projections_on` -/
def rebuildAccount (p : Projections F D) (accountId : AccountId) :
    ProjectionCheck (Projections F D × ReconciliationProjectionRebuildReport) := do
  validateAccountDurable digests events accountId
  replayEvents digests events runs (eraseAccount p accountId)
    (events.rows.filter fun e => e.metadata.accountId == some accountId)

/-- `rebuild_ingest_projections`: the facts, then facts and results -/
def rebuildIngestProjections (s : ProjectionStore F D) :
    ProjectionCheck (ProjectionStore F D × StateIngestProjectionRebuildReport) := do
  let (p, report) ← rebuildFacts digests s.events
  let (p, _) ← rebuildReconciliation digests s.events s.runs p
  return ({ s with projections := p }, report)

/-! ## the calls -/

inductive ProjectionWriteOutcome where
  | applied
  | factAppendedProjectionIgnored
  | factAppendedProjectionUnchanged
  | duplicate
  deriving DecidableEq

/-- the outcome of an ingest whose fact is new -/
def ApplyDecision.outcome : ApplyDecision → ProjectionWriteOutcome
  | .applied => .applied
  | .ignoredOlder => .factAppendedProjectionIgnored
  | .unchanged => .factAppendedProjectionUnchanged

/-- the kinds of fact that must agree with the account's full sets -/
def DurableProjection.fullSetConsistencyAccountId : DurableProjection F → Option AccountId
  | .position value => some value.accountId
  | .order value => some value.accountId
  | _ => none

def ingestDurable (s : ProjectionStore F D) (metadata : CoreEventMetadata)
    (value : DurableProjection F) :
    ProjectionCheck (ProjectionStore F D × ProjectionWriteOutcome) := do
  validateIdentity value metadata
  let (events, append) ← appendCoreEvent s.events ⟨metadata, .fact value⟩
  each value.fullSetConsistencyAccountId.toList (validateAccountDurable digests events)
  let (p, decision) ← applyProjection digests s.projections value append.record.metadata
  return ({ s with events := events, projections := p },
    if WriteOutcome.wasInserted append then decision.outcome else .duplicate)

def validateResultBundle (run : StoredReconciliationRun F) (bundle : NewReconciliationResult F) :
    ProjectionCheck Unit := do
  let result := bundle.result
  reject (¬ sameRoute result run.request)
    (identityConflict "reconciliation_result" result.requestId)
  reject (result.observedAt < run.requestedAt)
    (invalidRecord "reconciliation_result" result.requestId
      "observed_at must not predate requested_at")
  reject (bundle.evaluation.disposition = .manualRequired)
    (invalidRecord "reconciliation_result" result.requestId
      "MANUAL_REQUIRED must use explicit manual escalation evidence")
  reject (bundle.eventMetadata.createdAt < run.updatedAt) (staleRun result.requestId)
  validateEventMetadata bundle.eventMetadata "reconciliation.result" result.requestId
    result.accountId result.terminalId result.clientId result.observedAt
  validateResultSets result run.request.commandIds
  validateEvaluation bundle.evaluation run.request (some result.observedAt)
  validateCompleteness bundle.completeness run.request
  validateResultEvaluationLink result bundle.evaluation

def sameResultCommit (stored : StoredReconciliationRun F) (incoming : NewReconciliationResult F) :
    Bool :=
  (stored.result.any fun columns =>
    decide (columns.result = incoming.result ∧ columns.evaluation = incoming.evaluation ∧
      columns.completeness = incoming.completeness)) &&
    stored.resultEvent.any fun event => sameEventSemantics event.metadata incoming.eventMetadata

def statusForDisposition : ReconciliationDisposition → ReconciliationRunStatus
  | .completed => .completed
  | .pendingEvidence => .pendingEvidence
  | .manualRequired => .manualReconciliationRequired

/-- the row with its result -/
def RunRow.settled (row : RunRow F) (bundle : NewReconciliationResult F) : RunRow F :=
  { row with
    status := statusForDisposition bundle.evaluation.disposition
    result := some ⟨bundle.eventMetadata.eventId, bundle.result, bundle.evaluation,
      bundle.completeness⟩
    updatedAt := bundle.eventMetadata.createdAt }

/-- the result of a run that has none yet -/
def commitNewResult (s : ProjectionStore F D) (existing : StoredReconciliationRun F)
    (bundle : NewReconciliationResult F) :
    ProjectionCheck (ProjectionStore F D × WriteOutcome (StoredReconciliationRun F)) := do
  let requestId := bundle.result.requestId
  reject (existing.status ≠ .requested) (staleRun requestId)
  let (events, eventOutcome) ← appendCoreEvent s.events ⟨bundle.eventMetadata, .result bundle.result⟩
  reject (WriteOutcome.wasInserted eventOutcome = false)
    (identityConflict "reconciliation_result" requestId)
  validateAccountDurable digests events bundle.result.accountId
  let p ← applyResult digests events s.runs s.projections
    ⟨existing.request, bundle.result, bundle.evaluation, bundle.completeness⟩
    bundle.eventMetadata.receivedAt
  let runs ← need (s.runs.put (existing.toRunRow.settled bundle)) (.store .database)
  let stored ← fetchRequiredRun events runs requestId (runNotFound requestId)
  return (⟨events, runs, p⟩, .inserted stored)

/-- `commit_reconciliation_result_on` -/
def commitReconciliationResult (s : ProjectionStore F D) (bundle : NewReconciliationResult F) :
    ProjectionCheck (ProjectionStore F D × WriteOutcome (StoredReconciliationRun F)) := do
  let requestId := bundle.result.requestId
  let existing ← fetchRequiredRun s.events s.runs requestId (runNotFound requestId)
  validateResultBundle existing bundle
  if existing.result.isSome then
    reject (sameResultCommit existing bundle = false)
      (identityConflict "reconciliation_result" requestId)
    let (p, _) ← rebuildAccount digests s.events s.runs s.projections existing.request.accountId
    return ({ s with projections := p }, .duplicate existing)
  else commitNewResult digests s existing bundle

inductive ProjectionCall (F : Type) where
  | ingest (metadata : CoreEventMetadata) (value : DurableProjection F)
  | createRun (newRun : NewReconciliationRun)
  | commitResult (bundle : NewReconciliationResult F)
  | escalateManual (escalation : NewManualReconciliationEscalation)
  deriving DecidableEq

def projectionCall (s : ProjectionStore F D) :
    ProjectionCall F → ProjectionCheck (ProjectionStore F D)
  | .ingest metadata value => Prod.fst <$> ingestDurable digests s metadata value
  | .createRun newRun => Prod.fst <$> createReconciliationRun s newRun
  | .commitResult bundle => Prod.fst <$> commitReconciliationResult digests s bundle
  | .escalateManual escalation => Prod.fst <$> escalateReconciliationManual s escalation

end

end Sinan.Projection
