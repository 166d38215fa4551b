import Sinan.Breaker.Restore
import Sinan.Store.Graph
import Sinan.Types.Delivery

/-!
# Circuit breaker: the durable log and its restore

`circuit_breaker_snapshots` is an append-only table.  A writer names the head revision it has seen
and is refused when the head has moved on; a restore reads the head, decodes it, and writes a fresh
OPEN incident after it when it cannot be used.

A payload column is `none` when text and hash no longer belong together.  What JSON says and how
serde reads and writes a snapshot is the parameter `codec`.
-/

namespace Sinan.Breaker

open Lib Store

variable {J : Type}

/-- the JSON layer: the three aliased members of an object, and serde on the whole snapshot -/
structure SnapshotCodec (J : Type) where
  isObject : J → Bool
  schemaVersion : J → Option String
  recoveryEpoch : J → Option Nat
  status : J → Option String
  decode : J → Option CircuitBreakerSnapshotV1
  encode : CircuitBreakerSnapshotV1 → StoreCheck J

/-- a row of `circuit_breaker_snapshots`, all of one scope -/
structure SnapshotRow (J : Type) where
  stateRevision : Nat
  schemaVersion : String
  status : String
  recoveryEpoch : Nat
  updatedAt : Int
  payload : Option J
  deriving DecidableEq

structure NewCircuitBreakerSnapshot (J : Type) where
  expectedHeadRevision : Option Nat
  schemaVersion : String
  status : String
  recoveryEpoch : Nat
  updatedAt : Int
  payload : J
  deriving DecidableEq

structure StoredCircuitBreakerSnapshot (J : Type) where
  stateRevision : Nat
  schemaVersion : String
  status : String
  recoveryEpoch : Nat
  updatedAt : Int
  payload : J
  deriving DecidableEq

structure CircuitBreakerHeadMetadata where
  stateRevision : Nat
  recoveryEpoch : Nat
  deriving DecidableEq

/-! ## checks of a snapshot -/

def isCircuitBreakerStatus (status : String) : Bool :=
  status == "CLOSED" || status == "OPEN" || status == "HALF_OPEN"

def circuitBreakerSnapshotKey (stateRevision : Nat) : String :=
  "scope=GLOBAL,state_revision=" ++ toString stateRevision

def expectedHeadKey : Option Nat → String
  | some revision => "expected_head_revision=" ++ toString revision
  | none => "expected_head_revision=none"

/-- the columns repeat three members of the payload -/
def validateCircuitBreakerPayloadAliases (codec : SnapshotCodec J) (schemaVersion status : String)
    (recoveryEpoch : Nat) (payload : J) : Except String Unit := do
  reject (codec.isObject payload = false) "payload_json must be an object"
  reject (codec.schemaVersion payload ≠ some schemaVersion)
    "schema_version does not match payload_json"
  reject (codec.recoveryEpoch payload ≠ some recoveryEpoch)
    "recovery_epoch does not match payload_json"
  reject (codec.status payload ≠ some status) "status does not match payload_json"

/-- `circuit_breaker_snapshot_from_row` -/
def circuitBreakerSnapshotFromRow (codec : SnapshotCodec J) (row : SnapshotRow J) :
    StoreCheck (StoredCircuitBreakerSnapshot J) := do
  let corrupt := StoreError.corruptData "circuit_breaker_snapshot"
    (circuitBreakerSnapshotKey row.stateRevision)
  reject (blank row.schemaVersion = true) (corrupt "schema_version must not be empty")
  reject (isCircuitBreakerStatus row.status = false)
    (corrupt ("invalid status \"" ++ row.status ++ "\""))
  reject (row.updatedAt < 0) (corrupt "updated_at must be non-negative")
  let payload ← need row.payload (corrupt "payload hash does not match")
  (validateCircuitBreakerPayloadAliases codec row.schemaVersion row.status row.recoveryEpoch
    payload).mapError corrupt
  return { stateRevision := row.stateRevision
           schemaVersion := row.schemaVersion
           status := row.status
           recoveryEpoch := row.recoveryEpoch
           updatedAt := row.updatedAt
           payload }

def positiveU64ToI64 (field : String) (value : Nat) : StoreCheck Unit := do
  reject (value = 0) (.invalidSequence field)
  reject ((value : Int) > i64Max) (.invalidInteger field value)

def validateNewCircuitBreakerSnapshot (codec : SnapshotCodec J)
    (snapshot : NewCircuitBreakerSnapshot J) : StoreCheck Unit := do
  let invalid := StoreError.invalidRecord "circuit_breaker_snapshot"
    (expectedHeadKey snapshot.expectedHeadRevision)
  reject (snapshot.expectedHeadRevision = some 0)
    (.invalidSequence "circuit_breaker_snapshot.expected_head_revision")
  reject (blank snapshot.schemaVersion = true) (invalid "schema_version must not be empty")
  reject (isCircuitBreakerStatus snapshot.status = false)
    (invalid ("invalid status \"" ++ snapshot.status ++ "\""))
  reject (snapshot.updatedAt < 0) (invalid "updated_at must be non-negative")
  each snapshot.expectedHeadRevision.toList
    (positiveU64ToI64 "circuit_breaker_snapshot.expected_head_revision")
  reject ((snapshot.recoveryEpoch : Int) > i64Max)
    (.invalidInteger "circuit_breaker_snapshot.recovery_epoch" snapshot.recoveryEpoch)
  (validateCircuitBreakerPayloadAliases codec snapshot.schemaVersion snapshot.status
    snapshot.recoveryEpoch snapshot.payload).mapError invalid

/-! ## reads -/

/-- `ORDER BY state_revision DESC LIMIT 1` -/
def headRow (rows : List (SnapshotRow J)) : Option (SnapshotRow J) :=
  rows.argmax SnapshotRow.stateRevision

def fetchCircuitBreakerHeadMetadata (rows : List (SnapshotRow J)) :
    Option CircuitBreakerHeadMetadata :=
  (headRow rows).map fun row =>
    { stateRevision := row.stateRevision, recoveryEpoch := row.recoveryEpoch }

/-- `row.map(circuit_breaker_snapshot_from_row).transpose()` -/
def decodeRow (codec : SnapshotCodec J) :
    Option (SnapshotRow J) → StoreCheck (Option (StoredCircuitBreakerSnapshot J))
  | none => .ok none
  | some row => (circuitBreakerSnapshotFromRow codec row).map some

def fetchLatestCircuitBreakerSnapshot (codec : SnapshotCodec J) (rows : List (SnapshotRow J)) :
    StoreCheck (Option (StoredCircuitBreakerSnapshot J)) :=
  decodeRow codec (headRow rows)

def rowOfRevision (rows : List (SnapshotRow J)) (revision : Nat) : Option (SnapshotRow J) :=
  rows.find? fun row => row.stateRevision == revision

/-! ## the compare-and-swap write -/

def sameCircuitBreakerSnapshot [DecidableEq J] (existing : StoredCircuitBreakerSnapshot J)
    (incoming : NewCircuitBreakerSnapshot J) : Bool :=
  existing.schemaVersion == incoming.schemaVersion && existing.status == incoming.status &&
  existing.recoveryEpoch == incoming.recoveryEpoch &&
  existing.updatedAt == incoming.updatedAt && decide (existing.payload = incoming.payload)

def staleCircuitBreakerSnapshot (expected : Option Nat) : StoreError :=
  .staleWrite "circuit_breaker_snapshot" ("scope=GLOBAL," ++ expectedHeadKey expected)

def NewCircuitBreakerSnapshot.at (snapshot : NewCircuitBreakerSnapshot J) (stateRevision : Nat) :
    StoredCircuitBreakerSnapshot J where
  stateRevision := stateRevision
  schemaVersion := snapshot.schemaVersion
  status := snapshot.status
  recoveryEpoch := snapshot.recoveryEpoch
  updatedAt := snapshot.updatedAt
  payload := snapshot.payload

def StoredCircuitBreakerSnapshot.row (snapshot : StoredCircuitBreakerSnapshot J) :
    SnapshotRow J where
  stateRevision := snapshot.stateRevision
  schemaVersion := snapshot.schemaVersion
  status := snapshot.status
  recoveryEpoch := snapshot.recoveryEpoch
  updatedAt := snapshot.updatedAt
  payload := some snapshot.payload

/-- the revision a write is for -/
def targetRevision (expected : Option Nat) : Nat :=
  match expected with
  | some expected => expected + 1
  | none => 1

def checkTargetRevision (expected : Option Nat) : StoreCheck Unit := do
  reject (expected.any (fun e => decide (e ≥ u64Max)) = true)
    (.invalidInteger "circuit_breaker_snapshot.state_revision" (expected.getD 0))
  positiveU64ToI64 "circuit_breaker_snapshot.state_revision" (targetRevision expected)

/-- `write_circuit_breaker_snapshot_on` -/
def writeCircuitBreakerSnapshot [DecidableEq J] (codec : SnapshotCodec J)
    (rows : List (SnapshotRow J)) (snapshot : NewCircuitBreakerSnapshot J) :
    StoreCheck (WriteOutcome (StoredCircuitBreakerSnapshot J) × List (SnapshotRow J)) := do
  validateNewCircuitBreakerSnapshot codec snapshot
  checkTargetRevision snapshot.expectedHeadRevision
  let stale := staleCircuitBreakerSnapshot snapshot.expectedHeadRevision
  let target := targetRevision snapshot.expectedHeadRevision
  let head := (headRow rows).map SnapshotRow.stateRevision
  if snapshot.expectedHeadRevision ≠ head then
    if head = some target then do
      let existing ← need (← decodeRow codec (rowOfRevision rows target))
        (.corruptData "circuit_breaker_snapshot" (circuitBreakerSnapshotKey target)
          "head revision row is missing")
      if sameCircuitBreakerSnapshot existing snapshot then .ok (.duplicate existing, rows)
      else .error stale
    else .error stale
  else if (rowOfRevision rows target).isSome then do
    -- `ON CONFLICT DO NOTHING`
    let existing ← need (← decodeRow codec (rowOfRevision rows target)) stale
    if sameCircuitBreakerSnapshot existing snapshot then .ok (.duplicate existing, rows)
    else .error stale
  else .ok (.inserted (snapshot.at target), rows ++ [(snapshot.at target).row])

/-! ## restore -/

/-- `restore_circuit_breaker_snapshot` on a present payload -/
def restoreCircuitBreakerSnapshot (codec : SnapshotCodec J) (payload : J) (serverNowMs : Int) :
    CircuitBreakerOutcome :=
  if serverNowMs < 0 then
    failClosedCircuitBreakerRestore (.invalidServerTime serverNowMs) serverNowMs
  else match codec.decode payload with
    | none => failClosedCircuitBreakerRestore .corruptPayload serverNowMs
    | some snapshot => restoreCircuitBreakerSnapshotV1 snapshot serverNowMs

inductive DurableCircuitBreakerRestoreDisposition where
  | restored
  | failClosedPersisted
  deriving DecidableEq

structure DurableCircuitBreakerRestore where
  outcome : CircuitBreakerOutcome
  stateRevision : Nat
  disposition : DurableCircuitBreakerRestoreDisposition
  casReloads : Nat
  deriving DecidableEq

inductive DurableCircuitBreakerRestoreError where
  | storeRead (outcome : CircuitBreakerOutcome) (source : StoreError)
  | recoveryEpochExhausted (source : CircuitBreakerRecoveryEpochExhausted)
  | snapshotEncoding (outcome : CircuitBreakerOutcome) (source : StoreError)
  | storeWrite (outcome : CircuitBreakerOutcome) (source : StoreError)
  | casReloadsExhausted (outcome : CircuitBreakerOutcome) (casReloads : Nat) (source : StoreError)
  deriving DecidableEq

/-- every error carries an outcome as well -/
def DurableCircuitBreakerRestoreError.outcome :
    DurableCircuitBreakerRestoreError → CircuitBreakerOutcome
  | .storeRead outcome _ | .snapshotEncoding outcome _ | .storeWrite outcome _
  | .casReloadsExhausted outcome _ _ => outcome
  | .recoveryEpochExhausted source => source.outcome

abbrev RestoreResult :=
  Except DurableCircuitBreakerRestoreError DurableCircuitBreakerRestore

def durableRestoreFailure (outcome : CircuitBreakerOutcome) :
    Option CircuitBreakerRestoreFailure :=
  match outcome.error with
  | some (.durableRestoreFailed failure) => some failure
  | _ => none

def failClosedAfterEpoch (failure : CircuitBreakerRestoreFailure) (serverNowMs : Int)
    (lastRecoveryEpoch : Nat) : Except DurableCircuitBreakerRestoreError CircuitBreakerOutcome :=
  (failClosedCircuitBreakerRestoreAfterEpoch failure serverNowMs lastRecoveryEpoch).mapError
    .recoveryEpochExhausted

def statusName : CircuitBreakerStatus → String
  | .closed => "CLOSED"
  | .open => "OPEN"
  | .halfOpen => "HALF_OPEN"

def encodeSnapshot (codec : SnapshotCodec J) (outcome : CircuitBreakerOutcome)
    (expectedHeadRevision : Option Nat) (serverNowMs : Int) :
    Except DurableCircuitBreakerRestoreError (NewCircuitBreakerSnapshot J) := do
  let snapshot := outcome.state.durableSnapshotV1
  let payload ← (codec.encode snapshot).mapError (.snapshotEncoding outcome)
  return { expectedHeadRevision
           schemaVersion := snapshot.schemaVersion
           status := statusName snapshot.status
           recoveryEpoch := snapshot.recoveryEpoch
           updatedAt := max serverNowMs 0
           payload }

/-! ## one call, from one store operation to the next -/

/-- where a call of the restore stands: in front of one of its three store operations, or done -/
inductive RestorePhase (J : Type) where
  | readHead
  | readLatest (head : Option CircuitBreakerHeadMetadata)
  | write (outcome : CircuitBreakerOutcome) (snapshot : NewCircuitBreakerSnapshot J)
  | done (result : RestoreResult)
  deriving DecidableEq

structure RestoreCall (J : Type) where
  serverNowMs : Int
  maxCasReloads : Nat
  casReloads : Nat
  /-- how often `write_circuit_breaker_snapshot` has been called -/
  writes : Nat
  phase : RestorePhase J
  deriving DecidableEq

/-- `restore_durable_circuit_breaker_with_cas_reloads` on entry -/
def RestoreCall.start (serverNowMs : Int) (maxCasReloads : Nat) : RestoreCall J where
  serverNowMs := serverNowMs
  maxCasReloads := maxCasReloads
  casReloads := 0
  writes := 0
  phase := .readHead

/-- a store read that failed: the breaker is OPEN after the last epoch known -/
def failedRead (serverNowMs : Int) (lastRecoveryEpoch : Nat) (source : StoreError) :
    RestoreResult := do
  let outcome ← failClosedAfterEpoch .storeUnavailable serverNowMs lastRecoveryEpoch
  .error (.storeRead outcome source)

def RestoreCall.afterHead (c : RestoreCall J)
    (read : StoreCheck (Option CircuitBreakerHeadMetadata)) : RestorePhase J :=
  match read with
  | .ok head => .readLatest head
  | .error source => .done (failedRead c.serverNowMs 0 source)

/-- what the snapshot that was read allows: the state itself, or a failure and the head it is after -/
def effectiveHead (codec : SnapshotCodec J) (head : Option CircuitBreakerHeadMetadata)
    (latest : Option (StoredCircuitBreakerSnapshot J)) (serverNowMs : Int) :
    Sum (CircuitBreakerOutcome × Nat)
      (Option CircuitBreakerHeadMetadata × CircuitBreakerRestoreFailure) :=
  match latest with
  | some snapshot =>
    if head.any (fun head => decide (head.stateRevision > snapshot.stateRevision)) then
      .inr (head, .corruptPayload)
    else
      let outcome := restoreCircuitBreakerSnapshot codec snapshot.payload serverNowMs
      match durableRestoreFailure outcome with
      | some failure => .inr
          (some { stateRevision := snapshot.stateRevision
                  recoveryEpoch := snapshot.recoveryEpoch }, failure)
      | none => .inl (outcome, snapshot.stateRevision)
  | none => .inr (head, if head.isNone then .missingSnapshot else .corruptPayload)

/-- the incident after `head`, ready to be written -/
def prepareWrite (codec : SnapshotCodec J) (head : Option CircuitBreakerHeadMetadata)
    (failure : CircuitBreakerRestoreFailure) (serverNowMs : Int) :
    Except DurableCircuitBreakerRestoreError
      (CircuitBreakerOutcome × NewCircuitBreakerSnapshot J) := do
  let outcome ← failClosedAfterEpoch failure serverNowMs
    (head.elim 0 CircuitBreakerHeadMetadata.recoveryEpoch)
  let snapshot ← encodeSnapshot codec outcome
    (head.map CircuitBreakerHeadMetadata.stateRevision) serverNowMs
  return (outcome, snapshot)

/-- the loop body between the second read and the write -/
def RestoreCall.settle (c : RestoreCall J) (codec : SnapshotCodec J)
    (head : Option CircuitBreakerHeadMetadata)
    (latest : Option (StoredCircuitBreakerSnapshot J)) : RestorePhase J :=
  match effectiveHead codec head latest c.serverNowMs with
  | .inl (outcome, stateRevision) =>
    .done (.ok { outcome, stateRevision, disposition := .restored, casReloads := c.casReloads })
  | .inr (head, failure) =>
    match prepareWrite codec head failure c.serverNowMs with
    | .ok (outcome, snapshot) => .write outcome snapshot
    | .error e => .done (.error e)

def RestoreCall.afterLatest (c : RestoreCall J) (codec : SnapshotCodec J)
    (head : Option CircuitBreakerHeadMetadata)
    (read : StoreCheck (Option (StoredCircuitBreakerSnapshot J))) : RestorePhase J :=
  match read with
  | .ok latest => c.settle codec head latest
  | .error (.corruptData _ _ _) => c.settle codec head none
  | .error source =>
    .done (failedRead c.serverNowMs (head.elim 0 CircuitBreakerHeadMetadata.recoveryEpoch) source)

def RestoreCall.afterWrite (c : RestoreCall J) (outcome : CircuitBreakerOutcome)
    (write : StoreCheck (WriteOutcome (StoredCircuitBreakerSnapshot J))) : RestoreCall J :=
  let c := { c with writes := c.writes + 1 }
  match write with
  | .ok written =>
    { c with phase := .done (.ok
        { outcome
          stateRevision := written.record.stateRevision
          disposition := .failClosedPersisted
          casReloads := c.casReloads }) }
  | .error (.staleWrite entity key) =>
    if c.casReloads < c.maxCasReloads then
      { c with casReloads := c.casReloads + 1, phase := .readHead }
    else
      { c with phase := .done (.error
          (.casReloadsExhausted outcome c.casReloads (.staleWrite entity key))) }
  | .error source => { c with phase := .done (.error (.storeWrite outcome source)) }

end Sinan.Breaker
