import Sinan.Lib.Upsert
import Sinan.Reconciliation.Evaluation
import Sinan.Store.Graph

/-!
# Projections: the durable facts and the latest tables

Every fact is a row of `core_events`; the latest tables are computed from these rows.  A snapshot
replaces the row of its key if it was observed later; an equal observation must be the same document.
The position and order tables also answer to the account's last full set: nothing that is not later
than the set may enter them beside it.

A payload is held decoded, and a column that repeats a field of the payload is read from it.  `D` is
the type of the SHA-256 digests, texts of 64 lower-case hex digits.
-/

namespace Sinan.Projection

open Lib Store Reconciliation

structure MarketBar (F : Type) where
  symbol : SymbolCode
  timeframe : TimeframeCode
  timestamp : Int
  openPrice : F
  high : F
  low : F
  close : F
  volume : F
  deriving DecidableEq

/-! ## the facts -/

inductive ProjectionError where
  | store (source : StoreError)
  | observationConflict (entity key : String) (observedAt : Int)
  deriving DecidableEq

abbrev ProjectionCheck := Except ProjectionError

def identityConflict (entity key : String) : ProjectionError := .store (.identityConflict entity key)

def corrupt (entity key reason : String) : ProjectionError := .store (.corruptData entity key reason)

structure CoreEventMetadata where
  eventId : String
  eventType : String
  aggregateType : String
  aggregateId : String
  messageId : Option MessageId
  schemaVersion : String
  correlationId : Option CorrelationId
  causationId : Option CausationId
  accountId : Option AccountId
  clientId : Option ClientId
  terminalId : Option TerminalId
  strategyId : Option StrategyId
  intentId : Option IntentId
  planId : Option PlanId
  legId : Option LegId
  commandId : Option CommandId
  idempotencyKey : Option IdempotencyKey
  eventAt : Int
  receivedAt : Int
  createdAt : Int
  source : String
  deriving DecidableEq

inductive DurableProjection (F : Type) where
  | account (value : AccountSnapshot F)
  | symbol (value : SymbolMetadataSnapshot F)
  | position (value : PositionSnapshot F)
  | order (value : OrderSnapshot F)
  | marketBar (value : MarketBar F)
  deriving DecidableEq

/-- the documents of `core_events` that the projections deal with -/
inductive EventPayload (F : Type) where
  | fact (value : DurableProjection F)
  | request (value : ReconciliationRequest)
  | result (value : ReconciliationResult F)
  deriving DecidableEq

structure StoredCoreEvent (F : Type) where
  metadata : CoreEventMetadata
  payload : EventPayload F
  deriving DecidableEq

def DurableProjection.eventType {F : Type} : DurableProjection F → String
  | .account _ => "account.snapshot"
  | .symbol _ => "symbol.metadata"
  | .position _ => "position.snapshot"
  | .order _ => "order.snapshot"
  | .marketBar _ => "market.bar"

def EventPayload.eventType {F : Type} : EventPayload F → String
  | .fact value => value.eventType
  | .request _ => "reconciliation.request"
  | .result _ => "reconciliation.result"

/-- the account that the payload itself names -/
def DurableProjection.accountId {F : Type} : DurableProjection F → Option AccountId
  | .account value => some value.accountId
  | .symbol value => some value.accountId
  | .position value => some value.accountId
  | .order value => some value.accountId
  | .marketBar _ => none

/-- `core_events`, with its unique index on the message id -/
abbrev EventTable (F : Type) :=
  Table (fun e : StoredCoreEvent F => e.metadata.eventId) fun e => e.metadata.messageId

section
variable {F : Type} [DecidableEq F]

/-- the same event in everything but the times the server gave it -/
def sameCoreEventFact (existing incoming : StoredCoreEvent F) : Bool :=
  decide (existing.payload = incoming.payload ∧
    { existing.metadata with
      receivedAt := incoming.metadata.receivedAt
      createdAt := incoming.metadata.createdAt } = incoming.metadata)

def fetchCoreEventConflicts (events : EventTable F) (event : StoredCoreEvent F) :
    List (StoredCoreEvent F) :=
  events.rows.filter fun existing =>
    existing.metadata.eventId == event.metadata.eventId ||
      (event.metadata.messageId.isSome && existing.metadata.messageId == event.metadata.messageId)

def coreEventConflictKey (event : StoredCoreEvent F) : String :=
  match event.metadata.messageId with
  | some messageId => "event_id=" ++ event.metadata.eventId ++ " or message_id=" ++ messageId
  | none => "event_id=" ++ event.metadata.eventId

def appendCoreEvent (events : EventTable F) (event : StoredCoreEvent F) :
    ProjectionCheck (EventTable F × WriteOutcome (StoredCoreEvent F)) :=
  match events.insert event with
  | some inserted => .ok (inserted, .inserted event)
  | none =>
    match fetchCoreEventConflicts events event with
    | [existing] =>
      if sameCoreEventFact existing event then .ok (events, .duplicate existing)
      else .error (identityConflict "core_event" (coreEventConflictKey event))
    | _ => .error (identityConflict "core_event" (coreEventConflictKey event))

end

def requireEventAccount (metadata : CoreEventMetadata) : ProjectionCheck AccountId :=
  need metadata.accountId (identityConflict "core_event.account_id" metadata.eventId)

def validateAccountIdentity (metadata : CoreEventMetadata) (payloadAccountId : AccountId) :
    ProjectionCheck Unit := do
  let eventAccountId ← requireEventAccount metadata
  reject (eventAccountId ≠ payloadAccountId) (identityConflict "account_id" metadata.eventId)

def validateIdentity {F : Type} (value : DurableProjection F) (metadata : CoreEventMetadata) :
    ProjectionCheck Unit := do
  reject (metadata.eventType ≠ value.eventType) (identityConflict "core_event" metadata.eventId)
  match value.accountId with
  | some accountId => validateAccountIdentity metadata accountId
  | none => do
    let _ ← requireEventAccount metadata
    return ()

/-! ## the latest tables -/

inductive ApplyDecision where
  | applied
  | ignoredOlder
  | unchanged
  deriving DecidableEq

structure LatestRow (S : Type) where
  payload : S
  updatedAt : Int
  deriving DecidableEq

/-- a member of the last full set of the account -/
structure MemberRow (S : Type) where
  accountId : AccountId
  setObservedAt : Int
  payload : S
  deriving DecidableEq

structure AccountReconciliationCheckpoint (D : Type) where
  accountId : AccountId
  sourceRequestId : RequestId
  resultObservedAt : Int
  accountRefreshedAt : Option Int
  positionsObservedAt : Int
  positionsSetHash : D
  ordersObservedAt : Int
  ordersSetHash : D
  symbolMetadataRefreshedAt : Option Int
  pendingCommandsReconciledAt : Option Int
  updatedAt : Int
  deriving DecidableEq

structure BarRow (F : Type) where
  accountId : AccountId
  payload : MarketBar F
  receivedAt : Int
  deriving DecidableEq

section
variable {F D K S : Type}

def accountKey (snapshot : AccountSnapshot F) : AccountId := snapshot.accountId

def symbolKey (snapshot : SymbolMetadataSnapshot F) : AccountId × String :=
  (snapshot.accountId, snapshot.brokerSymbol)

def positionKey (snapshot : PositionSnapshot F) : AccountId × PositionId :=
  (snapshot.accountId, snapshot.positionId)

def orderKey (snapshot : OrderSnapshot F) : AccountId × BrokerOrderId :=
  (snapshot.accountId, snapshot.brokerOrderId)

def barKey (row : BarRow F) : AccountId × SymbolCode × TimeframeCode × Int :=
  (row.accountId, row.payload.symbol, row.payload.timeframe, row.payload.timestamp)

def pairText (key : AccountId × String) : String := key.1 ++ ":" ++ key.2

abbrev LatestTable (key : S → K) := Keyed fun row : LatestRow S => key row.payload

abbrev MemberTable (key : S → AccountId × String) :=
  Keyed fun row : MemberRow S => (row.accountId, (key row.payload).2)

structure SetTables (key : S → AccountId × String) where
  latest : LatestTable key
  members : MemberTable key
  deriving DecidableEq

end

structure Projections (F D : Type) where
  accounts : LatestTable (accountKey (F := F))
  symbols : LatestTable (symbolKey (F := F))
  positions : SetTables (positionKey (F := F))
  orders : SetTables (orderKey (F := F))
  checkpoints : Keyed (AccountReconciliationCheckpoint.accountId (D := D))
  bars : Keyed (barKey (F := F))
  deriving DecidableEq

/-- `CanonicalJson::sha256_hex` of the documents that the store compares by their digests -/
structure Digests (F D : Type) where
  account : AccountSnapshot F → D
  symbol : SymbolMetadataSnapshot F → D
  position : PositionSnapshot F → D
  order : OrderSnapshot F → D
  bar : MarketBar F → D
  positions : List (PositionSnapshot F) → D
  orders : List (OrderSnapshot F) → D

/-- how the store names, keys and dates the snapshots of one latest table -/
structure LatestKind (D : Type) {K S : Type} (key : S → K) where
  entity : String
  keyText : S → String
  observedAt : S → Int
  digest : S → D

/-- a latest table that full sets replace, too; its names are built on `noun` -/
structure SetKind (D : Type) {S : Type} (key : S → AccountId × String) extends LatestKind D key where
  noun : String
  setDigest : List S → D
  watermark : AccountReconciliationCheckpoint D → Int
  setHash : AccountReconciliationCheckpoint D → D

section
variable {F D : Type}

def accountKind (digests : Digests F D) : LatestKind D (accountKey (F := F)) where
  entity := "account_snapshot"
  keyText := accountKey
  observedAt := AccountSnapshot.observedAt
  digest := digests.account

def symbolKind (digests : Digests F D) : LatestKind D (symbolKey (F := F)) where
  entity := "symbol_metadata"
  keyText snapshot := pairText (symbolKey snapshot)
  observedAt := SymbolMetadataSnapshot.observedAt
  digest := digests.symbol

def positionKind (digests : Digests F D) : SetKind D (positionKey (F := F)) where
  entity := "position_snapshot"
  keyText snapshot := pairText (positionKey snapshot)
  observedAt := PositionSnapshot.observedAt
  digest := digests.position
  noun := "position"
  setDigest := digests.positions
  watermark := AccountReconciliationCheckpoint.positionsObservedAt
  setHash := AccountReconciliationCheckpoint.positionsSetHash

def orderKind (digests : Digests F D) : SetKind D (orderKey (F := F)) where
  entity := "order_snapshot"
  keyText snapshot := pairText (orderKey snapshot)
  observedAt := OrderSnapshot.observedAt
  digest := digests.order
  noun := "order"
  setDigest := digests.orders
  watermark := AccountReconciliationCheckpoint.ordersObservedAt
  setHash := AccountReconciliationCheckpoint.ordersSetHash

end

/-! ## the writes -/

section
variable {D K S : Type} [DecidableEq D] [DecidableEq K]

def classifyLatest (entity key : String) (incomingObservedAt : Int) (incomingHash : D)
    (existing : Option (Int × D)) : ProjectionCheck ApplyDecision :=
  match existing with
  | none => .ok .applied
  | some (existingObservedAt, existingHash) =>
    if existingObservedAt < incomingObservedAt then .ok .applied
    else if incomingObservedAt < existingObservedAt then .ok .ignoredOlder
    else if incomingHash = existingHash then .ok .unchanged
    else .error (.observationConflict entity key incomingObservedAt)

/-- `apply_account` and its siblings, behind the full-set check of the latter two -/
def applyLatest {key : S → K} (kind : LatestKind D key) (table : LatestTable key) (snapshot : S)
    (updatedAt : Int) : ProjectionCheck (LatestTable key × ApplyDecision) := do
  let decision ← classifyLatest kind.entity (kind.keyText snapshot) (kind.observedAt snapshot)
    (kind.digest snapshot) ((table.get (key snapshot)).map fun row =>
      (kind.observedAt row.payload, kind.digest row.payload))
  return (if decision = .applied then table.replace ⟨snapshot, updatedAt⟩ else table, decision)

def classifyFullSetMember {key : S → AccountId × String} (kind : SetKind D key)
    (members : MemberTable key) (snapshot : S) (watermark : Option Int) :
    ProjectionCheck (Option ApplyDecision) :=
  match watermark with
  | none => .ok none
  | some watermark =>
    if kind.observedAt snapshot < watermark then .ok (some .ignoredOlder)
    else if watermark < kind.observedAt snapshot then .ok none
    else
      match (members.get (key snapshot)).filter fun row => row.setObservedAt == watermark with
      | some row =>
        if kind.digest row.payload = kind.digest snapshot then .ok (some .unchanged)
        else .error (.observationConflict kind.entity (kind.keyText snapshot)
          (kind.observedAt snapshot))
      | none => .error (.observationConflict kind.entity (kind.keyText snapshot)
          (kind.observedAt snapshot))

/-- `apply_position`, `apply_order`; `checkpoint` is the row of the snapshot's account -/
def applyMember {key : S → AccountId × String} (kind : SetKind D key)
    (checkpoint : Option (AccountReconciliationCheckpoint D)) (tables : SetTables key) (snapshot : S)
    (updatedAt : Int) : ProjectionCheck (SetTables key × ApplyDecision) := do
  let behind ← classifyFullSetMember kind tables.members snapshot (checkpoint.map kind.watermark)
  match behind with
  | some decision => return (tables, decision)
  | none => do
    let (latest, decision) ← applyLatest kind.toLatestKind tables.latest snapshot updatedAt
    return ({ tables with latest := latest }, decision)

end

section
variable {F D : Type} [DecidableEq D]

def barText (row : BarRow F) : String :=
  row.accountId ++ ":" ++ row.payload.symbol ++ ":" ++ row.payload.timeframe ++ ":" ++
    toString row.payload.timestamp

def applyMarketBar (digests : Digests F D) (bars : Keyed (barKey (F := F))) (row : BarRow F) :
    ProjectionCheck (Keyed (barKey (F := F)) × ApplyDecision) :=
  match bars.get (barKey row) with
  | none => do
    let bars ← need (bars.insert row) (.store .database)
    return (bars, .applied)
  | some existing =>
    if digests.bar existing.payload = digests.bar row.payload then .ok (bars, .unchanged)
    else .error (.observationConflict "market_bar" (barText row) row.payload.timestamp)

/-- `DurableProjection::apply` -/
def applyProjection (digests : Digests F D) (p : Projections F D) (value : DurableProjection F)
    (metadata : CoreEventMetadata) : ProjectionCheck (Projections F D × ApplyDecision) :=
  match value with
  | .account value => do
    let (accounts, decision) ←
      applyLatest (accountKind digests) p.accounts value metadata.receivedAt
    return ({ p with accounts := accounts }, decision)
  | .symbol value => do
    let (symbols, decision) ← applyLatest (symbolKind digests) p.symbols value metadata.receivedAt
    return ({ p with symbols := symbols }, decision)
  | .position value => do
    let (positions, decision) ← applyMember (positionKind digests) (p.checkpoints.get value.accountId)
      p.positions value metadata.receivedAt
    return ({ p with positions := positions }, decision)
  | .order value => do
    let (orders, decision) ← applyMember (orderKind digests) (p.checkpoints.get value.accountId)
      p.orders value metadata.receivedAt
    return ({ p with orders := orders }, decision)
  | .marketBar value => do
    let accountId ← requireEventAccount metadata
    let (bars, decision) ← applyMarketBar digests p.bars ⟨accountId, value, metadata.receivedAt⟩
    return ({ p with bars := bars }, decision)

end

end Sinan.Projection
