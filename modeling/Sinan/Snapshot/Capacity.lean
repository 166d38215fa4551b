import Sinan.Projection.Rebuild

/-!
# Risk capacity

A capacity of an account and a strategy is a fact under its time, and the latest one is kept beside the
facts.  Both tables are read through the checks that were made before the write.  The columns of a row
repeat fields of its payload, and are read from there.
-/

set_option linter.unusedSectionVars false

namespace Sinan.Snapshot

open Lib Store Projection

structure NewRiskCapacitySnapshot (F : Type) where
  capacity : RiskCapacity F
  recordedAt : Int
  deriving DecidableEq

/-- a row of either table -/
structure StoredRiskCapacitySnapshot (F : Type) where
  capacity : RiskCapacity F
  recordedAt : Int
  deriving DecidableEq

def capacityKey (accountId : AccountId) (strategyId : StrategyId) : String :=
  accountId ++ ":" ++ strategyId

def factKey {F : Type} (row : StoredRiskCapacitySnapshot F) : AccountId × StrategyId × Int :=
  (row.capacity.accountId, row.capacity.strategyId, row.capacity.observedAt)

def latestKey {F : Type} (row : StoredRiskCapacitySnapshot F) : AccountId × StrategyId :=
  (row.capacity.accountId, row.capacity.strategyId)

abbrev LatestCapacities (F : Type) := Keyed (latestKey (F := F))

/-- `risk_capacity_snapshots` and `risk_capacity_snapshots_latest` -/
structure CapacityTables (F : Type) where
  facts : Keyed (factKey (F := F))
  latest : LatestCapacities F

section
variable {F : Type} [F64 F]

def validateCapacity (capacity : RiskCapacity F) (recordedAt : Int) : StoreCheck Unit := do
  let invalid := StoreError.invalidRecord "risk_capacity_snapshot"
    (capacityKey capacity.accountId capacity.strategyId)
  reject (blank capacity.accountId = true ∨ blank capacity.strategyId = true)
    (invalid "account_id and strategy_id must not be empty")
  reject (capacity.observedAt < 0 ∨ recordedAt < capacity.observedAt)
    (invalid "observed_at must be non-negative and not exceed recorded_at")
  each [("daily_realized_loss_pct", capacity.dailyRealizedLossPct),
      ("equity_drawdown_pct", capacity.equityDrawdownPct),
      ("remaining_account_risk_pct", capacity.remainingAccountRiskPct),
      ("remaining_portfolio_risk_pct", capacity.remainingPortfolioRiskPct)] fun field =>
    reject (F64.isFinite field.2 = false ∨ F64.lt field.2 F64.zero = true)
      (invalid (field.1 ++ " must be finite and non-negative"))

/-- the text of a refused record as the reason of a corrupt one -/
def corruptCapacity (entity key : String) : StoreError → ProjectionError
  | .invalidRecord invalid record reason =>
    corrupt entity key ("invalid " ++ invalid ++ " record " ++ record ++ ": " ++ reason)
  | other => .store other

def decodeCapacityRow (entity : String) (row : StoredRiskCapacitySnapshot F) :
    ProjectionCheck (StoredRiskCapacitySnapshot F) := do
  (validateCapacity row.capacity row.recordedAt).mapError
    (corruptCapacity entity (capacityKey row.capacity.accountId row.capacity.strategyId))
  return row

def decodeFound (entity : String) :
    Option (StoredRiskCapacitySnapshot F) → ProjectionCheck (Option (StoredRiskCapacitySnapshot F))
  | none => .ok none
  | some row => (decodeCapacityRow entity row).map some

/-- `fetch_latest_risk_capacity_snapshot_on` -/
def fetchLatestRiskCapacitySnapshot (latest : LatestCapacities F) (accountId : AccountId)
    (strategyId : StrategyId) : ProjectionCheck (Option (StoredRiskCapacitySnapshot F)) :=
  decodeFound "risk_capacity_snapshot_latest" (latest.get (accountId, strategyId))

/-- `fetch_risk_capacity_fact_on` -/
def fetchRiskCapacityFact (t : CapacityTables F) (accountId : AccountId) (strategyId : StrategyId)
    (observedAt : Int) : ProjectionCheck (Option (StoredRiskCapacitySnapshot F)) :=
  decodeFound "risk_capacity_snapshot" (t.facts.get (accountId, strategyId, observedAt))

/-- `ON CONFLICT … DO UPDATE … WHERE excluded.observed_at > observed_at` -/
def putLatest (latest : LatestCapacities F) (row : StoredRiskCapacitySnapshot F) :
    LatestCapacities F :=
  if (latest.get (latestKey row)).all fun existing =>
      decide (existing.capacity.observedAt < row.capacity.observedAt) then
    latest.replace row
  else latest

def ensureLatestProjection (latest : LatestCapacities F) (fact : StoredRiskCapacitySnapshot F) :
    ProjectionCheck (LatestCapacities F) := do
  let found ← fetchLatestRiskCapacitySnapshot latest fact.capacity.accountId
    fact.capacity.strategyId
  return if found.any fun row => decide (row.capacity.observedAt ≥ fact.capacity.observedAt) then latest
    else putLatest latest fact

variable [DecidableEq F]

def capacityConflict (capacity : RiskCapacity F) : ProjectionError :=
  .observationConflict "risk_capacity_snapshot" (capacityKey capacity.accountId capacity.strategyId)
    capacity.observedAt

/-- what a new fact does to the latest row -/
def capacityOutcome (capacity : RiskCapacity F) :
    Option (StoredRiskCapacitySnapshot F) → ProjectionCheck ProjectionWriteOutcome
  | none => .ok .applied
  | some existing =>
    if existing.capacity.observedAt < capacity.observedAt then .ok .applied
    else if existing.capacity.observedAt > capacity.observedAt then
      .ok .factAppendedProjectionIgnored
    else if existing.capacity = capacity then .ok .factAppendedProjectionUnchanged
    else .error (capacityConflict capacity)

/-- `record_risk_capacity_snapshot_on` -/
def recordRiskCapacitySnapshot (t : CapacityTables F) (snapshot : NewRiskCapacitySnapshot F) :
    ProjectionCheck (CapacityTables F × ProjectionWriteOutcome) := do
  let capacity := snapshot.capacity
  let row : StoredRiskCapacitySnapshot F := ⟨capacity, snapshot.recordedAt⟩
  (validateCapacity capacity snapshot.recordedAt).mapError .store
  match t.facts.insert row with
  | none => do
    let found ← fetchRiskCapacityFact t capacity.accountId capacity.strategyId capacity.observedAt
    let existing ← need found (corrupt "risk_capacity_snapshot"
      (capacityKey capacity.accountId capacity.strategyId) "conflicting fact disappeared")
    reject (existing.capacity ≠ capacity ∨ existing.recordedAt ≠ snapshot.recordedAt)
      (capacityConflict capacity)
    let latest ← ensureLatestProjection t.latest existing
    return ({ t with latest }, .duplicate)
  | some facts => do
    let found ← fetchLatestRiskCapacitySnapshot t.latest capacity.accountId capacity.strategyId
    let outcome ← capacityOutcome capacity found
    return ({ facts, latest := if outcome = .applied then putLatest t.latest row else t.latest },
      outcome)

/-! ## the latest rows are readable -/

/-- every latest row passes the checks of its reader -/
def CapacitiesValid (latest : LatestCapacities F) : Prop :=
  ∀ row ∈ latest.rows, validateCapacity row.capacity row.recordedAt = .ok ()

variable {latest : LatestCapacities F} {t t' : CapacityTables F}
  {row : StoredRiskCapacitySnapshot F}

theorem decodeCapacityRow_ok {entity : String} {stored : StoredRiskCapacitySnapshot F} :
    decodeCapacityRow entity row = .ok stored ↔
      validateCapacity row.capacity row.recordedAt = .ok () ∧ stored = row := by
  simp only [decodeCapacityRow, bind_ok, exists_unit, mapError_ok, pure_ok]
  exact and_congr_right fun _ => eq_comm

theorem decodeFound_ok {entity : String} {found stored : Option (StoredRiskCapacitySnapshot F)} :
    decodeFound entity found = .ok stored ↔
      (∀ r, found = some r → validateCapacity r.capacity r.recordedAt = .ok ()) ∧ stored = found := by
  cases found with
  | none =>
    constructor
    · intro h
      cases h
      exact ⟨fun r hr => (nomatch hr), rfl⟩
    · rintro ⟨-, rfl⟩
      rfl
  | some r =>
    show (decodeCapacityRow entity r).map some = .ok stored ↔ _
    cases hdecode : decodeCapacityRow entity r with
    | error e =>
      constructor
      · intro h
        cases h
      · rintro ⟨hvalid, -⟩
        rw [decodeCapacityRow_ok.mpr ⟨hvalid r rfl, rfl⟩] at hdecode
        cases hdecode
    | ok s =>
      obtain ⟨hvalid, rfl⟩ := decodeCapacityRow_ok.mp hdecode
      constructor
      · intro h
        cases h
        exact ⟨fun r hr => Option.some.inj hr ▸ hvalid, rfl⟩
      · rintro ⟨-, rfl⟩
        rfl

theorem CapacitiesValid.put (h : CapacitiesValid latest)
    (hrow : validateCapacity row.capacity row.recordedAt = .ok ()) :
    CapacitiesValid (putLatest latest row) := by
  unfold putLatest
  split_ifs with hlater
  · intro r hr
    rcases Table.mem_replace.mp hr with ⟨hold, -⟩ | rfl
    · exact h r hold
    · exact hrow
  · exact h

theorem CapacitiesValid.record (h : CapacitiesValid t.latest) {snapshot : NewRiskCapacitySnapshot F}
    {outcome : ProjectionWriteOutcome}
    (hok : recordRiskCapacitySnapshot t snapshot = .ok (t', outcome)) : CapacitiesValid t'.latest := by
  unfold recordRiskCapacitySnapshot at hok
  obtain ⟨_, hvalid, hok⟩ := bind_ok.mp hok
  have hvalid := mapError_ok.mp hvalid
  cases hinsert : t.facts.insert ⟨snapshot.capacity, snapshot.recordedAt⟩ with
  | none =>
    simp only [hinsert, bind_ok, need_ok, reject_ok, exists_unit, pure_ok, Prod.mk.injEq] at hok
    obtain ⟨_, hfound, existing, rfl, -, latest, hensure, rfl, -⟩ := hok
    -- the fact was read through its own check
    have hexisting := (decodeFound_ok.mp hfound).1 existing (decodeFound_ok.mp hfound).2.symm
    simp only [ensureLatestProjection, bind_ok, pure_ok] at hensure
    obtain ⟨found, -, rfl⟩ := hensure
    show CapacitiesValid (if _ then t.latest else putLatest t.latest existing)
    split_ifs with hnewer
    · exact h
    · exact h.put hexisting
  | some facts =>
    simp only [hinsert, bind_ok, pure_ok, Prod.mk.injEq] at hok
    obtain ⟨_, -, _, -, rfl, -⟩ := hok
    show CapacitiesValid (if _ then putLatest t.latest _ else t.latest)
    split_ifs with happlied
    · exact h.put hvalid
    · exact h

theorem CapacitiesValid.fetch (h : CapacitiesValid latest) (accountId : AccountId)
    (strategyId : StrategyId) : fetchLatestRiskCapacitySnapshot latest accountId strategyId =
      .ok (latest.get (accountId, strategyId)) := by
  refine decodeFound_ok.mpr ⟨fun r hr => ?_, rfl⟩
  exact h r (Table.get_eq_some.mp hr).1

end

end Sinan.Snapshot
