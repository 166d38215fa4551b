import Sinan.Projection.Readback

/-!
# Projections: one more event

`applyProjection` and `applyResult` take the state that some events call for to the one that one more
event calls for.  They refuse it in one case only, which the check of the durable facts leaves open: an
account or symbol snapshot that contradicts the one the table shows.
-/

set_option linter.unusedSectionVars false

namespace Sinan.Projection

open Lib Store Reconciliation

variable {F D : Type} [DecidableEq F] [DecidableEq D] {digests : Digests F D}

/-- no account or symbol snapshot of the document contradicts one that the events brought last -/
structure Undisputed (events : List (StoredCoreEvent F)) (payload : EventPayload F) : Prop where
  accounts : ∀ s ∈ payload.accounts,
    Uncontested accountKey AccountSnapshot.observedAt (accountObservations events) s
  symbols : ∀ s ∈ payload.symbols,
    Uncontested symbolKey SymbolMetadataSnapshot.observedAt (symbolObservations events) s

/-- of the account and symbol snapshots that contradict each other, none is the last one -/
structure DecidedEvents (events : List (StoredCoreEvent F)) : Prop where
  accounts : Decided accountKey AccountSnapshot.observedAt (accountObservations events)
  symbols : Decided symbolKey SymbolMetadataSnapshot.observedAt (symbolObservations events)

section
variable {events : List (StoredCoreEvent F)} {metadata : CoreEventMetadata} {payload : EventPayload F}

theorem accountObservations_same (h : payload.accounts = []) :
    accountObservations (events ++ [⟨metadata, payload⟩]) = accountObservations events := by
  rw [accountObservations_append]
  exact union_none fun s hs => by rw [Set.mem_ofPred_eq, h] at hs; cases hs

theorem symbolObservations_same (h : payload.symbols = []) :
    symbolObservations (events ++ [⟨metadata, payload⟩]) = symbolObservations events := by
  rw [symbolObservations_append]
  exact union_none fun s hs => by rw [Set.mem_ofPred_eq, h] at hs; cases hs

theorem positionFacts_same (h : ∀ s, payload ≠ .fact (.position s)) :
    positionFacts (events ++ [⟨metadata, payload⟩]) = positionFacts events := by
  rw [positionFacts_append]
  exact union_none h

theorem orderFacts_same (h : ∀ s, payload ≠ .fact (.order s)) :
    orderFacts (events ++ [⟨metadata, payload⟩]) = orderFacts events := by
  rw [orderFacts_append]
  exact union_none h

theorem resultFacts_same (h : ∀ r, payload ≠ .result r) :
    resultFacts (events ++ [⟨metadata, payload⟩]) = resultFacts events := by
  rw [resultFacts_append]
  exact union_none h

theorem positionFacts_insert (snapshot : PositionSnapshot F) :
    positionFacts (events ++ [⟨metadata, .fact (.position snapshot)⟩]) =
      insert snapshot (positionFacts events) := by
  rw [positionFacts_append]
  exact union_one fun s => ⟨fun h => by cases h; rfl, fun h => by rw [h]; rfl⟩

theorem orderFacts_insert (snapshot : OrderSnapshot F) :
    orderFacts (events ++ [⟨metadata, .fact (.order snapshot)⟩]) =
      insert snapshot (orderFacts events) := by
  rw [orderFacts_append]
  exact union_one fun s => ⟨fun h => by cases h; rfl, fun h => by rw [h]; rfl⟩

theorem resultFacts_insert (result : ReconciliationResult F) :
    resultFacts (events ++ [⟨metadata, .result result⟩]) = insert result (resultFacts events) := by
  rw [resultFacts_append]
  exact union_one fun r => ⟨fun h => by cases h; rfl, fun h => by rw [h]; rfl⟩

end

/-! ## a fact -/

section
variable {events : List (StoredCoreEvent F)} {results : Results F} {p p' : Projections F D}
  {metadata : CoreEventMetadata} {value : DurableProjection F} {decision : ApplyDecision}

theorem applyLatest_one {K S : Type} [DecidableEq K] {key : S → K} {kind : LatestKind D key}
    {A : Set S} {table table' : LatestTable key} {snapshot : S} {updatedAt : Int}
    (h : Shows key kind.observedAt A (shown table))
    (happly : applyLatest kind table snapshot updatedAt = .ok (table', decision)) :
    Shows key kind.observedAt (A ∪ {s | s ∈ [snapshot]}) (shown table') := by
  have hone : A ∪ {s | s ∈ [snapshot]} = insert snapshot A := union_one fun s => List.mem_singleton
  rw [hone]
  exact applyLatest_keeps h happly

theorem Projected.fact (h : Projected digests events results p)
    (hcoherent : CoherentEvents digests (events ++ [⟨metadata, .fact value⟩]))
    (happly : applyProjection digests p value metadata = .ok (p', decision)) :
    Projected digests (events ++ [⟨metadata, .fact value⟩]) results p' := by
  have hpositions := hcoherent.positions
  have horders := hcoherent.orders
  have hresults : resultFacts (events ++ [⟨metadata, .fact value⟩]) = resultFacts events :=
    resultFacts_same fun r => by rintro ⟨⟩
  rw [positionSets, hresults] at hpositions
  rw [orderSets, hresults] at horders
  cases value with
  | account snapshot =>
    simp only [applyProjection, bind_ok, pure_ok, Prod.mk.injEq, Prod.exists] at happly
    obtain ⟨accounts, _, happly, rfl, -⟩ := happly
    refine ⟨?_, ?_, ?_, ?_, h.checkpoints⟩
    · rw [accountObservations_append]
      exact applyLatest_one h.accounts happly
    · rw [symbolObservations_same rfl]
      exact h.symbols
    · rw [positionSets, hresults, positionFacts_same fun s => by rintro ⟨⟩]
      exact h.positions
    · rw [orderSets, hresults, orderFacts_same fun s => by rintro ⟨⟩]
      exact h.orders
  | symbol snapshot =>
    simp only [applyProjection, bind_ok, pure_ok, Prod.mk.injEq, Prod.exists] at happly
    obtain ⟨symbols, _, happly, rfl, -⟩ := happly
    refine ⟨?_, ?_, ?_, ?_, h.checkpoints⟩
    · rw [accountObservations_same rfl]
      exact h.accounts
    · rw [symbolObservations_append]
      exact applyLatest_one h.symbols happly
    · rw [positionSets, hresults, positionFacts_same fun s => by rintro ⟨⟩]
      exact h.positions
    · rw [orderSets, hresults, orderFacts_same fun s => by rintro ⟨⟩]
      exact h.orders
  | position snapshot =>
    rw [positionFacts_insert] at hpositions
    obtain ⟨tables, decision', hok, hshown⟩ := h.positions.fact hpositions metadata.receivedAt
    have hkey : (positionKey snapshot).1 = snapshot.accountId := rfl
    rw [hkey] at hok
    simp only [applyProjection, bind_ok, pure_ok, Prod.mk.injEq, Prod.exists] at happly
    obtain ⟨positions, _, happly, rfl, -⟩ := happly
    rw [hok] at happly
    cases happly
    refine ⟨?_, ?_, ?_, ?_, h.checkpoints⟩
    · rw [accountObservations_same rfl]
      exact h.accounts
    · rw [symbolObservations_same rfl]
      exact h.symbols
    · rw [positionSets, hresults, positionFacts_insert]
      exact hshown
    · rw [orderSets, hresults, orderFacts_same fun s => by rintro ⟨⟩]
      exact h.orders
  | order snapshot =>
    rw [orderFacts_insert] at horders
    obtain ⟨tables, decision', hok, hshown⟩ := h.orders.fact horders metadata.receivedAt
    have hkey : (orderKey snapshot).1 = snapshot.accountId := rfl
    rw [hkey] at hok
    simp only [applyProjection, bind_ok, pure_ok, Prod.mk.injEq, Prod.exists] at happly
    obtain ⟨orders, _, happly, rfl, -⟩ := happly
    rw [hok] at happly
    cases happly
    refine ⟨?_, ?_, ?_, ?_, h.checkpoints⟩
    · rw [accountObservations_same rfl]
      exact h.accounts
    · rw [symbolObservations_same rfl]
      exact h.symbols
    · rw [positionSets, hresults, positionFacts_same fun s => by rintro ⟨⟩]
      exact h.positions
    · rw [orderSets, hresults, orderFacts_insert]
      exact hshown
  | marketBar bar =>
    simp only [applyProjection, bind_ok, pure_ok, Prod.mk.injEq, Prod.exists] at happly
    obtain ⟨accountId, -, bars, _, -, rfl, -⟩ := happly
    refine ⟨?_, ?_, ?_, ?_, h.checkpoints⟩
    · rw [accountObservations_same rfl]
      exact h.accounts
    · rw [symbolObservations_same rfl]
      exact h.symbols
    · rw [positionSets, hresults, positionFacts_same fun s => by rintro ⟨⟩]
      exact h.positions
    · rw [orderSets, hresults, orderFacts_same fun s => by rintro ⟨⟩]
      exact h.orders

/-- the bar of a fact, with its account, does not contradict the one the table has -/
def BarAgrees (digests : Digests F D) (p : Projections F D) (metadata : CoreEventMetadata)
    (value : DurableProjection F) : Prop :=
  ∀ bar, value = .marketBar bar → ∃ accountId, metadata.accountId = some accountId ∧
    ∀ row, p.bars.get (barKey ⟨accountId, bar, metadata.receivedAt⟩) = some row →
      digests.bar row.payload = digests.bar bar

theorem Projected.fact_succeeds (h : Projected digests events results p)
    (hcoherent : CoherentEvents digests (events ++ [⟨metadata, .fact value⟩]))
    (hfree : Undisputed events (.fact value)) (hbar : BarAgrees digests p metadata value) :
    ∃ p' decision, applyProjection digests p value metadata = .ok (p', decision) := by
  have hpositions := hcoherent.positions
  have horders := hcoherent.orders
  have hresults : resultFacts (events ++ [⟨metadata, .fact value⟩]) = resultFacts events :=
    resultFacts_same fun r => by rintro ⟨⟩
  rw [positionSets, hresults] at hpositions
  rw [orderSets, hresults] at horders
  cases value with
  | account snapshot =>
    obtain ⟨accounts, decision, happly⟩ := applyLatest_succeeds (accountKind digests)
      h.accounts (hfree.accounts snapshot List.mem_cons_self) metadata.receivedAt
    refine ⟨{ p with accounts := accounts }, decision, ?_⟩
    simp only [applyProjection, happly]
    rfl
  | symbol snapshot =>
    obtain ⟨symbols, decision, happly⟩ := applyLatest_succeeds (symbolKind digests)
      h.symbols (hfree.symbols snapshot List.mem_cons_self) metadata.receivedAt
    refine ⟨{ p with symbols := symbols }, decision, ?_⟩
    simp only [applyProjection, happly]
    rfl
  | position snapshot =>
    rw [positionFacts_insert] at hpositions
    obtain ⟨tables, decision, hok, -⟩ := h.positions.fact hpositions metadata.receivedAt
    have hkey : (positionKey snapshot).1 = snapshot.accountId := rfl
    rw [hkey] at hok
    refine ⟨{ p with positions := tables }, decision, ?_⟩
    simp only [applyProjection, hok]
    rfl
  | order snapshot =>
    rw [orderFacts_insert] at horders
    obtain ⟨tables, decision, hok, -⟩ := h.orders.fact horders metadata.receivedAt
    have hkey : (orderKey snapshot).1 = snapshot.accountId := rfl
    rw [hkey] at hok
    refine ⟨{ p with orders := tables }, decision, ?_⟩
    simp only [applyProjection, hok]
    rfl
  | marketBar bar =>
    obtain ⟨accountId, haccount, hagree⟩ := hbar bar rfl
    obtain ⟨bars, decision, happly⟩ : ∃ bars decision, applyMarketBar digests p.bars
        ⟨accountId, bar, metadata.receivedAt⟩ = .ok (bars, decision) := by
      unfold applyMarketBar
      cases hget : p.bars.get (barKey ⟨accountId, bar, metadata.receivedAt⟩) with
      | none =>
        obtain ⟨bars, hinsert⟩ := Table.insert_free hget fun _ h => (by cases h)
        refine ⟨bars, .applied, ?_⟩
        show (need (p.bars.insert _) _ >>= _) = _
        rw [hinsert]
        rfl
      | some row => exact ⟨p.bars, .unchanged, if_pos (hagree row hget)⟩
    refine ⟨{ p with bars := bars }, decision, ?_⟩
    simp only [applyProjection, requireEventAccount, haccount]
    show (applyMarketBar digests p.bars ⟨accountId, bar, metadata.receivedAt⟩ >>= _) = _
    rw [happly]
    rfl

theorem Projected.fact_undisputed (hdist : digests.Distinct) (h : Projected digests events results p)
    (hdecided : DecidedEvents events)
    (happly : applyProjection digests p value metadata = .ok (p', decision)) :
    Undisputed events (.fact value) := by
  cases value with
  | account snapshot =>
    simp only [applyProjection, bind_ok, pure_ok, Prod.mk.injEq, Prod.exists] at happly
    obtain ⟨accounts, _, happly, -⟩ := happly
    refine ⟨fun s hs => ?_, fun s hs => absurd hs List.not_mem_nil⟩
    rw [List.mem_singleton.mp hs]
    exact applyLatest_uncontested (accountKind digests) hdist.account h.accounts
      hdecided.accounts happly
  | symbol snapshot =>
    simp only [applyProjection, bind_ok, pure_ok, Prod.mk.injEq, Prod.exists] at happly
    obtain ⟨symbols, _, happly, -⟩ := happly
    refine ⟨fun s hs => absurd hs List.not_mem_nil, fun s hs => ?_⟩
    rw [List.mem_singleton.mp hs]
    exact applyLatest_uncontested (symbolKind digests) hdist.symbol h.symbols
      hdecided.symbols happly
  | position snapshot =>
    exact ⟨fun s hs => absurd hs List.not_mem_nil, fun s hs => absurd hs List.not_mem_nil⟩
  | order snapshot =>
    exact ⟨fun s hs => absurd hs List.not_mem_nil, fun s hs => absurd hs List.not_mem_nil⟩
  | marketBar bar =>
    exact ⟨fun s hs => absurd hs List.not_mem_nil, fun s hs => absurd hs List.not_mem_nil⟩

end

/-! ## a result -/

section
variable {table : EventTable F} {runs : ReconciliationRuns F} {events : List (StoredCoreEvent F)}
  {results : Results F} {p p' : Projections F D} {metadata : CoreEventMetadata}
  {r : AppliedResult F} {updatedAt : Int}

theorem applyResultSnapshots_ok {result : ReconciliationResult F} :
    applyResultSnapshots digests p result updatedAt = .ok p' ↔
      ∃ accounts symbols,
        enterLatest (accountKind digests) p.accounts result.account.toList updatedAt = .ok accounts ∧
        enterLatest (symbolKind digests) p.symbols result.symbolMetadata updatedAt = .ok symbols ∧
        p' = { p with accounts := accounts, symbols := symbols } := by
  unfold applyResultSnapshots
  constructor
  · intro h
    obtain ⟨accounts, haccounts, h⟩ := bind_ok.mp h
    obtain ⟨symbols, hsymbols, h⟩ := bind_ok.mp h
    exact ⟨accounts, symbols, haccounts, hsymbols, (pure_ok.mp h).symm⟩
  · rintro ⟨accounts, symbols, haccounts, hsymbols, rfl⟩
    exact bind_ok.mpr ⟨accounts, haccounts, bind_ok.mpr ⟨symbols, hsymbols, rfl⟩⟩

theorem applyResult_ok
    (hfetch : fetchCheckpoint digests table runs p r.result.accountId =
      .ok (p.checkpoints.get r.result.accountId)) :
    applyResult digests table runs p r updatedAt = .ok p' ↔
      ∃ accounts symbols positions orders,
        enterLatest (accountKind digests) p.accounts r.result.account.toList updatedAt =
          .ok accounts ∧
        enterLatest (symbolKind digests) p.symbols r.result.symbolMetadata updatedAt = .ok symbols ∧
        applyFullSet (positionKind digests) (p.checkpoints.get r.result.accountId) p.positions
          r.result.accountId r.result.observedAt r.result.positions updatedAt = .ok positions ∧
        applyFullSet (orderKind digests) (p.checkpoints.get r.result.accountId) p.orders
          r.result.accountId r.result.observedAt r.result.orders updatedAt = .ok orders ∧
        p' = ⟨accounts, symbols, positions, orders, p.checkpoints.replace
          (advancedCheckpoint digests r updatedAt (p.checkpoints.get r.result.accountId)), p.bars⟩ := by
  unfold applyResult
  rw [hfetch]
  constructor
  · intro h
    obtain ⟨existing, hexisting, h⟩ := bind_ok.mp h
    cases hexisting
    obtain ⟨entered, hentered, h⟩ := bind_ok.mp h
    obtain ⟨accounts, symbols, haccounts, hsymbols, rfl⟩ := applyResultSnapshots_ok.mp hentered
    obtain ⟨positions, hpositions, h⟩ := bind_ok.mp h
    obtain ⟨orders, horders, h⟩ := bind_ok.mp h
    exact ⟨accounts, symbols, positions, orders, haccounts, hsymbols, hpositions, horders,
      (pure_ok.mp h).symm⟩
  · rintro ⟨accounts, symbols, positions, orders, haccounts, hsymbols, hpositions, horders, rfl⟩
    refine bind_ok.mpr ⟨_, rfl, bind_ok.mpr ⟨{ p with accounts := accounts, symbols := symbols },
      applyResultSnapshots_ok.mpr ⟨accounts, symbols, haccounts, hsymbols, rfl⟩,
      bind_ok.mpr ⟨positions, hpositions, bind_ok.mpr ⟨orders, horders, rfl⟩⟩⟩⟩

theorem advancedCheckpoint_account {checkpoint : Option (AccountReconciliationCheckpoint D)}
    (h : ∀ c ∈ checkpoint, c.accountId = r.result.accountId) :
    (advancedCheckpoint digests r updatedAt checkpoint).accountId = r.result.accountId := by
  cases checkpoint with
  | none => rfl
  | some c => exact h c rfl

theorem advances_of {S : Type} {key : S → AccountId × String} (kind : SetKind D key) {set : List S}
    {checkpoints : Keyed (AccountReconciliationCheckpoint.accountId (D := D))}
    (haccount : (advancedCheckpoint digests r updatedAt
      (checkpoints.get r.result.accountId)).accountId = r.result.accountId)
    (hset : ∀ checkpoint, (kind.watermark (advancedCheckpoint digests r updatedAt checkpoint),
        kind.setHash (advancedCheckpoint digests r updatedAt checkpoint)) =
      advancedSet kind checkpoint r.result.observedAt set) :
    Advances kind checkpoints.get
      (checkpoints.replace (advancedCheckpoint digests r updatedAt
        (checkpoints.get r.result.accountId))).get
      r.result.accountId r.result.observedAt set := by
  refine ⟨fun other hother => ?_, advancedCheckpoint digests r updatedAt
    (checkpoints.get r.result.accountId), ?_, hset _⟩
  · rw [Table.get_replace, haccount, if_neg (Ne.symm hother)]
  · rw [Table.get_replace, if_pos haccount]

theorem advancedCheckpoint_positions (checkpoint : Option (AccountReconciliationCheckpoint D)) :
    ((advancedCheckpoint digests r updatedAt checkpoint).positionsObservedAt,
        (advancedCheckpoint digests r updatedAt checkpoint).positionsSetHash) =
      advancedSet (positionKind digests) checkpoint r.result.observedAt r.result.positions := by
  cases checkpoint with
  | none => rfl
  | some c =>
    show ((if _ then _ else _), (if _ then _ else _)) = (if _ then _ else _)
    by_cases hlater : c.positionsObservedAt < r.result.observedAt
    · rw [if_pos hlater, if_pos hlater]
      exact (if_pos hlater).symm
    · rw [if_neg hlater, if_neg hlater]
      exact (if_neg hlater).symm

theorem advancedCheckpoint_orders (checkpoint : Option (AccountReconciliationCheckpoint D)) :
    ((advancedCheckpoint digests r updatedAt checkpoint).ordersObservedAt,
        (advancedCheckpoint digests r updatedAt checkpoint).ordersSetHash) =
      advancedSet (orderKind digests) checkpoint r.result.observedAt r.result.orders := by
  cases checkpoint with
  | none => rfl
  | some c =>
    show ((if _ then _ else _), (if _ then _ else _)) = (if _ then _ else _)
    by_cases hlater : c.ordersObservedAt < r.result.observedAt
    · rw [if_pos hlater, if_pos hlater]
      exact (if_pos hlater).symm
    · rw [if_neg hlater, if_neg hlater]
      exact (if_neg hlater).symm

theorem Projected.sets (h : Projected digests events results p)
    (hcoherent : CoherentEvents digests (events ++ [⟨metadata, .result r.result⟩]))
    (updatedAt : Int) :
    ∃ positions orders,
      applyFullSet (positionKind digests) (p.checkpoints.get r.result.accountId) p.positions
        r.result.accountId r.result.observedAt r.result.positions updatedAt = .ok positions ∧
      applyFullSet (orderKind digests) (p.checkpoints.get r.result.accountId) p.orders
        r.result.accountId r.result.observedAt r.result.orders updatedAt = .ok orders ∧
      SetShown (positionKind digests) (positionFacts (events ++ [⟨metadata, .result r.result⟩]))
        (positionSets (events ++ [⟨metadata, .result r.result⟩]))
        (p.checkpoints.replace (advancedCheckpoint digests r updatedAt
          (p.checkpoints.get r.result.accountId))).get positions ∧
      SetShown (orderKind digests) (orderFacts (events ++ [⟨metadata, .result r.result⟩]))
        (orderSets (events ++ [⟨metadata, .result r.result⟩]))
        (p.checkpoints.replace (advancedCheckpoint digests r updatedAt
          (p.checkpoints.get r.result.accountId))).get orders := by
  have hpositions := hcoherent.positions
  have horders := hcoherent.orders
  have haccount : (advancedCheckpoint digests r updatedAt
      (p.checkpoints.get r.result.accountId)).accountId = r.result.accountId :=
    advancedCheckpoint_account fun c hc => Table.key_of_get hc
  have hresults : resultFacts (events ++ [⟨metadata, .result r.result⟩]) =
      insert r.result (resultFacts events) := resultFacts_insert r.result
  have hpositionFacts : positionFacts (events ++ [⟨metadata, .result r.result⟩]) =
      positionFacts events := positionFacts_same fun s => by rintro ⟨⟩
  have horderFacts : orderFacts (events ++ [⟨metadata, .result r.result⟩]) = orderFacts events :=
    orderFacts_same fun s => by rintro ⟨⟩
  rw [positionSets, hresults, fullSets_insert, hpositionFacts] at hpositions
  rw [orderSets, hresults, fullSets_insert, horderFacts] at horders
  obtain ⟨positions, hpositionsOk, -, hpositionsShown⟩ := h.positions.fullSet hpositions updatedAt
  obtain ⟨orders, hordersOk, -, hordersShown⟩ := h.orders.fullSet horders updatedAt
  refine ⟨positions, orders, hpositionsOk, hordersOk, ?_, ?_⟩
  · rw [positionSets, hresults, fullSets_insert, hpositionFacts]
    exact hpositionsShown _ (advances_of _ haccount advancedCheckpoint_positions)
  · rw [orderSets, hresults, fullSets_insert, horderFacts]
    exact hordersShown _ (advances_of _ haccount advancedCheckpoint_orders)

theorem Projected.result (h : Projected digests events results p)
    (hrecorded : Recorded table runs events results)
    (hcoherent : CoherentEvents digests events)
    (hcoherent' : CoherentEvents digests (events ++ [⟨metadata, .result r.result⟩]))
    (halike : AlikeResults (insert (r, updatedAt) results))
    (happly : applyResult digests table runs p r updatedAt = .ok p') :
    Projected digests (events ++ [⟨metadata, .result r.result⟩]) (insert (r, updatedAt) results) p' ∧
      p'.bars = p.bars := by
  have hfetch := h.fetchCheckpoint hrecorded hcoherent r.result.accountId
  obtain ⟨accounts, symbols, positions, orders, haccounts, hsymbols, hpositions, horders, rfl⟩ :=
    (applyResult_ok hfetch).mp happly
  obtain ⟨positions', orders', hpositions', horders', hpositionsShown, hordersShown⟩ :=
    h.sets hcoherent' updatedAt
  rw [hpositions] at hpositions'
  cases hpositions'
  rw [horders] at horders'
  cases horders'
  have haccount : (advancedCheckpoint digests r updatedAt
      (p.checkpoints.get r.result.accountId)).accountId = r.result.accountId :=
    advancedCheckpoint_account fun c hc => Table.key_of_get hc
  refine ⟨⟨?_, ?_, hpositionsShown, hordersShown, fun accountId => ?_⟩, rfl⟩
  · rw [accountObservations_append]
    exact enterLatest_keeps h.accounts haccounts
  · rw [symbolObservations_append]
    exact enterLatest_keeps h.symbols hsymbols
  · show CheckpointShown digests _ accountId ((p.checkpoints.replace _).get accountId)
    rw [Table.get_replace, haccount]
    have hshown := h.checkpoints accountId
    split_ifs with hsame
    · subst hsame
      exact CheckpointShown.advance (x := (r, updatedAt)) hshown halike
    · exact hshown.other hsame

theorem account_keys (result : ReconciliationResult F) :
    (result.account.toList.map accountKey).Nodup := by
  cases result.account with
  | none => exact List.nodup_nil
  | some account => exact List.nodup_singleton _

theorem Projected.result_succeeds (h : Projected digests events results p)
    (hrecorded : Recorded table runs events results)
    (hcoherent : CoherentEvents digests events)
    (hcoherent' : CoherentEvents digests (events ++ [⟨metadata, .result r.result⟩]))
    (hordered : OrderedResult r.result) (hfree : Undisputed events (.result r.result))
    (updatedAt : Int) : ∃ p', applyResult digests table runs p r updatedAt = .ok p' := by
  have hfetch := h.fetchCheckpoint hrecorded hcoherent r.result.accountId
  obtain ⟨positions, orders, hpositions, horders, -⟩ := h.sets hcoherent' updatedAt
  obtain ⟨accounts, haccounts⟩ := enterLatest_succeeds (accountKind digests) h.accounts
    (account_keys r.result) hfree.accounts updatedAt
  obtain ⟨symbols, hsymbols⟩ := enterLatest_succeeds (symbolKind digests) h.symbols
    hordered.symbols.keys hfree.symbols updatedAt
  exact ⟨_, (applyResult_ok hfetch).mpr
    ⟨accounts, symbols, positions, orders, haccounts, hsymbols, hpositions, horders, rfl⟩⟩

theorem Projected.result_undisputed (hdist : digests.Distinct)
    (h : Projected digests events results p) (hrecorded : Recorded table runs events results)
    (hcoherent : CoherentEvents digests events) (hordered : OrderedResult r.result)
    (hdecided : DecidedEvents events)
    (happly : applyResult digests table runs p r updatedAt = .ok p') :
    Undisputed events (.result r.result) := by
  have hfetch := h.fetchCheckpoint hrecorded hcoherent r.result.accountId
  obtain ⟨accounts, symbols, _, _, haccounts, hsymbols, -⟩ := (applyResult_ok hfetch).mp happly
  exact ⟨(enterLatest_uncontested (accountKind digests) hdist.account h.accounts hdecided.accounts
      (account_keys r.result) haccounts).1,
    (enterLatest_uncontested (symbolKind digests) hdist.symbol h.symbols hdecided.symbols
      hordered.symbols.keys hsymbols).1⟩

end

/-! ## contradictions that are past -/

theorem DecidedEvents.append {events : List (StoredCoreEvent F)} {event : StoredCoreEvent F}
    (h : DecidedEvents events) (hfree : Undisputed events event.payload)
    (haccounts : (event.payload.accounts.map accountKey).Nodup)
    (hsymbols : (event.payload.symbols.map symbolKey).Nodup) : DecidedEvents (events ++ [event]) := by
  constructor
  · rw [accountObservations_append]
    exact h.accounts.union haccounts hfree.accounts
  · rw [symbolObservations_append]
    exact h.symbols.union hsymbols hfree.symbols

end Sinan.Projection
