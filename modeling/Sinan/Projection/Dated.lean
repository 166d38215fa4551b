import Sinan.Projection.Rebuilt

/-!
# Projections: the times of the rows

A replay goes by the receive times, so each row it writes has the first of the receive times of the
events that bring its snapshot (`Dated`).  It leaves the rows of the other accounts as they are.
-/

set_option linter.unusedSectionVars false

namespace Sinan.Projection

open Lib Store Reconciliation

variable {F D : Type} [DecidableEq F] [DecidableEq D] {digests : Digests F D}

/-! ## one table -/

section
variable {K S : Type} [DecidableEq K] {key : S → K} {kind : LatestKind D key}
  {table table' : LatestTable key} {own : S → Prop} {times times' : S → Set Int} {A : Set S}
  {mine : K → Prop} {snapshots : List S} {updatedAt : Int} {decision : ApplyDecision}

/-- the rows of some snapshots have the first of their times -/
def Dated (own : S → Prop) (times : S → Set Int) (table : LatestTable key) : Prop :=
  ∀ row ∈ table.rows, own row.payload → IsLeast (times row.payload) row.updatedAt

/-- snapshots that are brought once more, no earlier than before -/
structure BroughtOnce (own : S → Prop) (times times' : S → Set Int) (snapshots : List S)
    (updatedAt : Int) : Prop where
  late : ∀ s ∈ snapshots, ∀ t ∈ times s, t ≤ updatedAt
  entered : ∀ s ∈ snapshots, times' s = insert updatedAt (times s)
  others : ∀ s, s ∉ snapshots → own s → times' s = times s

theorem BroughtOnce.kept (h : BroughtOnce own times times' snapshots updatedAt)
    (hdated : Dated own times table) : Dated own times' table := by
  intro row hrow hown
  obtain ⟨hmem, hleast⟩ := hdated row hrow hown
  by_cases hin : row.payload ∈ snapshots
  · rw [h.entered _ hin]
    refine ⟨Set.mem_insert_of_mem _ hmem, fun t ht => ?_⟩
    rcases ht with rfl | ht
    · exact h.late _ hin _ hmem
    · exact hleast ht
  · rw [h.others _ hin hown]
    exact ⟨hmem, hleast⟩

variable {snapshot : S}

theorem applyLatest_dated (h : Shows key kind.observedAt A (shown table))
    (hbrought : (times snapshot).Nonempty → snapshot ∈ A)
    (honce : BroughtOnce own times times' [snapshot] updatedAt) (hdated : Dated own times table)
    (happly : applyLatest kind table snapshot updatedAt = .ok (table', decision)) :
    Dated own times' table' := by
  obtain ⟨hclassify, rfl⟩ := applyLatest_ok.mp happly
  split_ifs with happlied
  · intro row hrow hown
    rcases Table.mem_replace.mp hrow with ⟨hold, -⟩ | rfl
    · exact honce.kept hdated row hold hown
    · have hfirst : times snapshot = ∅ := by
        by_contra hne
        obtain ⟨y, hy, hle⟩ := h.top (hbrought (Set.nonempty_iff_ne_empty.mpr hne))
        rw [hy, Option.map_some] at hclassify
        exact (classifyLatest_past hle hclassify).1 happlied
      show IsLeast (times' snapshot) updatedAt
      rw [honce.entered snapshot (List.mem_singleton_self _), hfirst]
      refine ⟨Set.mem_insert _ _, fun t ht => ?_⟩
      rcases ht with rfl | ht
      · exact le_rfl
      · exact absurd ht (Set.notMem_empty _)
  · exact honce.kept hdated

theorem applyLatest_elsewhere {k : K} (hk : key snapshot ≠ k)
    (happly : applyLatest kind table snapshot updatedAt = .ok (table', decision)) :
    table'.get k = table.get k := by
  obtain ⟨-, rfl⟩ := applyLatest_ok.mp happly
  split_ifs
  · rw [Table.get_replace, if_neg hk]
  · rfl

theorem enterLatest_dated (h : Shows key kind.observedAt A (shown table))
    (hkeys : (snapshots.map key).Nodup) (hbrought : ∀ s ∈ snapshots, (times s).Nonempty → s ∈ A)
    (honce : BroughtOnce own times times' snapshots updatedAt) (hdated : Dated own times table)
    (henter : enterLatest kind table snapshots updatedAt = .ok table') : Dated own times' table' := by
  classical
  induction snapshots generalizing A table times with
  | nil =>
    cases henter
    exact honce.kept hdated
  | cons snapshot snapshots ih =>
    obtain ⟨hfresh, hrest⟩ := List.nodup_cons.mp hkeys
    obtain ⟨next, decision, happly, hentered⟩ := enterLatest_cons.mp henter
    have hne (s : S) (hs : s ∈ snapshots) : s ≠ snapshot := fun hsame =>
      hfresh (hsame ▸ List.mem_map_of_mem hs)
    -- after the head, only its own times have changed
    have hnext : Dated own (fun s => if s = snapshot then insert updatedAt (times s) else times s)
        next :=
      applyLatest_dated h (hbrought snapshot List.mem_cons_self)
        ⟨fun s hs => honce.late s (List.mem_singleton.mp hs ▸ List.mem_cons_self),
          fun s hs => if_pos (List.mem_singleton.mp hs),
          fun s hs _ => if_neg fun hsame => hs (List.mem_singleton.mpr hsame)⟩ hdated happly
    refine ih (applyLatest_keeps h happly) hrest (fun s hs hsome => ?_)
      ⟨fun s hs => ?_, fun s hs => ?_, fun s hs hown => ?_⟩ hnext hentered
    · rw [if_neg (hne s hs)] at hsome
      exact Set.mem_insert_of_mem _ (hbrought s (List.mem_cons_of_mem _ hs) hsome)
    · rw [if_neg (hne s hs)]
      exact honce.late s (List.mem_cons_of_mem _ hs)
    · rw [if_neg (hne s hs)]
      exact honce.entered s (List.mem_cons_of_mem _ hs)
    · by_cases hsame : s = snapshot
      · rw [if_pos hsame, hsame]
        exact honce.entered snapshot List.mem_cons_self
      · rw [if_neg hsame]
        exact honce.others s (fun hmem => (List.mem_cons.mp hmem).elim hsame hs) hown

theorem enterLatest_elsewhere {k : K} (hk : ∀ s ∈ snapshots, key s ≠ k)
    (henter : enterLatest kind table snapshots updatedAt = .ok table') :
    table'.get k = table.get k := by
  induction snapshots generalizing table with
  | nil =>
    cases henter
    rfl
  | cons snapshot snapshots ih =>
    obtain ⟨next, decision, happly, hentered⟩ := enterLatest_cons.mp henter
    rw [ih (fun s hs => hk s (List.mem_cons_of_mem _ hs)) hentered]
    exact applyLatest_elsewhere (hk snapshot List.mem_cons_self) happly

/-- the table has taken in the snapshots, and has lost no rows but its own, or it is as it was -/
def Entered (kind : LatestKind D key) (A : Set S) (times : S → Set Int) (mine : K → Prop)
    (snapshots : List S) (updatedAt : Int) (table table' : LatestTable key) : Prop :=
  table' = table ∨ (∀ s ∈ snapshots, (times s).Nonempty → s ∈ A) ∧ ∃ entered,
    enterLatest kind table snapshots updatedAt = .ok entered ∧
      (∀ row ∈ table'.rows, row ∈ entered.rows) ∧ ∀ k, ¬ mine k → table'.get k = entered.get k

theorem Entered.dated (h : Shows key kind.observedAt A (shown table))
    (hkeys : (snapshots.map key).Nodup) (honce : BroughtOnce own times times' snapshots updatedAt)
    (hdated : Dated own times table)
    (henter : Entered kind A times mine snapshots updatedAt table table') :
    Dated own times' table' := by
  rcases henter with rfl | ⟨hbrought, entered, henter, hsub, -⟩
  · exact honce.kept hdated
  · intro row hrow
    exact enterLatest_dated h hkeys hbrought honce hdated henter row (hsub row hrow)

theorem Entered.elsewhere (henter : Entered kind A times mine snapshots updatedAt table table')
    (hmine : ∀ s ∈ snapshots, mine (key s)) {k : K} (hk : ¬ mine k) :
    table'.get k = table.get k := by
  rcases henter with rfl | ⟨-, entered, henter, -, hkeeps⟩
  · rfl
  · rw [hkeeps k hk]
    exact enterLatest_elsewhere (fun s hs hkey => hk (hkey ▸ hmine s hs)) henter

theorem entered_all {table table' : LatestTable key}
    (hbrought : ∀ s ∈ snapshots, (times s).Nonempty → s ∈ A)
    (henter : enterLatest kind table snapshots updatedAt = .ok table') :
    Entered kind A times mine snapshots updatedAt table table' :=
  .inr ⟨hbrought, table', henter, fun _ hrow => hrow, fun _ _ => rfl⟩

theorem entered_one {table table' : LatestTable key}
    (hbrought : (times snapshot).Nonempty → snapshot ∈ A)
    (happly : applyLatest kind table snapshot updatedAt = .ok (table', decision)) :
    Entered kind A times mine [snapshot] updatedAt table table' :=
  entered_all (fun s hs => by rwa [List.mem_singleton.mp hs])
    (enterLatest_cons.mpr ⟨table', decision, happly, rfl⟩)

end

/-! ## the table of a full set -/

section
variable {S : Type} {key : S → AccountId × String} {kind : SetKind D key} {facts : Set S}
  {sets : Set (FullSet AccountId Int S)} {tables tables' : SetTables key}
  {checkpoints : AccountId → Option (AccountReconciliationCheckpoint D)}
  {times : S → Set Int} {accountId : AccountId} {observedAt updatedAt : Int} {set : List S}

/-- the snapshots that have times are those of the facts and the sets -/
def Brought (facts : Set S) (sets : Set (FullSet AccountId Int S)) (times : S → Set Int) : Prop :=
  ∀ s, (times s).Nonempty → s ∈ facts ∨ ∃ w ∈ sets, s ∈ w.members

theorem visible_of_brought (hcoherent : CoherentSets kind facts sets) (h : Brought facts sets times)
    {s : S} (hs : (times s).Nonempty)
    (hlater : ∀ w ∈ sets, w.owner = (key s).1 → w.time < kind.observedAt s) :
    s ∈ visibleSnapshots kind facts sets := by
  rcases h s hs with hfact | ⟨w, hw, hmember⟩
  · exact mem_visible_fact hfact hlater
  · obtain ⟨howner, htime⟩ := hcoherent.formed w hw s hmember
    have hlt := hlater w hw howner.symm
    rw [htime] at hlt
    exact absurd hlt (lt_irrefl _)

theorem classifyFullSetMember_none {members : MemberTable key} {snapshot : S} {watermark : Int}
    (h : classifyFullSetMember kind members snapshot (some watermark) = .ok none) :
    watermark < kind.observedAt snapshot := by
  by_contra hle
  rcases lt_or_eq_of_le (not_lt.mp hle) with hlt | heq
  · rw [classifyFullSetMember_older hlt] at h
    cases h
  · subst heq
    simp only [classifyFullSetMember, if_neg (lt_irrefl (kind.observedAt snapshot))] at h
    split at h
    · split_ifs at h
      cases h
    · cases h

theorem SetShown.fact_enters (h : SetShown kind facts sets checkpoints tables)
    (hcoherent : CoherentSets kind facts sets) (hbrought : Brought facts sets times) {snapshot : S}
    {decision : ApplyDecision}
    (happly : applyMember kind (checkpoints (key snapshot).1) tables snapshot updatedAt =
      .ok (tables', decision)) :
    Entered kind.toLatestKind (visibleSnapshots kind facts sets) times (fun k => k.1 = accountId)
      [snapshot] updatedAt tables.latest tables'.latest := by
  unfold applyMember at happly
  obtain ⟨behind, hbehind, happly⟩ := bind_ok.mp happly
  cases behind with
  | some decision' =>
    cases pure_ok.mp happly
    exact .inl rfl
  | none =>
    obtain ⟨⟨latest, decision'⟩, happly, hnext⟩ := bind_ok.mp happly
    cases pure_ok.mp hnext
    refine entered_one (fun hsome => ?_) happly
    refine visible_of_brought hcoherent hbrought hsome fun w hw howner => ?_
    have hlast := h.last (key snapshot).1
    cases hcheckpoint : checkpoints (key snapshot).1 with
    | none =>
      rw [hcheckpoint] at hlast
      exact absurd howner (hlast.2 w hw)
    | some c =>
      rw [hcheckpoint] at hlast hbehind
      obtain ⟨v, hv⟩ := hlast
      refine lt_of_le_of_lt (hv.last w hw howner) ?_
      rw [← hv.watermark]
      exact classifyFullSetMember_none hbehind

theorem LatestAfter.enters
    (hcoherent : CoherentSets kind facts (insert ⟨accountId, observedAt, set⟩ sets))
    (hbrought : Brought facts sets times)
    (hafter : LatestAfter kind sets accountId observedAt set updatedAt tables tables') :
    Entered kind.toLatestKind (visibleSnapshots kind facts sets) times (fun k => k.1 = accountId)
      set updatedAt tables.latest tables'.latest := by
  have hold : CoherentSets kind facts sets :=
    hcoherent.mono Set.Subset.rfl (Set.subset_insert _ sets)
  rcases hafter with rfl | ⟨hnew, entered, henter, hlatest⟩
  · exact .inl rfl
  · refine .inr ⟨fun s hs hsome => ?_, entered, henter, fun row hrow => ?_, fun k hk => ?_⟩
    · obtain ⟨howner, htime⟩ := hcoherent.formed _ (Set.mem_insert _ _) s hs
      refine visible_of_brought hold hbrought hsome fun v hv hvo => ?_
      rw [htime]
      exact hnew v hv (hvo.trans howner)
    · rw [hlatest] at hrow
      exact (Table.mem_erase.mp hrow).1
    · rw [hlatest, Table.get_erase]
      cases hget : entered.get k with
      | none => rfl
      | some row =>
        refine Option.filter_eq_some_iff.mpr ⟨rfl, ?_⟩
        rw [Bool.not_eq_true', tombstoned, decide_eq_false_iff_not]
        rintro ⟨howner, -⟩
        rw [Table.key_of_get hget] at howner
        exact hk howner

end

/-! ## the events -/

/-- the position snapshots of a document -/
def EventPayload.positions : EventPayload F → List (PositionSnapshot F)
  | .fact (.position snapshot) => [snapshot]
  | .result r => r.positions
  | _ => []

/-- the order snapshots of a document -/
def EventPayload.orders : EventPayload F → List (OrderSnapshot F)
  | .fact (.order snapshot) => [snapshot]
  | .result r => r.orders
  | _ => []

theorem EventPayload.mem_positions {payload : EventPayload F} {s : PositionSnapshot F} :
    s ∈ payload.positions ↔
      payload = .fact (.position s) ∨ ∃ r, payload = .result r ∧ s ∈ r.positions := by
  rcases payload with value | _ | _
  · cases value <;> simp [EventPayload.positions, eq_comm]
  all_goals simp [EventPayload.positions]

theorem EventPayload.mem_orders {payload : EventPayload F} {s : OrderSnapshot F} :
    s ∈ payload.orders ↔
      payload = .fact (.order s) ∨ ∃ r, payload = .result r ∧ s ∈ r.orders := by
  rcases payload with value | _ | _
  · cases value <;> simp [EventPayload.orders, eq_comm]
  all_goals simp [EventPayload.orders]

/-- when the events that bring a snapshot were received -/
def broughtAt {S : Type} (give : EventPayload F → List S) (events : List (StoredCoreEvent F)) (s : S) :
    Set Int :=
  {t | ∃ e ∈ events, s ∈ give e.payload ∧ e.metadata.receivedAt = t}

/-- the rows of the account have the first receive times of what they show -/
structure DatedRows (events : List (StoredCoreEvent F)) (accountId : AccountId)
    (p : Projections F D) : Prop where
  accounts : Dated (fun s => s.accountId = accountId) (broughtAt EventPayload.accounts events)
    p.accounts
  symbols : Dated (fun s => s.accountId = accountId) (broughtAt EventPayload.symbols events) p.symbols
  positions : Dated (fun s => s.accountId = accountId) (broughtAt EventPayload.positions events)
    p.positions.latest
  orders : Dated (fun s => s.accountId = accountId) (broughtAt EventPayload.orders events)
    p.orders.latest

/-- the rows of the other accounts are as they were -/
structure OthersKept (accountId : AccountId) (p p' : Projections F D) : Prop where
  accounts : ∀ k, k ≠ accountId → p'.accounts.get k = p.accounts.get k
  symbols : ∀ k : AccountId × String, k.1 ≠ accountId → p'.symbols.get k = p.symbols.get k
  positions : ∀ k : AccountId × String, k.1 ≠ accountId →
    p'.positions.latest.get k = p.positions.latest.get k
  orders : ∀ k : AccountId × String, k.1 ≠ accountId →
    p'.orders.latest.get k = p.orders.latest.get k

/-- what a document of an account does to the latest tables -/
structure TakesIn (digests : Digests F D) (events : List (StoredCoreEvent F)) (accountId : AccountId)
    (payload : EventPayload F) (updatedAt : Int) (p p' : Projections F D) : Prop where
  accounts : Entered (accountKind digests) (accountObservations events)
    (broughtAt EventPayload.accounts events) (fun k => k = accountId) payload.accounts updatedAt
    p.accounts p'.accounts
  symbols : Entered (symbolKind digests) (symbolObservations events)
    (broughtAt EventPayload.symbols events) (fun k => k.1 = accountId) payload.symbols updatedAt
    p.symbols p'.symbols
  positions : Entered (positionKind digests).toLatestKind
    (visibleSnapshots (positionKind digests) (positionFacts events) (positionSets events))
    (broughtAt EventPayload.positions events) (fun k => k.1 = accountId) payload.positions updatedAt
    p.positions.latest p'.positions.latest
  orders : Entered (orderKind digests).toLatestKind
    (visibleSnapshots (orderKind digests) (orderFacts events) (orderSets events))
    (broughtAt EventPayload.orders events) (fun k => k.1 = accountId) payload.orders updatedAt
    p.orders.latest p'.orders.latest

section
variable {events : List (StoredCoreEvent F)} {results : Results F} {p p' : Projections F D}
  {accountId : AccountId} {updatedAt : Int} {metadata : CoreEventMetadata}

theorem broughtAt_accounts (s : AccountSnapshot F)
    (h : (broughtAt EventPayload.accounts events s).Nonempty) : s ∈ accountObservations events := by
  obtain ⟨t, e, he, hs, -⟩ := h
  exact ⟨e, he, hs⟩

theorem broughtAt_symbols (s : SymbolMetadataSnapshot F)
    (h : (broughtAt EventPayload.symbols events s).Nonempty) : s ∈ symbolObservations events := by
  obtain ⟨t, e, he, hs, -⟩ := h
  exact ⟨e, he, hs⟩

theorem brought_positions : Brought (positionFacts events) (positionSets events)
    (broughtAt EventPayload.positions events) := by
  rintro s ⟨t, e, he, hs, -⟩
  rcases EventPayload.mem_positions.mp hs with hfact | ⟨r, hresult, hs⟩
  · exact .inl ⟨e, he, hfact⟩
  · exact .inr ⟨_, ⟨r, ⟨e, he, hresult⟩, rfl⟩, hs⟩

theorem brought_orders : Brought (orderFacts events) (orderSets events)
    (broughtAt EventPayload.orders events) := by
  rintro s ⟨t, e, he, hs, -⟩
  rcases EventPayload.mem_orders.mp hs with hfact | ⟨r, hresult, hs⟩
  · exact .inl ⟨e, he, hfact⟩
  · exact .inr ⟨_, ⟨r, ⟨e, he, hresult⟩, rfl⟩, hs⟩

theorem Projected.fact_takes (h : Projected digests events results p)
    (hcoherent : CoherentEvents digests events) {value : DurableProjection F}
    {decision : ApplyDecision}
    (happly : applyProjection digests p value metadata = .ok (p', decision)) :
    TakesIn digests events accountId (.fact value) metadata.receivedAt p p' := by
  cases value with
  | account snapshot =>
    simp only [applyProjection, bind_ok, pure_ok, Prod.mk.injEq, Prod.exists] at happly
    obtain ⟨accounts, _, happly, rfl, -⟩ := happly
    exact ⟨entered_one (broughtAt_accounts snapshot) happly, .inl rfl, .inl rfl, .inl rfl⟩
  | symbol snapshot =>
    simp only [applyProjection, bind_ok, pure_ok, Prod.mk.injEq, Prod.exists] at happly
    obtain ⟨symbols, _, happly, rfl, -⟩ := happly
    exact ⟨.inl rfl, entered_one (broughtAt_symbols snapshot) happly, .inl rfl, .inl rfl⟩
  | position snapshot =>
    simp only [applyProjection, bind_ok, pure_ok, Prod.mk.injEq, Prod.exists] at happly
    obtain ⟨positions, _, happly, rfl, -⟩ := happly
    exact ⟨.inl rfl, .inl rfl,
      h.positions.fact_enters hcoherent.positions brought_positions happly, .inl rfl⟩
  | order snapshot =>
    simp only [applyProjection, bind_ok, pure_ok, Prod.mk.injEq, Prod.exists] at happly
    obtain ⟨orders, _, happly, rfl, -⟩ := happly
    exact ⟨.inl rfl, .inl rfl, .inl rfl,
      h.orders.fact_enters hcoherent.orders brought_orders happly⟩
  | marketBar bar =>
    simp only [applyProjection, bind_ok, pure_ok, Prod.mk.injEq, Prod.exists] at happly
    obtain ⟨_, -, bars, _, -, rfl, -⟩ := happly
    exact ⟨.inl rfl, .inl rfl, .inl rfl, .inl rfl⟩

theorem Projected.result_takes {table : EventTable F} {runs : ReconciliationRuns F}
    {r : AppliedResult F} (h : Projected digests events results p)
    (hrecorded : Recorded table runs events results) (hcoherent : CoherentEvents digests events)
    (hcoherent' : CoherentEvents digests (events ++ [⟨metadata, .result r.result⟩]))
    (happly : applyResult digests table runs p r updatedAt = .ok p') :
    TakesIn digests events r.result.accountId (.result r.result) updatedAt p p' := by
  have hfetch := h.fetchCheckpoint hrecorded hcoherent r.result.accountId
  obtain ⟨accounts, symbols, positions, orders, haccounts, hsymbols, hpositions, horders, rfl⟩ :=
    (applyResult_ok hfetch).mp happly
  have hpositionSets := hcoherent'.positions
  have horderSets := hcoherent'.orders
  rw [positionSets, resultFacts_insert, fullSets_insert,
    positionFacts_same fun s => by rintro ⟨⟩] at hpositionSets
  rw [orderSets, resultFacts_insert, fullSets_insert,
    orderFacts_same fun s => by rintro ⟨⟩] at horderSets
  obtain ⟨positions', hpositions', hpositionsAfter, -⟩ :=
    h.positions.fullSet hpositionSets updatedAt
  obtain ⟨orders', horders', hordersAfter, -⟩ := h.orders.fullSet horderSets updatedAt
  rw [hpositions] at hpositions'
  cases hpositions'
  rw [horders] at horders'
  cases horders'
  exact ⟨entered_all (fun s _ => broughtAt_accounts s) haccounts,
    entered_all (fun s _ => broughtAt_symbols s) hsymbols,
    LatestAfter.enters hpositionSets brought_positions hpositionsAfter,
    LatestAfter.enters horderSets brought_orders hordersAfter⟩

end

/-! ## the account of a document -/

/-- the snapshots of a document are of its account -/
structure OwnedSnapshots (e : StoredCoreEvent F) : Prop where
  accounts : ∀ s ∈ e.payload.accounts, e.metadata.accountId = some s.accountId
  symbols : ∀ s ∈ e.payload.symbols, e.metadata.accountId = some s.accountId
  positions : ∀ s ∈ e.payload.positions, e.metadata.accountId = some s.accountId
  orders : ∀ s ∈ e.payload.orders, e.metadata.accountId = some s.accountId

/-- the snapshots of a document have different keys -/
structure KeyedSnapshots (payload : EventPayload F) : Prop where
  accounts : (payload.accounts.map accountKey).Nodup
  symbols : (payload.symbols.map symbolKey).Nodup
  positions : (payload.positions.map positionKey).Nodup
  orders : (payload.orders.map orderKey).Nodup

section
variable {table : EventTable F} {runs : ReconciliationRuns F} {events base : List (StoredCoreEvent F)}
  {e : StoredCoreEvent F} {results : Results F} {p p' : Projections F D} {accountId : AccountId}

theorem OrderedMembers.account {S : Type} {key : S → AccountId × String} {observedAt : S → Int}
    {result : ReconciliationResult F} {values : List S}
    (h : OrderedMembers key observedAt result values) {s : S} (hs : s ∈ values)
    (howner : e.metadata.accountId = some result.accountId) :
    e.metadata.accountId = some (key s).1 := by
  rw [(h.owned s hs).1]
  exact howner

theorem Owned.snapshots (h : Owned e) (hordered : ∀ r, e.payload = .result r → OrderedResult r) :
    OwnedSnapshots e where
  accounts := h.accounts
  symbols := h.symbols
  positions s hs := by
    rcases EventPayload.mem_positions.mp hs with hfact | ⟨r, hresult, hs⟩
    · exact h.position s hfact
    · exact (hordered r hresult).positions.account hs (h.result r hresult)
  orders s hs := by
    rcases EventPayload.mem_orders.mp hs with hfact | ⟨r, hresult, hs⟩
    · exact h.order s hfact
    · exact (hordered r hresult).orders.account hs (h.result r hresult)

theorem keyedSnapshots {payload : EventPayload F}
    (hordered : ∀ r, payload = .result r → OrderedResult r) : KeyedSnapshots payload := by
  cases payload with
  | fact value =>
    refine ⟨(fact_keys value).1, (fact_keys value).2, ?_, ?_⟩
    · cases value <;> first | exact List.nodup_nil | exact List.nodup_singleton _
    · cases value <;> first | exact List.nodup_nil | exact List.nodup_singleton _
  | request request => exact ⟨List.nodup_nil, List.nodup_nil, List.nodup_nil, List.nodup_nil⟩
  | result r =>
    have h := hordered r rfl
    exact ⟨account_keys r, h.symbols.keys, h.positions.keys, h.orders.keys⟩

theorem broughtAt_append {S : Type} (give : EventPayload F → List S) (s : S) :
    broughtAt give (events ++ [e]) s =
      broughtAt give events s ∪ {t | s ∈ give e.payload ∧ e.metadata.receivedAt = t} := by
  ext t
  constructor
  · rintro ⟨x, hx, hs, ht⟩
    rcases List.mem_append.mp hx with hx | hx
    · exact .inl ⟨x, hx, hs, ht⟩
    · rw [List.mem_singleton.mp hx] at hs ht
      exact .inr ⟨hs, ht⟩
  · rintro (⟨x, hx, hs, ht⟩ | ⟨hs, ht⟩)
    · exact ⟨x, List.mem_append_left _ hx, hs, ht⟩
    · exact ⟨e, List.mem_append_right _ (List.mem_singleton_self _), hs, ht⟩

theorem broughtOnce {S : Type} {give : EventPayload F → List S} {accountOf : S → AccountId}
    {own : S → Prop}
    (howned : ∀ x ∈ events ++ [e], ∀ s ∈ give x.payload, x.metadata.accountId = some (accountOf s))
    (hlate : ∀ x ∈ events, x.metadata.accountId = e.metadata.accountId →
      x.metadata.receivedAt ≤ e.metadata.receivedAt) :
    BroughtOnce own (broughtAt give events) (broughtAt give (events ++ [e])) (give e.payload)
      e.metadata.receivedAt where
  late := by
    rintro s hs t ⟨x, hx, hxs, rfl⟩
    refine hlate x hx ?_
    rw [howned x (List.mem_append_left _ hx) s hxs,
      howned e (List.mem_append_right _ (List.mem_singleton_self _)) s hs]
  entered s hs := by
    rw [broughtAt_append, Set.union_comm]
    ext t
    simp only [hs, true_and, Set.mem_union, Set.mem_insert_iff, Set.mem_ofPred_eq]
    exact or_congr_left eq_comm
  others s hs _ := by
    rw [broughtAt_append]
    simp only [hs, false_and, Set.ofPred_false, Set.union_empty]

theorem TakesIn.dated (h : Projected digests events results p)
    (howned : ∀ x ∈ events ++ [e], OwnedSnapshots x) (hkeyed : KeyedSnapshots e.payload)
    (hlate : ∀ x ∈ events, x.metadata.accountId = e.metadata.accountId →
      x.metadata.receivedAt ≤ e.metadata.receivedAt)
    (hdated : DatedRows events accountId p)
    (htakes : TakesIn digests events accountId e.payload e.metadata.receivedAt p p') :
    DatedRows (events ++ [e]) accountId p' where
  accounts := htakes.accounts.dated h.accounts hkeyed.accounts
    (broughtOnce (fun x hx => (howned x hx).accounts) hlate) hdated.accounts
  symbols := htakes.symbols.dated h.symbols hkeyed.symbols
    (broughtOnce (fun x hx => (howned x hx).symbols) hlate) hdated.symbols
  positions := htakes.positions.dated h.positions.latest hkeyed.positions
    (broughtOnce (fun x hx => (howned x hx).positions) hlate) hdated.positions
  orders := htakes.orders.dated h.orders.latest hkeyed.orders
    (broughtOnce (fun x hx => (howned x hx).orders) hlate) hdated.orders

theorem TakesIn.elsewhere (howned : OwnedSnapshots e) (haccount : e.metadata.accountId = some accountId)
    (htakes : TakesIn digests events accountId e.payload e.metadata.receivedAt p p') :
    OthersKept accountId p p' := by
  have hmine {a : AccountId} (ha : e.metadata.accountId = some a) : a = accountId := by
    rw [haccount] at ha
    exact (Option.some.inj ha).symm
  refine ⟨fun k hk => ?_, fun k hk => ?_, fun k hk => ?_, fun k hk => ?_⟩
  · exact htakes.accounts.elsewhere (fun s hs => hmine (howned.accounts s hs)) hk
  · exact htakes.symbols.elsewhere (fun s hs => hmine (howned.symbols s hs)) hk
  · exact htakes.positions.elsewhere (fun s hs => hmine (howned.positions s hs)) hk
  · exact htakes.orders.elsewhere (fun s hs => hmine (howned.orders s hs)) hk

theorem OthersKept.trans {q : Projections F D} (h : OthersKept accountId p p')
    (h' : OthersKept accountId p' q) : OthersKept accountId p q where
  accounts k hk := (h'.accounts k hk).trans (h.accounts k hk)
  symbols k hk := (h'.symbols k hk).trans (h.symbols k hk)
  positions k hk := (h'.positions k hk).trans (h.positions k hk)
  orders k hk := (h'.orders k hk).trans (h.orders k hk)

/-! ## the replay of an account -/

theorem SoundEvents.ordered (hsound : SoundEvents digests table runs) (he : e ∈ table.rows) :
    ∀ r, e.payload = .result r → OrderedResult r :=
  fun _ hr => (hsound.recorded fun _ hx => hx).ordered ⟨e, he, hr⟩

theorem SoundEvents.snapshots (hsound : SoundEvents digests table runs) (he : e ∈ table.rows) :
    OwnedSnapshots e := (hsound.owned he).snapshots (hsound.ordered he)

theorem Reached.replay_takes (hsound : SoundEvents digests table runs) (hbase : base ⊆ table.rows)
    (hevent : e ∈ table.rows) (htype : e.metadata.eventType ∈ replayEventTypes)
    (haccount : e.metadata.accountId = some accountId) (h : Reached digests runs base p)
    {report report' : ReconciliationProjectionRebuildReport}
    (hreplay : replayEvent digests table runs (p, report) e = .ok (p', report')) :
    TakesIn digests base accountId e.payload e.metadata.receivedAt p p' := by
  have hrouted := hsound.routed e hevent
  have hcoherent := hsound.coherent.mono hbase
  rcases replayed_payload hrouted htype with ⟨value, hpayload, -⟩ | ⟨result, hpayload⟩
  · obtain ⟨⟨decision, happly⟩, -⟩ := (replayEvent_fact hrouted hpayload).mp hreplay
    rw [hpayload]
    exact h.projected.fact_takes hcoherent happly
  · obtain ⟨r, happlied⟩ := hsound.known e hevent result hpayload
    have hcoherent' := hsound.coherent.mono (append_subset hbase hevent)
    have hshape : e = ⟨e.metadata, .result r.result⟩ := by rw [← happlied.result]
    rw [hshape] at hcoherent'
    obtain ⟨happly, -⟩ := (replayEvent_result hsound hevent happlied).mp hreplay
    have howner : r.result.accountId = accountId := by
      have howned := (hsound.owned hevent).result _ happlied.result
      rw [haccount] at howned
      exact (Option.some.inj howned).symm
    rw [happlied.result, ← howner]
    exact h.projected.result_takes (hsound.recorded hbase) hcoherent hcoherent' happly

/-- A replay of an account, in the order of the receive times and after events of other accounts only,
dates the account's rows and leaves those of the others. -/
theorem Reached.replays_dated (hdist : digests.Distinct) (hsound : SoundEvents digests table runs)
    (hall : base ++ events ⊆ table.rows)
    (htypes : ∀ e ∈ events, e.metadata.eventType ∈ replayEventTypes)
    (hothers : ∀ e ∈ base, e.metadata.accountId ≠ some accountId)
    (hmine : ∀ e ∈ events, e.metadata.accountId = some accountId)
    (hsorted : events.Pairwise fun x y => x.metadata.receivedAt ≤ y.metadata.receivedAt)
    (h : Reached digests runs base p) (hdated : DatedRows base accountId p)
    {report report' : ReconciliationProjectionRebuildReport}
    (hreplay : events.foldlM (replayEvent digests table runs) (p, report) = .ok (p', report')) :
    DatedRows (base ++ events) accountId p' ∧ OthersKept accountId p p' := by
  have hlate : (base ++ events).Pairwise fun x y => x.metadata.accountId = some accountId →
      x.metadata.receivedAt ≤ y.metadata.receivedAt := by
    refine List.pairwise_append.mpr ⟨?_, hsorted.imp ?_, ?_⟩
    · exact List.Pairwise.imp_of_mem (fun hx _ _ ha => absurd ha (hothers _ hx))
        (List.pairwise_of_forall fun _ _ => trivial)
    · exact fun {x y} hle (_ : x.metadata.accountId = some accountId) => hle
    · exact fun x hx y _ ha => absurd ha (hothers x hx)
  obtain ⟨-, hreaches⟩ := foldlM_ready (f := replayEvent digests table runs)
    (fun seen (state : Projections F D × ReconciliationProjectionRebuildReport) =>
      Reached digests runs seen state.1 ∧ DatedRows seen accountId state.1 ∧
        OthersKept accountId p state.1)
    (fun seen e => Undisputed seen e.payload) (b := (p, report))
    (fun seen event rest state hsplit hevent ⟨hseen, hdatedSeen, hkept⟩ => by
      rw [hsplit] at hall hlate
      have hin : seen ⊆ table.rows := fun e he => hall (List.mem_append_left _ he)
      have hmem : event ∈ table.rows := hall (List.mem_append_right _ List.mem_cons_self)
      obtain ⟨hready, hkeeps⟩ := hseen.replay hdist hsound hin hmem (htypes event hevent) state.2
      refine ⟨hready, fun next hnext => ?_⟩
      have htakes := hseen.replay_takes hsound hin hmem (htypes event hevent) (hmine event hevent) hnext
      refine ⟨(hkeeps next.1 next.2 hnext).1, ?_, hkept.trans ?_⟩
      · refine htakes.dated hseen.projected (fun x hx => hsound.snapshots ?_)
          (keyedSnapshots (hsound.ordered hmem)) (fun x hx ha => ?_) hdatedSeen
        · exact append_subset hin hmem hx
        · rw [hmine event hevent] at ha
          exact (List.pairwise_append.mp hlate).2.2 x hx event List.mem_cons_self ha
      · exact htakes.elsewhere (hsound.snapshots hmem) (hmine event hevent))
    ⟨h, hdated, ⟨fun _ _ => rfl, fun _ _ => rfl, fun _ _ => rfl, fun _ _ => rfl⟩⟩
  obtain ⟨-, hdated', hkept⟩ := hreaches (p', report') hreplay
  exact ⟨hdated', hkept⟩

end

end Sinan.Projection
