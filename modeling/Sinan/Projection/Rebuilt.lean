import Sinan.Projection.Kept

/-!
# Projections: the rebuild and the calls

The calls that a store has accepted lead to the projections that its events call for, and so does the
rebuild, if it gets through: an account or symbol snapshot that a later one made harmless when it
arrived stands in the way of a replay that meets the two in another order, or without the later one.
-/

set_option linter.unusedSectionVars false

namespace Sinan.Projection

open Lib Store Reconciliation

variable {F D : Type} [DecidableEq F] [DecidableEq D] {digests : Digests F D}

/-! ## runs of calls -/

section
variable {s s' : ProjectionStore F D}

theorem fst_ok {ε α β : Type} {x : Except ε (α × β)} {a : α} :
    Prod.fst <$> x = .ok a ↔ ∃ b, x = .ok (a, b) := by
  cases x with
  | error e =>
    constructor
    · intro h
      cases h
    · rintro ⟨b, h⟩
      cases h
  | ok pair =>
    constructor
    · intro h
      cases h
      exact ⟨pair.2, rfl⟩
    · rintro ⟨b, h⟩
      cases h
      rfl

theorem nothing {S : Type} {give : StoredCoreEvent F → S → Prop} :
    {s | ∃ e ∈ ([] : List (StoredCoreEvent F)), give e s} = ∅ := by
  refine Set.eq_empty_iff_forall_notMem.mpr ?_
  rintro s ⟨e, he, -⟩
  cases he

theorem no_sets {S : Type} (setOf : ReconciliationResult F → List S) :
    fullSets setOf (resultFacts ([] : List (StoredCoreEvent F))) = ∅ := by
  refine Set.eq_empty_iff_forall_notMem.mpr ?_
  rintro w ⟨r, ⟨e, he, -⟩, -⟩
  cases he

theorem SetShown.empty {S : Type} {key : S → AccountId × String} (kind : SetKind D key) :
    SetShown kind ∅ ∅ (fun _ => none) ⟨.empty, .empty⟩ := by
  refine ⟨⟨fun h => (nomatch h), fun h => ?_⟩, fun accountId => ⟨rfl, fun w hw => ?_⟩⟩
  · rcases h with ⟨h, -⟩ | ⟨w, h, -⟩
    · exact absurd h (Set.notMem_empty _)
    · exact absurd h (Set.notMem_empty _)
  · exact absurd hw (Set.notMem_empty _)

theorem Reached.empty (runs : ReconciliationRuns F) (bars : Keyed (barKey (F := F))) :
    Reached digests runs [] { emptyProjections F D with bars := bars } := by
  have haccounts : accountObservations ([] : List (StoredCoreEvent F)) = ∅ := nothing
  have hsymbols : symbolObservations ([] : List (StoredCoreEvent F)) = ∅ := nothing
  have hpositions : positionFacts ([] : List (StoredCoreEvent F)) = ∅ := nothing
  have horders : orderFacts ([] : List (StoredCoreEvent F)) = ∅ := nothing
  refine ⟨⟨?_, ?_, ?_, ?_, ?_⟩, ?_, ?_⟩
  · rw [haccounts]
    exact Shows.empty
  · rw [hsymbols]
    exact Shows.empty
  · rw [hpositions, positionSets, no_sets]
    exact SetShown.empty _
  · rw [horders, orderSets, no_sets]
    exact SetShown.empty _
  · rintro accountId x ⟨e, he, -⟩
    cases he
  · rw [haccounts]
    exact Decided.empty
  · rw [hsymbols]
    exact Decided.empty

theorem BarsShown.empty : BarsShown ([] : List (StoredCoreEvent F)) .empty where
  sound _ hrow := absurd hrow List.not_mem_nil
  top _ he := absurd he List.not_mem_nil

theorem CoherentEvents.empty : CoherentEvents digests ([] : List (StoredCoreEvent F)) := by
  have hpositions : positionFacts ([] : List (StoredCoreEvent F)) = ∅ := nothing
  have horders : orderFacts ([] : List (StoredCoreEvent F)) = ∅ := nothing
  constructor
  · rw [hpositions, positionSets, no_sets]
    exact Coherent.empty
  · rw [horders, orderSets, no_sets]
    exact Coherent.empty

theorem Kept.empty : Kept digests (ProjectionStore.empty F D) where
  routed _ he := absurd he List.not_mem_nil
  coherent := CoherentEvents.empty
  readable _ hrow := absurd hrow List.not_mem_nil
  known _ he := absurd he List.not_mem_nil
  reached := Reached.empty .empty .empty
  bars := BarsShown.empty

theorem Kept.call (hdist : digests.Distinct) (h : Kept digests s) {call : ProjectionCall F}
    (hok : projectionCall digests s call = .ok s') : Kept digests s' := by
  cases call with
  | ingest metadata value =>
    obtain ⟨outcome, hok⟩ := fst_ok.mp hok
    exact h.ingest hdist hok
  | createRun newRun =>
    obtain ⟨outcome, hok⟩ := fst_ok.mp hok
    exact h.create hok
  | commitResult bundle =>
    obtain ⟨outcome, hok⟩ := fst_ok.mp hok
    exact h.commit hdist hok
  | escalateManual escalation =>
    obtain ⟨outcome, hok⟩ := fst_ok.mp hok
    exact h.escalate hok

/-- the store after some calls, if all of them are accepted -/
def acceptedRun (digests : Digests F D) (s : ProjectionStore F D) (calls : List (ProjectionCall F)) :
    ProjectionCheck (ProjectionStore F D) :=
  calls.foldlM (projectionCall digests) s

theorem Kept.run (hdist : digests.Distinct) (h : Kept digests s) {calls : List (ProjectionCall F)}
    (hok : acceptedRun digests s calls = .ok s') : Kept digests s' := by
  induction calls generalizing s with
  | nil =>
    cases hok
    exact h
  | cons call calls ih =>
    unfold acceptedRun at hok
    rw [List.foldlM_cons] at hok
    obtain ⟨next, hcall, hrest⟩ := bind_ok.mp hok
    exact ih (h.call hdist hcall) hrest

end

/-! ## the rebuild -/

/-- what the first pass of the rebuild goes through: the facts -/
def factReplay (events : List (StoredCoreEvent F)) : List (StoredCoreEvent F) :=
  replayOrder (events.filter fun e => factEventTypes.contains e.metadata.eventType)

/-- what the second pass goes through: facts and results -/
def resultReplay (events : List (StoredCoreEvent F)) : List (StoredCoreEvent F) :=
  replayOrder (events.filter fun e => replayEventTypes.contains e.metadata.eventType)

/-- Both passes meet no account or symbol snapshot that contradicts the last one before it, and no
bar was received before the one that its row is from. -/
structure RebuildReady (s : ProjectionStore F D) : Prop where
  facts : Replayable [] (factReplay s.events.rows)
  results : Replayable [] (resultReplay s.events.rows)
  bars : FirstReceived s.events.rows s.projections.bars

/-- the same events, runs and tables, but for the times of the latest rows -/
structure SameStore (s s' : ProjectionStore F D) : Prop where
  events : s'.events = s.events
  runs : s'.runs = s.runs
  projections : SameProjections s'.projections s.projections
  bars : s'.projections.bars.get = s.projections.bars.get

section
variable {s : ProjectionStore F D} {events : List (StoredCoreEvent F)}

theorem mem_factReplay {e : StoredCoreEvent F} :
    e ∈ factReplay events ↔ e ∈ events ∧ e.metadata.eventType ∈ factEventTypes := by
  rw [factReplay, mem_replayOrder, List.mem_filter, List.contains_iff_mem]

theorem mem_resultReplay {e : StoredCoreEvent F} :
    e ∈ resultReplay events ↔ e ∈ events ∧ e.metadata.eventType ∈ replayEventTypes := by
  rw [resultReplay, mem_replayOrder, List.mem_filter, List.contains_iff_mem]

theorem replayOrder_received (events : List (StoredCoreEvent F)) :
    (replayOrder events).Pairwise fun x y => x.metadata.receivedAt ≤ y.metadata.receivedAt := by
  refine (sortBy_pairwise _ events).imp fun {x y} hle => ?_
  rcases Prod.Lex.le_iff.mp hle with hlt | ⟨heq, -⟩
  · exact hlt.le
  · exact heq.le

theorem Kept.durable (hdist : digests.Distinct) (h : Kept digests s) :
    validateAllDurable digests s.events = .ok () :=
  each_ok.mpr fun accountId _ =>
    (validateAccountDurable_ok hdist h.routed).mpr (coherentEvents_iff.mp h.coherent accountId)

theorem Kept.factsPass (hdist : digests.Distinct) (h : Kept digests s) :
    ((∃ next, rebuildFacts digests s.events = .ok next) ↔ Replayable [] (factReplay s.events.rows)) ∧
      ∀ p report, rebuildFacts digests s.events = .ok (p, report) →
        BarsShown s.events.rows p.bars ∧ FirstReceived s.events.rows p.bars := by
  have hempty : FactsReached digests s.runs [] (emptyProjections F D) :=
    ⟨Reached.empty s.runs .empty, BarsShown.empty, fun _ hrow => absurd hrow List.not_mem_nil⟩
  have hall : [] ++ factReplay s.events.rows ⊆ s.events.rows := fun e he => (mem_factReplay.mp he).1
  obtain ⟨hsucceeds, hreaches⟩ := hempty.replays hdist h.toSoundEvents h.bars.oneBar hall
    (fun e he => (mem_factReplay.mp he).2) (replayOrder_received _) ⟨0, 0, 0, 0⟩
  have hrebuild (next : Projections F D × StateIngestProjectionRebuildReport) :
      rebuildFacts digests s.events = .ok next ↔
        (factReplay s.events.rows).foldlM (replayFact digests)
          (emptyProjections F D, ⟨0, 0, 0, 0⟩) = .ok next := by
    unfold rebuildFacts
    rw [h.durable hdist]
    exact Iff.rfl
  have hbar : ∀ e ∈ s.events.rows, ∀ b, barOf e = some b → e ∈ factReplay s.events.rows := by
    intro e he b hb
    refine mem_factReplay.mpr ⟨he, ?_⟩
    rw [← (h.routed e he).typed, (barOf_some hb).1]
    exact (show "market.bar" ∈ factEventTypes by decide)
  refine ⟨?_, fun p report hok => ?_⟩
  · rw [← hsucceeds]
    exact exists_congr hrebuild
  · have hreached := hreaches p report ((hrebuild _).mp hok)
    rw [List.nil_append] at hreached
    refine ⟨⟨fun row hrow => ?_, fun e he b hb => hreached.bars.top e (hbar e he b hb) b hb⟩,
      fun row hrow e he b hb hkey => hreached.first row hrow e (hbar e he b hb) b hb hkey⟩
    obtain ⟨e, he, hb⟩ := hreached.bars.sound row hrow
    exact ⟨e, (mem_factReplay.mp he).1, hb⟩

theorem Kept.resultsPass (hdist : digests.Distinct) (h : Kept digests s)
    (p : Projections F D) :
    ((∃ next, rebuildReconciliation digests s.events s.runs p = .ok next) ↔
        Replayable [] (resultReplay s.events.rows)) ∧
      ∀ p' report, rebuildReconciliation digests s.events s.runs p = .ok (p', report) →
        SameProjections p' s.projections ∧ p'.bars = p.bars := by
  have hall : [] ++ resultReplay s.events.rows ⊆ s.events.rows :=
    fun e he => (mem_resultReplay.mp he).1
  obtain ⟨hsucceeds, hreaches⟩ := (Reached.empty s.runs p.bars).replays hdist h.toSoundEvents hall
    (fun e he => (mem_resultReplay.mp he).2) ⟨0, 0⟩
  have hrebuild (next : Projections F D × ReconciliationProjectionRebuildReport) :
      rebuildReconciliation digests s.events s.runs p = .ok next ↔
        (resultReplay s.events.rows).foldlM (replayEvent digests s.events s.runs)
          ({ emptyProjections F D with bars := p.bars }, ⟨0, 0⟩) = .ok next := by
    unfold rebuildReconciliation
    rw [h.durable hdist]
    exact Iff.rfl
  have hsame : SameObservations s.runs s.events.rows ([] ++ resultReplay s.events.rows) :=
    sameObservations hall fun e he hout => aside_of_type (h.routed e he) fun htype =>
      hout (mem_resultReplay.mpr ⟨he, htype⟩)
  refine ⟨?_, fun p' report hok => ?_⟩
  · rw [← hsucceeds]
    exact exists_congr hrebuild
  · obtain ⟨hreached, hbars⟩ := hreaches p' report ((hrebuild _).mp hok)
    exact ⟨(hreached.congr hsame).projected.unique h.reached.projected h.coherent h.reached.decided
      ((h.recorded fun _ he => he).alike h.coherent), hbars⟩

theorem Kept.rebuilds (hdist : digests.Distinct) (h : Kept digests s) {s' : ProjectionStore F D}
    {report : StateIngestProjectionRebuildReport}
    (hrebuild : rebuildIngestProjections digests s = .ok (s', report)) :
    Replayable [] (factReplay s.events.rows) ∧ Replayable [] (resultReplay s.events.rows) ∧
      BarsShown s.events.rows s'.projections.bars ∧
      FirstReceived s.events.rows s'.projections.bars := by
  obtain ⟨hfacts, hfactsBars⟩ := h.factsPass hdist
  unfold rebuildIngestProjections at hrebuild
  obtain ⟨⟨p, report₁⟩, hfirst, hrebuild⟩ := bind_ok.mp hrebuild
  obtain ⟨⟨p', report₂⟩, hsecond, hrebuild⟩ := bind_ok.mp hrebuild
  cases pure_ok.mp hrebuild
  obtain ⟨hresults, hreaches⟩ := h.resultsPass hdist p
  obtain ⟨hshown, hreceived⟩ := hfactsBars p report hfirst
  obtain ⟨-, hbars⟩ := hreaches p' report₂ hsecond
  rw [← hbars] at hshown hreceived
  exact ⟨hfacts.mp ⟨_, hfirst⟩, hresults.mp ⟨_, hsecond⟩, hshown, hreceived⟩

/-- In every store that accepted calls lead to, the rebuild succeeds and finds the same tables exactly
if it is ready for its events. -/
theorem rebuild_equals_incremental (hdist : digests.Distinct) {calls : List (ProjectionCall F)}
    (hrun : acceptedRun digests (.empty F D) calls = .ok s) :
    (∃ s' report, rebuildIngestProjections digests s = .ok (s', report) ∧ SameStore s s') ↔
      RebuildReady s := by
  have h : Kept digests s := Kept.run hdist Kept.empty hrun
  obtain ⟨hfacts, hfactsBars⟩ := h.factsPass hdist
  constructor
  · rintro ⟨s', report, hrebuild, hsame⟩
    obtain ⟨hreplayed, hresults, hshown, hreceived⟩ := h.rebuilds hdist hrebuild
    exact ⟨hreplayed, hresults, (h.bars.get_eq hshown hreceived).mp hsame.bars⟩
  · intro hready
    obtain ⟨⟨p, report₁⟩, hfirst⟩ := hfacts.mpr hready.facts
    obtain ⟨hresults, hreaches⟩ := h.resultsPass hdist p
    obtain ⟨⟨p', report₂⟩, hsecond⟩ := hresults.mpr hready.results
    obtain ⟨hshown, hreceived⟩ := hfactsBars p report₁ hfirst
    obtain ⟨hsame, hbars⟩ := hreaches p' report₂ hsecond
    refine ⟨{ s with projections := p' }, report₁, ?_, rfl, rfl, hsame, ?_⟩
    · exact bind_ok.mpr ⟨(p, report₁), hfirst, bind_ok.mpr ⟨(p', report₂), hsecond, rfl⟩⟩
    · show p'.bars.get = s.projections.bars.get
      rw [hbars]
      exact (h.bars.get_eq hshown hreceived).mpr hready.bars

end

/-! ## a run that the rebuild does not get through -/

/-- digests that keep the whole document -/
inductive Document (F : Type) where
  | account (value : AccountSnapshot F)
  | symbol (value : SymbolMetadataSnapshot F)
  | position (value : PositionSnapshot F)
  | order (value : OrderSnapshot F)
  | bar (value : MarketBar F)
  | positions (values : List (PositionSnapshot F))
  | orders (values : List (OrderSnapshot F))
  deriving DecidableEq

def documentDigests (F : Type) : Digests F (Document F) where
  account := .account
  symbol := .symbol
  position := .position
  order := .order
  bar := .bar
  positions := .positions
  orders := .orders

theorem documentDigests_distinct : (documentDigests F).Distinct where
  account _ _ h := Document.account.inj h
  symbol _ _ h := Document.symbol.inj h
  bar _ _ h := Document.bar.inj h
  positions := ⟨fun _ _ h => Document.position.inj h, fun _ _ h => Document.positions.inj h⟩
  orders := ⟨fun _ _ h => Document.order.inj h, fun _ _ h => Document.orders.inj h⟩

def sampleMetadata (eventId eventType aggregateType : String) (eventAt receivedAt : Int) :
    CoreEventMetadata :=
  { eventId := eventId
    eventType := eventType
    aggregateType := aggregateType
    aggregateId := "run"
    messageId := none
    schemaVersion := "1"
    correlationId := none
    causationId := none
    accountId := some "account"
    clientId := none
    terminalId := none
    strategyId := none
    intentId := none
    planId := none
    legId := none
    commandId := none
    idempotencyKey := none
    eventAt := eventAt
    receivedAt := receivedAt
    createdAt := receivedAt
    source := "client" }

def sampleAccount (balance observedAt : Int) : AccountSnapshot Int :=
  ⟨"account", balance, balance, 0, balance, "USD", observedAt⟩

def sampleRequest : ReconciliationRequest :=
  ⟨"run", "account", none, none, .manualRequest, none, none⟩

def sampleRun : NewReconciliationRun :=
  ⟨sampleRequest, 5, sampleMetadata "request" "reconciliation.request" "reconciliation" 5 6⟩

def sampleBundle : NewReconciliationResult Int where
  result := ⟨"run", "account", none, none, 20, some (sampleAccount 3 20), [], [], [], []⟩
  evaluation := ⟨"run", "account", some 20, .completed, [], []⟩
  completeness := ⟨true, true⟩
  eventMetadata := sampleMetadata "result" "reconciliation.result" "reconciliation" 20 21

/-- a run, an account snapshot and the result of the run -/
def sampleCalls : List (ProjectionCall Int) :=
  [.createRun sampleRun,
    .ingest (sampleMetadata "first" "account.snapshot" "account" 10 11)
      (.account (sampleAccount 1 10)),
    .commitResult sampleBundle]

/-- … and then another snapshot of the time of the first one -/
def lateCalls : List (ProjectionCall Int) :=
  sampleCalls ++ [.ingest (sampleMetadata "late" "account.snapshot" "account" 10 22)
    (.account (sampleAccount 2 10))]

def refusal {ε α : Type} : Except ε α → Option ε
  | .error e => some e
  | .ok _ => none

theorem refusal_some {ε α : Type} {x : Except ε α} {e : ε} (h : refusal x = some e) :
    x = .error e := by
  cases x with
  | error e' =>
    cases h
    rfl
  | ok a => cases h

theorem accepted_some {ε α : Type} {x : Except ε α} (h : x.toOption.isSome = true) :
    ∃ a, x = .ok a := by
  cases x with
  | error e => cases h
  | ok a => exact ⟨a, rfl⟩

theorem rebuild_equals_incremental_sample :
    ∃ s s' report, acceptedRun (documentDigests Int) (.empty Int (Document Int)) sampleCalls = .ok s ∧
      rebuildIngestProjections (documentDigests Int) s = .ok (s', report) ∧ SameStore s s' := by
  obtain ⟨⟨s', report⟩, hboth⟩ := accepted_some (x := acceptedRun (documentDigests Int)
    (.empty Int (Document Int)) sampleCalls >>= rebuildIngestProjections (documentDigests Int))
    (by decide +kernel)
  obtain ⟨s, hs, hrebuild⟩ := bind_ok.mp hboth
  have hbars : (acceptedRun (documentDigests Int) (.empty Int (Document Int))
      sampleCalls).toOption.map (fun s => s.projections.bars.rows) = some [] := by decide +kernel
  rw [hs] at hbars
  have hnone : s.projections.bars.rows = [] := Option.some.inj hbars
  obtain ⟨hfacts, hresults, -, -⟩ :=
    (Kept.run documentDigests_distinct Kept.empty hs).rebuilds documentDigests_distinct hrebuild
  have hready : RebuildReady s := by
    refine ⟨hfacts, hresults, fun row hrow => ?_⟩
    rw [hnone] at hrow
    exact absurd hrow List.not_mem_nil
  obtain ⟨s'', report', hagain, hsame⟩ :=
    (rebuild_equals_incremental documentDigests_distinct hs).mpr hready
  exact ⟨s, s'', report', hs, hagain, hsame⟩

/-- The late snapshot is older than the result and ignored, but the pass over the facts does not know
the result. -/
theorem late_snapshot_stops_rebuild :
    ∃ s, acceptedRun (documentDigests Int) (.empty Int (Document Int)) lateCalls = .ok s ∧
      rebuildIngestProjections (documentDigests Int) s =
        .error (.observationConflict "account_snapshot" "account" 10) := by
  obtain ⟨s, hs⟩ := accepted_some (x := acceptedRun (documentDigests Int)
    (.empty Int (Document Int)) lateCalls) (by decide +kernel)
  have hrefused : refusal (acceptedRun (documentDigests Int) (.empty Int (Document Int)) lateCalls >>=
      rebuildIngestProjections (documentDigests Int)) =
      some (.observationConflict "account_snapshot" "account" 10) := by decide +kernel
  rw [hs] at hrefused
  exact ⟨s, hs, refusal_some hrefused⟩

end Sinan.Projection
